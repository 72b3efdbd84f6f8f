/-
# The shutdown of the job table

`job_shutdown` of `src/job.c` and the functions it is made of. The table is
passed along: the passes over it are the calls on its groups and processes.

The kernel has the life of every child, its group and whether the shell may
signal it. A child can end at any time, whether it got a signal or not; a
signal for a group reaches the children in it that may be signalled, and `kill`
fails when there are none; a wait is for one process. Groups and permissions
are those that the children have when the shutdown begins.

`Reaped` says which processes of a pass were left and which are gone; passes
over parts of the table and passes one after the other compose.

Key definitions: `jobShutdown`, `SignalScope`, `shutdownWorld`, `ShutdownStart`,
`killedFirst`, `Reaped`.
Key theorems: `Reaped.append`, `Reaped.trans`, `reapJobs_safe`,
`jobShutdown_covered`.
-/
import DeviceRuntime.JobTable

namespace DeviceRuntime

/-! ### The program -/

abbrev JOB_SHUTDOWN_RETRY_COUNT : ℕ := 50
abbrev JOB_SHUTDOWN_WAIT_NS : ℕ := 10000000

/-- `waitpid` is for one process, without `WUNTRACED` or `WCONTINUED`, and
`kill` for a group. -/
inductive ShutdownCall
  | waitpid (pid : ℕ) (nohang : Bool)
  | kill (pgid : ℕ) (sig : KillSignal)
  | nanosleep (ns : ℕ)
deriving DecidableEq, Repr

/-- `nanosleep` also leaves the time that remains. -/
abbrev ShutdownCall.Ret : ShutdownCall → Type
  | .waitpid _ _ => WaitResult
  | .kill _ _ => CallResult
  | .nanosleep _ => CallResult × ℕ

abbrev ShutdownProg := Prog ShutdownCall ShutdownCall.Ret

def shutdownSleep : ShutdownProg Unit :=
  .iter (fun ts => .call (.nanosleep ts) fun r =>
    if r.1.ret < 0 then if r.1.errno ≠ EINTR then .ret (.inr ()) else .ret (.inl r.2)
    else .ret (.inr ())) JOB_SHUTDOWN_WAIT_NS

/-- One turn of the loops of `process_try_reap` and `process_force_reap`, which
differ in the flag: the process, and whether it needs no further wait. -/
def reapTurn (nohang : Bool) (process : Process) : ShutdownProg (Unit ⊕ Bool × Process) :=
  .call (.waitpid process.pid nohang) fun
    | .reported ret status =>
      if ret = process.pid then .ret (.inr (true, processApplyWaitStatus process status))
      -- a wait for one process reports no other
      else .ret (.inr (false, process))
    | .nothing => .ret (.inr (false, process))
    | .failed errno =>
      if errno = EINTR then .ret (.inl ())
      else if errno = ECHILD then .ret (.inr (true, { process with status := .done }))
      else .ret (.inr (false, process))

def reapLoop (nohang : Bool) (process : Process) : ShutdownProg (Bool × Process) :=
  if process.status = .done then .ret (true, process) else .iter (fun _ => reapTurn nohang process) ()

def processTryReap (process : Process) : ShutdownProg (Bool × Process) := reapLoop true process

/-- The flag is not looked at. -/
def processForceReap (process : Process) : ShutdownProg (Bool × Process) := reapLoop false process

/-- The inner loop over the processes of a job, with whether all need no
further wait. -/
def reapProcesses (reap : Process → ShutdownProg (Bool × Process)) :
    List Process → ShutdownProg (Bool × List Process)
  | [] => .ret (true, [])
  | process :: next => (reap process).bind fun r => (reapProcesses reap next).bind fun rs =>
      .ret (r.1 && rs.1, r.2 :: rs.2)

/-- The outer loop over the jobs. -/
def reapJobs (reap : Process → ShutdownProg (Bool × Process)) : List Job → ShutdownProg (Bool × List Job)
  | [] => .ret (true, [])
  | job :: next => (reapProcesses reap job.processes).bind fun r => (reapJobs reap next).bind fun rs =>
      .ret (r.1 && rs.1, jobUpdateStatus { job with processes := r.2 } :: rs.2)

def jobmanagerTryReapAll (jobs : List Job) : ShutdownProg (Bool × List Job) := reapJobs processTryReap jobs

def continueStoppedJob (job : Job) : ShutdownProg Job :=
  if 0 < job.pgid then .call (.kill job.pgid .sigcont) fun _ => .ret (jobUpdateStatus job.resume)
  else .ret (jobUpdateStatus job.resume)

def continueStopped : List Job → ShutdownProg (List Job)
  | [] => .ret []
  | job :: next => (if job.status = .stopped then continueStoppedJob job else .ret job).bind fun job =>
      (continueStopped next).bind fun next => .ret (job :: next)

/-- A signal for the group of every job that the test passes. If `kill` fails,
that is only logged. -/
def signalJobs (test : Job → Bool) (sig : KillSignal) : List Job → ShutdownProg Unit
  | [] => .ret ()
  | job :: next =>
    if test job then .call (.kill job.pgid sig) fun _ => signalJobs test sig next else signalJobs test sig next

/-- The passes that do not block, with a pause after each that leaves a
process. -/
def retryReap : ℕ → List Job → ShutdownProg (List Job)
  | 0, jobs => .ret jobs
  | n + 1, jobs => (jobmanagerTryReapAll jobs).bind fun r =>
      if r.1 then .ret r.2 else shutdownSleep.bind fun _ => retryReap n r.2

def jobDestroy : JobManager := ⟨[], 1⟩

def jobShutdown (m : JobManager) : ShutdownProg JobManager :=
  if m.jobs = [] then .ret { m with nextid := 1 }
  else (continueStopped m.jobs).bind fun jobs =>
    (signalJobs (fun job => job.status ≠ .done && 0 < job.pgid) .sigterm jobs).bind fun _ =>
    (retryReap JOB_SHUTDOWN_RETRY_COUNT jobs).bind fun jobs =>
    (signalJobs (fun job => 0 < job.pgid) .sigkill jobs).bind fun _ =>
    (reapJobs processForceReap jobs).bind fun _ => .ret jobDestroy

/-! ### The children -/

/-- How a child ended. -/
abbrev EndStatus := { st : WaitStatus // st.processStatus = .done }

/-- A child is alive, running or stopped; or it has ended and was not waited
for; or there is no such child. -/
inductive ChildLife
  | alive
  | zombie (status : EndStatus)
  | gone
deriving DecidableEq

/-- The children, and those that got a SIGKILL. -/
structure Kernel where
  life : ℕ → ChildLife
  killed : ℕ → Bool

/-- Some children end. -/
structure Kernel.Later (k k' : Kernel) : Prop where
  life : ∀ pid, k'.life pid = k.life pid ∨ k.life pid = .alive ∧ ∃ st, k'.life pid = .zombie st
  killed : k'.killed = k.killed

/-- The group of every process, and whether the shell may signal it: a process
may have changed its user. -/
structure SignalScope where
  group : ℕ → ℕ
  permitted : ℕ → Bool

/-- A signal for a group is for the processes in it, and one for the group 1 is
for all. It reaches those that the shell may signal. -/
def SignalScope.Reached (scope : SignalScope) (pgid pid : ℕ) : Prop :=
  (pgid = 1 ∨ scope.group pid = pgid) ∧ scope.permitted pid = true

instance (scope : SignalScope) (pgid pid : ℕ) : Decidable (scope.Reached pgid pid) :=
  inferInstanceAs (Decidable (_ ∧ _))

def Kernel.kill (k : Kernel) (scope : SignalScope) (pgid : ℕ) (sig : KillSignal) : Kernel :=
  { k with killed := fun pid =>
      k.killed pid || decide (sig = .sigkill ∧ scope.Reached pgid pid ∧ k.life pid ≠ .gone) }

/-- `kill` for a group. It fails, with `ESRCH` or `EPERM`, if there is nobody in
the group that the signal can reach; then nobody gets it. -/
inductive Kernel.Signals (k : Kernel) (scope : SignalScope) (pgid : ℕ) (sig : KillSignal) (r : CallResult) :
    Kernel → Prop
  | sent (hret : r.ret = 0) : k.Signals scope pgid sig r (k.kill scope pgid sig)
  | failed (hret : r.ret < 0) (hnone : ∀ pid, scope.Reached pgid pid → k.life pid = .gone) :
    k.Signals scope pgid sig r k

def Kernel.reap (k : Kernel) (pid : ℕ) : Kernel := { k with life := Function.update k.life pid .gone }

/-- What a wait for a process gives. One that blocks returns when the process
has ended. -/
inductive Kernel.Waited (k : Kernel) (pid : ℕ) (nohang : Bool) : WaitResult → Kernel → Prop
  | interrupted : k.Waited pid nohang (.failed EINTR) k
  | none (h : k.life pid = .gone) : k.Waited pid nohang (.failed ECHILD) k
  | reaped {st : EndStatus} (h : k.life pid = .zombie st) : k.Waited pid nohang (.reported pid st) (k.reap pid)
  | running (h : k.life pid = .alive) (hnohang : nohang = true) : k.Waited pid nohang .nothing k

/-- Children can end before every call. -/
def shutdownSem (scope : SignalScope) (k : Kernel) : (c : ShutdownCall) → c.Ret → Kernel → Prop
  | .waitpid pid nohang, r, k' => ∃ k₁, k.Later k₁ ∧ k₁.Waited pid nohang r k'
  | .kill pgid sig, r, k' => ∃ k₁, k.Later k₁ ∧ k₁.Signals scope pgid sig r k'
  | .nanosleep _, _, k' => k.Later k'

open Prog

abbrev shutdownWorld (scope : SignalScope) : World ShutdownCall ShutdownCall.Ret Kernel :=
  World.alone (shutdownSem scope)

/-- The processes that were not recorded done. -/
def unreaped (processes : List Process) : List ℕ :=
  (processes.filter fun process => process.status ≠ .done).map Process.pid

/-- The registered children. -/
def registered (jobs : List Job) : List ℕ := jobs.flatMap fun job => unreaped job.processes

/-- A table and the children when the shutdown begins. A child is registered
once. -/
structure ShutdownStart where
  table : JobManager
  scope : SignalScope
  life : ℕ → ChildLife
  positive : ∀ job ∈ table.jobs, 0 ∉ job.pids
  distinct : (registered table.jobs).Nodup

def ShutdownStart.kernel (s : ShutdownStart) : Kernel := ⟨s.life, fun _ => false⟩

/-- Every registered child that is alive is in the group of a job of the table,
and the shell may signal it. -/
def ShutdownStart.Covered (s : ShutdownStart) : Prop :=
  ∀ pid ∈ registered s.table.jobs, s.life pid = .alive →
    ∃ job ∈ s.table.jobs, 0 < job.pgid ∧ s.scope.Reached job.pgid pid

/-- A wait that blocks is for a process that got a SIGKILL. -/
def killedFirst : Watch ShutdownCall Kernel where
  always _ := True
  atCall
    | .waitpid pid false, k => k.killed pid = true
    | _, _ => True

/-- The table is empty, and no registered child is left. -/
structure ShutdownOver (s : ShutdownStart) (m : JobManager) (k : Kernel) : Prop where
  table : m = ⟨[], 1⟩
  reaped : ∀ pid ∈ registered s.table.jobs, k.life pid = .gone

/-! ### What a piece of the shutdown does -/

/-- Only children of `S` were waited for. -/
structure Ahead (S : List ℕ) (k k' : Kernel) : Prop where
  killed : ∀ pid, k.killed pid = true → k'.killed pid = true
  alive : ∀ pid, k'.life pid = .alive → k.life pid = .alive
  gone : ∀ pid, k.life pid = .gone → k'.life pid = .gone
  kept : ∀ pid ∉ S, k.life pid ≠ .gone → k'.life pid ≠ .gone

/-- Of the processes `S` those of `S'` were left, and the others are gone. -/
structure Reaped (S S' : List ℕ) (k k' : Kernel) : Prop where
  ahead : Ahead S k k'
  sub : S'.Sublist S
  left : ∀ pid ∈ S', k.life pid = .alive ∧ k'.life pid ≠ .gone
  taken : ∀ pid ∈ S, pid ∉ S' → k'.life pid = .gone

section Relations

variable {S S' S'' T T' : List ℕ} {k k' k'' : Kernel}

theorem Ahead.refl (S : List ℕ) (k : Kernel) : Ahead S k k :=
  ⟨fun _ h => h, fun _ h => h, fun _ h => h, fun _ _ h => h⟩

theorem Ahead.trans (h : Ahead S k k') (h' : Ahead T k' k'') : Ahead (S ++ T) k k'' := by
  refine ⟨?_, ?_, ?_, ?_⟩
  · exact fun pid hpid => h'.killed pid (h.killed pid hpid)
  · exact fun pid hpid => h.alive pid (h'.alive pid hpid)
  · exact fun pid hpid => h'.gone pid (h.gone pid hpid)
  · intro pid hpid hlife
    rw [List.mem_append, not_or] at hpid
    exact h'.kept pid hpid.2 (h.kept pid hpid.1 hlife)

theorem Ahead.mono (h : Ahead S k k') (hsub : S ⊆ T) : Ahead T k k' :=
  ⟨h.killed, h.alive, h.gone, fun pid hpid => h.kept pid fun hmem => hpid (hsub hmem)⟩

theorem Kernel.Later.ahead (h : k.Later k') : Ahead [] k k' := by
  refine ⟨?_, ?_, ?_, ?_⟩
  · intro pid hpid
    rw [h.killed]
    exact hpid
  · intro pid hpid
    rcases h.life pid with hsame | ⟨halive, -⟩
    · rw [← hsame]
      exact hpid
    · exact halive
  · intro pid hpid
    rcases h.life pid with hsame | ⟨halive, -⟩
    · rw [hsame]
      exact hpid
    · rw [halive] at hpid
      cases hpid
  · intro pid _ hlife
    rcases h.life pid with hsame | ⟨-, st, hzombie⟩
    · rw [hsame]
      exact hlife
    · rw [hzombie]
      exact fun hcontra => by cases hcontra

theorem Kernel.Later.refl (k : Kernel) : k.Later k := ⟨fun _ => Or.inl rfl, rfl⟩

theorem Kernel.kill_ahead (k : Kernel) (scope : SignalScope) (pgid : ℕ) (sig : KillSignal) :
    Ahead [] k (k.kill scope pgid sig) := by
  refine ⟨?_, fun _ h => h, fun _ h => h, fun _ _ h => h⟩
  intro pid hpid
  unfold Kernel.kill
  dsimp only
  rw [hpid, Bool.true_or]

theorem Kernel.Signals.ahead {scope : SignalScope} {pgid : ℕ} {sig : KillSignal} {r : CallResult}
    (h : k.Signals scope pgid sig r k') : Ahead [] k k' := by
  cases h with
  | sent hret => exact k.kill_ahead scope pgid sig
  | failed hret hnone => exact Ahead.refl [] k

theorem Kernel.reap_ahead (k : Kernel) (pid : ℕ) : Ahead [pid] k (k.reap pid) := by
  refine ⟨fun _ h => h, ?_, ?_, ?_⟩
  · intro other halive
    unfold Kernel.reap at halive
    dsimp only at halive
    by_cases hother : other = pid
    · rw [hother, Function.update_self] at halive
      cases halive
    · rwa [Function.update_of_ne hother] at halive
  · intro other hgone
    unfold Kernel.reap
    dsimp only
    by_cases hother : other = pid
    · rw [hother, Function.update_self]
    · rwa [Function.update_of_ne hother]
  · intro other hother hlife
    rw [List.mem_singleton] at hother
    unfold Kernel.reap
    dsimp only
    rwa [Function.update_of_ne hother]

theorem Reaped.nothing (h : Ahead [] k k') : Reaped [] [] k k' :=
  ⟨h, List.Sublist.refl [], fun _ h => absurd h List.not_mem_nil, fun _ h => absurd h List.not_mem_nil⟩

/-- Two parts of the table, one after the other. -/
theorem Reaped.append (h : Reaped S S' k k') (h' : Reaped T T' k' k'') (hdisjoint : List.Disjoint S T) :
    Reaped (S ++ T) (S' ++ T') k k'' := by
  refine ⟨h.ahead.trans h'.ahead, h.sub.append h'.sub, ?_, ?_⟩
  · intro pid hpid
    rw [List.mem_append] at hpid
    rcases hpid with hpid | hpid
    · have hT : pid ∉ T := fun hmem => hdisjoint (h.sub.mem hpid) hmem
      exact ⟨(h.left pid hpid).1, h'.ahead.kept pid hT (h.left pid hpid).2⟩
    · exact ⟨h.ahead.alive pid (h'.left pid hpid).1, (h'.left pid hpid).2⟩
  · intro pid hpid hnot
    rw [List.mem_append] at hpid hnot
    rw [not_or] at hnot
    rcases hpid with hpid | hpid
    · exact h'.ahead.gone pid (h.taken pid hpid hnot.1)
    · exact h'.taken pid hpid hnot.2

/-- One pass after another. -/
theorem Reaped.trans (h : Reaped S S' k k') (h' : Reaped S' S'' k' k'') : Reaped S S'' k k'' := by
  refine ⟨(h.ahead.trans h'.ahead).mono ?_, h'.sub.trans h.sub, ?_, ?_⟩
  · intro pid hpid
    rw [List.mem_append] at hpid
    exact hpid.elim id fun hmem => h.sub.mem hmem
  · intro pid hpid
    exact ⟨(h.left pid (h'.sub.mem hpid)).1, (h'.left pid hpid).2⟩
  · intro pid hpid hnot
    by_cases hmem : pid ∈ S'
    · exact h'.taken pid hmem hnot
    · exact h'.ahead.gone pid (h.taken pid hpid hmem)

/-- Nobody was waited for before. -/
theorem Reaped.after (h : Ahead [] k k') (h' : Reaped S S' k' k'') : Reaped S S' k k'' :=
  ⟨h.trans h'.ahead, h'.sub, fun pid hpid => ⟨h.alive pid (h'.left pid hpid).1, (h'.left pid hpid).2⟩, h'.taken⟩

/-- Nobody was waited for afterwards. -/
theorem Reaped.before (h : Reaped S S' k k') (h' : Ahead [] k' k'') : Reaped S S' k k'' := by
  refine ⟨(h.ahead.trans h').mono ?_, h.sub, ?_, ?_⟩
  · rw [List.append_nil]
    exact fun _ hmem => hmem
  · exact fun pid hpid => ⟨(h.left pid hpid).1, h'.kept pid List.not_mem_nil (h.left pid hpid).2⟩
  · exact fun pid hpid hnot => h'.gone pid (h.taken pid hpid hnot)

end Relations

/-! ### The passes over the table -/

section Passes

variable {scope : SignalScope} {nohang : Bool} {k : Kernel}

theorem unreaped_cons (process : Process) (next : List Process) :
    unreaped (process :: next) = unreaped [process] ++ unreaped next := by
  unfold unreaped
  rw [← List.map_append, ← List.filter_append]
  rfl

theorem unreaped_done {process : Process} (h : process.status = .done) : unreaped [process] = [] := by
  unfold unreaped
  simp [h]

theorem unreaped_pending {process : Process} (h : process.status ≠ .done) : unreaped [process] = [process.pid] := by
  unfold unreaped
  simp [h]

/-- The wait that blocks is allowed. -/
def Allowed (nohang : Bool) (pids : List ℕ) (k : Kernel) : Prop :=
  nohang = false → ∀ pid ∈ pids, k.killed pid = true

theorem Allowed.later {pids : List ℕ} {S : List ℕ} {k' : Kernel} (h : Allowed nohang pids k) (ha : Ahead S k k') :
    Allowed nohang pids k' := fun hnohang pid hpid => ha.killed pid (h hnohang pid hpid)

theorem Allowed.sub {pids pids' : List ℕ} (h : Allowed nohang pids k) (hsub : pids' ⊆ pids) :
    Allowed nohang pids' k := fun hnohang pid hpid => h hnohang pid (hsub hpid)

/-- What a pass has done: a pass that blocks leaves nothing. -/
structure Passed (nohang : Bool) (S S' : List ℕ) (k k' : Kernel) : Prop where
  reaped : Reaped S S' k k'
  whole : nohang = false → S' = []

theorem Passed.gone {pid : ℕ} {k' : Kernel} (h : Ahead [pid] k k') (hgone : k'.life pid = .gone) :
    Passed nohang [pid] [] k k' := by
  refine ⟨⟨h, List.nil_sublist _, fun _ h => absurd h List.not_mem_nil, ?_⟩, fun _ => rfl⟩
  intro other hother _
  rw [List.mem_singleton.mp hother]
  exact hgone

/-- A turn: interrupted, or the process is waited for. -/
theorem reapTurn_safe {process : Process} (hstatus : process.status ≠ .done)
    (hallowed : Allowed nohang [process.pid] k) :
    Safe (shutdownWorld scope) killedFirst
      (Sum.elim (fun _ k' => Ahead [] k k') fun r k' => Passed nohang [process.pid] (unreaped [r.2]) k k')
      (reapTurn nohang process) k := by
  unfold reapTurn
  apply Safe.call_alone trivial
  · cases nohang with
    | true => trivial
    | false => exact hallowed rfl process.pid (List.mem_singleton_self _)
  intro r k' hpost
  obtain ⟨k₁, hlater, hwaited⟩ := hpost
  have hahead := hlater.ahead
  cases hwaited with
  | interrupted => exact Safe.ret_alone trivial hahead
  | none hgone =>
    have hnot : ¬ ECHILD = EINTR := by decide
    dsimp only
    rw [if_neg hnot, if_pos rfl]
    refine Safe.ret_alone trivial ?_
    have hnone : unreaped [{ process with status := ProcessStatus.done }] = [] := unreaped_done rfl
    dsimp only [Sum.elim_inr]
    rw [hnone]
    exact Passed.gone (hahead.mono (List.nil_subset _)) hgone
  | @reaped st hzombie =>
    dsimp only
    rw [if_pos rfl]
    refine Safe.ret_alone trivial ?_
    have hnone : unreaped [processApplyWaitStatus process st] = [] := unreaped_done st.property
    dsimp only [Sum.elim_inr]
    rw [hnone]
    have hgone : (k₁.reap process.pid).life process.pid = .gone := Function.update_self ..
    exact Passed.gone (hahead.trans (k₁.reap_ahead process.pid)) hgone
  | running halive hnohang =>
    refine Safe.ret_alone trivial ?_
    dsimp only [Sum.elim_inr]
    rw [unreaped_pending hstatus]
    refine ⟨⟨hahead.mono (List.nil_subset _), List.Sublist.refl _, ?_, fun pid hpid hnot => absurd hpid hnot⟩, ?_⟩
    · intro pid hpid
      rw [List.mem_singleton.mp hpid]
      refine ⟨hahead.alive _ halive, ?_⟩
      rw [halive]
      exact fun hcontra => by cases hcontra
    · intro hblock
      rw [hnohang] at hblock
      cases hblock

theorem reapLoop_safe {process : Process} (hallowed : Allowed nohang (unreaped [process]) k) :
    Safe (shutdownWorld scope) killedFirst (fun r k' => Passed nohang (unreaped [process]) (unreaped [r.2]) k k')
      (reapLoop nohang process) k := by
  unfold reapLoop
  by_cases hstatus : process.status = .done
  · rw [if_pos hstatus]
    refine Safe.ret_alone trivial ?_
    dsimp only
    rw [unreaped_done hstatus]
    exact ⟨Reaped.nothing (Ahead.refl [] k), fun _ => rfl⟩
  · rw [unreaped_pending hstatus] at hallowed ⊢
    rw [if_neg hstatus]
    refine Safe.iter (I := fun _ k' => Ahead [] k k') (fun _ => stable_alone _) (fun _ => stable_alone _)
      (fun _ _ _ => trivial) (fun _ _ _ => trivial) ?_ (Ahead.refl [] k)
    intro _ k₁ hahead
    refine (reapTurn_safe hstatus (hallowed.later hahead)).weaken ?_
    intro x k' _ hx
    cases x with
    | inl again => exact (hahead.trans hx).mono (List.nil_subset _)
    | inr r => exact ⟨hx.reaped.after hahead, hx.whole⟩

theorem reapProcesses_safe (nohang : Bool) : ∀ (processes : List Process) {k : Kernel},
    (unreaped processes).Nodup → Allowed nohang (unreaped processes) k →
    Safe (shutdownWorld scope) killedFirst (fun r k' => Passed nohang (unreaped processes) (unreaped r.2) k k')
      (reapProcesses (reapLoop nohang) processes) k
  | [], k, _, _ => Safe.ret_alone trivial ⟨Reaped.nothing (Ahead.refl [] k), fun _ => rfl⟩
  | process :: next, k, hnodup, hallowed => by
    rw [unreaped_cons] at hnodup hallowed ⊢
    have hdisjoint := List.disjoint_of_nodup_append hnodup
    unfold reapProcesses
    apply (reapLoop_safe (hallowed.sub (List.subset_append_left _ _))).bind
    intro r k₁ hr _
    apply (reapProcesses_safe nohang next hnodup.of_append_right
      ((hallowed.sub (List.subset_append_right _ _)).later hr.reaped.ahead)).bind
    intro rs k₂ hrs _
    refine Safe.ret_alone trivial ?_
    dsimp only
    rw [unreaped_cons r.2 rs.2]
    refine ⟨hr.reaped.append hrs.reaped hdisjoint, fun hblock => ?_⟩
    rw [hr.whole hblock, hrs.whole hblock]
    rfl

theorem registered_cons (job : Job) (next : List Job) :
    registered (job :: next) = unreaped job.processes ++ registered next := rfl

theorem jobUpdateStatus_keeps (job : Job) :
    (jobUpdateStatus job).processes = job.processes ∧ (jobUpdateStatus job).pgid = job.pgid := by
  unfold jobUpdateStatus
  by_cases h : job.processes = []
  · rw [if_pos h]
    exact ⟨rfl, rfl⟩
  · rw [if_neg h]
    exact ⟨rfl, rfl⟩

theorem reapJobs_safe (nohang : Bool) : ∀ (jobs : List Job) {k : Kernel}, (registered jobs).Nodup →
    Allowed nohang (registered jobs) k →
    Safe (shutdownWorld scope) killedFirst (fun r k' => Passed nohang (registered jobs) (registered r.2) k k' ∧
      r.2.map Job.pgid = jobs.map Job.pgid) (reapJobs (reapLoop nohang) jobs) k
  | [], k, _, _ => Safe.ret_alone trivial ⟨⟨Reaped.nothing (Ahead.refl [] k), fun _ => rfl⟩, rfl⟩
  | job :: next, k, hnodup, hallowed => by
    rw [registered_cons] at hnodup hallowed ⊢
    have hdisjoint := List.disjoint_of_nodup_append hnodup
    unfold reapJobs
    apply (reapProcesses_safe nohang job.processes hnodup.of_append_left
      (hallowed.sub (List.subset_append_left _ _))).bind
    intro r k₁ hr _
    apply (reapJobs_safe nohang next hnodup.of_append_right
      ((hallowed.sub (List.subset_append_right _ _)).later hr.reaped.ahead)).bind
    intro rs k₂ hpost _
    obtain ⟨hrs, hpgids⟩ := hpost
    have hkeeps := jobUpdateStatus_keeps { job with processes := r.2 }
    refine Safe.ret_alone trivial ?_
    dsimp only
    rw [registered_cons, hkeeps.1, List.map_cons, List.map_cons, hkeeps.2, hpgids]
    refine ⟨⟨hr.reaped.append hrs.reaped hdisjoint, fun hblock => ?_⟩, rfl⟩
    rw [hr.whole hblock, hrs.whole hblock]
    rfl

/-- The calls that wait for nobody. -/
theorem quietCall_ahead {c : ShutdownCall} {r : c.Ret} {k' : Kernel} (hquiet : ∀ pid nohang, c ≠ .waitpid pid nohang)
    (hs : shutdownSem scope k c r k') : Ahead [] k k' := by
  cases c with
  | waitpid pid nohang => exact absurd rfl (hquiet pid nohang)
  | kill pgid sig =>
    obtain ⟨k₁, hlater, hsignals⟩ := hs
    exact hlater.ahead.trans hsignals.ahead
  | nanosleep ns => exact hs.ahead

theorem unreaped_map {f : Process → Process} (hpid : ∀ process, (f process).pid = process.pid)
    (hdone : ∀ process, (f process).status = .done ↔ process.status = .done) : ∀ processes : List Process,
    unreaped (processes.map f) = unreaped processes
  | [] => rfl
  | process :: next => by
    have hfirst : unreaped [f process] = unreaped [process] := by
      by_cases hstatus : process.status = .done
      · rw [unreaped_done hstatus, unreaped_done ((hdone process).mpr hstatus)]
      · have hpending : (f process).status ≠ .done := fun h => hstatus ((hdone process).mp h)
        rw [unreaped_pending hstatus, unreaped_pending hpending, hpid]
    rw [List.map_cons, unreaped_cons, unreaped_cons process, hfirst, unreaped_map hpid hdone next]

theorem resume_unreaped (job : Job) : unreaped job.resume.processes = unreaped job.processes := by
  apply unreaped_map
  · intro process
    by_cases hstopped : process.status = .stopped
    · rw [if_pos hstopped]
    · rw [if_neg hstopped]
  · intro process
    by_cases hstopped : process.status = .stopped
    · simp [hstopped]
    · rw [if_neg hstopped]

/-- The table has the same groups and the same children left. -/
structure SameTable (jobs jobs' : List Job) : Prop where
  registered : registered jobs' = registered jobs
  pgids : jobs'.map Job.pgid = jobs.map Job.pgid

theorem SameTable.cons {job job' : Job} {next next' : List Job} (hpgid : job'.pgid = job.pgid)
    (hchildren : unreaped job'.processes = unreaped job.processes) (h : SameTable next next') :
    SameTable (job :: next) (job' :: next') := by
  refine ⟨?_, ?_⟩
  · rw [registered_cons, registered_cons, hchildren, h.registered]
  · rw [List.map_cons, List.map_cons, hpgid, h.pgids]

theorem continued_same (job : Job) : (jobUpdateStatus job.resume).pgid = job.pgid ∧
    unreaped (jobUpdateStatus job.resume).processes = unreaped job.processes := by
  have hkeeps := jobUpdateStatus_keeps job.resume
  refine ⟨hkeeps.2, ?_⟩
  rw [hkeeps.1]
  exact resume_unreaped job

theorem continueStoppedJob_safe (job : Job) :
    Safe (shutdownWorld scope) killedFirst (fun job' k' => Ahead [] k k' ∧ job'.pgid = job.pgid ∧
      unreaped job'.processes = unreaped job.processes) (continueStoppedJob job) k := by
  unfold continueStoppedJob
  by_cases hpgid : 0 < job.pgid
  · rw [if_pos hpgid]
    apply Safe.call_alone trivial trivial
    intro r k' hs
    have hahead := quietCall_ahead (fun _ _ hcontra => by cases hcontra) hs
    exact Safe.ret_alone trivial ⟨hahead, continued_same job⟩
  · rw [if_neg hpgid]
    exact Safe.ret_alone trivial ⟨Ahead.refl [] k, continued_same job⟩

theorem continueStopped_safe : ∀ (jobs : List Job) {k : Kernel},
    Safe (shutdownWorld scope) killedFirst (fun jobs' k' => Ahead [] k k' ∧ SameTable jobs jobs')
      (continueStopped jobs) k
  | [], k => Safe.ret_alone trivial ⟨Ahead.refl [] k, rfl, rfl⟩
  | job :: next, k => by
    unfold continueStopped
    have hjob : Safe (shutdownWorld scope) killedFirst (fun job' k' => Ahead [] k k' ∧ job'.pgid = job.pgid ∧
        unreaped job'.processes = unreaped job.processes)
        (if job.status = .stopped then continueStoppedJob job else .ret job) k := by
      by_cases hstopped : job.status = .stopped
      · rw [if_pos hstopped]
        exact continueStoppedJob_safe job
      · rw [if_neg hstopped]
        exact Safe.ret_alone trivial ⟨Ahead.refl [] k, rfl, rfl⟩
    apply hjob.bind
    intro job' k₁ hpost _
    obtain ⟨hahead, hpgid, hchildren⟩ := hpost
    apply (continueStopped_safe next).bind
    intro next' k₂ hpost _
    obtain ⟨hahead', hsame⟩ := hpost
    exact Safe.ret_alone trivial ⟨hahead.trans hahead', hsame.cons hpgid hchildren⟩

/-- What a pass of signals does: nobody is waited for, and after SIGKILL the
children of its groups that it reaches are killed. -/
structure Signalled (scope : SignalScope) (pgids : List ℕ) (sig : KillSignal) (k k' : Kernel) : Prop where
  ahead : Ahead [] k k'
  killed : sig = .sigkill → ∀ pgid ∈ pgids, ∀ pid, scope.Reached pgid pid → k.life pid ≠ .gone →
    k'.killed pid = true

/-- A SIGKILL gets to a child that it can reach: `kill` has not failed then. -/
theorem Kernel.Signals.killed {k' : Kernel} {pgid pid : ℕ} {r : CallResult} (h : k.Signals scope pgid .sigkill r k')
    (hreached : scope.Reached pgid pid) (hlife : k.life pid ≠ .gone) : k'.killed pid = true := by
  cases h with
  | sent hret =>
    unfold Kernel.kill
    dsimp only
    rw [decide_eq_true (show KillSignal.sigkill = .sigkill ∧ _ from ⟨rfl, hreached, hlife⟩), Bool.or_true]
  | failed hret hnone => exact absurd (hnone pid hreached) hlife

theorem signalJobs_safe (test : Job → Bool) (sig : KillSignal) : ∀ (jobs : List Job) {k : Kernel},
    Safe (shutdownWorld scope) killedFirst
      (fun _ k' => Signalled scope ((jobs.filter test).map Job.pgid) sig k k') (signalJobs test sig jobs) k
  | [], k => Safe.ret_alone trivial ⟨Ahead.refl [] k, fun _ _ h => absurd h List.not_mem_nil⟩
  | job :: next, k => by
    unfold signalJobs
    by_cases htest : test job = true
    · rw [if_pos htest, List.filter_cons_of_pos htest, List.map_cons]
      apply Safe.call_alone trivial trivial
      intro r k₂ hpost
      obtain ⟨k₁, hlater, hsignals⟩ := hpost
      have hahead : Ahead [] k k₂ := hlater.ahead.trans hsignals.ahead
      refine (signalJobs_safe test sig next).weaken ?_
      intro _ k' _ h
      refine ⟨hahead.trans h.ahead, ?_⟩
      intro hsig pgid hpgid pid hreached hlife
      rw [List.mem_cons] at hpgid
      rcases hpgid with rfl | hpgid
      · have hkilled : k₂.killed pid = true := by
          rw [hsig] at hsignals
          exact hsignals.killed hreached (hlater.ahead.kept pid List.not_mem_nil hlife)
        exact h.ahead.killed pid hkilled
      · exact h.killed hsig pgid hpgid pid hreached (hahead.kept pid List.not_mem_nil hlife)
    · rw [if_neg htest, List.filter_cons_of_neg htest]
      exact signalJobs_safe test sig next

theorem shutdownSleep_safe :
    Safe (shutdownWorld scope) killedFirst (fun _ k' => Ahead [] k k') shutdownSleep k := by
  unfold shutdownSleep
  refine Safe.iter (I := fun _ k' => Ahead [] k k') (fun _ => stable_alone _) (fun _ => stable_alone _)
    (fun _ _ _ => trivial) (fun _ _ _ => trivial) ?_ (Ahead.refl [] k)
  intro ns k₁ hahead
  apply Safe.call_alone trivial trivial
  intro r k' hs
  have hnow := hahead.trans (quietCall_ahead (fun _ _ hcontra => by cases hcontra) hs)
  by_cases hfail : r.1.ret < 0
  · rw [if_pos hfail]
    by_cases herrno : r.1.errno ≠ EINTR
    · rw [if_pos herrno]
      exact Safe.ret_alone trivial hnow
    · rw [if_neg herrno]
      exact Safe.ret_alone trivial hnow
  · rw [if_neg hfail]
    exact Safe.ret_alone trivial hnow

/-- What the passes that do not block leave. -/
structure Retried (jobs jobs' : List Job) (k k' : Kernel) : Prop where
  reaped : Reaped (registered jobs) (registered jobs') k k'
  pgids : jobs'.map Job.pgid = jobs.map Job.pgid

/-- A pass and the pause after it, before the passes that are left. -/
theorem retryReap_safe : ∀ (n : ℕ) (jobs : List Job) {k : Kernel}, (registered jobs).Nodup →
    Safe (shutdownWorld scope) killedFirst (Retried jobs · k) (retryReap (n + 1) jobs) k
  | n, jobs, k, hnodup => by
    unfold retryReap
    apply (reapJobs_safe true jobs hnodup fun hcontra => by cases hcontra).bind
    intro r k₁ hpost _
    obtain ⟨hpassed, hpgids⟩ := hpost
    by_cases hdone : r.1 = true
    · rw [if_pos hdone]
      exact Safe.ret_alone trivial ⟨hpassed.reaped, hpgids⟩
    · rw [if_neg hdone]
      apply shutdownSleep_safe.bind
      intro _ k₂ hsleep _
      have hfirst := hpassed.reaped.before hsleep
      cases n with
      | zero => exact Safe.ret_alone trivial ⟨hfirst, hpgids⟩
      | succ n =>
        have hnodup' : (registered r.2).Nodup := hnodup.sublist hpassed.reaped.sub
        refine (retryReap_safe n r.2 hnodup').weaken ?_
        intro jobs' k' _ h
        exact ⟨hfirst.trans h.reaped, h.pgids.trans hpgids⟩

end Passes

/-- A child that is left before SIGKILL was alive at the start, so it is in the
group of a job and may be signalled, and it gets the signal. -/
theorem left_killed {s : ShutdownStart} (hcovered : s.Covered) {jobs : List Job} {k k' : Kernel}
    (hpgids : jobs.map Job.pgid = s.table.jobs.map Job.pgid)
    (hreaped : Reaped (registered s.table.jobs) (registered jobs) s.kernel k)
    (hkill : Signalled s.scope ((jobs.filter fun job => 0 < job.pgid).map Job.pgid) .sigkill k k') :
    Allowed false (registered jobs) k' := by
  intro _ pid hpid
  have hleft := hreaped.left pid hpid
  obtain ⟨job, hjob, hpositive, hreached⟩ := hcovered pid (hreaped.sub.mem hpid) hleft.1
  have hmem : job.pgid ∈ jobs.map Job.pgid := by
    rw [hpgids]
    exact List.mem_map_of_mem hjob
  obtain ⟨job', hjob', hpgid⟩ := List.mem_map.mp hmem
  have hsignalled : job.pgid ∈ (jobs.filter fun job => 0 < job.pgid).map Job.pgid := by
    rw [List.mem_map]
    refine ⟨job', List.mem_filter.mpr ⟨hjob', ?_⟩, hpgid⟩
    rw [decide_eq_true_eq, hpgid]
    exact hpositive
  exact hkill.killed rfl job.pgid hsignalled pid hreached hleft.2

theorem jobShutdown_covered {s : ShutdownStart} (hcovered : s.Covered) :
    Safe (shutdownWorld s.scope) killedFirst (ShutdownOver s) (jobShutdown s.table) s.kernel := by
  unfold jobShutdown
  by_cases hempty : s.table.jobs = []
  · rw [if_pos hempty]
    refine Safe.ret_alone trivial ⟨?_, ?_⟩
    · rw [hempty]
    · intro pid hpid
      rw [hempty] at hpid
      exact absurd hpid List.not_mem_nil
  · rw [if_neg hempty]
    apply (continueStopped_safe s.table.jobs).bind
    intro jobs k₁ hpost _
    obtain ⟨hcontinued, hsame⟩ := hpost
    apply (signalJobs_safe _ .sigterm jobs).bind
    intro _ k₂ hterm _
    have hnodup : (registered jobs).Nodup := by
      rw [hsame.registered]
      exact s.distinct
    apply (retryReap_safe _ jobs hnodup).bind
    intro jobs' k₃ hretried _
    have hreaped : Reaped (registered s.table.jobs) (registered jobs') s.kernel k₃ := by
      rw [← hsame.registered]
      exact hretried.reaped.after (hcontinued.trans hterm.ahead)
    apply (signalJobs_safe _ .sigkill jobs').bind
    intro _ k₄ hkill _
    have hallowed := left_killed hcovered (hretried.pgids.trans hsame.pgids) hreaped hkill
    apply (reapJobs_safe false jobs' (s.distinct.sublist hreaped.sub) hallowed).bind
    intro r k₅ hpost _
    obtain ⟨hpassed, _⟩ := hpost
    refine Safe.ret_alone trivial ⟨rfl, ?_⟩
    have hall := hreaped.trans (hpassed.reaped.after hkill.ahead)
    rw [hpassed.whole rfl] at hall
    exact fun pid hpid => hall.taken pid hpid List.not_mem_nil

end DeviceRuntime
