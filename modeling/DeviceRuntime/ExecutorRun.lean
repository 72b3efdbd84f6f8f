/-
# A run of the parent

The executor from the job in the table to its return. A job that is
`Registered` is at the head of the table; the gate is opened when it is
`Releasing`, one byte a child. Every failure before the last byte ends in a
rollback, after which the table and the descriptors are as they were
(`rollback_finished`, `rollback_remove`); after the last byte there is nothing
to be undone (`after_safe`). Between the turns of the loop of a pipeline the
parent is `Forking`.

Key definitions: `Registered`, `Releasing`, `Forking`, `Atomic`.
Key theorems: `handOver_safe`, `pipelineStages_safe`, `executeSingle_safe`,
`executePipeline_safe`, `executeCommand_safe`, `executor_atomic`.
-/
import DeviceRuntime.ExecutorParent

namespace DeviceRuntime

open Prog

/-! ### The job in the table -/

/-- The new job, with the processes `added`, is at the head of the table. -/
def Registered (e : ExecEntry) (pgid : ℕ) (added : List ℕ) (s : ParentState) : Prop :=
  ∃ job, s.manager.jobs = job :: e.manager.jobs ∧ job.id = e.manager.nextid ∧ job.pgid = pgid ∧
    job.pids = added ∧ .stored s.manager ∈ s.log

/-- A job of the group is at the head of the table. -/
def Listed (e : ExecEntry) (pgid : ℕ) (s : ParentState) : Prop :=
  ∃ job, s.manager.jobs = job :: e.manager.jobs ∧ job.pgid = pgid

section Registering

variable {chain : List Command} {ctx : ExecContext} {e : ExecEntry} {s : ParentState} {pids : List ℕ} {pgid : ℕ}

theorem Registered.listed {added : List ℕ} (h : Registered e pgid added s) : Listed e pgid s := by
  obtain ⟨job, hjobs, -, hpgid, -, -⟩ := h
  exact ⟨job, hjobs, hpgid⟩

theorem jobAdd_safe (hlog : LogOk chain ctx s.log) (hmanager : s.manager = e.manager) (hpgid : pgid ≠ 0)
    (command : Option (List Byte)) :
    Safe parent (parentWatch chain ctx e)
      (fun r s' => match r with
        | none => s' = s ∨ ∃ c, s' = s.extend [.failed c]
        | some id => id = e.manager.nextid ∧ command ≠ none ∧ Registered e pgid [] s' ∧
            s'.fds = s.fds ∧ ∃ m, s'.log = s.log ++ [.stored m])
      (onJobs (jobAdd pgid command)) s := by
  unfold jobAdd
  cases command with
  | none => exact Safe.ret_alone hlog (.inl rfl)
  | some command =>
    dsimp only
    rw [if_neg hpgid]
    refine Safe.call_alone hlog trivial fun ok s₁ hs => ?_
    have hs : s₁ = if ok then s else s.extend [.failed (.job .malloc)] := hs
    cases ok with
    | false =>
      have hs : s₁ = s.extend [.failed (.job .malloc)] := hs
      subst hs
      exact Safe.ret_alone (hlog.append ⟨rfl, rfl⟩) (.inr ⟨_, rfl⟩)
    | true =>
      have hs : s₁ = s := hs
      subst hs
      refine Safe.call_alone hlog trivial fun m s₂ hs => ?_
      obtain ⟨rfl, rfl⟩ : m = s₁.manager ∧ s₂ = s₁ := hs
      refine Safe.call_alone hlog trivial fun _ s₃ hs => ?_
      have hs : s₃ = ParentState.extend { s₂ with manager := _ } [.stored _] := hs
      subst hs
      refine Safe.ret_alone (hlog.append ⟨rfl, rfl⟩) ?_
      rw [hmanager]
      exact ⟨rfl, Option.some_ne_none _, ⟨_, rfl, rfl, rfl, rfl, List.mem_append_right _ List.mem_cons_self⟩, rfl, _, rfl⟩

/-- Only the job at the head is changed. -/
theorem modify_head {m : JobManager} {job : Job} {f : Job → Job} (hjobs : m.jobs = job :: e.manager.jobs)
    (hid : job.id = e.manager.nextid) : (m.modify e.manager.nextid f).jobs = f job :: e.manager.jobs := by
  have hrest : (e.manager.jobs.map fun job => if job.id = e.manager.nextid then f job else job) = e.manager.jobs := by
    refine (List.map_congr_left fun job hjob => ?_).trans (List.map_id _)
    exact if_neg (Nat.ne_of_lt (e.fresh job hjob))
  unfold JobManager.modify
  dsimp only
  rw [hjobs, List.map_cons, if_pos hid, hrest]

theorem processAdd_safe {added : List ℕ} {pid : ℕ} (hlog : LogOk chain ctx s.log) (h : Registered e pgid added s)
    (hpid : pid ≠ 0) :
    Safe parent (parentWatch chain ctx e)
      (fun ret s' => (ret = 0 ∧ Registered e pgid (added ++ [pid]) s' ∧ s'.fds = s.fds ∧
          ∃ m, s'.log = s.log ++ [.stored m]) ∨
        (ret < 0 ∧ ∃ c, s' = s.extend [.failed c]))
      (onJobs (processAdd e.manager.nextid pid)) s := by
  unfold processAdd
  rw [if_neg hpid]
  refine Safe.call_alone hlog trivial fun ok s₁ hs => ?_
  have hs : s₁ = if ok then s else s.extend [.failed (.job .malloc)] := hs
  cases ok with
  | false =>
    have hs : s₁ = s.extend [.failed (.job .malloc)] := hs
    subst hs
    exact Safe.ret_alone (hlog.append ⟨rfl, rfl⟩) (.inr ⟨by decide, _, rfl⟩)
  | true =>
    have hs : s₁ = s := hs
    subst hs
    refine Safe.call_alone hlog trivial fun m s₂ hs => ?_
    obtain ⟨rfl, rfl⟩ : m = s₁.manager ∧ s₂ = s₁ := hs
    refine Safe.call_alone hlog trivial fun _ s₃ hs => ?_
    have hs : s₃ = ParentState.extend { s₂ with manager := _ } [.stored _] := hs
    subst hs
    obtain ⟨job, hjobs, hid, hgroup, hpids, -⟩ := h
    refine Safe.ret_alone (hlog.append ⟨rfl, rfl⟩) (.inl ⟨rfl, ?_, rfl, _, rfl⟩)
    refine ⟨_, modify_head hjobs hid, hid, hgroup, ?_, List.mem_append_right _ List.mem_cons_self⟩
    unfold Job.pids
    rw [List.map_append]
    exact congrArg (· ++ [pid]) hpids

/-- Nothing has failed, and no byte was written. -/
structure Clean (log : StartLog) : Prop where
  bytes : gateBytes log = 0
  clean : ∀ c, .failed c ∉ log

theorem Clean.append {log es : StartLog} (h : Clean log) (hes : gateBytes es = 0) (hc : ∀ c, .failed c ∉ es) :
    Clean (log ++ es) := by
  constructor
  · rw [gateBytes_append, h.bytes, hes]
  · exact fun c hmem => (List.mem_append.mp hmem).elim (h.clean c) (hc c)

theorem Clean.stored {log : StartLog} (h : Clean log) (m : JobManager) : Clean (log ++ [.stored m]) :=
  h.append rfl fun _ hmem => StartEvent.noConfusion (List.mem_singleton.mp hmem)

theorem Begun.stored {log : StartLog} (h : Begun chain ctx pids log) (m : JobManager) :
    Begun chain ctx pids (log ++ [.stored m]) :=
  h.append ⟨rfl, rfl⟩ fun _ hmem => StartEvent.noConfusion (List.mem_singleton.mp hmem)

theorem addProcesses_safe : ∀ (rest : List ℕ) {added : List ℕ} {s : ParentState}, Begun chain ctx pids s.log →
    Clean s.log → Registered e pgid added s → (∀ pid ∈ rest, pid ≠ 0) →
    Safe parent (parentWatch chain ctx e)
      (fun ret s' => s'.fds = s.fds ∧ Begun chain ctx pids s'.log ∧
        ((0 ≤ ret ∧ Clean s'.log ∧ Registered e pgid (added ++ rest) s') ∨ (ret < 0 ∧ Listed e pgid s')))
      (addProcesses e.manager.nextid rest) s
  | [], added, s, hb, hc, hreg, _ => Safe.ret_alone hb.ok ⟨rfl, hb, .inl ⟨Int.le_refl 0, hc, by rwa [List.append_nil]⟩⟩
  | pid :: rest, added, s, hb, hc, hreg, h0 => by
    refine (processAdd_safe hb.ok hreg (h0 pid List.mem_cons_self)).bind fun ret s' h _ => ?_
    rcases h with ⟨hret, hreg', hfds, m, hlog⟩ | ⟨hret, c, rfl⟩
    · rw [if_neg (by omega)]
      have hb' : Begun chain ctx pids s'.log := hlog ▸ hb.stored m
      have hc' : Clean s'.log := hlog ▸ hc.stored m
      refine (addProcesses_safe rest hb' hc' hreg' fun p hp => h0 p (List.mem_cons_of_mem _ hp)).weaken ?_
      rintro ret' s'' _ ⟨hfds', hb'', hend⟩
      rw [List.append_assoc] at hend
      exact ⟨hfds'.trans hfds, hb'', hend⟩
    · rw [if_pos hret]
      exact Safe.ret_alone (hb.fail c).ok ⟨rfl, hb.fail c, .inr ⟨by decide, hreg.listed⟩⟩

end Registering

/-! ### What a failure leaves -/

/-- The calls that only the terminal sees. -/
def OnTerminal : ExecCall → Prop
  | .terminal _ => True
  | _ => False

/-- The calls after the last gate byte. -/
def AfterStart : ExecCall → Prop
  | .job _ | .terminal _ | .setRunning _ => True
  | _ => False

section Leaving

variable {chain : List Command} {ctx : ExecContext} {e : ExecEntry} {s s' : ParentState} {pids : List ℕ} {pgid : ℕ}
  {rb : ExecProg Unit} {α : Type}

theorem onTerminal_only (p : TerminalProg α) : (onTerminal p).Only OnTerminal := by
  have hcall : ∀ c, Only OnTerminal (.call (.terminal c) .ret : ExecProg c.Ret) := fun _ => ⟨trivial, fun _ => trivial⟩
  exact Only.link hcall p

theorem onJobs_only (p : JobProg α) : (onJobs p).Only AfterStart := by
  have hcall : ∀ c, Only AfterStart (.call (.job c) .ret : ExecProg c.Ret) := fun _ => ⟨trivial, fun _ => trivial⟩
  exact Only.link hcall p

theorem restoreTerminal_only (t : Terminal) : (restoreTerminal t).Only OnTerminal :=
  (onTerminal_only _).bind fun _ => trivial

theorem terminal_after (o : ExecCall) (h : OnTerminal o) : AfterStart o := by
  cases o <;> trivial

theorem onTerminal_quiet {o : ExecCall} {r : o.Ret} (ho : OnTerminal o) (hs : parentSem s o r s') :
    ∃ es, Silent es ∧ s' = s.extend es := by
  cases o with
  | terminal c =>
    have hs : parentTerminal s c r s' := hs
    have hsame : ∃ es, Silent es ∧ s = s.extend es := ⟨[], Silent.nil, s.extend_nil.symm⟩
    cases c with
    | tcsetpgrp pgid =>
      have hs : s' = if r.ret < 0 then if r.errno = EINTR then s
        else s.extend [.failed (.terminal (.tcsetpgrp pgid))] else s.extend [.foreground pgid] := hs
      subst hs
      split_ifs
      · exact hsame
      · exact ⟨_, ⟨rfl, rfl⟩, rfl⟩
      · exact ⟨_, ⟨rfl, rfl⟩, rfl⟩
    | tcgetattr =>
      have hs : s' = s := hs
      subst hs
      exact hsame
    | tcsetattr modes =>
      have hs : s' = if r.ret < 0 then if r.errno = EINTR then s
        else s.extend [.failed (.terminal (.tcsetattr modes))] else s.extend [.modes modes] := hs
      subst hs
      split_ifs
      · exact hsame
      · exact ⟨_, ⟨rfl, rfl⟩, rfl⟩
      · exact ⟨_, ⟨rfl, rfl⟩, rfl⟩
  | _ => exact ho.elim

theorem Undone.extend {es : StartLog} (h : Undone e s) (hes : Silent es) : Undone e (s.extend es) := by
  refine ⟨h.jobs, fun pid hpid => ?_⟩
  rw [ParentState.extend_log, forkedPids_append, hes.forks, List.append_nil] at hpid
  obtain ⟨hkilled, hwaited⟩ := h.children pid hpid
  exact ⟨List.mem_append_left _ hkilled, List.mem_append_left _ hwaited⟩

/-- The terminal may be restored before the code is returned. -/
theorem undone_ret {p : ExecProg Unit} (hp : p.Only OnTerminal) {ret : ℤ} (hret : ret < 0)
    (hlog : LogOk chain ctx s.log) (hfds : s.fds = e.fds) (h : Undone e s) :
    Safe parent (parentWatch chain ctx e) (Returned chain e) (p.bind fun _ => .ret ret) s := by
  let P : ParentState → Prop := fun s => LogOk chain ctx s.log ∧ s.fds = e.fds ∧ Undone e s
  have hkeep : Safe parent (parentWatch chain ctx e) (fun _ s => P s) p s := by
    refine Only.safe (stable_alone P) (fun _ h => h.1) ?_ ?_ hp ⟨hlog, hfds, h⟩
    · intro o s ho _
      cases o with
      | terminal c => trivial
      | _ => exact ho.elim
    · rintro o s r s' ho ⟨hlog, hfds, h⟩ hs
      obtain ⟨es, hquiet, rfl⟩ := onTerminal_quiet ho hs
      exact ⟨hlog.append hquiet, hfds, h.extend hquiet⟩
  exact hkeep.map fun _ s h => ⟨h.2.1, fun _ => ⟨hret, h.2.2⟩⟩

theorem Cleared.undone (h : Begun chain ctx pids s.log) (hc : Cleared pids s s')
    (hjobs : s.manager.jobs = e.manager.jobs) : Undone e s' := by
  obtain ⟨es, hquiet, rfl, hall⟩ := hc
  refine ⟨hjobs, fun pid hpid => hall pid ?_⟩
  rwa [ParentState.extend_log, forkedPids_append, hquiet.forks, List.append_nil, h.forks] at hpid

/-- The children are killed, and the table is as it was. -/
theorem rollback_finished (hrb : IsRollback chain ctx e pids rb) (hb : Begun chain ctx pids s.log)
    (hfds : s.fds = e.fds) (hjobs : s.manager.jobs = e.manager.jobs) {ret : ℤ} (hret : ret < 0) :
    Safe parent (parentWatch chain ctx e) (fun _ s' => Returned chain e ret s') rb s := by
  refine (hrb s hb).weaken fun _ s' _ hc => ?_
  have hundone : Undone e s' := hc.undone hb hjobs
  obtain ⟨es, -, rfl, -⟩ := hc
  exact ⟨hfds, fun _ => ⟨hret, hundone⟩⟩

/-- The children are killed, and the new job is taken off the table. -/
theorem rollback_remove (hrb : IsRollback chain ctx e pids rb) (hb : Begun chain ctx pids s.log)
    (hfds : s.fds = e.fds) (hlisted : Listed e pgid s) (hpgid : pgid ≠ 0) {p : ExecProg Unit}
    (hp : p.Only OnTerminal) {ret : ℤ} (hret : ret < 0) :
    Safe parent (parentWatch chain ctx e) (Returned chain e)
      (rb.bind fun _ => (removeJob pgid).bind fun _ => p.bind fun _ => .ret ret) s := by
  refine (hrb s hb).bind fun _ s₁ hc hlog => ?_
  obtain ⟨es, hquiet, rfl, hall⟩ := hc
  refine Safe.call_alone hlog trivial fun m s₂ hs => ?_
  obtain ⟨rfl, rfl⟩ : m = (s.extend es).manager ∧ s₂ = s.extend es := hs
  refine Safe.call_alone hlog trivial fun _ s₃ hs => ?_
  have hs : s₃ = ParentState.extend { s.extend es with manager := jobRemove s.manager pgid }
    [.stored (jobRemove s.manager pgid)] := hs
  have hjobs : (jobRemove s.manager pgid).jobs = e.manager.jobs := by
    obtain ⟨job, hjobs, hgroup⟩ := hlisted
    unfold jobRemove
    rw [if_neg hpgid]
    dsimp only
    rw [hjobs, List.eraseP_cons_of_pos (by simpa using hgroup)]
  have hlog₃ : s₃.log = (s.log ++ es) ++ [.stored (jobRemove s.manager pgid)] := by rw [hs]; rfl
  refine undone_ret hp hret ?_ (by rw [hs]; exact hfds) ⟨by rw [hs]; exact hjobs, fun pid hpid => ?_⟩
  · rw [hlog₃]
    exact LogOk.append hlog ⟨rfl, rfl⟩
  · rw [hlog₃, forkedPids_append, forkedPids_append, hquiet.forks, List.append_nil, hb.forks] at hpid
    have hpid : pid ∈ pids := (List.append_nil pids) ▸ hpid
    obtain ⟨hkilled, hwaited⟩ := hall pid hpid
    rw [hlog₃]
    exact ⟨List.mem_append_left _ hkilled, List.mem_append_left _ hwaited⟩

theorem afterStart_quiet {o : ExecCall} {r : o.Ret} (ho : AfterStart o) (hs : parentSem s o r s') :
    s'.fds = s.fds ∧ ∃ es, Silent es ∧ s'.log = s.log ++ es := by
  have hnone : s.fds = s.fds ∧ ∃ es, Silent es ∧ s.log = s.log ++ es := ⟨rfl, [], Silent.nil, (List.append_nil _).symm⟩
  cases o with
  | terminal c =>
    obtain ⟨es, hquiet, rfl⟩ := onTerminal_quiet (o := .terminal c) trivial hs
    exact ⟨rfl, es, hquiet, rfl⟩
  | setRunning running =>
    have hs : s' = s.extend [.running running] := hs
    subst hs
    exact ⟨rfl, _, ⟨rfl, rfl⟩, rfl⟩
  | job c =>
    have hs : parentJob s c r s' := hs
    cases c with
    | getJobs =>
      obtain ⟨-, rfl⟩ : r = s.manager ∧ s' = s := hs
      exact hnone
    | setJobs m =>
      have hs : s' = ParentState.extend { s with manager := m } [.stored m] := hs
      subst hs
      exact ⟨rfl, _, ⟨rfl, rfl⟩, rfl⟩
    | malloc =>
      have hs : s' = if r then s else s.extend [.failed (.job .malloc)] := hs
      cases r with
      | true =>
        obtain rfl : s' = s := hs
        exact hnone
      | false =>
        have hs : s' = s.extend [.failed (.job .malloc)] := hs
        subst hs
        exact ⟨rfl, _, ⟨rfl, rfl⟩, rfl⟩
    | waitpid target flags =>
      have hs : parentWaitpid s target flags r s' := hs
      cases r with
      | failed errno =>
        obtain ⟨rfl, -⟩ := hs
        exact hnone
      | nothing =>
        obtain ⟨-, rfl⟩ := hs
        exact hnone
      | reported pid st =>
        obtain ⟨-, -, hs⟩ := hs
        by_cases hdone : st.processStatus = .done
        · rw [if_pos hdone] at hs
          obtain ⟨-, rfl⟩ := hs
          exact ⟨rfl, _, ⟨rfl, rfl⟩, rfl⟩
        · rw [if_neg hdone] at hs
          subst hs
          exact hnone
    | kill target sig =>
      have hs : parentKill s target sig r s' := hs
      unfold parentKill at hs
      split at hs
      · obtain ⟨-, rfl⟩ := hs
        split_ifs
        · exact ⟨rfl, _, ⟨rfl, rfl⟩, rfl⟩
        · exact hnone
      · subst hs
        exact hnone
    | printf line =>
      obtain rfl : s' = s := hs
      exact hnone
  | _ => exact ho.elim

/-- What any call adds to the log: only `fork` adds a child, and only `write` a
byte. -/
theorem parentSem_events {o : ExecCall} {r : o.Ret} (hs : parentSem s o r s') : ∃ es, s'.log = s.log ++ es ∧
    ((∀ child, o ≠ .fork child) → forkedPids es = []) ∧ ((∀ fd value, o ≠ .write fd value) → gateBytes es = 0) := by
  have hnone : ∃ es, s.log = s.log ++ es ∧ ((∀ child, o ≠ .fork child) → forkedPids es = []) ∧
      ((∀ fd value, o ≠ .write fd value) → gateBytes es = 0) :=
    ⟨[], (List.append_nil _).symm, fun _ => rfl, fun _ => rfl⟩
  have hone : ∀ ev : StartEvent, ((∀ child, o ≠ .fork child) → ev.forked? = none) →
      ((∀ fd value, o ≠ .write fd value) → ev.isWrote = false) → ∃ es, (s.extend [ev]).log = s.log ++ es ∧
      ((∀ child, o ≠ .fork child) → forkedPids es = []) ∧
      ((∀ fd value, o ≠ .write fd value) → gateBytes es = 0) := by
    intro ev hfork hwrite
    refine ⟨[ev], rfl, fun h => ?_, fun h => ?_⟩
    · simp [forkedPids, hfork h]
    · simp [gateBytes, hwrite h]
  cases o with
  | job c =>
    obtain ⟨-, es, hquiet, hlog⟩ := afterStart_quiet (o := .job c) trivial hs
    exact ⟨es, hlog, fun _ => hquiet.forks, fun _ => hquiet.bytes⟩
  | terminal c =>
    obtain ⟨-, es, hquiet, hlog⟩ := afterStart_quiet (o := .terminal c) trivial hs
    exact ⟨es, hlog, fun _ => hquiet.forks, fun _ => hquiet.bytes⟩
  | setRunning running =>
    obtain ⟨-, es, hquiet, hlog⟩ := afterStart_quiet (o := .setRunning running) trivial hs
    exact ⟨es, hlog, fun _ => hquiet.forks, fun _ => hquiet.bytes⟩
  | pipe =>
    rcases hs with ⟨-, -, rfl⟩ | ⟨-, rfl⟩
    · exact hnone
    · exact hone _ (fun _ => rfl) fun _ => rfl
  | getCloexec fd =>
    have hs : s' = if r.ret < 0 then s.extend [.failed (.getCloexec fd)] else s := hs
    subst hs
    split_ifs
    · exact hone _ (fun _ => rfl) fun _ => rfl
    · exact hnone
  | setCloexec fd =>
    have hs : s' = if r.ret < 0 then s.extend [.failed (.setCloexec fd)] else s := hs
    subst hs
    split_ifs
    · exact hone _ (fun _ => rfl) fun _ => rfl
    · exact hnone
  | close fd =>
    have hs : s' = s.setFds (Function.update s.fds fd none) := hs
    subst hs
    exact hnone
  | fork child =>
    rcases hs with ⟨-, -, rfl⟩ | ⟨-, rfl⟩
    · exact hone _ (fun h => absurd rfl (h child)) fun _ => rfl
    · exact hone _ (fun _ => rfl) fun _ => rfl
  | setpgid pid pgid =>
    have hs : s' = if r.ret < 0 then if r.errno = EINTR then s
      else if r.errno = EACCES ∨ r.errno = ESRCH then s else s.extend [.failed (.setpgid pid pgid)] else s := hs
    subst hs
    split_ifs
    · exact hnone
    · exact hnone
    · exact hone _ (fun _ => rfl) fun _ => rfl
    · exact hnone
  | write fd value =>
    have hs : if r.ret = 1 then (∃ pipe, s.fds fd = some (.writeEnd pipe)) ∧ s' = s.extend [.wrote]
      else s' = if r.ret < 0 ∧ r.errno = EINTR then s else s.extend [.failed (.write fd value)] := hs
    split_ifs at hs
    · rw [hs.2]
      exact hone _ (fun _ => rfl) fun h => absurd rfl (h fd value)
    · subst hs
      exact hnone
    · subst hs
      exact hone _ (fun _ => rfl) fun _ => rfl

/-- Only `pipe` and `close` change the descriptors. -/
theorem parentSem_fds {o : ExecCall} {r : o.Ret} (hs : parentSem s o r s') (hpipe : o ≠ .pipe)
    (hclose : ∀ fd, o ≠ .close fd) : s'.fds = s.fds := by
  cases o with
  | job c => exact (afterStart_quiet (o := .job c) trivial hs).1
  | terminal c => exact (afterStart_quiet (o := .terminal c) trivial hs).1
  | setRunning running => exact (afterStart_quiet (o := .setRunning running) trivial hs).1
  | pipe => exact absurd rfl hpipe
  | close fd => exact absurd rfl (hclose fd)
  | getCloexec fd =>
    have hs : s' = if r.ret < 0 then s.extend [.failed (.getCloexec fd)] else s := hs
    subst hs
    split_ifs <;> rfl
  | setCloexec fd =>
    have hs : s' = if r.ret < 0 then s.extend [.failed (.setCloexec fd)] else s := hs
    subst hs
    split_ifs <;> rfl
  | fork child =>
    rcases hs with ⟨-, -, rfl⟩ | ⟨-, rfl⟩
    · rfl
    · rfl
  | setpgid pid pgid =>
    have hs : s' = if r.ret < 0 then if r.errno = EINTR then s
      else if r.errno = EACCES ∨ r.errno = ESRCH then s else s.extend [.failed (.setpgid pid pgid)] else s := hs
    subst hs
    split_ifs <;> rfl
  | write fd value =>
    have hs : if r.ret = 1 then (∃ pipe, s.fds fd = some (.writeEnd pipe)) ∧ s' = s.extend [.wrote]
      else s' = if r.ret < 0 ∧ r.errno = EINTR then s else s.extend [.failed (.write fd value)] := hs
    split_ifs at hs
    · rw [hs.2]
      rfl
    · rw [hs]
    · rw [hs]
      rfl

/-- After the last gate byte there is nothing to be undone. -/
theorem after_safe {p : ExecProg ℤ} (hp : p.Only AfterStart) (hlog : LogOk chain ctx s.log) (hfds : s.fds = e.fds)
    (hall : chain.length ≤ gateBytes s.log) :
    Safe parent (parentWatch chain ctx e) (Returned chain e) p s := by
  let P : ParentState → Prop := fun s => LogOk chain ctx s.log ∧ s.fds = e.fds ∧ chain.length ≤ gateBytes s.log
  have hkeep : Safe parent (parentWatch chain ctx e) (fun _ s => P s) p s := by
    refine Only.safe (stable_alone P) (fun _ h => h.1) ?_ ?_ hp ⟨hlog, hfds, hall⟩
    · intro o s ho h
      cases o with
      | job c =>
        cases c with
        | waitpid target flags => exact fun _ => h.2.2
        | _ => trivial
      | terminal c => trivial
      | setRunning running => trivial
      | _ => exact ho.elim
    · rintro o s r s' ho ⟨hlog, hfds, hall⟩ hs
      obtain ⟨hfds', es, hquiet, hlog'⟩ := afterStart_quiet ho hs
      refine ⟨hlog' ▸ hlog.append hquiet, hfds'.trans hfds, ?_⟩
      rw [hlog', gateBytes_append, hquiet.bytes]
      exact hall
  exact hkeep.weaken fun _ s _ h => ⟨h.2.1, fun hlt => absurd h.2.2 (by omega)⟩

theorem removeJob_only (pgid : ℕ) : (removeJob pgid).Only AfterStart := ⟨trivial, fun _ => ⟨trivial, fun _ => trivial⟩⟩

theorem killGroup_only (pgid : ℕ) : (killGroup pgid).Only AfterStart := by
  unfold killGroup
  split_ifs
  · trivial
  · exact ⟨trivial, fun _ => trivial⟩

theorem killPid_only (pid : ℕ) : (killPid pid).Only AfterStart := by
  unfold killPid
  split_ifs
  · trivial
  · exact ⟨trivial, fun _ => trivial⟩

theorem reapPid_only (pid : ℕ) : (reapPid pid).Only AfterStart := by
  unfold reapPid
  split_ifs
  · trivial
  · refine ⟨fun _ => ⟨trivial, fun r => ?_⟩, fun _ => trivial⟩
    cases r with
    | failed errno =>
      dsimp only
      split_ifs <;> trivial
    | nothing => trivial
    | reported pid st => trivial

theorem rollbackSingle_only (pid : ℕ) : (rollbackSingle pid).Only AfterStart := by
  unfold rollbackSingle
  split_ifs
  · trivial
  · exact (killGroup_only pid).bind fun _ => (killPid_only pid).bind fun _ => reapPid_only pid

theorem rollbackPipeline_only (pgid : ℕ) (pids : List ℕ) : (rollbackPipeline pgid pids).Only AfterStart :=
  (killGroup_only pgid).bind fun _ => (Only.foldlM (fun _ pid => killPid_only pid) pids ()).bind fun _ =>
    Only.foldlM (fun _ pid => reapPid_only pid) pids ()

theorem keepModes_only (t : Terminal) (job : Job) : (keepModes t job).Only AfterStart := by
  refine ((onTerminal_only _).mono terminal_after).bind fun r => ?_
  split_ifs
  · exact onJobs_only _
  · trivial

theorem finishForegroundJob_only (t : Terminal) (id : ℕ) : (finishForegroundJob t id).Only AfterStart := by
  refine ⟨trivial, fun m => ?_⟩
  dsimp only
  cases JobManager.find m id with
  | none => trivial
  | some job =>
    refine Only.bind ?_ fun _ => Only.bind ?_ fun ret => ?_
    · split_ifs
      · exact keepModes_only t job
      · trivial
    · split_ifs
      · exact (onTerminal_only _).mono terminal_after
      · trivial
    · split_ifs
      · exact ⟨trivial, fun _ => trivial⟩
      · exact ⟨trivial, fun _ => trivial⟩
      · trivial
      · exact (removeJob_only _).bind fun _ => trivial
      · exact (removeJob_only _).bind fun _ => trivial

end Leaving

/-! ### The gate is opened -/

/-- The job is ready, and `count` bytes are to be written yet. -/
structure Releasing (chain : List Command) (ctx : ExecContext) (pids : List ℕ) (count : ℕ) (log : StartLog) : Prop where
  ok : LogOk chain ctx log
  left : gateBytes log + count = chain.length
  forks : forkedPids log = pids
  waits : ∀ pid, .waited pid ∉ log
  positive : ∀ pid ∈ pids, pid ≠ 0
  ready : Ready chain ctx log
  clean : ∀ c, .failed c ∉ log
  allowed : ¬ Refused chain

section Release

variable {chain : List Command} {ctx : ExecContext} {e : ExecEntry} {pids : List ℕ}

theorem Releasing.begun {log : StartLog} {count : ℕ} (h : Releasing chain ctx pids (count + 1) log) :
    Begun chain ctx pids log := by
  have hleft := h.left
  exact ⟨h.ok, by omega, h.forks, h.waits, h.positive⟩

theorem Releasing.write {log : StartLog} {count : ℕ} (h : Releasing chain ctx pids (count + 1) log) :
    Releasing chain ctx pids count (log ++ [.wrote]) := by
  have hbytes : gateBytes (log ++ [.wrote]) = gateBytes log + 1 := gateBytes_append _ _
  have hleft := h.left
  refine ⟨h.ok.write h.ready h.clean h.allowed h.begun.short, by omega, ?_, ?_, h.positive, h.ready.append rfl, ?_,
    h.allowed⟩
  · rw [forkedPids_append, h.forks]
    exact List.append_nil pids
  · intro pid hmem
    rcases List.mem_append.mp hmem with hmem | hmem
    · exact h.waits pid hmem
    · cases List.mem_singleton.mp hmem
  · intro c hmem
    rcases List.mem_append.mp hmem with hmem | hmem
    · exact h.clean c hmem
    · cases List.mem_singleton.mp hmem

theorem startupGateRelease_safe {fd : ℤ} : ∀ (count : ℕ) {s : ParentState}, Releasing chain ctx pids count s.log →
    Owns e [(fd, .writeEnd 0)] s.fds →
    Safe parent (parentWatch chain ctx e)
      (fun ret s' => s'.fds = s.fds ∧ s'.manager = s.manager ∧
        ((0 ≤ ret ∧ chain.length ≤ gateBytes s'.log) ∨ (ret < 0 ∧ Begun chain ctx pids s'.log)))
      (startupGateRelease fd count) s
  | 0, s, h, _ => by
    have hleft := h.left
    exact Safe.ret_alone h.ok ⟨rfl, rfl, .inl ⟨Int.le_refl 0, by omega⟩⟩
  | count + 1, s, h, howns => by
    refine (writeGate_safe h.ok howns h.write.ok).bind fun ret s' hout _ => ?_
    rcases hout with ⟨hret, rfl⟩ | ⟨hret, c, rfl⟩
    · rw [if_neg (by omega)]
      exact startupGateRelease_safe count h.write howns
    · rw [if_pos hret]
      exact Safe.ret_alone (h.begun.fail c).ok ⟨rfl, rfl, .inr ⟨by decide, h.begun.fail c⟩⟩

variable {rb : ExecProg Unit} {com : Command} {gate : ℤ} {pgid : ℕ} {s : ParentState}

/-- From the job in the table to the end of the call, with any rollback and
any way to wait for the job. -/
theorem handOver_safe {after : ExecProg ℤ} (hrb : IsRollback chain ctx e pids rb) (hafter : after.Only AfterStart)
    (hcom : chain.head? = some com) (hallowed : ¬ Refused chain) (hb : Begun chain ctx pids s.log) (hc : Clean s.log)
    (hall : pids.length = chain.length) (hreg : Registered e pgid pids s) (hpgid : pgid ≠ 0)
    (howns : Owns e [(gate, .writeEnd 0)] s.fds) :
    Safe parent (parentWatch chain ctx e) (Returned chain e)
      ((if com.background = 0 ∧ ctx.terminal.initialized then
        onTerminal (terminalSetForeground ctx.terminal pgid) else .ret 0).bind fun ret =>
      if ret < 0 then
        (closeFd gate).bind fun _ =>
        rb.bind fun _ =>
        (removeJob pgid).bind fun _ =>
        (restoreTerminal ctx.terminal).bind fun _ => .ret MiniShell_ERR_UNKNOWN
      else (startupGateRelease gate pids.length).bind fun ret =>
        if ret < 0 then
          (closeFd gate).bind fun _ =>
          rb.bind fun _ =>
          (removeJob pgid).bind fun _ =>
          (if com.background = 0 ∧ ctx.terminal.initialized then restoreTerminal ctx.terminal
            else .ret ()).bind fun _ => .ret MiniShell_ERR_UNKNOWN
        else (closeFd gate).bind fun _ => after) s := by
  have hrestore : Only OnTerminal (if com.background = 0 ∧ ctx.terminal.initialized then restoreTerminal ctx.terminal
      else .ret () : ExecProg Unit) := by
    split_ifs
    · exact restoreTerminal_only _
    · trivial
  -- what holds when the terminal is where it is to be
  have hgiven : Safe parent (parentWatch chain ctx e)
      (fun ret s' => s'.fds = s.fds ∧ s'.manager = s.manager ∧ ∃ es, s'.log = s.log ++ es ∧ Silent es ∧
        (∀ pid, .waited pid ∉ es) ∧
        ((0 ≤ ret ∧ (∀ c, .failed c ∉ es) ∧ (Foreground chain ctx → .foreground (pgid : ℤ) ∈ s'.log)) ∨
          ret < 0))
      (if com.background = 0 ∧ ctx.terminal.initialized then
        onTerminal (terminalSetForeground ctx.terminal pgid) else .ret 0) s := by
    by_cases hfg : com.background = 0 ∧ ctx.terminal.initialized
    · rw [if_pos hfg]
      refine (terminalSetForeground_safe hb.ok hpgid hfg.2).weaken fun ret s' _ hout => ?_
      rcases hout with ⟨hret, rfl⟩ | ⟨hret, c, rfl⟩
      · refine ⟨rfl, rfl, _, rfl, ⟨rfl, rfl⟩, fun _ hmem => ?_, .inl ⟨hret, fun _ hmem => ?_, fun _ => ?_⟩⟩
        · cases List.mem_singleton.mp hmem
        · cases List.mem_singleton.mp hmem
        · exact List.mem_append_right _ List.mem_cons_self
      · refine ⟨rfl, rfl, _, rfl, ⟨rfl, rfl⟩, fun _ hmem => ?_, .inr hret⟩
        cases List.mem_singleton.mp hmem
    · rw [if_neg hfg]
      refine Safe.ret_alone hb.ok ⟨rfl, rfl, [], (List.append_nil _).symm, Silent.nil, fun _ => List.not_mem_nil, ?_⟩
      refine .inl ⟨Int.le_refl 0, fun _ => List.not_mem_nil, fun hf => ?_⟩
      obtain ⟨com', hcom', hback, hinit⟩ := hf
      obtain rfl : com = com' := Option.some.inj (hcom.symm.trans hcom')
      exact absurd ⟨hback, hinit⟩ hfg
  refine hgiven.bind fun ret s₁ h _ => ?_
  obtain ⟨hfds, hmanager, es, hlog, hquiet, hwaits, hend⟩ := h
  have hb₁ : Begun chain ctx pids s₁.log := hlog ▸ hb.append hquiet hwaits
  have howns₁ : Owns e [(gate, .writeEnd 0)] s₁.fds := hfds ▸ howns
  have hreg₁ : Registered e pgid pids s₁ := by
    obtain ⟨job, hjobs, hid, hgroup, hpids, hstored⟩ := hreg
    exact ⟨job, by rw [hmanager]; exact hjobs, hid, hgroup, hpids, by
      rw [hmanager, hlog]; exact List.mem_append_left _ hstored⟩
  by_cases hret : ret < 0
  · rw [if_pos hret]
    refine closeFd_safe hb₁.ok howns₁ fun fds howns => ?_
    have herr : MiniShell_ERR_UNKNOWN < 0 := by decide
    exact rollback_remove (s := s₁.setFds fds) hrb hb₁ howns.entry hreg₁.listed hpgid (restoreTerminal_only _) herr
  rw [if_neg hret]
  obtain ⟨-, hclean, hfg⟩ := hend.resolve_right hret
  have hready : Ready chain ctx s₁.log := by
    obtain ⟨job, hjobs, -, hgroup, hpids, hstored⟩ := hreg₁
    refine ⟨_, job, hstored, hjobs ▸ List.mem_cons_self, hpids.trans hb₁.forks.symm, hpids ▸ hall, fun hf => ?_⟩
    rw [hgroup]
    exact hfg hf
  have hc₁ : Clean s₁.log := hlog ▸ hc.append hquiet.bytes hclean
  have hreleasing : Releasing chain ctx pids pids.length s₁.log :=
    ⟨hb₁.ok, by rw [hc₁.bytes, hall, Nat.zero_add], hb₁.forks, hb₁.waits, hb₁.positive, hready,
      hc₁.clean, hallowed⟩
  refine (startupGateRelease_safe pids.length hreleasing howns₁).bind fun ret s₂ h hlog₂ => ?_
  obtain ⟨hfds₂, hmanager₂, hend₂⟩ := h
  have howns₂ : Owns e [(gate, .writeEnd 0)] s₂.fds := hfds₂ ▸ howns₁
  by_cases hret₂ : ret < 0
  · rw [if_pos hret₂]
    obtain ⟨-, hb₂⟩ := hend₂.resolve_left fun h => absurd h.1 (by omega)
    have hlisted : Listed e pgid s₂ := by
      obtain ⟨job, hjobs, hgroup⟩ := hreg₁.listed
      exact ⟨job, by rw [hmanager₂]; exact hjobs, hgroup⟩
    refine closeFd_safe hb₂.ok howns₂ fun fds howns => ?_
    have herr : MiniShell_ERR_UNKNOWN < 0 := by decide
    exact rollback_remove (s := s₂.setFds fds) hrb hb₂ howns.entry hlisted hpgid hrestore herr
  · rw [if_neg hret₂]
    obtain ⟨-, hbytes⟩ := hend₂.resolve_right fun h => hret₂ h.1
    exact closeFd_safe hlog₂ howns₂ fun fds howns => after_safe hafter hlog₂ howns.entry hbytes

end Release

/-! ### The loop of a pipeline -/

/-- Between the turns of the loop: the carried read end and the gate are
open, and nothing has failed. -/
structure Forking (chain : List Command) (ctx : ExecContext) (e : ExecEntry) (gate : ℤ × ℤ) (st : PipelineState)
    (s : ParentState) : Prop where
  begun : Begun chain ctx st.pids s.log
  clean : Clean s.log
  manager : s.manager = e.manager
  owns : Owns e (fdList st.pipeFd (.readEnd st.pids.length) ++ gateEnds gate) s.fds
  carried : st.pids.length < chain.length → (0 ≤ st.pipeFd ↔ 0 < st.pids.length)
  pipes : st.pids.length < chain.length → s.pipes = st.pids.length + 1
  leader : st.pgid = st.pids.headD 0
  fits : st.pids.length ≤ MAX_PIPELINE

/-- What a turn leaves. -/
def StageDone (chain : List Command) (ctx : ExecContext) (e : ExecEntry) (gate : ℤ × ℤ) (st : PipelineState) :
    Except ℤ PipelineState → ParentState → Prop
  | .error code, s => Returned chain e code s
  | .ok st', s => Forking chain ctx e gate st' s ∧ st'.pids.length = st.pids.length + 1

section Stage

variable {chain : List Command} {ctx : ExecContext} {e : ExecEntry} {gate : ℤ × ℤ} {st : PipelineState}
  {s : ParentState} {pids : List ℕ} {owned : List (ℤ × Descriptor)}

/-- The pipe of a stage, which is -1, -1 for the last one. -/
theorem stagePipe_safe (hlog : LogOk chain ctx s.log) (hbytes : gateBytes s.log = 0)
    (howns : Owns e owned s.fds) (next : Bool) :
    Safe parent (parentWatch chain ctx e)
      (fun p s' => s'.manager = s.manager ∧
        ((0 ≤ p.ret ∧ s'.log = s.log ∧ Owns e (pipeEnds p.fds s.pipes ++ owned) s'.fds ∧
          (if next then 0 ≤ p.fds.1 ∧ 0 ≤ p.fds.2 else p.fds = (-1, -1)) ∧
          (next = true → s'.pipes = s.pipes + 1)) ∨
        (p.ret < 0 ∧ ∃ c, s' = s.extend [.failed c])))
      (stagePipe next) s := by
  unfold stagePipe
  cases next with
  | false => exact Safe.ret_alone hlog ⟨rfl, .inl ⟨Int.le_refl 0, rfl, howns, rfl, fun h => Bool.noConfusion h⟩⟩
  | true =>
    refine Safe.call_alone hlog hbytes fun p s' hs => ?_
    have hs : (p.ret = 0 ∧ NewPipe s.fds p.fds ∧
        s' = { s with fds := s.fds.addPipe p.fds s.pipes, pipes := s.pipes + 1 }) ∨
      (p.ret < 0 ∧ s' = s.extend [.failed .pipe]) := hs
    rcases hs with ⟨hret, hnew, rfl⟩ | ⟨hret, rfl⟩
    · have hpos : 0 ≤ p.fds.1 ∧ 0 ≤ p.fds.2 := ⟨hnew.read.1, hnew.write.1⟩
      refine Safe.ret_alone hlog ⟨rfl, .inl ⟨by omega, rfl, ?_, hpos, fun _ => rfl⟩⟩
      rw [pipeEnds_of_nonneg hpos]
      exact howns.pipe hnew s.pipes
    · exact Safe.ret_alone (hlog.append ⟨rfl, rfl⟩) ⟨rfl, .inr ⟨hret, _, rfl⟩⟩

/-- The carried read end and the gate are closed, and the children killed. -/
theorem stageUnwind_safe {pipeFd : ℤ} {d : Descriptor} (pgid : ℕ) (hb : Begun chain ctx pids s.log)
    (hmanager : s.manager = e.manager) (howns : Owns e (fdList pipeFd d ++ gateEnds gate) s.fds) {code : ℤ}
    (hcode : code < 0) :
    Safe parent (parentWatch chain ctx e) (StageDone chain ctx e gate st)
      ((closeOpen pipeFd).bind fun _ =>
      (closeFd gate.1).bind fun _ =>
      (closeFd gate.2).bind fun _ =>
      (rollbackPipeline pgid pids).bind fun _ => .ret (.error code)) s := by
  refine closeOpen_safe hb.ok howns fun fds howns => ?_
  refine closeFd_safe hb.ok howns fun fds howns => ?_
  refine closeFd_safe hb.ok howns fun fds howns => ?_
  have hjobs : s.manager.jobs = e.manager.jobs := by rw [hmanager]
  have hroll := rollback_finished (s := s.setFds fds) (rollbackPipeline_safe (e := e) pgid pids) hb howns.entry hjobs hcode
  exact hroll.map fun _ _ h => h

/-- The new pipe is closed first. -/
theorem stageUnwindPipe_safe {pipeFd : ℤ} {d : Descriptor} {p : ℤ × ℤ} {n : ℕ} (pgid : ℕ)
    (hb : Begun chain ctx pids s.log) (hmanager : s.manager = e.manager)
    (howns : Owns e (pipeEnds p n ++ (fdList pipeFd d ++ gateEnds gate)) s.fds) {code : ℤ} (hcode : code < 0) :
    Safe parent (parentWatch chain ctx e) (StageDone chain ctx e gate st)
      ((closeOpen p.1).bind fun _ =>
      (closeOpen p.2).bind fun _ =>
      (closeOpen pipeFd).bind fun _ =>
      (closeFd gate.1).bind fun _ =>
      (closeFd gate.2).bind fun _ =>
      (rollbackPipeline pgid pids).bind fun _ => .ret (.error code)) s := by
  unfold pipeEnds at howns
  rw [List.append_assoc] at howns
  refine closeOpen_safe hb.ok howns fun fds howns => ?_
  refine closeOpen_safe hb.ok howns fun fds howns => ?_
  exact stageUnwind_safe (s := s.setFds fds) pgid hb hmanager howns hcode

/-- A child was forked. -/
theorem Begun.fork {log : StartLog} (h : Begun chain ctx pids log) (hc : Clean log)
    (hroom : pids.length < chain.length) {pid : ℕ} (hpid : pid ≠ 0) :
    Begun chain ctx (pids ++ [pid]) (log ++ [.forked pid]) := by
  have hbytes : gateBytes (log ++ [.forked pid]) = 0 := by rw [gateBytes_append, hc.bytes]; rfl
  have hforks : forkedPids (log ++ [.forked pid]) = pids ++ [pid] := by rw [forkedPids_append, h.forks]; rfl
  refine ⟨LogOk.start hbytes ?_, by omega, hforks, ?_, ?_⟩
  · rw [hforks, List.length_append]
    exact hroom
  · intro p hmem
    rcases List.mem_append.mp hmem with hmem | hmem
    · exact h.waits p hmem
    · cases List.mem_singleton.mp hmem
  · intro p hmem
    rcases List.mem_append.mp hmem with hmem | hmem
    · exact h.positive p hmem
    · obtain rfl := List.mem_singleton.mp hmem
      exact hpid

theorem Clean.forked {log : StartLog} (h : Clean log) (pid : ℕ) : Clean (log ++ [.forked pid]) :=
  h.append rfl fun _ hmem => StartEvent.noConfusion (List.mem_singleton.mp hmem)

/-- The first child leads the group. -/
theorem headD_append_singleton (pids : List ℕ) (pid : ℕ) (h0 : ∀ p ∈ pids, p ≠ 0) :
    (pids ++ [pid]).headD 0 = if pids.headD 0 = 0 then pid else pids.headD 0 := by
  cases pids with
  | nil => rfl
  | cons p pids =>
    have hp : p ≠ 0 := h0 p List.mem_cons_self
    exact (if_neg hp).symm

theorem pipelineStage_safe (h : Forking chain ctx e gate st s) {current : Command} {next : Bool}
    (hcur : chain[st.pids.length]? = some current) (hnext : next = true ↔ st.pids.length + 1 < chain.length) :
    Safe parent (parentWatch chain ctx e) (StageDone chain ctx e gate st) (pipelineStage gate current next st) s := by
  have hroom : st.pids.length < chain.length := (List.getElem?_eq_some_iff.mp hcur).1
  unfold pipelineStage
  by_cases hlimit : st.pids.length ≥ MAX_PIPELINE
  · rw [if_pos hlimit]
    exact stageUnwind_safe st.pgid h.begun h.manager h.owns (by decide)
  rw [if_neg hlimit]
  refine (stagePipe_safe h.begun.ok h.clean.bytes h.owns next).bind fun p s₁ hp hlog₁ => ?_
  obtain ⟨hmanager₁, hp⟩ := hp
  rcases hp with ⟨hret, hlog, howns, hfds, hpipes⟩ | ⟨hret, c, rfl⟩
  · rw [if_neg (by omega)]
    rw [h.pipes hroom] at howns hpipes
    have hb₁ : Begun chain ctx st.pids s₁.log := hlog ▸ h.begun
    have hc₁ : Clean s₁.log := hlog ▸ h.clean
    have hfork : ForkOk chain e s₁ (.stage current next gate st.pgid st.pipeFd p.fds) := by
      unfold ForkOk
      rw [hb₁.forks]
      exact ⟨hcur, hnext, h.carried hroom, hfds, h.leader, howns⟩
    refine Safe.call_alone hlog₁ hfork fun r s₂ hs => ?_
    rcases hs with ⟨hr, -, hs⟩ | ⟨hr, hs⟩
    · have hs : s₂ = s₁.extend [.forked r.ret.toNat] := hs
      rw [if_neg (by omega)]
      have hpid : r.ret.toNat ≠ 0 := by omega
      have hb₂ : Begun chain ctx (st.pids ++ [r.ret.toNat]) s₂.log := hs ▸ hb₁.fork hc₁ hroom hpid
      have hc₂ : Clean s₂.log := hs ▸ hc₁.forked _
      have hfds₂ : s₂.fds = s₁.fds := hs ▸ rfl
      have hpipes₂ : s₂.pipes = s₁.pipes := hs ▸ rfl
      have hmanager₂ : s₂.manager = e.manager := by rw [hs]; exact hmanager₁.trans h.manager
      have hlen : (st.pids ++ [r.ret.toNat]).length = st.pids.length + 1 := List.length_append
      have hleader : (if st.pgid = 0 then r.ret.toNat else st.pgid) = (st.pids ++ [r.ret.toNat]).headD 0 := by
        rw [headD_append_singleton _ _ h.begun.positive, h.leader]
      refine (setpgidParent_safe hb₂.ok _ _).bind fun ret s₃ hout _ => ?_
      rcases hout with ⟨hret₃, hout⟩ | ⟨hret₃, c, rfl⟩
      · rw [ParentState.extend_nil] at hout
        subst hout
        rw [if_neg (by omega)]
        have howns₃ : Owns e (fdList st.pipeFd (.readEnd st.pids.length) ++
            (pipeEnds p.fds (st.pids.length + 1) ++ gateEnds gate)) s₃.fds := by
          rw [hfds₂]
          refine howns.perm ?_
          rw [← List.append_assoc, ← List.append_assoc]
          exact List.perm_append_comm.append_right _
        refine closeOpen_safe hb₂.ok howns₃ fun fds howns' => ?_
        cases next with
        | true =>
          rw [pipeEnds_of_nonneg hfds] at howns'
          have hswap : Owns e ((p.fds.2, .writeEnd (st.pids.length + 1)) ::
              ((p.fds.1, .readEnd (st.pids.length + 1)) :: gateEnds gate)) fds := howns'.perm (List.Perm.swap ..)
          refine closeFd_safe hb₂.ok hswap fun fds' howns'' => ?_
          refine Safe.ret_alone hb₂.ok ⟨⟨hb₂, hc₂, hmanager₂, ?_, fun _ => ?_, fun _ => ?_, hleader, ?_⟩, hlen⟩
          · rw [fdList_of_nonneg hfds.1, hlen]
            exact howns''
          · rw [hlen]
            exact ⟨fun _ => Nat.succ_pos _, fun _ => hfds.1⟩
          · rw [hlen]
            exact hpipes₂.trans (hpipes rfl)
          · rw [hlen]
            omega
        | false =>
          have hnone : p.fds = (-1, -1) := hfds
          rw [hnone] at howns'
          have hlast : ¬ st.pids.length + 1 < chain.length := fun hlt => Bool.noConfusion (hnext.mpr hlt)
          refine Safe.ret_alone hb₂.ok
            ⟨⟨hb₂, hc₂, hmanager₂, howns', fun hlt => ?_, fun hlt => ?_, hleader, ?_⟩, hlen⟩
          · exact absurd (hlen ▸ hlt) hlast
          · exact absurd (hlen ▸ hlt) hlast
          · rw [hlen]
            omega
      · rw [if_pos hret₃]
        exact stageUnwindPipe_safe (s := s₂.extend [.failed c]) _ (hb₂.fail c) hmanager₂ (hfds₂ ▸ howns) (by decide)
    · have hs : s₂ = s₁.extend [.failed _] := hs
      rw [if_pos hr, hs]
      exact stageUnwindPipe_safe (s := s₁.extend _) _ (hb₁.fail _) (hmanager₁.trans h.manager) howns (by decide)
  · rw [if_pos hret]
    exact stageUnwind_safe (s := s.extend _) st.pgid (h.begun.fail c) h.manager h.owns (by decide)

/-- Turn after turn; at the end there is a child for every command. -/
theorem pipelineStages_safe : ∀ (rest : List Command) {st : PipelineState} {s : ParentState},
    Forking chain ctx e gate st s → chain.drop st.pids.length = rest →
    Safe parent (parentWatch chain ctx e)
      (fun r s' => match r with
        | .error code => Returned chain e code s'
        | .ok st' => Forking chain ctx e gate st' s' ∧ st'.pids.length = chain.length)
      (pipelineStages gate rest st) s
  | [], st, s, h, hrest => by
    have hforks := h.begun.ok.forks
    rw [h.begun.forks] at hforks
    exact Safe.ret_alone h.begun.ok ⟨h, Nat.le_antisymm hforks (List.drop_eq_nil_iff.mp hrest)⟩
  | current :: rest, st, s, h, hrest => by
    have hcur : chain[st.pids.length]? = some current := by
      rw [← List.head?_drop, hrest, List.head?_cons]
    have hlen := congrArg List.length hrest
    rw [List.length_drop, List.length_cons] at hlen
    have hnext : (!rest.isEmpty) = true ↔ st.pids.length + 1 < chain.length := by
      cases rest with
      | nil =>
        rw [List.length_nil] at hlen
        exact ⟨fun h => Bool.noConfusion h, fun h => absurd h (by omega)⟩
      | cons next rest =>
        rw [List.length_cons] at hlen
        exact ⟨fun _ => by omega, fun _ => rfl⟩
    refine (pipelineStage_safe h hcur hnext).bind fun r s' hr hlog => ?_
    cases r with
    | error code => exact Safe.ret_alone hlog hr
    | ok st' =>
      obtain ⟨h', hlen'⟩ := hr
      refine pipelineStages_safe rest h' ?_
      rw [hlen', ← List.drop_drop, hrest, List.drop_one, List.tail_cons]

end Stage

/-! ### The executor -/

section Execute

variable {com : Command} {rest : List Command} {ctx : ExecContext} {e : ExecEntry} {pids : List ℕ} {gate : ℤ × ℤ}
  {s : ParentState}

/-- The gate is open and nothing was forked. -/
theorem forking_start {chain : List Command} (hchain : chain ≠ []) (hnew : NewPipe e.fds gate)
    (hs : s = ⟨e.manager, e.fds.addPipe gate 0, 1, []⟩) : Forking chain ctx e gate ⟨-1, [], 0⟩ s := by
  have hpos : 0 < chain.length := List.length_pos_iff.mpr hchain
  have hbegun : Begun chain ctx [] [] := ⟨LogOk.start rfl (Nat.zero_le _), hpos, rfl, fun _ => List.not_mem_nil,
    fun _ h => absurd h List.not_mem_nil⟩
  have hclean : Clean [] := ⟨rfl, fun _ => List.not_mem_nil⟩
  subst hs
  exact ⟨hbegun, hclean, rfl, (Owns.none e).pipe hnew 0, fun _ => ⟨fun h => absurd h (by decide), fun h => absurd h
    (Nat.lt_irrefl 0)⟩, fun _ => rfl, rfl, Nat.zero_le _⟩

theorem not_refused (hfits : (com :: rest).length ≤ MAX_PIPELINE) (hname : com.argv[0] ≠ none) :
    ¬ Refused (com :: rest) := by
  rintro (hlong | ⟨com', hcom, hnone⟩)
  · omega
  · obtain rfl : com = com' := Option.some.inj hcom
    exact hname hnone

/-- A job in the foreground is waited for, and a failure of that is undone. -/
theorem wait_only {rb : ExecProg Unit} (hrb : rb.Only AfterStart) (com : Command) (t : Terminal) (job pgid : ℕ) :
    Only AfterStart (if com.background ≠ 0 then .ret MiniShell_OK
      else (onJobs (jobWaitForeground job)).bind fun ret =>
        if ret < 0 then
          rb.bind fun _ =>
          (if t.initialized then restoreTerminal t else .ret ()).bind fun _ =>
          (removeJob pgid).bind fun _ => .ret MiniShell_ERR_UNKNOWN
        else finishForegroundJob t job : ExecProg ℤ) := by
  by_cases hbg : com.background ≠ 0
  · rw [if_pos hbg]
    trivial
  rw [if_neg hbg]
  refine (onJobs_only _).bind fun ret => ?_
  by_cases hret : ret < 0
  · rw [if_pos hret]
    refine hrb.bind fun _ => Only.bind ?_ fun _ => (removeJob_only pgid).bind fun _ => trivial
    split_ifs
    · exact (restoreTerminal_only t).mono terminal_after
    · trivial
  · rw [if_neg hret]
    exact finishForegroundJob_only t job

/-- Nothing was done. -/
theorem finished_start {chain : List Command} {code : ℤ} (hcode : code < 0) (hfds : s.fds = e.fds)
    (hmanager : s.manager = e.manager) (hforks : forkedPids s.log = []) : Returned chain e code s := by
  refine ⟨hfds, fun _ => ⟨hcode, by rw [hmanager], fun pid hpid => ?_⟩⟩
  rw [hforks] at hpid
  exact absurd hpid List.not_mem_nil

theorem executeSingle_safe (com : Command) (ctx : ExecContext) (e : ExecEntry) :
    Safe parent (parentWatch [com] ctx e) (Returned [com] e) (executeSingle com ctx) e.parent := by
  refine (startupGateCreate_safe [com] ctx e).bind fun r s h hlog => ?_
  obtain ⟨code, gate⟩ := r
  rcases h with ⟨hret, hnew, hs⟩ | ⟨hret, hfds, hmanager, c, hfailed⟩
  · have hret : 0 ≤ code := hret
    dsimp only
    rw [if_neg (by omega)]
    have hf : Forking [com] ctx e gate ⟨-1, [], 0⟩ s := forking_start (List.cons_ne_nil _ _) hnew hs
    have howns : Owns e (gateEnds gate) s.fds := hf.owns
    refine Safe.call_alone hlog ⟨rfl, hf.begun.forks, howns⟩ fun r s₁ hs₁ => ?_
    rcases hs₁ with ⟨hr, -, hs₁⟩ | ⟨hr, hs₁⟩
    · have hs₁ : s₁ = s.extend [.forked r.ret.toNat] := hs₁
      rw [if_neg (by omega)]
      have hpid : r.ret.toNat ≠ 0 := by omega
      have hb₁ : Begun [com] ctx [r.ret.toNat] s₁.log := hs₁ ▸ hf.begun.fork hf.clean Nat.one_pos hpid
      have hc₁ : Clean s₁.log := hs₁ ▸ hf.clean.forked _
      have hmanager₁ : s₁.manager = e.manager := by rw [hs₁]; exact hf.manager
      have hfds₁ : s₁.fds = s.fds := hs₁ ▸ rfl
      have hrb : IsRollback [com] ctx e [r.ret.toNat] (rollbackSingle r.ret.toNat) := rollbackSingle_safe _
      refine closeFd_safe hb₁.ok (hfds₁ ▸ howns) fun fds howns => ?_
      refine (setpgidParent_safe (s := s₁.setFds fds) hb₁.ok _ _).bind fun ret s₂ hout _ => ?_
      rcases hout with ⟨hret, hout⟩ | ⟨hret, c, rfl⟩
      · rw [ParentState.extend_nil] at hout
        subst hout
        rw [if_neg (by omega)]
        refine (jobAdd_safe (s := s₁.setFds fds) hb₁.ok hmanager₁ hpid com.argv[0]).bind fun r₃ s₃ h₃ hlog₃ => ?_
        cases r₃ with
        | none =>
          have hb₃ : Begun [com] ctx [r.ret.toNat] s₃.log := by
            rcases h₃ with rfl | ⟨c, rfl⟩
            · exact hb₁
            · exact hb₁.fail c
          have hsame : s₃.fds = fds ∧ s₃.manager = e.manager := by
            rcases h₃ with rfl | ⟨c, rfl⟩
            · exact ⟨rfl, hmanager₁⟩
            · exact ⟨rfl, hmanager₁⟩
          refine closeFd_safe hb₃.ok (hsame.1 ▸ howns) fun fds howns => ?_
          have herr : MiniShell_ERR_JOB < 0 := by decide
          have hjobs : s₃.manager.jobs = e.manager.jobs := by rw [hsame.2]
          exact (rollback_finished (s := s₃.setFds fds) hrb hb₃ howns.entry hjobs herr).map fun _ _ h => h
        | some job =>
          obtain ⟨rfl, hname, hreg, hfds₃, m, hlog⟩ := h₃
          have hfds₃ : s₃.fds = fds := hfds₃
          have hb₃ : Begun [com] ctx [r.ret.toNat] s₃.log := hlog ▸ hb₁.stored m
          have hc₃ : Clean s₃.log := hlog ▸ hc₁.stored m
          refine (processAdd_safe hlog₃ hreg hpid).bind fun ret s₄ h₄ _ => ?_
          rcases h₄ with ⟨hret, hreg₄, hfds₄, m', hlog'⟩ | ⟨hret, c, rfl⟩
          · rw [if_neg (by omega)]
            have hb₄ : Begun [com] ctx [r.ret.toNat] s₄.log := hlog' ▸ hb₃.stored m'
            have hc₄ : Clean s₄.log := hlog' ▸ hc₃.stored m'
            have hfds : s₄.fds = fds := hfds₄.trans hfds₃
            exact handOver_safe hrb (wait_only (rollbackSingle_only _) com ctx.terminal _ _) rfl
              (not_refused (Nat.le_of_ble_eq_true rfl) hname) hb₄ hc₄ rfl hreg₄ hpid (hfds ▸ howns)
          · rw [if_pos hret]
            refine closeFd_safe (hb₃.fail c).ok (hfds₃ ▸ howns) fun fds howns => ?_
            have herr : MiniShell_ERR_JOB < 0 := by decide
            exact rollback_remove (s := (s₃.extend [.failed c]).setFds fds) hrb (hb₃.fail c) howns.entry hreg.listed
              hpid (p := .ret ()) trivial herr
      · rw [if_pos hret]
        refine closeFd_safe (hb₁.fail c).ok howns fun fds howns => ?_
        have herr : MiniShell_ERR_UNKNOWN < 0 := by decide
        have hjobs : s₁.manager.jobs = e.manager.jobs := by rw [hmanager₁]
        exact (rollback_finished (s := (s₁.extend [.failed c]).setFds fds) hrb (hb₁.fail c) howns.entry hjobs herr).map
          fun _ _ h => h
    · have hs₁ : s₁ = s.extend [.failed _] := hs₁
      have hb₁ : Begun [com] ctx [] s₁.log := hs₁ ▸ hf.begun.fail _
      have hfds₁ : s₁.fds = s.fds := hs₁ ▸ rfl
      have hmanager₁ : s₁.manager = e.manager := by rw [hs₁]; exact hf.manager
      rw [if_pos hr]
      refine closeFd_safe hb₁.ok (hfds₁ ▸ howns) fun fds howns => ?_
      refine closeFd_safe hb₁.ok howns fun fds howns => ?_
      exact Safe.ret_alone hb₁.ok (finished_start (by decide) howns.entry hmanager₁ hb₁.forks)
  · have hret : code < 0 := hret
    dsimp only
    rw [if_pos hret]
    exact Safe.ret_alone hlog (finished_start (by decide) hfds hmanager (by rw [hfailed]; rfl))

/-- What follows the loop. -/
theorem launchPipeline_safe {chain : List Command} {st : PipelineState} (hcom : chain.head? = some com)
    (h : Forking chain ctx e gate st s) (hall : st.pids.length = chain.length) :
    Safe parent (parentWatch chain ctx e) (Returned chain e) (launchPipeline com ctx gate st) s := by
  have hrb : IsRollback chain ctx e st.pids (rollbackPipeline st.pgid st.pids) := rollbackPipeline_safe _ _
  have hpgid : st.pgid ≠ 0 := by
    have hshort := h.begun.short
    rw [h.leader]
    cases hpids : st.pids with
    | nil =>
      rw [hpids] at hall
      rw [← hall] at hshort
      exact absurd hshort (Nat.not_lt_zero _)
    | cons pid pids => exact h.begun.positive pid (hpids ▸ List.mem_cons_self)
  refine closeOpen_safe h.begun.ok h.owns fun fds howns => ?_
  refine closeFd_safe h.begun.ok howns fun fds' howns => ?_
  refine (jobAdd_safe (s := s.setFds fds') h.begun.ok h.manager hpgid com.argv[0]).bind fun r s₁ h₁ hlog₁ => ?_
  cases r with
  | none =>
    have hb₁ : Begun chain ctx st.pids s₁.log := by
      rcases h₁ with rfl | ⟨c, rfl⟩
      · exact h.begun
      · exact h.begun.fail c
    have hsame : s₁.fds = fds' ∧ s₁.manager = e.manager := by
      rcases h₁ with rfl | ⟨c, rfl⟩
      · exact ⟨rfl, h.manager⟩
      · exact ⟨rfl, h.manager⟩
    refine closeFd_safe hb₁.ok (hsame.1 ▸ howns) fun fds howns => ?_
    have herr : MiniShell_ERR_JOB < 0 := by decide
    have hjobs : s₁.manager.jobs = e.manager.jobs := by rw [hsame.2]
    exact (rollback_finished (s := s₁.setFds fds) hrb hb₁ howns.entry hjobs herr).map fun _ _ h => h
  | some job =>
    obtain ⟨rfl, hname, hreg, hfds₁, m, hlog⟩ := h₁
    have hb₁ : Begun chain ctx st.pids s₁.log := hlog ▸ h.begun.stored m
    have hc₁ : Clean s₁.log := hlog ▸ h.clean.stored m
    have hallowed : ¬ Refused chain := by
      rintro (hlong | ⟨com', hcom', hnone⟩)
      · have hfits := h.fits
        omega
      · obtain rfl : com = com' := Option.some.inj (hcom.symm.trans hcom')
        exact hname hnone
    refine (addProcesses_safe st.pids hb₁ hc₁ hreg h.begun.positive).bind fun ret s₂ h₂ _ => ?_
    obtain ⟨hfds₂, hb₂, hend⟩ := h₂
    have howns₂ : Owns e [(gate.2, .writeEnd 0)] s₂.fds := by
      rw [hfds₂, hfds₁]
      exact howns
    rcases hend with ⟨hret, hc₂, hreg₂⟩ | ⟨hret, hlisted⟩
    · rw [if_neg (by omega)]
      exact handOver_safe hrb (wait_only (rollbackPipeline_only _ _) com ctx.terminal _ _) hcom hallowed hb₂ hc₂ hall
        hreg₂ hpgid howns₂
    · rw [if_pos hret]
      refine closeFd_safe hb₂.ok howns₂ fun fds howns => ?_
      have herr : MiniShell_ERR_JOB < 0 := by decide
      exact rollback_remove (s := s₂.setFds fds) hrb hb₂ howns.entry hlisted hpgid (p := .ret ()) trivial herr

theorem executePipeline_safe (com : Command) (rest : List Command) (ctx : ExecContext) (e : ExecEntry) :
    Safe parent (parentWatch (com :: rest) ctx e) (Returned (com :: rest) e) (executePipeline com rest ctx)
      e.parent := by
  refine (startupGateCreate_safe (com :: rest) ctx e).bind fun r s h hlog => ?_
  obtain ⟨code, gate⟩ := r
  dsimp only
  rcases h with ⟨hret, hnew, hs⟩ | ⟨hret, hfds, hmanager, c, hfailed⟩
  · have hret : 0 ≤ code := hret
    rw [if_neg (by omega)]
    have hf : Forking (com :: rest) ctx e gate ⟨-1, [], 0⟩ s := forking_start (List.cons_ne_nil _ _) hnew hs
    refine (pipelineStages_safe (com :: rest) hf rfl).bind fun r s₁ h₁ hlog₁ => ?_
    cases r with
    | error code => exact Safe.ret_alone hlog₁ h₁
    | ok st => exact launchPipeline_safe rfl h₁.1 h₁.2
  · have hret : code < 0 := hret
    rw [if_pos hret]
    exact Safe.ret_alone hlog (finished_start (by decide) hfds hmanager (by rw [hfailed]; rfl))

/-- The parent alone: the log is fine at every step, only descriptors of its
own are closed, and a return leaves what `Returned` says. -/
theorem executeCommand_safe (chain : List Command) (ctx : ExecContext) (e : ExecEntry) :
    Safe parent (parentWatch chain ctx e) (Returned chain e) (executeCommand chain ctx) e.parent := by
  have hempty : LogOk chain ctx [] := LogOk.start rfl (Nat.zero_le _)
  cases chain with
  | nil => exact Safe.ret_alone hempty ⟨rfl, fun h => absurd h (Nat.not_lt_zero _)⟩
  | cons com rest =>
    refine Safe.call_alone hempty trivial fun m s hs => ?_
    obtain ⟨rfl, rfl⟩ : m = e.manager ∧ s = e.parent := hs
    dsimp only
    by_cases hmax : (jobCountActive e.manager : ℤ) ≥ ctx.maxJob
    · rw [if_pos hmax]
      exact Safe.ret_alone hempty (finished_start (by decide) rfl rfl rfl)
    rw [if_neg hmax]
    cases rest with
    | nil => exact executeSingle_safe com ctx e
    | cons next rest => exact executePipeline_safe com (next :: rest) ctx e

end Execute

/-! ### All or nothing -/

/-- What a return leaves. A start in which a step failed before the last gate
byte has left no job and no child, and the caller is told. -/
structure Atomic (chain : List Command) (e : ExecEntry) (ret : ℤ) (s : ParentState) : Prop where
  fds : s.fds = e.fds
  failed : Failure chain chain.length s.log → ret < 0 ∧ s.manager.jobs = e.manager.jobs ∧
    ∀ pid ∈ forkedPids s.log, .killed pid ∈ s.log ∧ .waited pid ∈ s.log

/-- Only what is open, and was not open at the entry, is closed. -/
def closeWatch (e : ExecEntry) : Watch ExecCall ParentState where
  always _ := True
  atCall c s := match c with
    | .close fd => e.fds fd = none ∧ s.fds fd ≠ none
    | _ => True

theorem Returned.atomic {chain : List Command} {ctx : ExecContext} {e : ExecEntry} {ret : ℤ} {s : ParentState}
    (h : Returned chain e ret s) (hlog : LogOk chain ctx s.log) : Atomic chain e ret s := by
  refine ⟨h.fds, fun hfail => ?_⟩
  have hpos : 0 < chain.length := by
    rcases hfail with ⟨before, c, after, -, hlt⟩ | hlong | ⟨com, hcom, -⟩
    · exact Nat.lt_of_le_of_lt (Nat.zero_le _) hlt
    · exact Nat.lt_of_le_of_lt (Nat.zero_le _) hlong
    · cases chain with
      | nil => simp at hcom
      | cons com rest => simp
  have hshort : gateBytes s.log < chain.length := hfail.bytes hlog (Nat.le_refl _) hpos
  obtain ⟨hret, hundone⟩ := h.undone hshort
  exact ⟨hret, hundone.jobs, hundone.children⟩

/-- Whatever fails, and wherever: at every return the descriptors are those of
the entry, each of the others having been closed once; and if a step of the
start failed, the jobs are those of the entry and every child that was forked
has been killed and waited for. -/
theorem executor_atomic (chain : List Command) (ctx : ExecContext) (e : ExecEntry) :
    Safe parent (closeWatch e) (Atomic chain e) (executeCommand chain ctx) e.parent := by
  refine (executeCommand_safe chain ctx e).mono (fun _ _ => trivial) ?_ fun ret s hlog h => h.atomic hlog
  intro c s h
  cases c with
  | close fd => exact h
  | _ => trivial

end DeviceRuntime
