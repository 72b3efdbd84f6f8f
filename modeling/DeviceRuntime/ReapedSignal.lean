/-
# Signals and children that are gone

A run of the executor waits for its children in two places: in
`job_wait_foreground`, for the group of the job, and in `reap_pid`, for one
child after the other. What the wait for the group finds is recorded in the
job; the sequences that undo a start work from the pids of the `fork`s. The
state has the table, the children of the run, and those that a `waitpid`
reported as terminated. All else that a call returns is arbitrary.

The wait is `cutShort` when, after a child of the run is gone, it fails other
than with `EINTR` or brings what is no child of the run. The undoing that
follows kills by pid whatever is gone.

Key definitions: `ReapState`, `ReapState.wait`, `reapSem`, `reapedWatch`,
`OwnJob`, `Spared`.
Key theorems: `jobWaitForeground_spares`, `rollbackPipeline_spares`,
`reaped_not_signalled`.
-/
import DeviceRuntime.ForegroundJob
import DeviceRuntime.Lib.Script

namespace DeviceRuntime

open Prog

/-! ### The state of a run -/

structure ReapState where
  manager : JobManager
  forked : List ℕ
  reaped : List ℕ
  cutShort : Bool
deriving DecidableEq, Repr

def Target.isGroup : Target → Bool
  | .group _ => true
  | .process _ => false

/-- What a wait for the group of the job does not go on after. -/
def WaitResult.isStray (forked : List ℕ) : WaitResult → Bool
  | .failed errno => errno ≠ EINTR
  | .nothing => true
  | .reported pid _ => pid ∉ forked

/-- The child that was reported as terminated. -/
def WaitResult.terminated : WaitResult → List ℕ
  | .reported pid status => if status.processStatus = .done then [pid] else []
  | _ => []

def ReapState.wait (s : ReapState) (target : Target) (r : WaitResult) : ReapState :=
  { s with
    reaped := r.terminated ++ s.reaped
    cutShort := s.cutShort || (target.isGroup && r.isStray s.forked && !s.reaped.isEmpty) }

def reapCall (s : ReapState) : (c : JobCall) → c.Ret → ReapState → Prop
  | .getJobs, m, s' => m = s.manager ∧ s' = s
  | .setJobs m, _, s' => s' = { s with manager := m }
  | .waitpid target _, r, s' => s' = s.wait target r
  | _, _, s' => s' = s

/-- Calls may return anything. -/
def reapSem (s : ReapState) : (c : ExecCall) → c.Ret → ReapState → Prop
  | .job c, r, s' => reapCall s c r s'
  | .fork _, r, s' => s' = if r.ret < 0 then s else { s with forked := s.forked ++ [r.ret.toNat] }
  | _, _, s' => s' = s

abbrev reaping : World ExecCall ExecCall.Ret ReapState := World.alone reapSem

def ReapState.start (m : JobManager) : ReapState := ⟨m, [], [], false⟩

/-- The process that a call signals. -/
def ExecCall.signalled : ExecCall → Option ℕ
  | .job (.kill (.process pid) _) => some pid
  | _ => none

/-- No child that is gone is signalled by its pid while the state is as `cond`
wants it. -/
def reapedWatch (cond : ReapState → Prop) : Watch ExecCall ReapState where
  always _ := True
  atCall c s := ∀ pid, c.signalled = some pid → cond s → pid ∉ s.reaped

/-- The wait for the job was not cut short. -/
abbrev Uncut (s : ReapState) : Prop := s.cutShort = false

/-! ### Calls that matter -/

/-- The calls that signal no process. -/
def Sparing (o : ExecCall) : Prop := o.signalled = none

/-- The calls that signal no process and leave the state as it is. -/
def Still : ExecCall → Prop
  | .job (.kill (.process _) _) | .job (.setJobs _) | .job (.waitpid _ _) | .fork _ => False
  | _ => True

theorem Plumbing.still {o : ExecCall} (h : Plumbing o) : Still o := by
  cases o with
  | pipe | getCloexec fd | setCloexec fd | close fd | setpgid pid pgid => trivial
  | job c | terminal c | fork child | write fd value | setRunning running => exact h.elim

theorem Still.sparing {o : ExecCall} (h : Still o) : Sparing o := by
  match o with
  | .job (.kill (.process _) _) => exact h.elim
  | .job (.kill (.group _) _) | .job .getJobs | .job (.setJobs _) | .job .malloc | .job (.waitpid _ _)
  | .job (.printf _) | .terminal _ | .pipe | .getCloexec _ | .setCloexec _ | .close _ | .fork _ | .setpgid _ _
  | .write _ _ | .setRunning _ => rfl

theorem Still.same {o : ExecCall} {s s' : ReapState} {r : o.Ret} (h : Still o) (hs : reapSem s o r s') : s' = s := by
  match o, r, hs with
  | .job (.kill (.process _) _), _, _ | .job (.setJobs _), _, _ | .job (.waitpid _ _), _, _ | .fork _, _, _ =>
    exact h.elim
  | .job .getJobs, _, hs => exact hs.2
  | .job (.kill (.group _) _), _, hs | .job .malloc, _, hs | .job (.printf _), _, hs | .terminal _, _, hs
  | .pipe, _, hs | .getCloexec _, _, hs | .setCloexec _, _, hs | .close _, _, hs | .setpgid _ _, _, hs
  | .write _ _, _, hs | .setRunning _, _, hs => exact hs

section Runs

variable {α : Type} {s : ReapState} {cond : ReapState → Prop}

theorem Sparing.watched {o : ExecCall} (h : Sparing o) (s : ReapState) : (reapedWatch cond).atCall o s := by
  intro pid hpid
  rw [h] at hpid
  cases hpid

theorem sparing_call {o : ExecCall} {k : o.Ret → ExecProg α} {Q : α → ReapState → Prop} (ho : Sparing o)
    (hk : ∀ r s', reapSem s o r s' → Safe reaping (reapedWatch cond) Q (k r) s') :
    Safe reaping (reapedWatch cond) Q (.call o k) s := Safe.call_alone trivial (ho.watched s) hk

/-- Whatever signals no process is fine. -/
theorem sparing_safe {p : ExecProg α} (hp : p.Only Sparing) (s : ReapState) :
    Safe reaping (reapedWatch cond) (fun _ _ => True) p s :=
  hp.safe (P := fun _ => True) (stable_alone _) (fun _ _ => trivial) (fun _ s ho _ => ho.watched s)
    (fun _ _ _ _ _ _ _ => trivial) trivial

theorem still_safe {p : ExecProg α} (hp : p.Only Still) (s : ReapState) :
    Safe reaping (reapedWatch cond) (fun _ s' => s' = s) p s :=
  hp.safe (P := fun s' => s' = s) (stable_alone _) (fun _ _ => trivial) (fun _ s ho _ => ho.sparing.watched s)
    (fun _ _ _ _ ho h hs => (ho.same hs).trans h) rfl

/-! ### Programs that leave the state as it is -/

theorem onTerminal_still (p : TerminalProg α) : (onTerminal p).Only Still := by
  have hcall : ∀ c, Only Still (.call (.terminal c) .ret : ExecProg c.Ret) := fun _ => ⟨trivial, fun _ => trivial⟩
  exact Only.link hcall p

theorem writeGate_still (fd : ℤ) : (writeGate fd).Only Still := by
  refine ⟨fun _ => ⟨trivial, fun r => ?_⟩, fun _ => trivial⟩
  dsimp only
  split_ifs <;> trivial

theorem startupGateRelease_still (fd : ℤ) : ∀ count, (startupGateRelease fd count).Only Still
  | 0 => trivial
  | count + 1 => by
    refine (writeGate_still fd).bind fun ret => ?_
    split_ifs
    · trivial
    · exact startupGateRelease_still fd count

theorem killGroup_still (pgid : ℕ) : (killGroup pgid).Only Still := by
  unfold killGroup
  split_ifs
  · trivial
  · exact ⟨trivial, fun _ => trivial⟩

theorem restoreTerminal_still (t : Terminal) : (restoreTerminal t).Only Still :=
  (onTerminal_still _).bind fun _ => trivial

/-! ### Programs that signal no process -/

theorem reapPid_sparing (pid : ℕ) : (reapPid pid).Only Sparing := by
  unfold reapPid
  split_ifs
  · trivial
  refine ⟨fun _ => ⟨rfl, fun r => ?_⟩, fun _ => trivial⟩
  cases r with
  | failed errno =>
    dsimp only
    split_ifs <;> trivial
  | nothing => trivial
  | reported pid status => trivial

theorem removeJob_sparing (pgid : ℕ) : (removeJob pgid).Only Sparing :=
  ⟨rfl, fun _ => ⟨rfl, fun _ => trivial⟩⟩

theorem modifyJob_sparing (id : ℕ) (f : Job → Job) : (onJobs (modifyJob id f)).Only Sparing :=
  ⟨rfl, fun _ => ⟨rfl, fun _ => trivial⟩⟩

theorem keepModes_sparing (t : Terminal) (job : Job) : (keepModes t job).Only Sparing := by
  refine ((onTerminal_still _).mono fun _ h => h.sparing).bind fun r => ?_
  split_ifs
  · exact modifyJob_sparing _ _
  · trivial

theorem finishForegroundJob_sparing (t : Terminal) (id : ℕ) : (finishForegroundJob t id).Only Sparing := by
  refine ⟨rfl, fun m => ?_⟩
  dsimp only
  cases m.find id with
  | none => trivial
  | some job =>
    refine Only.bind ?_ fun _ => Only.bind ?_ fun ret => ?_
    · split_ifs
      · exact keepModes_sparing t job
      · trivial
    · split_ifs
      · exact (onTerminal_still _).mono fun _ h => h.sparing
      · trivial
    · split_ifs
      · exact ⟨rfl, fun _ => trivial⟩
      · exact ⟨rfl, fun _ => trivial⟩
      · trivial
      · exact (removeJob_sparing _).bind fun _ => trivial
      · exact (removeJob_sparing _).bind fun _ => trivial

/-! ### Undoing a start -/

/-- Of these children none is signalled although it is gone. -/
def Spared (cond : ReapState → Prop) (pids : List ℕ) (s : ReapState) : Prop :=
  ∀ pid ∈ pids, pid ≠ 0 → cond s → pid ∉ s.reaped

theorem Spared.none_reaped {pids : List ℕ} (h : s.reaped = []) : Spared cond pids s := by
  intro pid _ _ _
  rw [h]
  exact List.not_mem_nil

theorem killPid_spares {pid : ℕ} (h : pid ≠ 0 → cond s → pid ∉ s.reaped) :
    Safe reaping (reapedWatch cond) (fun _ s' => s' = s) (killPid pid) s := by
  unfold killPid
  by_cases hpid : pid = 0
  · rw [if_pos hpid]
    exact Safe.ret_alone trivial rfl
  rw [if_neg hpid]
  refine Safe.call_alone trivial ?_ fun r s' hs => Safe.ret_alone trivial hs
  intro pid' heq hcond
  obtain rfl := Option.some.inj heq
  exact h hpid hcond

theorem killPids_spares : ∀ {pids : List ℕ}, Spared cond pids s →
    Safe reaping (reapedWatch cond) (fun _ s' => s' = s) (pids.foldlM (fun _ pid => killPid pid) ()) s
  | [], _ => Safe.ret_alone trivial rfl
  | pid :: pids, h => by
    rw [List.foldlM_cons]
    refine (killPid_spares (h pid List.mem_cons_self)).bind fun _ s' hs _ => ?_
    rw [hs]
    exact killPids_spares fun p hp => h p (List.mem_cons_of_mem _ hp)

/-- The group, each child, then the waits. -/
theorem rollbackPipeline_spares {pids : List ℕ} (pgid : ℕ) (h : Spared cond pids s) :
    Safe reaping (reapedWatch cond) (fun _ _ => True) (rollbackPipeline pgid pids) s := by
  refine (still_safe (killGroup_still pgid) s).bind fun _ s' hs _ => ?_
  subst hs
  refine (killPids_spares h).bind fun _ s'' hs _ => ?_
  exact sparing_safe (Only.foldlM (fun _ pid => reapPid_sparing pid) pids ()) s''

theorem rollbackSingle_spares {pid : ℕ} (h : Spared cond [pid] s) :
    Safe reaping (reapedWatch cond) (fun _ _ => True) (rollbackSingle pid) s := by
  unfold rollbackSingle
  by_cases hpid : pid = 0
  · rw [if_pos hpid]
    exact Safe.ret_alone trivial trivial
  rw [if_neg hpid]
  refine (still_safe (killGroup_still pid) s).bind fun _ s' hs _ => ?_
  subst hs
  refine (killPid_spares (h pid (List.mem_singleton_self pid))).bind fun _ s'' hs _ => ?_
  exact sparing_safe (reapPid_sparing pid) s''

/-! ### The job of the run -/

/-- The pointer is to the job of the run, with the children of the run. -/
def OwnJob (id : ℕ) (pids : List ℕ) (m : JobManager) : Prop := HasJob id pids m ∧ ∀ pid ∈ pids, pid ≠ 0

theorem OwnJob.modify {id : ℕ} {pids : List ℕ} {m : JobManager} (h : OwnJob id pids m) {f : Job → Job}
    (hf : KeepsShape f) : OwnJob id pids (m.modify id f) := ⟨h.1.modify hf, h.2⟩

/-- What is not found in the job is none of its children. -/
theorem OwnJob.stranger {job : Job} {pid : ℕ} (hnone : processFind job pid = none) (h0 : ∀ p ∈ job.pids, p ≠ 0) :
    pid ∉ job.pids := by
  intro hmem
  unfold processFind at hnone
  rw [if_neg (h0 pid hmem)] at hnone
  obtain ⟨p, hp, hpid⟩ := List.mem_map.mp hmem
  have hall := List.find?_eq_none.mp hnone p hp
  exact hall (by simpa using hpid)

/-- The state with another table. -/
def ReapState.store (s : ReapState) (m : JobManager) : ReapState := { s with manager := m }

/-- The functions of the table, with their calls alone. -/
abbrev reapingJobs : World JobCall JobCall.Ret ReapState := World.alone reapCall

def reapedJobWatch (cond : ReapState → Prop) : Watch JobCall ReapState where
  always _ := True
  atCall c s := (reapedWatch cond).atCall (.job c) s

theorem onJobs_spares {p : JobProg α} {Q : α → ReapState → Prop} (h : Safe reapingJobs (reapedJobWatch cond) Q p s) :
    Safe reaping (reapedWatch cond) Q (onJobs p) s :=
  h.embed ExecCall.job (fun _ r => r) (fun _ _ h => h) (fun _ _ _ _ h => h) (fun _ _ => trivial) (fun _ _ h => h)

theorem sparing_job {c : JobCall} {k : c.Ret → JobProg α} {Q : α → ReapState → Prop} (hc : Sparing (.job c))
    (hk : ∀ r s', reapCall s c r s' → Safe reapingJobs (reapedJobWatch cond) Q (k r) s') :
    Safe reapingJobs (reapedJobWatch cond) Q (.call c k) s := Safe.call_alone trivial (hc.watched s) hk

theorem reapCall_table (c : JobCall) (s : ReapState) (r : c.Ret) (s' : ReapState) (hs : reapCall s c r s') :
    tableCall s.manager c r s'.manager := by
  cases c with
  | getJobs => exact ⟨hs.1, congrArg ReapState.manager hs.2⟩
  | setJobs m => exact congrArg ReapState.manager hs
  | malloc => exact congrArg ReapState.manager hs
  | waitpid target flags =>
    have hs : s' = s.wait target r := hs
    rw [hs]
    rfl
  | kill target sig => exact congrArg ReapState.manager hs
  | printf line => exact congrArg ReapState.manager hs

/-- The table is a part of the state of the run. -/
def reapingTable (cond : ReapState → Prop) : HasTable reaping (reapedWatch cond) where
  manager := ReapState.manager
  store := ReapState.store
  manager_store _ _ := rfl
  store_manager _ := rfl
  store_store _ _ _ := rfl
  alone _ _ he := he
  call := reapCall_table
  frame c s r s' hc hs := by
    cases c with
    | waitpid target flags => exact hc.elim
    | kill target sig => exact hc.elim
    | getJobs =>
      obtain ⟨-, rfl⟩ : r = s.manager ∧ s' = s := hs
      rfl
    | setJobs m | malloc | printf line =>
      have hs : s' = _ := hs
      rw [hs]
      rfl
  always _ := trivial
  atCall c s hc := by
    have hsparing : Sparing (.job c) := by
      cases c with
      | kill target sig => exact hc.elim
      | getJobs | setJobs m | malloc | waitpid target flags | printf line => rfl
    exact hsparing.watched s

/-! ### The wait for the job -/

/-- A wait that is stray, and not cut short, comes before any child is gone. -/
theorem spared_stray {pids : List ℕ} {target : Target} {r : WaitResult} (htarget : target.isGroup = true)
    (hstray : r.isStray s.forked = true) (hother : ∀ pid ∈ pids, pid ∉ r.terminated) :
    Spared Uncut pids (s.wait target r) := by
  intro pid hpid _ huncut hmem
  have hcut : (s.cutShort || (target.isGroup && r.isStray s.forked && !s.reaped.isEmpty)) = false := huncut
  rw [htarget, hstray] at hcut
  have hempty : s.reaped.isEmpty = true := by simpa using (Bool.or_eq_false_iff.mp hcut).2
  have hmem : pid ∈ r.terminated ++ s.reaped := hmem
  rw [List.isEmpty_iff.mp hempty, List.append_nil] at hmem
  exact hother pid hpid hmem

theorem modifyJob_own {id : ℕ} {pids : List ℕ} {f : Job → Job} {rest : Unit → JobProg α} {Q : α → ReapState → Prop}
    (hf : KeepsShape f) (h : OwnJob id pids s.manager)
    (hrest : ∀ m, OwnJob id pids m → Safe reapingJobs (reapedJobWatch cond) Q (rest ()) (s.store m)) :
    Safe reapingJobs (reapedJobWatch cond) Q ((modifyJob id f).bind rest) s := by
  refine sparing_job rfl fun m s₁ hs => ?_
  obtain ⟨rfl, rfl⟩ : m = s.manager ∧ s₁ = s := hs
  refine sparing_job rfl fun _ s₂ hs => ?_
  have hs : s₂ = s₁.store (s₁.manager.modify id f) := hs
  subst hs
  exact hrest _ (h.modify hf)

/-- A turn either finds its job changed, ends the wait, or gives it up with no
child to be killed that is gone. -/
theorem waitTurn_spares {id : ℕ} {pids : List ℕ} (h : OwnJob id pids s.manager) (hforked : s.forked = pids) :
    Safe reapingJobs (reapedJobWatch Uncut)
      (Sum.elim (fun _ s' => OwnJob id pids s'.manager ∧ s'.forked = pids)
        fun ret s' => ret < 0 → Spared Uncut pids s')
      (waitTurn id) s := by
  obtain ⟨job, hfind, hpgid, hpids, -⟩ := h.1.spec
  refine sparing_job rfl fun m s₁ hs => ?_
  obtain ⟨rfl, rfl⟩ : m = s.manager ∧ s₁ = s := hs
  rw [hfind]
  dsimp only
  rw [if_neg hpgid]
  by_cases hrunning : job.status ≠ .running
  · rw [if_pos hrunning]
    exact Safe.ret_alone trivial fun h => absurd h (by decide)
  rw [if_neg hrunning]
  refine sparing_job rfl fun r s₂ hs => ?_
  have hs : s₂ = s₁.wait (.group job.pgid) r := hs
  subst hs
  cases r with
  | failed errno =>
    dsimp only
    by_cases heintr : errno = EINTR
    · rw [if_pos heintr]
      exact Safe.ret_alone trivial ⟨h, hforked⟩
    · rw [if_neg heintr]
      exact Safe.ret_alone trivial fun _ => spared_stray rfl (decide_eq_true heintr) fun _ _ => List.not_mem_nil
  | nothing => exact Safe.ret_alone trivial fun _ => spared_stray rfl rfl fun _ _ => List.not_mem_nil
  | reported pid status =>
    dsimp only
    by_cases hnone : processFind job pid = none
    · rw [if_pos hnone]
      have hother : pid ∉ job.pids := OwnJob.stranger hnone (hpids ▸ h.2)
      rw [hpids] at hother
      refine Safe.ret_alone trivial fun _ => spared_stray rfl (decide_eq_true (hforked ▸ hother)) fun p hp hmem => ?_
      have hterm : (WaitResult.reported pid status).terminated =
        if status.processStatus = .done then [pid] else [] := rfl
      rw [hterm] at hmem
      split_ifs at hmem
      · exact hother (List.mem_singleton.mp hmem ▸ hp)
      · exact absurd hmem List.not_mem_nil
    · rw [if_neg hnone]
      have hshape : KeepsShape fun job : Job => job.modifyProcess pid fun p => processApplyWaitStatus p status :=
        keepsShape_modifyProcess fun _ => rfl
      refine modifyJob_own hshape h fun m hm => ?_
      refine modifyJob_own keepsShape_update hm fun m' hm' => ?_
      exact Safe.ret_alone trivial ⟨hm', hforked⟩

theorem jobWaitForeground_spares {id : ℕ} {pids : List ℕ} (h : OwnJob id pids s.manager) (hforked : s.forked = pids) :
    Safe reaping (reapedWatch Uncut) (fun ret s' => ret < 0 → Spared Uncut pids s')
      (onJobs (jobWaitForeground id)) s := by
  refine onJobs_spares ?_
  exact Safe.iter (I := fun _ s => OwnJob id pids s.manager ∧ s.forked = pids) (fun _ => stable_alone _)
    (fun _ => stable_alone _) (fun _ _ _ => trivial) (fun _ _ _ => trivial)
    (fun _ s hs => waitTurn_spares hs.1 hs.2) ⟨h, hforked⟩

/-! ### The executor -/

theorem still_bind {β : Type} {p : ExecProg β} {rest : β → ExecProg α} {Q : α → ReapState → Prop} (hp : p.Only Still)
    (hrest : ∀ b, Safe reaping (reapedWatch cond) Q (rest b) s) :
    Safe reaping (reapedWatch cond) Q (p.bind rest) s := by
  refine (still_safe hp s).bind fun b s' hs _ => ?_
  rw [hs]
  exact hrest b

theorem plumbing_bind {β : Type} {p : ExecProg β} {rest : β → ExecProg α} {Q : α → ReapState → Prop}
    (hp : p.Only Plumbing) (hrest : ∀ b, Safe reaping (reapedWatch cond) Q (rest b) s) :
    Safe reaping (reapedWatch cond) Q (p.bind rest) s := still_bind (hp.mono fun _ h => h.still) hrest

/-- Undoing a start is fine when no child that it kills is gone. -/
def RollbackSpares (pids : List ℕ) (rb : ExecProg Unit) : Prop :=
  ∀ s, Spared Uncut pids s → Safe reaping (reapedWatch Uncut) (fun _ _ => True) rb s

theorem RollbackSpares.bind {pids : List ℕ} {rb : ExecProg Unit} {rest : Unit → ExecProg α}
    (hrb : RollbackSpares pids rb) (h : Spared Uncut pids s) (hrest : ∀ u, (rest u).Only Sparing) :
    Safe reaping (reapedWatch Uncut) (fun _ _ => True) (rb.bind rest) s :=
  (hrb s h).bind fun u s' _ _ => sparing_safe (hrest u) s'

theorem restore_sparing (t : Terminal) (restores : Prop) [Decidable restores] :
    Only Sparing (if restores then restoreTerminal t else .ret () : ExecProg Unit) := by
  split_ifs
  · exact (restoreTerminal_still t).mono fun _ h => h.sparing
  · trivial

/-- From the job in the table to the end of the call. -/
theorem handOver_spares {com : Command} {ctx : ExecContext} {pids : List ℕ} {rb : ExecProg Unit} {gate : ℤ}
    {id pgid count : ℕ} (hrb : RollbackSpares pids rb) (h : OwnJob id pids s.manager) (hforked : s.forked = pids)
    (hreaped : s.reaped = []) :
    Safe reaping (reapedWatch Uncut) (fun _ _ => True)
      ((if com.background = 0 ∧ ctx.terminal.initialized then
        onTerminal (terminalSetForeground ctx.terminal pgid) else .ret 0).bind fun ret =>
      if ret < 0 then
        (closeFd gate).bind fun _ =>
        rb.bind fun _ =>
        (removeJob pgid).bind fun _ =>
        (restoreTerminal ctx.terminal).bind fun _ => .ret MiniShell_ERR_UNKNOWN
      else (startupGateRelease gate count).bind fun ret =>
        if ret < 0 then
          (closeFd gate).bind fun _ =>
          rb.bind fun _ =>
          (removeJob pgid).bind fun _ =>
          (if com.background = 0 ∧ ctx.terminal.initialized then restoreTerminal ctx.terminal
            else .ret ()).bind fun _ => .ret MiniShell_ERR_UNKNOWN
        else (closeFd gate).bind fun _ =>
          if com.background ≠ 0 then .ret MiniShell_OK
          else (onJobs (jobWaitForeground id)).bind fun ret =>
            if ret < 0 then
              rb.bind fun _ =>
              (if ctx.terminal.initialized then restoreTerminal ctx.terminal else .ret ()).bind fun _ =>
              (removeJob pgid).bind fun _ => .ret MiniShell_ERR_UNKNOWN
            else finishForegroundJob ctx.terminal id : ExecProg ℤ) s := by
  have hgive : Only Still (if com.background = 0 ∧ ctx.terminal.initialized then
      onTerminal (terminalSetForeground ctx.terminal pgid) else .ret 0 : ExecProg ℤ) := by
    split_ifs
    · exact onTerminal_still _
    · trivial
  refine still_bind hgive fun ret => ?_
  by_cases hret : ret < 0
  · rw [if_pos hret]
    refine plumbing_bind (closeFd_plumbing gate) fun _ => hrb.bind (Spared.none_reaped hreaped) fun _ => ?_
    refine (removeJob_sparing pgid).bind fun _ => Only.bind ?_ fun _ => trivial
    exact (restoreTerminal_still _).mono fun _ h => h.sparing
  rw [if_neg hret]
  refine still_bind (startupGateRelease_still gate count) fun ret => ?_
  by_cases hret : ret < 0
  · rw [if_pos hret]
    refine plumbing_bind (closeFd_plumbing gate) fun _ => hrb.bind (Spared.none_reaped hreaped) fun _ => ?_
    exact (removeJob_sparing pgid).bind fun _ => (restore_sparing _ _).bind fun _ => trivial
  rw [if_neg hret]
  refine plumbing_bind (closeFd_plumbing gate) fun _ => ?_
  by_cases hbg : com.background ≠ 0
  · rw [if_pos hbg]
    exact Safe.ret_alone trivial trivial
  rw [if_neg hbg]
  refine (jobWaitForeground_spares h hforked).bind fun ret s' hspared _ => ?_
  by_cases hret : ret < 0
  · rw [if_pos hret]
    refine hrb.bind (hspared hret) fun _ => (restore_sparing _ _).bind fun _ => ?_
    exact (removeJob_sparing pgid).bind fun _ => trivial
  · rw [if_neg hret]
    exact sparing_safe (finishForegroundJob_sparing _ _) s'

theorem executeSingle_spares (com : Command) (ctx : ExecContext) (m : JobManager) :
    Safe reaping (reapedWatch Uncut) (fun _ _ => True) (executeSingle com ctx) (.start m) := by
  refine plumbing_bind startupGateCreate_plumbing fun r => ?_
  obtain ⟨code, gate⟩ := r
  dsimp only
  by_cases hcode : code < 0
  · rw [if_pos hcode]
    exact Safe.ret_alone trivial trivial
  rw [if_neg hcode]
  refine sparing_call rfl fun r s₁ hs => ?_
  have hs : s₁ = if r.ret < 0 then ReapState.start m else { ReapState.start m with forked := [r.ret.toNat] } := hs
  by_cases hr : r.ret < 0
  · rw [if_pos hr]
    refine plumbing_bind (closeFd_plumbing _) fun _ => plumbing_bind (closeFd_plumbing _) fun _ => ?_
    exact Safe.ret_alone trivial trivial
  rw [if_neg hr] at hs
  rw [if_neg hr]
  have hrb : RollbackSpares [r.ret.toNat] (rollbackSingle r.ret.toNat) := fun _ h => rollbackSingle_spares h
  have hforked : s₁.forked = [r.ret.toNat] := hs ▸ rfl
  have hreaped : s₁.reaped = [] := hs ▸ rfl
  refine plumbing_bind (closeFd_plumbing _) fun _ => plumbing_bind (setpgidParent_plumbing _ _) fun ret => ?_
  by_cases hret : ret < 0
  · rw [if_pos hret]
    refine plumbing_bind (closeFd_plumbing _) fun _ => hrb.bind (Spared.none_reaped hreaped) fun _ => trivial
  rw [if_neg hret]
  refine ((reapingTable Uncut).safe (jobAdd_only _ _) (jobAdd_has _ _ _)).bind fun id s₂ hadded _ => ?_
  obtain ⟨m₂, rfl, hadded⟩ := hadded
  cases id with
  | none => exact plumbing_bind (closeFd_plumbing _) fun _ => hrb.bind (Spared.none_reaped hreaped) fun _ => trivial
  | some id =>
    refine ((reapingTable Uncut).safe (processAdd_only _ _) (processAdd_has _ (hadded id rfl))).bind fun ret s₃ hadded _ => ?_
    obtain ⟨m₃, rfl, hadded⟩ := hadded
    by_cases hret : ret < 0
    · rw [if_pos hret]
      refine plumbing_bind (closeFd_plumbing _) fun _ => hrb.bind (Spared.none_reaped hreaped) fun _ => ?_
      exact (removeJob_sparing _).bind fun _ => trivial
    · rw [if_neg hret]
      obtain ⟨hpid, hjob⟩ := hadded (by omega)
      refine handOver_spares hrb ⟨hjob, fun p hp => ?_⟩ hforked hreaped
      rw [List.mem_singleton.mp hp]
      exact hpid

/-- What a turn of the loop leaves when it goes on. -/
def StageSpares (r : Except ℤ PipelineState) (s : ReapState) : Prop :=
  ∀ st, r = .ok st → s.forked = st.pids ∧ s.reaped = []

theorem stage_error {pids : List ℕ} {pgid : ℕ} {code : ℤ} (hreaped : s.reaped = []) :
    Safe reaping (reapedWatch Uncut) StageSpares
      ((rollbackPipeline pgid pids).bind fun _ => .ret (.error code)) s :=
  Safe.map (rollbackPipeline_spares pgid (Spared.none_reaped hreaped)) fun _ _ _ _ h => by cases h

/-- A turn of the loop forks a child, or undoes the start with no child gone. -/
theorem pipelineStage_spares {gate : ℤ × ℤ} {current : Command} {next : Bool} {st : PipelineState}
    (hforked : s.forked = st.pids) (hreaped : s.reaped = []) :
    Safe reaping (reapedWatch Uncut) StageSpares (pipelineStage gate current next st) s := by
  unfold pipelineStage
  by_cases hfull : st.pids.length ≥ MAX_PIPELINE
  · rw [if_pos hfull]
    refine plumbing_bind (closeOpen_plumbing _) fun _ => plumbing_bind (closeFd_plumbing _) fun _ => ?_
    exact plumbing_bind (closeFd_plumbing _) fun _ => stage_error hreaped
  rw [if_neg hfull]
  refine plumbing_bind (stagePipe_plumbing next) fun p => ?_
  by_cases hp : p.ret < 0
  · rw [if_pos hp]
    refine plumbing_bind (closeOpen_plumbing _) fun _ => plumbing_bind (closeFd_plumbing _) fun _ => ?_
    exact plumbing_bind (closeFd_plumbing _) fun _ => stage_error hreaped
  rw [if_neg hp]
  refine sparing_call rfl fun r s₁ hs => ?_
  have hs : s₁ = if r.ret < 0 then s else { s with forked := s.forked ++ [r.ret.toNat] } := hs
  by_cases hr : r.ret < 0
  · rw [if_pos hr] at hs
    rw [if_pos hr, hs]
    refine plumbing_bind (closeOpen_plumbing _) fun _ => plumbing_bind (closeOpen_plumbing _) fun _ => ?_
    refine plumbing_bind (closeOpen_plumbing _) fun _ => plumbing_bind (closeFd_plumbing _) fun _ => ?_
    exact plumbing_bind (closeFd_plumbing _) fun _ => stage_error hreaped
  rw [if_neg hr] at hs
  have hforked₁ : s₁.forked = st.pids ++ [r.ret.toNat] := by rw [hs, ← hforked]
  have hreaped₁ : s₁.reaped = [] := by rw [hs, ← hreaped]
  rw [if_neg hr]
  refine plumbing_bind (setpgidParent_plumbing _ _) fun ret => ?_
  by_cases hret : ret < 0
  · rw [if_pos hret]
    refine plumbing_bind (closeOpen_plumbing _) fun _ => plumbing_bind (closeOpen_plumbing _) fun _ => ?_
    refine plumbing_bind (closeOpen_plumbing _) fun _ => plumbing_bind (closeFd_plumbing _) fun _ => ?_
    exact plumbing_bind (closeFd_plumbing _) fun _ => stage_error hreaped₁
  rw [if_neg hret]
  refine plumbing_bind (closeOpen_plumbing _) fun _ => ?_
  have hgoes : ∀ pipeFd pgid, StageSpares (.ok ⟨pipeFd, st.pids ++ [r.ret.toNat], pgid⟩) s₁ := by
    intro pipeFd pgid st' heq
    obtain rfl := Except.ok.inj heq
    exact ⟨hforked₁, hreaped₁⟩
  cases next with
  | true => exact plumbing_bind (closeFd_plumbing _) fun _ => Safe.ret_alone trivial (hgoes _ _)
  | false => exact Safe.ret_alone trivial (hgoes _ _)

theorem pipelineStages_spares {gate : ℤ × ℤ} : ∀ (rest : List Command) {st : PipelineState} {s : ReapState},
    s.forked = st.pids → s.reaped = [] →
    Safe reaping (reapedWatch Uncut) StageSpares (pipelineStages gate rest st) s
  | [], st, s, hforked, hreaped => by
    refine Safe.ret_alone trivial fun st' heq => ?_
    obtain rfl := Except.ok.inj heq
    exact ⟨hforked, hreaped⟩
  | current :: rest, st, s, hforked, hreaped => by
    refine (pipelineStage_spares hforked hreaped).bind fun r s' hr _ => ?_
    cases r with
    | error code => exact Safe.ret_alone trivial fun _ heq => by cases heq
    | ok st' =>
      obtain ⟨hforked', hreaped'⟩ := hr st' rfl
      exact pipelineStages_spares rest hforked' hreaped'

theorem launchPipeline_spares {com : Command} {ctx : ExecContext} {gate : ℤ × ℤ} {st : PipelineState}
    (hforked : s.forked = st.pids) (hreaped : s.reaped = []) :
    Safe reaping (reapedWatch Uncut) (fun _ _ => True) (launchPipeline com ctx gate st) s := by
  have hrb : RollbackSpares st.pids (rollbackPipeline st.pgid st.pids) := fun _ h => rollbackPipeline_spares _ h
  refine plumbing_bind (closeOpen_plumbing _) fun _ => plumbing_bind (closeFd_plumbing _) fun _ => ?_
  refine ((reapingTable Uncut).safe (jobAdd_only _ _) (jobAdd_has _ _ _)).bind fun id s₁ hadded _ => ?_
  obtain ⟨m, rfl, hadded⟩ := hadded
  cases id with
  | none => exact plumbing_bind (closeFd_plumbing _) fun _ => hrb.bind (Spared.none_reaped hreaped) fun _ => trivial
  | some id =>
    dsimp only
    rw [addProcesses_eq]
    refine ((reapingTable Uncut).safe (addJobProcesses_only _ _) (addJobProcesses_has st.pids (hadded id rfl))).bind
      fun ret s₂ hadded _ => ?_
    obtain ⟨m', rfl, hadded⟩ := hadded
    by_cases hret : ret < 0
    · rw [if_pos hret]
      refine plumbing_bind (closeFd_plumbing _) fun _ => hrb.bind (Spared.none_reaped hreaped) fun _ => ?_
      exact (removeJob_sparing _).bind fun _ => trivial
    · rw [if_neg hret]
      obtain ⟨h0, hjob⟩ := hadded (by omega)
      exact handOver_spares hrb ⟨hjob, h0⟩ hforked hreaped

theorem executePipeline_spares (com : Command) (rest : List Command) (ctx : ExecContext) (m : JobManager) :
    Safe reaping (reapedWatch Uncut) (fun _ _ => True) (executePipeline com rest ctx) (.start m) := by
  refine plumbing_bind startupGateCreate_plumbing fun r => ?_
  obtain ⟨code, gate⟩ := r
  dsimp only
  by_cases hcode : code < 0
  · rw [if_pos hcode]
    exact Safe.ret_alone trivial trivial
  rw [if_neg hcode]
  refine (pipelineStages_spares (com :: rest) rfl rfl).bind fun r s' hr _ => ?_
  cases r with
  | error code => exact Safe.ret_alone trivial trivial
  | ok st =>
    obtain ⟨hforked, hreaped⟩ := hr st rfl
    exact launchPipeline_spares hforked hreaped

end Runs

/-- As long as the wait for the job is not cut short, no child that a `waitpid`
of the run reported as terminated is signalled. -/
theorem reaped_not_signalled (com : Command) (rest : List Command) (ctx : ExecContext) (m : JobManager) :
    Safe reaping (reapedWatch Uncut) (fun _ _ => True) (executeSingle com ctx) (.start m) ∧
    Safe reaping (reapedWatch Uncut) (fun _ _ => True) (executePipeline com rest ctx) (.start m) :=
  ⟨executeSingle_spares com ctx m, executePipeline_spares com rest ctx m⟩

/-- The first of two children ends and is reported; the other has left the
group, so the next wait for the group fails. -/
def leftGroupJob (s : ReapState) : (c : JobCall) → c.Ret × ReapState
  | .getJobs => (s.manager, s)
  | .setJobs m => ((), s.store m)
  | .malloc => (true, s)
  | .waitpid target _ =>
    let r : WaitResult := if s.reaped.isEmpty then .reported 7 (.exited 0) else .failed ECHILD
    (r, s.wait target r)
  | .kill _ _ => (⟨0, 0⟩, s)
  | .printf _ => ((), s)

def leftGroup : Script ExecCall ExecCall.Ret ReapState
  | s, .job c => leftGroupJob s c
  | s, .terminal (.tcsetpgrp _) | s, .terminal (.tcsetattr _) => (⟨0, 0⟩, s)
  | s, .terminal .tcgetattr => (⟨0, 0, 0⟩, s)
  | s, .pipe => (⟨0, 0, (3, 4)⟩, s)
  | s, .getCloexec _ | s, .setCloexec _ | s, .setpgid _ _ => (⟨0, 0⟩, s)
  | s, .fork _ => (⟨7 + s.forked.length, 0⟩, { s with forked := s.forked ++ [7 + s.forked.length] })
  | s, .write _ _ => (⟨1, 0⟩, s)
  | s, .close _ | s, .setRunning _ => ((), s)

theorem leftGroup_allowed : leftGroup.Allowed reaping := by
  intro s o
  match o with
  | .job .getJobs => exact ⟨rfl, rfl⟩
  | .fork _ => exact (if_neg (by simp [leftGroup]; omega)).symm
  | .job (.setJobs _) | .job .malloc | .job (.waitpid _ _) | .job (.kill (.process _) _)
  | .job (.kill (.group _) _) | .job (.printf _) | .terminal (.tcsetpgrp _) | .terminal .tcgetattr
  | .terminal (.tcsetattr _) | .pipe | .getCloexec _ | .setCloexec _ | .close _ | .setpgid _ _ | .write _ _
  | .setRunning _ => rfl

/-- A command without arguments, in the foreground. -/
def foregroundCommand : Command :=
  ⟨1, (Vector.replicate MAX_ARGS none).set 0 (some (text "a")) argv_pos, 0, ⟨none, none, 0⟩, argv_one⟩

/-- The wait fails after the first child is gone, and the pipeline is undone. -/
theorem reaped_signalled : ¬ ∀ com rest ctx m,
    Safe reaping (reapedWatch fun _ => True) (fun _ _ => True) (executeSingle com ctx) (.start m) ∧
    Safe reaping (reapedWatch fun _ => True) (fun _ _ => True) (executePipeline com rest ctx) (.start m) := by
  intro h
  obtain ⟨-, h⟩ := h foregroundCommand [foregroundCommand] ⟨8, ⟨false, 0, none⟩⟩ jobmanagerInit
  obtain ⟨x, htest, -, hcall⟩ := h.traced leftGroup_allowed 100
    (fun x => x.1.signalled.any fun pid => pid ∈ x.2.reaped) (by decide +kernel)
  obtain ⟨pid, hpid, hgone⟩ := (Option.any_eq_true ..).mp htest
  exact hcall pid hpid trivial (of_decide_eq_true hgone)

end DeviceRuntime
