/-
# What `fg` and `bg` resume

`builtin_fg` and `builtin_bg` decide on the status of the job, which is the
aggregate of the statuses of its processes. In a table where that is so, `fg`
sends `SIGCONT` to a job of which no process runs, and then none of its
processes is recorded stopped when the wait begins. A job with a process that
runs is waited for as it is, also when another of its processes is stopped.

The state has the groups that were sent `SIGCONT`, whether that was refused,
and whether a wait for a group was begun. All calls may fail.

Key definitions: `builtinBg`, `AggregatedTable`, `ResumeState`, `resumeSem`,
`JobResumed`, `JobResumedOrRunning`.
Key theorems: `jobContinue_resumes`, `fg_bg_resume`, `fg_leaves_stopped`.
-/
import DeviceRuntime.TerminalReturn

namespace DeviceRuntime

/-! ### The builtin `bg` -/

/-- The first job that is stopped. -/
def bgJob (m : JobManager) : Option Job := m.jobs.find? fun job => job.status = .stopped

/-- `src/builtin.c`. -/
def builtinBg : JobProg ℤ :=
  .call .getJobs fun m =>
    match bgJob m with
    | none => .call (.printf (text "bg: no stopped job\n")) fun _ => .ret MiniShell_ERR_JOB
    | some job =>
      (jobContinue job.id).bind fun ret =>
        if ret < 0 then .ret MiniShell_ERR_JOB
        else .call (.printf (text "[" ++ decimal job.id ++ text "] " ++ job.command ++ text " &\n"))
          fun _ => .ret MiniShell_OK

open Prog

/-! ### Tables and runs -/

/-- A table whose pointers are told apart, and in which the status of each job
is the aggregate of the statuses of its processes. -/
structure AggregatedTable where
  manager : JobManager
  distinct : (manager.jobs.map Job.id).Nodup
  aggregated : ∀ job ∈ manager.jobs, jobUpdateStatus job = job

structure ResumeState where
  manager : JobManager
  resumed : List ℕ
  refused : Bool
  waited : Bool

def ResumeState.start (m : JobManager) : ResumeState := ⟨m, [], false, false⟩

def ResumeState.resume (s : ResumeState) (pgid : ℕ) : ResumeState := { s with resumed := pgid :: s.resumed }

def ResumeState.refuse (s : ResumeState) : ResumeState := { s with refused := true }

def ResumeState.store (s : ResumeState) (m : JobManager) : ResumeState := { s with manager := m }

def resumeJobCall (s : ResumeState) : (c : JobCall) → c.Ret → ResumeState → Prop
  | .getJobs, m, s' => m = s.manager ∧ s' = s
  | .setJobs m, _, s' => s' = s.store m
  | .kill (.group pgid) .sigcont, r, s' => s' =
      if r.ret < 0 then if r.errno = EINTR then s else s.refuse else s.resume pgid
  | .waitpid (.group _) _, _, s' => s' = { s with waited := true }
  | _, _, s' => s' = s

/-- Calls may return anything. -/
def resumeSem (s : ResumeState) : (c : ExecCall) → c.Ret → ResumeState → Prop
  | .job c, r, s' => resumeJobCall s c r s'
  | _, _, s' => s' = s

abbrev resumingJobs : World JobCall JobCall.Ret ResumeState := World.alone resumeJobCall

abbrev resuming : World ExecCall ExecCall.Ret ResumeState := World.alone resumeSem

/-- `job` is what the job was and `job'` what it is. -/
structure JobResumed (job job' : Job) (s : ResumeState) : Prop where
  sent : (∃ p ∈ job.processes, p.status = .stopped) → job.pgid ∈ s.resumed
  none : ∀ p ∈ job'.processes, p.status ≠ .stopped

/-- A job with a process that runs is not touched. -/
structure JobResumedOrRunning (job job' : Job) (s : ResumeState) : Prop where
  resumed : (∀ p ∈ job.processes, p.status ≠ .running) → JobResumed job job' s
  running : (∃ p ∈ job.processes, p.status = .running) → job' = job ∧ s.resumed = []

/-- The group that is waited for. -/
def JobCall.waitedGroup : JobCall → Option ℕ
  | .waitpid (.group pgid) _ => some pgid
  | _ => none

def ExecCall.waitedGroup : ExecCall → Option ℕ
  | .job c => c.waitedGroup
  | _ => none

/-- The first wait is for a job with `P`, and nothing is changed when `SIGCONT`
was refused. `found` is the job the builtin found in the table `m`. -/
def resumeWatch (found : Option Job) (m : JobManager) (P : Job → Job → ResumeState → Prop) :
    Watch JobCall ResumeState where
  always s := s.refused = true → s.manager = m
  atCall c s := ∀ pgid, c.waitedGroup = some pgid → s.waited = false →
    ∃ job job', found = some job ∧ pgid = job.pgid ∧ s.manager.find job.id = some job' ∧ P job job' s

def resumeWatchExec (found : Option Job) (m : JobManager) (P : Job → Job → ResumeState → Prop) :
    Watch ExecCall ResumeState where
  always := (resumeWatch found m P).always
  atCall o s := ∀ pgid, o.waitedGroup = some pgid → s.waited = false →
    ∃ job job', found = some job ∧ pgid = job.pgid ∧ s.manager.find job.id = some job' ∧ P job job' s

/-! ### The aggregate -/

section Aggregate

variable {job : Job}

theorem aggregated_running (h : jobUpdateStatus job = job) (hrunning : ∃ p ∈ job.processes, p.status = .running) :
    job.status = .running := by
  obtain ⟨p, hp, hstatus⟩ := hrunning
  have hany : (job.processes.any fun process => process.status = .running) = true :=
    List.any_eq_true.mpr ⟨p, hp, decide_eq_true hstatus⟩
  have hne : job.processes ≠ [] := List.ne_nil_of_mem hp
  rw [← h]
  unfold jobUpdateStatus
  rw [if_neg hne, if_pos hany]

theorem aggregated_stopped (h : jobUpdateStatus job = job) (hnone : ∀ p ∈ job.processes, p.status ≠ .running)
    (hstopped : ∃ p ∈ job.processes, p.status = .stopped) : job.status = .stopped := by
  obtain ⟨p, hp, hstatus⟩ := hstopped
  have hrunning : ¬ (job.processes.any fun process => process.status = .running) = true := by
    intro hany
    obtain ⟨q, hq, hqstatus⟩ := List.any_eq_true.mp hany
    exact hnone q hq (of_decide_eq_true hqstatus)
  have hany : (job.processes.any fun process => process.status = .stopped) = true :=
    List.any_eq_true.mpr ⟨p, hp, decide_eq_true hstatus⟩
  have hne : job.processes ≠ [] := List.ne_nil_of_mem hp
  rw [← h]
  unfold jobUpdateStatus
  rw [if_neg hne, if_neg hrunning, if_pos hany]

theorem resume_none_stopped (job : Job) : ∀ p ∈ (jobUpdateStatus job.resume).processes, p.status ≠ .stopped := by
  have hprocesses : (jobUpdateStatus job.resume).processes = job.resume.processes := by
    unfold jobUpdateStatus
    split_ifs <;> rfl
  intro p hp
  rw [hprocesses] at hp
  obtain ⟨q, -, rfl⟩ := List.mem_map.mp hp
  split_ifs with hstopped
  · exact ProcessStatus.noConfusion
  · exact hstopped

/-- A job that was continued. -/
theorem JobResumed.continued (job : Job) {s : ResumeState} (h : job.pgid ∈ s.resumed) :
    JobResumed job (jobUpdateStatus job.resume) s := ⟨fun _ => h, resume_none_stopped job⟩

/-- A job that is not stopped has a process that runs, or none that is stopped. -/
theorem JobResumedOrRunning.untouched (h : jobUpdateStatus job = job) (hnot : job.status ≠ .stopped) {s : ResumeState}
    (hs : s.resumed = []) : JobResumedOrRunning job job s := by
  refine ⟨fun hnone => ?_, fun _ => ⟨rfl, hs⟩⟩
  have hfree : ¬ ∃ p ∈ job.processes, p.status = .stopped :=
    fun hstopped => hnot (aggregated_stopped h hnone hstopped)
  exact ⟨fun hstopped => absurd hstopped hfree, fun p hp hstopped => hfree ⟨p, hp, hstopped⟩⟩

theorem JobResumedOrRunning.continued (h : jobUpdateStatus job = job) (hstopped : job.status = .stopped)
    {s : ResumeState} (hs : job.pgid ∈ s.resumed) : JobResumedOrRunning job (jobUpdateStatus job.resume) s := by
  refine ⟨fun _ => .continued job hs, fun hrunning => ?_⟩
  have hstatus := aggregated_running h hrunning
  rw [hstopped] at hstatus
  cases hstatus

end Aggregate

/-! ### Continuing a job -/

section Continue

variable {found : Option Job} {m : JobManager} {P : Job → Job → ResumeState → Prop} {s : ResumeState} {α : Type}

theorem modifyJob_resumes {id : ℕ} {f : Job → Job} {rest : Unit → JobProg α} {Q : α → ResumeState → Prop}
    (hs : s.refused = false)
    (h : Safe resumingJobs (resumeWatch found m P) Q (rest ()) (s.store (s.manager.modify id f))) :
    Safe resumingJobs (resumeWatch found m P) Q ((modifyJob id f).bind rest) s := by
  have halways : (resumeWatch found m P).always s := fun hrefused => by rw [hs] at hrefused; cases hrefused
  refine Safe.call_alone halways (fun _ hc => by cases hc) fun m₁ s₁ hs₁ => ?_
  obtain ⟨rfl, rfl⟩ : m₁ = s.manager ∧ s₁ = s := hs₁
  refine Safe.call_alone halways (fun _ hc => by cases hc) fun _ s₂ hs₂ => ?_
  have hs₂ : s₂ = s₁.store (s₁.manager.modify id f) := hs₂
  rw [hs₂]
  exact h

/-- The signal is sent, or refused. -/
theorem continueGroup_resumes (pgid : ℕ) (hs : s.manager = m) :
    Safe resumingJobs (resumeWatch found m P)
      (fun ret s' => (0 ≤ ret ∧ s' = s.resume pgid) ∨ (ret < 0 ∧ s' = s.refuse)) (continueGroup pgid) s := by
  refine Safe.iter (I := fun _ s' => s' = s) (fun _ => stable_alone _) (fun _ => stable_alone _)
    (fun _ s' hs' _ => hs' ▸ hs) (fun _ s' hs' _ => ?_) (fun _ s₁ hs₁ => ?_) rfl
  · rcases hs' with ⟨-, rfl⟩ | ⟨-, rfl⟩ <;> exact hs
  subst hs₁
  refine Safe.call_alone (fun _ => hs) (fun _ hc => by cases hc) fun r s₂ hs₂ => ?_
  have hs₂ : s₂ = if r.ret < 0 then if r.errno = EINTR then s₁ else s₁.refuse else s₁.resume pgid := hs₂
  by_cases hret : r.ret < 0
  · rw [if_pos hret] at hs₂
    rw [if_pos hret]
    by_cases hintr : r.errno = EINTR
    · rw [if_pos hintr] at hs₂
      rw [if_pos hintr]
      subst hs₂
      exact Safe.ret_alone (fun _ => hs) rfl
    · rw [if_neg hintr] at hs₂
      rw [if_neg hintr]
      subst hs₂
      exact Safe.ret_alone (fun _ => hs) (.inr ⟨by decide, rfl⟩)
  · rw [if_neg hret] at hs₂
    rw [if_neg hret]
    subst hs₂
    exact Safe.ret_alone (fun _ => hs) (.inl ⟨Int.le_refl 0, rfl⟩)

/-- The table before a job was continued, and after it. -/
structure ContinueOutcome (job : Job) (s : ResumeState) (ret : ℤ) (s' : ResumeState) : Prop where
  done : 0 ≤ ret → s'.manager.find job.id = some (jobUpdateStatus job.resume) ∧ job.pgid ∈ s'.resumed ∧
    s'.refused = false ∧ s'.waited = s.waited
  failed : ret < 0 → s'.manager = s.manager

theorem jobContinue_resumes {job : Job} (hs : s.manager = m) (hfind : s.manager.find job.id = some job)
    (hfree : s.refused = false) :
    Safe resumingJobs (resumeWatch found m P) (ContinueOutcome job s) (jobContinue job.id) s := by
  refine Safe.call_alone (fun _ => hs) (fun _ hc => by cases hc) fun m₁ s₁ hs₁ => ?_
  obtain ⟨rfl, rfl⟩ : m₁ = s.manager ∧ s₁ = s := hs₁
  have hfail : Safe resumingJobs (resumeWatch found m P) (ContinueOutcome job s₁) (.ret (-1)) s₁ :=
    Safe.ret_alone (fun _ => hs) ⟨fun h => absurd h (by decide), fun _ => rfl⟩
  rw [hfind]
  dsimp only
  by_cases hpgid : job.pgid = 0
  · rw [if_pos hpgid]
    exact hfail
  rw [if_neg hpgid]
  by_cases hstopped : job.status ≠ .stopped
  · rw [if_pos hstopped]
    exact hfail
  rw [if_neg hstopped]
  refine (continueGroup_resumes job.pgid hs).bind fun ret s₂ hs₂ _ => ?_
  rcases hs₂ with ⟨hret, rfl⟩ | ⟨hret, rfl⟩
  · rw [if_neg (by omega)]
    refine modifyJob_resumes hfree (modifyJob_resumes hfree ?_)
    refine Safe.ret_alone (fun hrefused => ?_)
      ⟨fun _ => ⟨?_, List.mem_cons_self, hfree, rfl⟩, fun h => absurd h (by decide)⟩
    · exact absurd (hfree.symm.trans hrefused) (by decide)
    · have hresumed := find_modify (fun job => (keepsShape_resume job).1) hfind
      exact find_modify (fun job => (keepsShape_update job).1) hresumed
  · rw [if_pos hret]
    exact Safe.ret_alone (fun _ => hs) ⟨fun h => absurd h (by decide), fun _ => rfl⟩

/-! ### Waiting for a job -/

/-- A wait for the job, when it is as `P` wants it, and all the turns after the
first. -/
theorem jobWaitForeground_resumes {job job' : Job} (hfound : found = some job) (hfree : s.refused = false)
    (hfind : s.manager.find job.id = some job') (hpgid : job'.pgid = job.pgid) (hP : P job job' s) :
    Safe resumingJobs (resumeWatch found m P) (fun _ s' => s'.refused = false) (jobWaitForeground job.id) s := by
  have halways : ∀ s' : ResumeState, s'.refused = false → (resumeWatch found m P).always s' :=
    fun s' hs' hrefused => absurd (hs'.symm.trans hrefused) (by decide)
  refine Safe.iter (I := fun _ s' => s'.refused = false ∧ (s'.waited = false → s' = s)) (fun _ => stable_alone _)
    (fun _ => stable_alone _) (fun _ s' hs' => halways s' hs'.1) (fun _ s' hs' => halways s' hs')
    (fun _ s₁ hs₁ => ?_) ⟨hfree, fun _ => rfl⟩
  obtain ⟨hfree₁, hfirst⟩ := hs₁
  refine Safe.call_alone (halways s₁ hfree₁) (fun _ hc => by cases hc) fun m₁ s₂ hs₂ => ?_
  obtain ⟨rfl, rfl⟩ : m₁ = s₁.manager ∧ s₂ = s₁ := hs₂
  have hret : ∀ ret : ℤ, Safe resumingJobs (resumeWatch found m P)
      (Sum.elim (fun _ s' => s'.refused = false ∧ (s'.waited = false → s' = s)) fun _ s' => s'.refused = false)
      (.ret (.inr ret) : JobProg (Unit ⊕ ℤ)) s₂ := fun ret => Safe.ret_alone (halways s₂ hfree₁) hfree₁
  cases hjob : s₂.manager.find job.id with
  | none => exact hret (-1)
  | some current =>
    dsimp only
    split_ifs with hzero hstatus
    · exact hret (-1)
    · exact hret 0
    refine Safe.call_alone (halways s₂ hfree₁) (fun pgid hc hwaited => ?_) fun r s₃ hs₃ => ?_
    · have hsame := hfirst hwaited
      subst hsame
      obtain rfl : current = job' := Option.some.inj (hjob.symm.trans hfind)
      have hgroup : current.pgid = pgid := Option.some.inj hc
      exact ⟨job, current, hfound, by rw [← hgroup, hpgid], hfind, hP⟩
    have hs₃ : s₃ = { s₂ with waited := true } := hs₃
    subst hs₃
    have hwaiting : ∀ s' : ResumeState, s'.refused = false → s'.waited = true →
        s'.refused = false ∧ (s'.waited = false → s' = s) :=
      fun s' hr hw => ⟨hr, fun h => absurd (hw.symm.trans h) (by decide)⟩
    cases r with
    | failed errno =>
      dsimp only
      split_ifs
      · exact Safe.ret_alone (halways _ hfree₁) (hwaiting _ hfree₁ rfl)
      · exact Safe.ret_alone (halways _ hfree₁) hfree₁
    | nothing => exact Safe.ret_alone (halways _ hfree₁) hfree₁
    | reported pid status =>
      dsimp only
      split_ifs
      · exact Safe.ret_alone (halways _ hfree₁) hfree₁
      · refine modifyJob_resumes hfree₁ (modifyJob_resumes hfree₁ ?_)
        exact Safe.ret_alone (halways _ hfree₁) (hwaiting _ hfree₁ rfl)

end Continue

/-! ### The builtins -/

section Builtins

variable {found : Option Job} {m : JobManager} {P : Job → Job → ResumeState → Prop} {s : ResumeState} {α : Type}

theorem onJobs_resumes {p : JobProg α} {Q : α → ResumeState → Prop}
    (h : Safe resumingJobs (resumeWatch found m P) Q p s) :
    Safe resuming (resumeWatchExec found m P) Q (onJobs p) s := by
  exact h.embed ExecCall.job (fun _ r => r) (fun _ _ h => h) (fun _ _ _ _ h => h) (fun _ h => h) fun _ _ hc => hc

/-- The calls that are neither a wait for a group nor a `SIGCONT`. -/
def Closing : ExecCall → Prop
  | .job (.waitpid (.group _) _) | .job (.kill (.group _) .sigcont) => False
  | _ => True

theorem Closing.refused {o : ExecCall} {r : o.Ret} {s' : ResumeState} (h : Closing o) (hs : resumeSem s o r s') :
    s'.refused = s.refused := by
  match o, r, hs with
  | .job (.waitpid (.group _) _), _, _ | .job (.kill (.group _) .sigcont), _, _ => exact h.elim
  | .job (.setJobs m), _, hs =>
    have hs : s' = s.store m := hs
    rw [hs]
    rfl
  | .job .getJobs, _, hs => rw [show s' = s from hs.2]
  | .job .malloc, _, hs | .job (.printf _), _, hs | .job (.waitpid (.process _) _), _, hs
  | .job (.kill (.process _) _), _, hs | .job (.kill (.group _) .sigterm), _, hs
  | .job (.kill (.group _) .sigkill), _, hs | .terminal _, _, hs | .pipe, _, hs | .getCloexec _, _, hs
  | .setCloexec _, _, hs | .close _, _, hs | .fork _, _, hs | .setpgid _ _, _, hs | .write _ _, _, hs
  | .setRunning _, _, hs => rw [show s' = s from hs]

theorem Closing.atCall {o : ExecCall} (h : Closing o) (s : ResumeState) : (resumeWatchExec found m P).atCall o s := by
  intro pgid hgroup
  match o with
  | .job (.waitpid (.group _) _) => exact h.elim
  | .job .getJobs | .job (.setJobs _) | .job .malloc | .job (.waitpid (.process _) _) | .job (.kill _ _)
  | .job (.printf _) | .terminal _ | .pipe | .getCloexec _ | .setCloexec _ | .close _ | .fork _ | .setpgid _ _
  | .write _ _ | .setRunning _ => cases hgroup

/-- What follows the wait. -/
theorem closing_resumes {p : ExecProg α} (hp : p.Only Closing) (hfree : s.refused = false) :
    Safe resuming (resumeWatchExec found m P) (fun _ _ => True) p s := by
  refine (hp.safe (P := fun s' => s'.refused = false) (stable_alone _) (fun s' hs' hrefused => ?_)
    (fun o s' ho _ => ho.atCall s') (fun o s₁ r s₂ ho hs₁ hs => ?_) hfree).weaken fun _ _ _ _ => trivial
  · exact absurd (hs'.symm.trans hrefused) (by decide)
  · rw [ho.refused hs]
    exact hs₁

theorem onTerminal_closing (p : TerminalProg α) : (onTerminal p).Only Closing := by
  unfold onTerminal
  apply Only.link
  exact fun _ => ⟨trivial, fun _ => trivial⟩

/-- The terminal's calls change nothing here. -/
theorem onTerminal_resumes (p : TerminalProg α) (hs : s.manager = m) :
    Safe resuming (resumeWatchExec found m P) (fun _ s' => s' = s) (onTerminal p) s := by
  have honly : (onTerminal p).Only fun o => ∃ c, o = .terminal c := by
    unfold onTerminal
    apply Only.link
    exact fun c => ⟨⟨c, rfl⟩, fun _ => trivial⟩
  refine honly.safe (P := fun s' => s' = s) (stable_alone _) (fun s' hs' _ => hs' ▸ hs) ?_ ?_ rfl
  · rintro o s' ⟨c, rfl⟩ - pgid hgroup
    cases hgroup
  · rintro o s₁ r s₂ ⟨c, rfl⟩ rfl hsem
    exact hsem

theorem restoreTerminal_resumes (t : Terminal) (code : ℤ) (hs : s.manager = m) :
    Safe resuming (resumeWatchExec found m P) (fun _ _ => True)
      ((restoreTerminal t).bind fun _ => .ret code : ExecProg ℤ) s := by
  refine Safe.bind (R := fun _ s' => s' = s) ?_ fun _ s' hs' _ => ?_
  · exact (onTerminal_resumes (terminalRestore t) hs).bind fun _ s' hs' _ => Safe.ret_alone (fun _ => hs' ▸ hs) hs'
  · exact Safe.ret_alone (fun _ => hs' ▸ hs) trivial

theorem restoreTerminal_closing (t : Terminal) : (restoreTerminal t).Only Closing :=
  (onTerminal_closing _).bind fun _ => trivial

theorem keepModes_closing (t : Terminal) (job : Job) : (keepModes t job).Only Closing := by
  refine (onTerminal_closing _).bind fun r => ?_
  split_ifs
  · exact ⟨trivial, fun _ => ⟨trivial, fun _ => trivial⟩⟩
  · trivial

theorem fgFinish_closing (t : Terminal) (job : Job) : (fgFinish t job).Only Closing := by
  unfold fgFinish
  refine Only.bind ?_ fun _ => (onTerminal_closing _).bind fun ret => ?_
  · split_ifs
    · exact keepModes_closing t job
    · trivial
  split_ifs
  · exact ⟨trivial, fun _ => trivial⟩
  · exact ⟨trivial, fun _ => trivial⟩
  · trivial
  · exact ⟨trivial, fun _ => ⟨trivial, fun _ => trivial⟩⟩
  · exact ⟨trivial, fun _ => ⟨trivial, fun _ => trivial⟩⟩

/-- The wait of `builtin_fg` and what follows it. -/
theorem fgWait_resumes (t : Terminal) {job job' : Job} (hfound : found = some job) (hfree : s.refused = false)
    (hfind : s.manager.find job.id = some job') (hpgid : job'.pgid = job.pgid) (hP : P job job' s) :
    Safe resuming (resumeWatchExec found m P) (fun _ _ => True)
      ((onJobs (jobWaitForeground job.id)).bind fun ret =>
        if ret < 0 then (restoreTerminal t).bind fun _ => .ret MiniShell_ERR_UNKNOWN
        else .call (.job .getJobs) fun m =>
          match m.find job.id with
          | none => .ret MiniShell_ERR_UNKNOWN
          | some job => fgFinish t job) s := by
  refine (onJobs_resumes (jobWaitForeground_resumes hfound hfree hfind hpgid hP)).bind fun ret s₁ hs₁ _ => ?_
  refine closing_resumes ?_ hs₁
  split_ifs
  · exact (restoreTerminal_closing t).bind fun _ => trivial
  · refine ⟨trivial, fun m₁ => ?_⟩
    dsimp only
    cases m₁.find job.id with
    | none => trivial
    | some job => exact fgFinish_closing t job

theorem fgJobRun_resumes (t : Terminal) {table : AggregatedTable} {job : Job} (hfg : fgJob table.manager = some job) :
    Safe resuming (resumeWatchExec (some job) table.manager JobResumedOrRunning) (fun _ _ => True) (fgJobRun t job)
      (.start table.manager) := by
  have hmem : job ∈ table.manager.jobs := List.mem_of_find?_eq_some hfg
  have hagg := table.aggregated job hmem
  have hfind : table.manager.find job.id = some job := firstJob_find table.distinct hfg
  refine (onTerminal_resumes (terminalSetForeground t job.pgid) rfl).bind fun ret s₁ hs₁ _ => ?_
  subst hs₁
  by_cases hret : ret < 0
  · rw [if_pos hret]
    exact Safe.ret_alone (fun _ => rfl) trivial
  rw [if_neg hret]
  refine Safe.bind (R := fun _ s' => s' = .start table.manager) ?_ fun ret s₂ hs₂ _ => ?_
  · cases job.terminalModes with
    | none => exact Safe.ret_alone (fun _ => rfl) rfl
    | some modes => exact onTerminal_resumes _ rfl
  subst hs₂
  by_cases hret : ret < 0
  · rw [if_pos hret]
    exact restoreTerminal_resumes t _ rfl
  rw [if_neg hret]
  by_cases hstopped : job.status = JobStatus.stopped
  · rw [if_pos hstopped]
    refine (onJobs_resumes (jobContinue_resumes rfl hfind rfl)).bind fun ret s₃ hs₃ _ => ?_
    by_cases hret : ret < 0
    · rw [if_pos hret]
      exact restoreTerminal_resumes t _ (hs₃.failed hret)
    · rw [if_neg hret]
      obtain ⟨hfind', hsent, hfree, -⟩ := hs₃.done (by omega)
      exact fgWait_resumes t rfl hfree hfind' ((keepsShape_update _).2.1.trans (keepsShape_resume _).2.1)
        (.continued hagg hstopped hsent)
  · rw [if_neg hstopped]
    exact fgWait_resumes t rfl rfl hfind rfl (.untouched hagg hstopped rfl)

/-- `bg` returns `MiniShell_OK` for a job that goes on. -/
theorem builtinBg_resumes (table : AggregatedTable) :
    Safe resumingJobs (resumeWatch (bgJob table.manager) table.manager JobResumed)
      (fun ret s => ret = MiniShell_OK → ∃ job job', bgJob table.manager = some job ∧
        s.manager.find job.id = some job' ∧ JobResumed job job' s)
      builtinBg (.start table.manager) := by
  have hfail : ∀ {s : ResumeState}, s.manager = table.manager →
      Safe resumingJobs (resumeWatch (bgJob table.manager) table.manager JobResumed)
        (fun ret s => ret = MiniShell_OK → ∃ job job', bgJob table.manager = some job ∧
          s.manager.find job.id = some job' ∧ JobResumed job job' s) (.ret MiniShell_ERR_JOB : JobProg ℤ) s :=
    fun hs => Safe.ret_alone (fun _ => hs) fun h => absurd h (by decide)
  refine Safe.call_alone (fun _ => rfl) (fun _ hc => by cases hc) fun m s hs => ?_
  obtain ⟨rfl, rfl⟩ : m = table.manager ∧ s = .start table.manager := hs
  cases hbg : bgJob table.manager with
  | none =>
    refine Safe.call_alone (fun _ => rfl) (fun _ hc => by cases hc) fun _ s hs => ?_
    have hs : s = .start table.manager := hs
    rw [hbg] at hfail
    exact hfail (hs ▸ rfl)
  | some job =>
    rw [hbg] at hfail
    refine (jobContinue_resumes rfl (firstJob_find table.distinct hbg) rfl).bind fun ret s₁ hs₁ _ => ?_
    by_cases hret : ret < 0
    · rw [if_pos hret]
      exact hfail (hs₁.failed hret)
    · rw [if_neg hret]
      obtain ⟨hfind, hsent, hfree, -⟩ := hs₁.done (by omega)
      have halways : (resumeWatch (some job) table.manager JobResumed).always s₁ :=
        fun hrefused => absurd (hfree.symm.trans hrefused) (by decide)
      refine Safe.call_alone halways (fun _ hc => by cases hc) fun _ s₂ hs₂ => ?_
      have hs₂ : s₂ = s₁ := hs₂
      subst hs₂
      exact Safe.ret_alone halways fun _ => ⟨job, _, rfl, hfind, .continued job hsent⟩

end Builtins

/-- When `fg` begins to wait for a job of which no process ran, its stopped
processes were sent `SIGCONT` and none is recorded stopped; a job of which one
ran is waited for as it is. When `bg` succeeds the same holds of its job. When
`SIGCONT` is refused nothing changes. -/
theorem fg_bg_resume (t : Terminal) (table : AggregatedTable) :
    Safe resuming (resumeWatchExec (fgJob table.manager) table.manager JobResumedOrRunning) (fun _ _ => True)
      (builtinFg t) (.start table.manager) ∧
    Safe resumingJobs (resumeWatch (bgJob table.manager) table.manager JobResumed)
      (fun ret s => ret = MiniShell_OK → ∃ job job', bgJob table.manager = some job ∧
        s.manager.find job.id = some job' ∧ JobResumed job job' s) builtinBg (.start table.manager) := by
  refine ⟨?_, builtinBg_resumes table⟩
  refine Safe.call_alone (fun _ => rfl) (fun _ hc => by cases hc) fun m s hs => ?_
  obtain ⟨rfl, rfl⟩ : m = table.manager ∧ s = .start table.manager := hs
  cases hfg : fgJob table.manager with
  | none => exact closing_resumes ⟨trivial, fun _ => trivial⟩ rfl
  | some job => exact fgJobRun_resumes t hfg

/-- One process of the job runs, and the other one is stopped. -/
def mixedTable : AggregatedTable where
  manager := ⟨[⟨1, 7, .running, [], [⟨7, .running, none⟩, ⟨8, .stopped, none⟩], none⟩], 2⟩
  distinct := by decide
  aggregated := by decide

/-- Every call succeeds. -/
def obliging : Script ExecCall ExecCall.Ret ResumeState
  | s, .job .getJobs => (s.manager, s)
  | s, .job (.setJobs m) => ((), s.store m)
  | s, .job .malloc => (true, s)
  | s, .job (.waitpid (.process pid) _) => (.reported pid (.exited 0), s)
  | s, .job (.waitpid (.group pgid) _) => (.reported pgid (.exited 0), { s with waited := true })
  | s, .job (.kill (.group pgid) .sigcont) => (⟨0, 0⟩, s.resume pgid)
  | s, .job (.kill _ _) => (⟨0, 0⟩, s)
  | s, .job (.printf _) => ((), s)
  | s, .terminal (.tcsetpgrp _) | s, .terminal (.tcsetattr _) => (⟨0, 0⟩, s)
  | s, .terminal .tcgetattr => (⟨0, 0, 0⟩, s)
  | s, .pipe => (⟨0, 0, (3, 4)⟩, s)
  | s, .getCloexec _ | s, .setCloexec _ | s, .setpgid _ _ | s, .write _ _ => (⟨0, 0⟩, s)
  | s, .fork _ => (⟨7, 0⟩, s)
  | s, .close _ | s, .setRunning _ => ((), s)

theorem obliging_allowed : obliging.Allowed resuming := by
  intro s o
  match o with
  | .job .getJobs => exact ⟨rfl, rfl⟩
  | .job (.kill (.group _) sig) => cases sig <;> rfl
  | .job (.setJobs _) | .job .malloc | .job (.waitpid (.process _) _) | .job (.waitpid (.group _) _)
  | .job (.kill (.process _) _) | .job (.printf _) | .terminal (.tcsetpgrp _) | .terminal (.tcsetattr _)
  | .terminal .tcgetattr | .pipe | .getCloexec _ | .setCloexec _ | .close _ | .fork _ | .setpgid _ _ | .write _ _
  | .setRunning _ => rfl

/-- The stopped process is waited for, and not continued. -/
theorem fg_leaves_stopped : ¬ ∀ (t : Terminal) (table : AggregatedTable),
    Safe resuming (resumeWatchExec (fgJob table.manager) table.manager JobResumed) (fun _ _ => True) (builtinFg t)
      (.start table.manager) ∧
    Safe resumingJobs (resumeWatch (bgJob table.manager) table.manager JobResumed)
      (fun ret s => ret = MiniShell_OK → ∃ job job', bgJob table.manager = some job ∧
        s.manager.find job.id = some job' ∧ JobResumed job job' s) builtinBg (.start table.manager) := by
  intro h
  have hfg := (h ⟨true, 1, none⟩ mixedTable).1
  obtain ⟨⟨o, s⟩, hpass, -, hcall⟩ := hfg.traced obliging_allowed 60
    (fun x => x.1.waitedGroup = some 7 ∧ x.2.waited = false ∧ x.2.resumed = []) (by decide +kernel)
  obtain ⟨hgroup, hwaited, hresumed⟩ := of_decide_eq_true hpass
  obtain ⟨job, job', hfound, -, -, hresumedjob⟩ := hcall 7 hgroup hwaited
  obtain rfl := Option.some.inj hfound
  have hsent : 7 ∈ s.resumed := hresumedjob.sent ⟨⟨8, .stopped, none⟩, by decide, rfl⟩
  rw [hresumed] at hsent
  cases hsent

end DeviceRuntime
