/-
# The terminal comes back

The shell gives its terminal to the group of a job in `execute_single`,
`execute_pipeline` and `builtin_fg`, and takes it back on every way out. The
state has what the shell has made of the terminal; while a job's group has it
the job may change the modes, so they are then not known. All calls may fail.

A run is `upset` when a call fails on which the shell gives the job up: a write
to the gate, `tcsetattr` with the modes of the job, `kill` with `SIGCONT`, or a
wait for the job. It is `neglected` when after that a call of
`terminal_restore` fails too.

Key definitions: `fgJobRun`, `builtinFg`, `ShellTerminal`, `TerminalState`, `terminalSem`,
`HasTerminal`, `TakenBack`.
Key theorems: `terminalRestore_back`, `jobWaitForeground_away`,
`handOver_back`, `terminal_taken_back`.
-/
import DeviceRuntime.ForegroundJob
import DeviceRuntime.ReapedSignal

namespace DeviceRuntime

/-! ### The builtin `fg` -/

/-- The first job that runs or is stopped. -/
def fgJob (m : JobManager) : Option Job := m.jobs.find? fun job => job.status = .running || job.status = .stopped

/-- The end of `builtin_fg`, when the wait is over. -/
def fgFinish (t : Terminal) (job : Job) : ExecProg ℤ :=
  (if job.status = .stopped then keepModes t job else .ret ()).bind fun _ =>
  (onTerminal (terminalRestore t)).bind fun ret =>
  if ret < 0 then .call (.setRunning false) fun _ => .ret MiniShell_ERR_UNKNOWN
  else if job.status = .stopped then
    .call (.job (.printf (text "\n[" ++ decimal job.id ++ text "]+ Stopped " ++ job.command ++ text "\n")))
      fun _ => .ret MiniShell_OK
  else if job.status ≠ .done then .ret MiniShell_ERR_UNKNOWN
  else (removeJob job.pgid).bind fun _ =>
    .ret (if jobExitStatus job < 0 then MiniShell_ERR_UNKNOWN else jobExitStatus job)

/-- `builtin_fg` with the job that was found. -/
def fgJobRun (t : Terminal) (job : Job) : ExecProg ℤ :=
  (onTerminal (terminalSetForeground t job.pgid)).bind fun ret =>
  if ret < 0 then .ret MiniShell_ERR_UNKNOWN
  else (match job.terminalModes with
    | some modes => onTerminal (terminalSetModes t modes)
    | none => .ret 0).bind fun ret =>
    if ret < 0 then (restoreTerminal t).bind fun _ => .ret MiniShell_ERR_UNKNOWN
    else (if job.status = JobStatus.stopped then onJobs (jobContinue job.id) else .ret 0).bind fun ret =>
      if ret < 0 then (restoreTerminal t).bind fun _ => .ret MiniShell_ERR_JOB
      else (onJobs (jobWaitForeground job.id)).bind fun ret =>
        if ret < 0 then (restoreTerminal t).bind fun _ => .ret MiniShell_ERR_UNKNOWN
        else .call (.job .getJobs) fun m =>
          match m.find job.id with
          | none => .ret MiniShell_ERR_UNKNOWN
          | some job => fgFinish t job

/-- `src/builtin.c`. -/
def builtinFg (t : Terminal) : ExecProg ℤ :=
  .call (.job .getJobs) fun m =>
    match fgJob m with
    | none => .call (.job (.printf (text "fg: no job\n"))) fun _ => .ret MiniShell_ERR_JOB
    | some job => fgJobRun t job

open Prog

/-! ### The terminal -/

/-- A terminal as `terminal_init` leaves it. -/
structure ShellTerminal where
  pgid : ℕ
  modes : Termios
  positive : 0 < pgid

def ShellTerminal.statics (t : ShellTerminal) : Terminal := ⟨true, t.pgid, some t.modes⟩

@[simp] theorem statics_initialized (t : ShellTerminal) : t.statics.initialized = true := rfl

/-- A table whose pointers are told apart. -/
structure ShellTable where
  manager : JobManager
  distinct : (manager.jobs.map Job.id).Nodup

/-- `modes` are `none` as a job leaves them. A job's group was `given` the
terminal. -/
structure TerminalState where
  manager : JobManager
  foreground : ℤ
  modes : Option Termios
  running : Bool
  given : Bool
  upset : Bool
  neglected : Bool
deriving DecidableEq, Repr

section World

variable (t : ShellTerminal)

def TerminalState.setForeground (s : TerminalState) (pgid : ℤ) : TerminalState :=
  { s with
    foreground := pgid
    modes := if pgid = t.pgid then s.modes else none
    given := s.given || pgid ≠ t.pgid }

def TerminalState.failForeground (s : TerminalState) (pgid : ℤ) : TerminalState :=
  { s with neglected := s.neglected || (s.upset && pgid = t.pgid) }

def TerminalState.setModes (s : TerminalState) (modes : Termios) : TerminalState :=
  { s with modes := if s.foreground = t.pgid then some modes else none }

/-- The modes of the shell are set when it has the terminal, those of a job
when the job has. -/
def TerminalState.failModes (s : TerminalState) : TerminalState :=
  if s.foreground = t.pgid then { s with neglected := s.neglected || s.upset } else { s with upset := true }

def TerminalState.giveUp (s : TerminalState) : TerminalState := { s with upset := true }

/-- The job that was waited for does not go on. -/
def WaitResult.isUseless (job : Option Job) : WaitResult → Bool
  | .failed errno => errno ≠ EINTR
  | .nothing => true
  | .reported pid _ => (job.bind fun job => processFind job pid).isNone

def terminalJobCall (s : TerminalState) : (c : JobCall) → c.Ret → TerminalState → Prop
  | .getJobs, m, s' => m = s.manager ∧ s' = s
  | .setJobs m, _, s' => s' = { s with manager := m }
  | .waitpid (.group pgid) _, r, s' => s' = if r.isUseless (activeJob s.manager pgid) then s.giveUp else s
  | .kill (.group _) .sigcont, r, s' => s' = if r.ret < 0 ∧ r.errno ≠ EINTR then s.giveUp else s
  | _, _, s' => s' = s

def terminalCall (s : TerminalState) : (c : TerminalCall) → c.Ret → TerminalState → Prop
  | .tcsetpgrp pgid, r, s' => s' =
      if r.ret < 0 then if r.errno = EINTR then s else s.failForeground t pgid else s.setForeground t pgid
  | .tcgetattr, _, s' => s' = s
  | .tcsetattr modes, r, s' => s' =
      if r.ret < 0 then if r.errno = EINTR then s else s.failModes t else s.setModes t modes

/-- Calls may return anything. -/
def terminalSem (s : TerminalState) : (c : ExecCall) → c.Ret → TerminalState → Prop
  | .job c, r, s' => terminalJobCall s c r s'
  | .terminal c, r, s' => terminalCall t s c r s'
  | .write _ _, r, s' => s' = if r.ret = 1 ∨ (r.ret < 0 ∧ r.errno = EINTR) then s else s.giveUp
  | .setRunning running, _, s' => s' = { s with running := running }
  | _, _, s' => s' = s

abbrev lending : World ExecCall ExecCall.Ret TerminalState := World.alone (terminalSem t)

/-- The shell runs and has its terminal. -/
def TerminalState.start (m : JobManager) : TerminalState := ⟨m, t.pgid, some t.modes, true, false, false, false⟩

/-- The shell has its terminal, with its modes. -/
def HasTerminal (s : TerminalState) : Prop := s.foreground = t.pgid ∧ s.modes = some t.modes

/-- When the terminal was given to a job the shell has it again or stops. -/
def TakenBack (s : TerminalState) : Prop := s.given = true → HasTerminal t s ∨ s.running = false

/-- That is so unless the shell neglected a failure. -/
def TakenBackUnless (s : TerminalState) : Prop :=
  s.given = true → ((HasTerminal t s ∨ s.running = false) ↔ s.neglected = false)

/-- A job's group has the terminal; `up` says whether the shell gives the job
up. -/
def Lent (up : Bool) (s : TerminalState) : Prop :=
  s.given = true → s.foreground ≠ t.pgid ∧ s.modes = none ∧ s.upset = up ∧ s.neglected = false ∧ s.running = true

/-- No job's group had the terminal. -/
structure NotLent (s : TerminalState) : Prop where
  given : s.given = false
  upset : s.upset = false
  neglected : s.neglected = false
  running : s.running = true

end World

def TerminalState.store (s : TerminalState) (m : JobManager) : TerminalState := { s with manager := m }

section Runs

variable {t : ShellTerminal} {s : TerminalState} {α : Type} {up : Bool}

theorem NotLent.lent (h : NotLent s) : Lent t up s := fun hgiven => by rw [h.given] at hgiven; cases hgiven

theorem NotLent.unless (h : NotLent s) : TakenBackUnless t s := fun hgiven => by rw [h.given] at hgiven; cases hgiven

theorem Lent.giveUp (h : Lent t false s) : Lent t true s.giveUp := fun hgiven =>
  have hlent := h hgiven
  ⟨hlent.1, hlent.2.1, rfl, hlent.2.2.2⟩

/-! ### Calls that the terminal does not see -/

/-- The calls that change the table only. -/
def Calm : ExecCall → Prop
  | .job (.waitpid (.group _) _) | .job (.kill (.group _) .sigcont) => False
  | .terminal .tcgetattr => True
  | .terminal _ | .write _ _ | .setRunning _ => False
  | _ => True

theorem Plumbing.calm {o : ExecCall} (h : Plumbing o) : Calm o := by
  cases o with
  | pipe | getCloexec fd | setCloexec fd | close fd | setpgid pid pgid => trivial
  | job c | terminal c | fork child | write fd value | setRunning running => exact h.elim

theorem Calm.same {o : ExecCall} {r : o.Ret} {s' : TerminalState} (h : Calm o) (hs : terminalSem t s o r s') :
    ∃ m, s' = s.store m := by
  have hsame : ∀ s' : TerminalState, s' = s → ∃ m, s' = s.store m := fun _ heq => ⟨s.manager, heq⟩
  match o, r, hs with
  | .job (.waitpid (.group _) _), _, _ | .job (.kill (.group _) .sigcont), _, _ => exact h.elim
  | .terminal (.tcsetpgrp _), _, _ | .terminal (.tcsetattr _), _, _ | .write _ _, _, _ | .setRunning _, _, _ =>
    exact h.elim
  | .job (.setJobs m), _, hs => exact ⟨m, hs⟩
  | .job .getJobs, _, hs => exact hsame _ hs.2
  | .job .malloc, _, hs | .job (.printf _), _, hs | .job (.waitpid (.process _) _), _, hs
  | .job (.kill (.process _) _), _, hs | .job (.kill (.group _) .sigterm), _, hs
  | .job (.kill (.group _) .sigkill), _, hs | .terminal .tcgetattr, _, hs | .pipe, _, hs | .getCloexec _, _, hs
  | .setCloexec _, _, hs | .close _, _, hs | .fork _, _, hs | .setpgid _ _, _, hs => exact hsame _ hs

theorem calm_safe {p : ExecProg α} (hp : p.Only Calm) (s : TerminalState) :
    Safe (lending t) Watch.idle (fun _ s' => ∃ m, s' = s.store m) p s := by
  refine hp.safe (stable_alone _) (fun _ _ => trivial) (fun _ _ _ _ => trivial) (fun o s₁ r s₂ ho hs₁ hs => ?_)
    ⟨s.manager, rfl⟩
  obtain ⟨m, rfl⟩ := hs₁
  obtain ⟨m', rfl⟩ := ho.same hs
  exact ⟨m', rfl⟩

theorem calm_bind {β : Type} {p : ExecProg β} {rest : β → ExecProg α} {Q : α → TerminalState → Prop}
    (hp : p.Only Calm) (hrest : ∀ b m, Safe (lending t) Watch.idle Q (rest b) (s.store m)) :
    Safe (lending t) Watch.idle Q (p.bind rest) s := by
  refine (calm_safe hp s).bind fun b s' hs _ => ?_
  obtain ⟨m, rfl⟩ := hs
  exact hrest b m

/-! ### Functions of the terminal -/

/-- The terminal's functions, with their calls alone. -/
abbrev lendingTerminal (t : ShellTerminal) : World TerminalCall TerminalCall.Ret TerminalState :=
  World.alone (terminalCall t)

theorem onTerminal_lent {p : TerminalProg α} {Q : α → TerminalState → Prop}
    (h : Safe (lendingTerminal t) Watch.idle Q p s) : Safe (lending t) Watch.idle Q (onTerminal p) s :=
  h.embed ExecCall.terminal (fun _ r => r) (fun _ _ h => h) (fun _ _ _ _ h => h) (fun _ _ => trivial)
    (fun _ _ _ => trivial)

/-- A call that is made again while it is interrupted is then done or has
failed. -/
def RetryOutcome (done failed : TerminalState) (ret : ℤ) (s : TerminalState) : Prop :=
  (0 ≤ ret ∧ s = done) ∨ (ret < 0 ∧ s = failed)

theorem retry_outcome {c : TerminalCall} {f : c.Ret → CallResult} {done failed : TerminalState}
    (hsem : ∀ r s', terminalCall t s c r s' →
      s' = if (f r).ret < 0 then if (f r).errno = EINTR then s else failed else done) :
    Safe (lendingTerminal t) Watch.idle (RetryOutcome done failed) (retry (.call c fun r => .ret (f r))) s := by
  refine Safe.iter (I := fun _ s' => s' = s) (fun _ => stable_alone _) (fun _ => stable_alone _) (fun _ _ _ => trivial)
    (fun _ _ _ => trivial) (fun _ s₁ hs₁ => ?_) rfl
  refine Safe.call_alone trivial trivial fun r s₂ hs => ?_
  rw [hs₁] at hs
  have hs₂ := hsem r s₂ hs
  dsimp only [ret_bind]
  by_cases hret : (f r).ret < 0
  · rw [if_pos hret] at hs₂
    rw [if_pos hret]
    by_cases hintr : (f r).errno = EINTR
    · rw [if_pos hintr] at hs₂
      rw [if_pos hintr]
      exact Safe.ret_alone trivial hs₂
    · rw [if_neg hintr] at hs₂
      rw [if_neg hintr]
      exact Safe.ret_alone trivial (.inr ⟨by decide, hs₂⟩)
  · rw [if_neg hret] at hs₂
    rw [if_neg hret]
    exact Safe.ret_alone trivial (.inl ⟨Int.le_refl 0, hs₂⟩)

theorem terminalSetPgrp_outcome (pgid : ℤ) : Safe (lendingTerminal t) Watch.idle
    (RetryOutcome (s.setForeground t pgid) (s.failForeground t pgid)) (terminalSetPgrp pgid) s :=
  retry_outcome (c := .tcsetpgrp pgid) (f := fun r => r) fun _ _ h => h

theorem terminalSetModes_outcome (modes : Termios) : Safe (lendingTerminal t) Watch.idle
    (RetryOutcome (s.setModes t modes) (s.failModes t)) (terminalSetModes t.statics modes) s :=
  retry_outcome (c := .tcsetattr modes) (f := fun r => r) fun _ _ h => h

theorem terminalSetForeground_outcome (pgid : ℕ) : Safe (lendingTerminal t) Watch.idle
    (fun ret s' => (0 ≤ ret ∧ pgid ≠ 0 ∧ s' = s.setForeground t pgid) ∨
      (ret < 0 ∧ (s' = s ∨ s' = s.failForeground t pgid)))
    (terminalSetForeground t.statics pgid) s := by
  unfold terminalSetForeground
  rw [statics_initialized, if_neg (by decide)]
  by_cases hpgid : (pgid : ℤ) ≤ 0
  · rw [if_pos hpgid]
    exact Safe.ret_alone trivial (.inr ⟨by decide, .inl rfl⟩)
  · rw [if_neg hpgid]
    refine (terminalSetPgrp_outcome pgid).weaken fun ret s' _ hs => ?_
    rcases hs with ⟨hret, hs⟩ | ⟨hret, hs⟩
    · exact .inl ⟨hret, by omega, hs⟩
    · exact .inr ⟨hret, .inr hs⟩

theorem terminalRestore_outcome : Safe (lendingTerminal t) Watch.idle
    (fun ret s' => (0 ≤ ret ∧ s' = (s.setForeground t t.pgid).setModes t t.modes) ∨
      (ret < 0 ∧ (s' = s.failForeground t t.pgid ∨ s' = (s.setForeground t t.pgid).failModes t)))
    (terminalRestore t.statics) s := by
  have hpos := t.positive
  have hpgid : ¬ t.statics.shellPgid ≤ 0 := by
    change ¬ (t.pgid : ℤ) ≤ 0
    omega
  unfold terminalRestore
  rw [statics_initialized, if_neg (by decide), if_neg hpgid]
  refine (terminalSetPgrp_outcome t.pgid).bind fun ret s₁ hs₁ _ => ?_
  rcases hs₁ with ⟨hret, rfl⟩ | ⟨hret, rfl⟩
  · rw [if_neg (by omega)]
    refine (terminalSetModes_outcome t.modes).bind fun ret s₂ hs₂ _ => ?_
    rcases hs₂ with ⟨hret, rfl⟩ | ⟨hret, rfl⟩
    · rw [if_neg (by omega)]
      exact Safe.ret_alone trivial (.inl ⟨Int.le_refl 0, rfl⟩)
    · rw [if_pos hret]
      exact Safe.ret_alone trivial (.inr ⟨by decide, .inr rfl⟩)
  · rw [if_pos hret]
    exact Safe.ret_alone trivial (.inr ⟨by decide, .inl rfl⟩)

/-! ### Taking the terminal back -/

theorem setForeground_shell (t : ShellTerminal) (s : TerminalState) :
    s.setForeground t t.pgid = { s with foreground := t.pgid } := by
  simp [TerminalState.setForeground]

/-- The restore succeeds and the shell has its terminal, or fails and the shell
has it not; the failure is neglected when the job was given up. -/
theorem terminalRestore_back (h : Lent t up s) : Safe (lending t) Watch.idle
    (fun ret s' => s'.given = true →
      (0 ≤ ret ∧ HasTerminal t s' ∧ s'.neglected = false ∧ s'.running = true) ∨
      (ret < 0 ∧ ¬ HasTerminal t s' ∧ s'.neglected = up ∧ s'.running = true))
    (onTerminal (terminalRestore t.statics)) s := by
  refine (onTerminal_lent terminalRestore_outcome).weaken fun ret s' _ hs => ?_
  rw [setForeground_shell] at hs
  rcases hs with ⟨hret, rfl⟩ | ⟨hret, rfl | rfl⟩
  · intro hgiven
    obtain ⟨-, -, -, hkept, hrunning⟩ := h hgiven
    exact .inl ⟨hret, ⟨rfl, if_pos rfl⟩, hkept, hrunning⟩
  · intro hgiven
    obtain ⟨haway, -, hupset, hkept, hrunning⟩ := h hgiven
    refine .inr ⟨hret, fun hback => haway hback.1, ?_, hrunning⟩
    simp [TerminalState.failForeground, hkept, hupset]
  · have hfail : TerminalState.failModes t { s with foreground := t.pgid } =
        { s with foreground := t.pgid, neglected := s.neglected || s.upset } := if_pos rfl
    rw [hfail]
    intro hgiven
    obtain ⟨-, hmodes, hupset, hkept, hrunning⟩ := h hgiven
    refine .inr ⟨hret, fun hback => ?_, ?_, hrunning⟩
    · have hnone : s.modes = some t.modes := hback.2
      rw [hmodes] at hnone
      cases hnone
    · simp [hkept, hupset]

/-- Giving the job up: the result of the restore is not looked at. -/
theorem restoreTerminal_back (h : Lent t true s) :
    Safe (lending t) Watch.idle (fun _ s' => TakenBackUnless t s') (restoreTerminal t.statics) s := by
  refine Safe.map (terminalRestore_back h) fun ret s' hs hgiven => ?_
  rcases hs hgiven with ⟨-, hback, hkept, -⟩ | ⟨-, hback, hneglected, hrunning⟩
  · exact ⟨fun _ => hkept, fun _ => .inl hback⟩
  · rw [hneglected, hrunning]
    simp [hback]

/-! ### Calls that may upset the run -/

theorem writeGate_outcome (fd : ℤ) : Safe (lending t) Watch.idle (RetryOutcome s s.giveUp) (writeGate fd) s := by
  refine Safe.iter (I := fun _ s' => s' = s) (fun _ => stable_alone _) (fun _ => stable_alone _) (fun _ _ _ => trivial)
    (fun _ _ _ => trivial) (fun _ s₁ hs₁ => ?_) rfl
  subst hs₁
  refine Safe.call_alone trivial trivial fun r s₂ hs => ?_
  have hs : s₂ = if r.ret = 1 ∨ (r.ret < 0 ∧ r.errno = EINTR) then s₁ else s₁.giveUp := hs
  by_cases hone : r.ret = 1
  · rw [if_pos (.inl hone)] at hs
    rw [if_pos hone]
    exact Safe.ret_alone trivial (.inl ⟨Int.le_refl 0, hs⟩)
  rw [if_neg hone]
  by_cases hintr : r.ret < 0 ∧ r.errno = EINTR
  · rw [if_pos (.inr hintr)] at hs
    rw [if_pos hintr]
    exact Safe.ret_alone trivial hs
  · rw [if_neg fun h => h.elim hone hintr] at hs
    rw [if_neg hintr]
    exact Safe.ret_alone trivial (.inr ⟨by decide, hs⟩)

theorem startupGateRelease_outcome (fd : ℤ) : ∀ (count : ℕ) {s : TerminalState},
    Safe (lending t) Watch.idle (RetryOutcome s s.giveUp) (startupGateRelease fd count) s
  | 0, s => Safe.ret_alone trivial (.inl ⟨Int.le_refl 0, rfl⟩)
  | count + 1, s => by
    refine (writeGate_outcome fd).bind fun ret s₁ hs₁ _ => ?_
    rcases hs₁ with ⟨hret, rfl⟩ | ⟨hret, rfl⟩
    · rw [if_neg (by omega)]
      exact startupGateRelease_outcome fd count
    · rw [if_pos hret]
      exact Safe.ret_alone trivial (.inr ⟨by decide, rfl⟩)

/-- The functions of the table, with their calls alone. -/
abbrev lendingJobs : World JobCall JobCall.Ret TerminalState := World.alone terminalJobCall

theorem onJobs_lent {p : JobProg α} {Q : α → TerminalState → Prop} (h : Safe lendingJobs Watch.idle Q p s) :
    Safe (lending t) Watch.idle Q (onJobs p) s :=
  h.embed ExecCall.job (fun _ r => r) (fun _ _ h => h) (fun _ _ _ _ h => h) (fun _ _ => trivial) (fun _ _ _ => trivial)

/-- A function with the job that is worked with goes on with it, or the run is
upset. -/
def JobOutcome (id : ℕ) (pids : List ℕ) (s : TerminalState) (ret : ℤ) (s' : TerminalState) : Prop :=
  (0 ≤ ret ∧ ∃ m, s' = s.store m ∧ HasJob id pids m) ∨ (ret < 0 ∧ ∃ m, s' = (s.store m).giveUp)

theorem modifyJob_lent {id : ℕ} {pids : List ℕ} {f : Job → Job} {rest : Unit → JobProg α}
    {Q : α → TerminalState → Prop} (hf : KeepsShape f) (h : HasJob id pids s.manager)
    (hrest : ∀ m, HasJob id pids m → Safe lendingJobs Watch.idle Q (rest ()) (s.store m)) :
    Safe lendingJobs Watch.idle Q ((modifyJob id f).bind rest) s := by
  refine Safe.call_alone trivial trivial fun m s₁ hs => ?_
  obtain ⟨rfl, rfl⟩ : m = s.manager ∧ s₁ = s := hs
  refine Safe.call_alone trivial trivial fun _ s₂ hs => ?_
  have hs : s₂ = s₁.store (s₁.manager.modify id f) := hs
  subst hs
  exact hrest _ (h.modify hf)

/-- One turn of the wait; `s` is the state when the wait began. -/
theorem waitTurn_lent {id : ℕ} {pids : List ℕ} {m₀ : JobManager} (h : HasJob id pids m₀) :
    Safe lendingJobs Watch.idle
      (Sum.elim (fun _ s' => ∃ m, s' = s.store m ∧ HasJob id pids m) (JobOutcome id pids s))
      (waitTurn id) (s.store m₀) := by
  obtain ⟨job, hfind, hpgid, -, hactive⟩ := h.spec
  refine Safe.call_alone trivial trivial fun m s₁ hs => ?_
  obtain ⟨rfl, rfl⟩ : m = m₀ ∧ s₁ = s.store m₀ := hs
  rw [hfind]
  dsimp only
  rw [if_neg hpgid]
  by_cases hrunning : job.status ≠ .running
  · rw [if_pos hrunning]
    exact Safe.ret_alone trivial (.inl ⟨Int.le_refl 0, m, rfl, h⟩)
  rw [if_neg hrunning]
  have hjob : activeJob m job.pgid = some job := hactive fun hdone => hrunning (by rw [hdone]; decide)
  refine Safe.call_alone trivial trivial fun r s₂ hs => ?_
  have hs : s₂ = if r.isUseless (activeJob m job.pgid) then (s.store m).giveUp else s.store m := hs
  rw [hjob] at hs
  cases r with
  | failed errno =>
    dsimp only
    by_cases heintr : errno = EINTR
    · rw [if_pos heintr]
      exact Safe.ret_alone trivial ⟨m, hs.trans (if_neg (by simp [WaitResult.isUseless, heintr])), h⟩
    · rw [if_neg heintr]
      exact Safe.ret_alone trivial (.inr ⟨by decide, m, hs.trans (if_pos (decide_eq_true heintr))⟩)
  | nothing => exact Safe.ret_alone trivial (.inr ⟨by decide, m, hs.trans (if_pos rfl)⟩)
  | reported pid status =>
    have huseless : (WaitResult.reported pid status).isUseless (some job) = (processFind job pid).isNone := rfl
    rw [huseless] at hs
    dsimp only
    by_cases hnone : processFind job pid = none
    · rw [if_pos hnone]
      rw [hnone, if_pos (Option.isNone_none)] at hs
      exact Safe.ret_alone trivial (.inr ⟨by decide, m, hs⟩)
    · rw [if_neg hnone]
      rw [if_neg fun h => hnone (Option.isNone_iff_eq_none.mp h)] at hs
      rw [hs]
      have hshape : KeepsShape fun job : Job => job.modifyProcess pid fun p => processApplyWaitStatus p status :=
        keepsShape_modifyProcess fun _ => rfl
      refine modifyJob_lent (s := s.store m) hshape h fun m₁ h₁ => ?_
      refine modifyJob_lent (s := s.store m₁) keepsShape_update h₁ fun m₂ h₂ => ?_
      exact Safe.ret_alone trivial ⟨m₂, rfl, h₂⟩

theorem jobWaitForeground_lent {id : ℕ} {pids : List ℕ} (h : HasJob id pids s.manager) :
    Safe (lending t) Watch.idle (JobOutcome id pids s) (onJobs (jobWaitForeground id)) s := by
  refine onJobs_lent ?_
  refine Safe.iter (I := fun _ s' => ∃ m, s' = s.store m ∧ HasJob id pids m) (fun _ => stable_alone _)
    (fun _ => stable_alone _) (fun _ _ _ => trivial) (fun _ _ _ => trivial) (fun _ s₁ hs₁ => ?_)
    ⟨s.manager, rfl, h⟩
  obtain ⟨m, rfl, hm⟩ := hs₁
  exact waitTurn_lent hm

theorem continueGroup_lent (pgid : ℕ) :
    Safe lendingJobs Watch.idle (RetryOutcome s s.giveUp) (continueGroup pgid) s := by
  refine Safe.iter (I := fun _ s' => s' = s) (fun _ => stable_alone _) (fun _ => stable_alone _) (fun _ _ _ => trivial)
    (fun _ _ _ => trivial) (fun _ s₁ hs₁ => ?_) rfl
  subst hs₁
  refine Safe.call_alone trivial trivial fun r s₂ hs => ?_
  have hs : s₂ = if r.ret < 0 ∧ r.errno ≠ EINTR then s₁.giveUp else s₁ := hs
  by_cases hret : r.ret < 0
  · rw [if_pos hret]
    by_cases hintr : r.errno = EINTR
    · rw [if_neg fun h => h.2 hintr] at hs
      rw [if_pos hintr]
      exact Safe.ret_alone trivial hs
    · rw [if_pos ⟨hret, hintr⟩] at hs
      rw [if_neg hintr]
      exact Safe.ret_alone trivial (.inr ⟨by decide, hs⟩)
  · rw [if_neg fun h => hret h.1] at hs
    rw [if_neg hret]
    exact Safe.ret_alone trivial (.inl ⟨Int.le_refl 0, hs⟩)

theorem jobContinue_lent {id : ℕ} {pids : List ℕ} {job : Job} (h : HasJob id pids s.manager)
    (hfind : s.manager.find id = some job) (hpgid : job.pgid ≠ 0) (hstopped : job.status = .stopped) :
    Safe (lending t) Watch.idle (JobOutcome id pids s) (onJobs (jobContinue id)) s := by
  refine onJobs_lent (Safe.call_alone trivial trivial fun m s₁ hs => ?_)
  obtain ⟨rfl, rfl⟩ : m = s.manager ∧ s₁ = s := hs
  rw [hfind]
  dsimp only
  rw [if_neg hpgid, if_neg fun h => h hstopped]
  refine (continueGroup_lent job.pgid).bind fun ret s₂ hs₂ _ => ?_
  rcases hs₂ with ⟨hret, rfl⟩ | ⟨hret, rfl⟩
  · rw [if_neg (by omega)]
    refine modifyJob_lent keepsShape_resume h fun m₁ h₁ => ?_
    refine modifyJob_lent keepsShape_update h₁ fun m₂ h₂ => ?_
    exact Safe.ret_alone trivial (.inl ⟨Int.le_refl 0, m₂, rfl, h₂⟩)
  · rw [if_pos hret]
    exact Safe.ret_alone trivial (.inr ⟨by decide, s₁.manager, rfl⟩)

/-! ### Undoing a start -/

theorem killGroup_calm (pgid : ℕ) : (killGroup pgid).Only Calm := by
  unfold killGroup
  split_ifs
  · trivial
  · exact ⟨trivial, fun _ => trivial⟩

theorem killPid_calm (pid : ℕ) : (killPid pid).Only Calm := by
  unfold killPid
  split_ifs
  · trivial
  · exact ⟨trivial, fun _ => trivial⟩

theorem reapPid_calm (pid : ℕ) : (reapPid pid).Only Calm := by
  unfold reapPid
  split_ifs
  · trivial
  refine ⟨fun _ => ⟨trivial, fun r => ?_⟩, fun _ => trivial⟩
  cases r with
  | failed errno =>
    dsimp only
    split_ifs <;> trivial
  | nothing => trivial
  | reported pid status => trivial

theorem rollbackSingle_calm (pid : ℕ) : (rollbackSingle pid).Only Calm := by
  unfold rollbackSingle
  split_ifs
  · trivial
  · exact (killGroup_calm pid).bind fun _ => (killPid_calm pid).bind fun _ => reapPid_calm pid

theorem rollbackPipeline_calm (pgid : ℕ) (pids : List ℕ) : (rollbackPipeline pgid pids).Only Calm :=
  (killGroup_calm pgid).bind fun _ => (Only.foldlM (fun _ => killPid_calm) pids ()).bind fun _ =>
    Only.foldlM (fun _ => reapPid_calm) pids ()

theorem removeJob_calm (pgid : ℕ) : (removeJob pgid).Only Calm := ⟨trivial, fun _ => ⟨trivial, fun _ => trivial⟩⟩

theorem terminalGetModes_calm (t : Terminal) (modes : Termios) : (onTerminal (terminalGetModes t modes)).Only Calm := by
  unfold terminalGetModes
  split_ifs
  · trivial
  refine ⟨fun _ => ⟨trivial, fun r => ?_⟩, fun _ => trivial⟩
  simp only [ret_bind]
  split_ifs <;> trivial

theorem keepModes_calm (t : Terminal) (job : Job) : (keepModes t job).Only Calm := by
  refine (terminalGetModes_calm _ _).bind fun r => ?_
  split_ifs
  · exact ⟨trivial, fun _ => ⟨trivial, fun _ => trivial⟩⟩
  · trivial

/-- What changes the table only leaves the terminal as it is. -/
theorem calm_unless {p : ExecProg α} (hp : p.Only Calm) (h : TakenBackUnless t s) :
    Safe (lending t) Watch.idle (fun _ s' => TakenBackUnless t s') p s := by
  refine (calm_safe hp s).weaken fun _ s' _ hs => ?_
  obtain ⟨m, rfl⟩ := hs
  exact h

/-! ### The end of a job in the foreground -/

/-- What `finish_foreground_job` and the end of `builtin_fg` do: a restore that
fails stops the shell. -/
theorem finish_back {id : ℕ} {job : Job} (h : Lent t false s) :
    Safe (lending t) Watch.idle (fun _ s' => TakenBackUnless t s')
      ((onTerminal (terminalRestore t.statics)).bind fun ret =>
        if ret < 0 then .call (.setRunning false) fun _ => .ret MiniShell_ERR_UNKNOWN
        else if job.status = .stopped then
          .call (.job (.printf (text "\n[" ++ decimal id ++ text "]+ Stopped " ++ job.command ++ text "\n")))
            fun _ => .ret MiniShell_OK
        else if job.status ≠ .done then .ret MiniShell_ERR_UNKNOWN
        else (removeJob job.pgid).bind fun _ =>
          .ret (if jobExitStatus job < 0 then MiniShell_ERR_UNKNOWN else jobExitStatus job)) s := by
  refine (terminalRestore_back h).bind fun ret s₁ hs₁ _ => ?_
  by_cases hret : ret < 0
  · rw [if_pos hret]
    refine Safe.call_alone trivial trivial fun _ s₂ hs => ?_
    have hs : s₂ = { s₁ with running := false } := hs
    refine Safe.ret_alone trivial fun hgiven => ?_
    rw [hs] at hgiven ⊢
    rcases hs₁ hgiven with ⟨hok, -⟩ | ⟨-, -, hkept, -⟩
    · omega
    · exact ⟨fun _ => hkept, fun _ => .inr rfl⟩
  · rw [if_neg hret]
    have hback : TakenBackUnless t s₁ := by
      intro hgiven
      rcases hs₁ hgiven with ⟨-, hback, hkept, -⟩ | ⟨hfail, -⟩
      · exact ⟨fun _ => hkept, fun _ => .inl hback⟩
      · exact absurd hfail hret
    refine calm_unless ?_ hback
    split_ifs
    · exact ⟨trivial, fun _ => trivial⟩
    · trivial
    · exact (removeJob_calm _).bind fun _ => trivial
    · exact (removeJob_calm _).bind fun _ => trivial

theorem finishForegroundJob_back {id : ℕ} {pids : List ℕ} (h : Lent t false s) (hjob : HasJob id pids s.manager) :
    Safe (lending t) Watch.idle (fun _ s' => TakenBackUnless t s') (finishForegroundJob t.statics id) s := by
  obtain ⟨job, hfind, -⟩ := hjob.spec
  refine Safe.call_alone trivial trivial fun m s₁ hs => ?_
  obtain ⟨rfl, rfl⟩ : m = s.manager ∧ s₁ = s := hs
  rw [hfind]
  dsimp only
  have hkeep : (if t.statics.initialized ∧ job.status = .stopped then keepModes t.statics job else .ret () :
      ExecProg Unit).Only Calm := by
    split_ifs
    · exact keepModes_calm _ _
    · trivial
  refine calm_bind hkeep fun _ m => ?_
  rw [if_pos (statics_initialized t)]
  exact finish_back (s := s₁.store m) h

/-! ### The executor -/

theorem closeFd_lent {fd : ℤ} {rest : Unit → ExecProg α} {Q : α → TerminalState → Prop}
    (hrest : Safe (lending t) Watch.idle Q (rest ()) s) : Safe (lending t) Watch.idle Q ((closeFd fd).bind rest) s := by
  refine Safe.call_alone trivial trivial fun _ s' hs => ?_
  have hs : s' = s := hs
  rw [hs]
  exact hrest

/-- The terminal is given away, or no group got it. -/
theorem terminalSetForeground_lent (pgid : ℕ) (h : NotLent s) : Safe (lending t) Watch.idle
    (fun ret s' => (0 ≤ ret → pgid ≠ 0 ∧ Lent t false s' ∧ s'.manager = s.manager) ∧ (ret < 0 → NotLent s'))
    (onTerminal (terminalSetForeground t.statics pgid)) s := by
  refine (onTerminal_lent (terminalSetForeground_outcome pgid)).weaken fun ret s' _ hs =>
    ⟨fun hret => ?_, fun hret => ?_⟩
  · obtain ⟨-, hpgid, rfl⟩ := hs.resolve_right fun h => by omega
    refine ⟨hpgid, fun hgiven => ?_, rfl⟩
    have hother : (pgid : ℤ) ≠ t.pgid := by
      simpa [TerminalState.setForeground, h.given] using hgiven
    exact ⟨hother, if_neg hother, h.upset, h.neglected, h.running⟩
  · obtain ⟨-, rfl | rfl⟩ := hs.resolve_left fun h => by omega
    · exact h
    · refine ⟨h.given, h.upset, ?_, h.running⟩
      simp [TerminalState.failForeground, h.neglected, h.upset]

theorem give_lent {fg : Prop} [Decidable fg] (pgid : ℕ) (h : NotLent s) : Safe (lending t) Watch.idle
    (fun ret s' => (0 ≤ ret → Lent t false s' ∧ s'.manager = s.manager) ∧ (ret < 0 → s'.given = false) ∧
      (¬ fg → s'.given = false))
    (if fg then onTerminal (terminalSetForeground t.statics pgid) else .ret 0) s := by
  by_cases hfg : fg
  · rw [if_pos hfg]
    refine (terminalSetForeground_lent pgid h).weaken fun ret s' _ hs => ?_
    exact ⟨fun hret => (hs.1 hret).2, fun hret => (hs.2 hret).given, fun h => absurd hfg h⟩
  · rw [if_neg hfg]
    exact Safe.ret_alone trivial ⟨fun _ => ⟨h.lent, rfl⟩, fun _ => h.given, fun _ => h.given⟩

/-- The terminal is restored where the shell had given it away. -/
theorem restore_back {fg : Prop} [Decidable fg] (h : Lent t true s) (hfg : ¬ fg → s.given = false) :
    Safe (lending t) Watch.idle (fun _ s' => TakenBackUnless t s')
      (if fg then restoreTerminal t.statics else .ret ()) s := by
  by_cases hgive : fg
  · rw [if_pos hgive]
    exact restoreTerminal_back h
  · rw [if_neg hgive]
    refine Safe.ret_alone trivial fun hgiven => ?_
    rw [hfg hgive] at hgiven
    cases hgiven

/-- From the job in the table to the end of the call, with any rollback that
the terminal does not see. -/
theorem handOver_back {com : Command} {pids : List ℕ} {rb : ExecProg Unit} {gate : ℤ}
    {id pgid count : ℕ} (hrb : rb.Only Calm) (h : NotLent s) (hjob : HasJob id pids s.manager) :
    Safe (lending t) Watch.idle (fun _ s' => TakenBackUnless t s')
      ((if com.background = 0 ∧ t.statics.initialized then
        onTerminal (terminalSetForeground t.statics pgid) else .ret 0).bind fun ret =>
      if ret < 0 then
        (closeFd gate).bind fun _ =>
        rb.bind fun _ =>
        (removeJob pgid).bind fun _ =>
        (restoreTerminal t.statics).bind fun _ => .ret MiniShell_ERR_UNKNOWN
      else (startupGateRelease gate count).bind fun ret =>
        if ret < 0 then
          (closeFd gate).bind fun _ =>
          rb.bind fun _ =>
          (removeJob pgid).bind fun _ =>
          (if com.background = 0 ∧ t.statics.initialized then restoreTerminal t.statics
            else .ret ()).bind fun _ => .ret MiniShell_ERR_UNKNOWN
        else (closeFd gate).bind fun _ =>
          if com.background ≠ 0 then .ret MiniShell_OK
          else (onJobs (jobWaitForeground id)).bind fun ret =>
            if ret < 0 then
              rb.bind fun _ =>
              (if t.statics.initialized then restoreTerminal t.statics else .ret ()).bind fun _ =>
              (removeJob pgid).bind fun _ => .ret MiniShell_ERR_UNKNOWN
            else finishForegroundJob t.statics id : ExecProg ℤ) s := by
  refine (give_lent pgid h).bind fun ret s₁ hs₁ _ => ?_
  obtain ⟨hlent, hnot, hbg⟩ := hs₁
  by_cases hret : ret < 0
  · rw [if_pos hret]
    have hvacuous : ∀ m, Lent t true (s₁.store m) := by
      intro m hgiven
      have hgiven : s₁.given = true := hgiven
      rw [hnot hret] at hgiven
      cases hgiven
    refine closeFd_lent (calm_bind hrb fun _ m => calm_bind (removeJob_calm pgid) fun _ m' => ?_)
    exact Safe.map (restoreTerminal_back (hvacuous m')) fun _ _ h => h
  rw [if_neg hret]
  obtain ⟨hlent, hmanager⟩ := hlent (by omega)
  refine (startupGateRelease_outcome gate count).bind fun ret s₂ hs₂ _ => ?_
  rcases hs₂ with ⟨hret, rfl⟩ | ⟨hret, rfl⟩
  · rw [if_neg (by omega)]
    refine closeFd_lent ?_
    by_cases hback : com.background ≠ 0
    · rw [if_pos hback]
      refine Safe.ret_alone trivial fun hgiven => ?_
      rw [hbg fun h => hback h.1] at hgiven
      cases hgiven
    rw [if_neg hback]
    refine (jobWaitForeground_lent (hmanager ▸ hjob)).bind fun ret s₃ hs₃ _ => ?_
    rcases hs₃ with ⟨hret, m, rfl, hjob'⟩ | ⟨hret, m, rfl⟩
    · rw [if_neg (by omega)]
      exact finishForegroundJob_back hlent hjob'
    · rw [if_pos hret]
      refine calm_bind hrb fun _ m' => ?_
      have hupset : Lent t true ((s₂.store m).giveUp.store m') := Lent.giveUp (s := s₂.store m) hlent
      rw [if_pos (statics_initialized t)]
      refine (restoreTerminal_back hupset).bind fun _ s₄ hback _ => ?_
      exact calm_unless ((removeJob_calm pgid).bind fun _ => trivial) hback
  · rw [if_pos hret]
    refine closeFd_lent (calm_bind hrb fun _ m => calm_bind (removeJob_calm pgid) fun _ m' => ?_)
    have hupset : Lent t true (s₁.giveUp.store m') := Lent.giveUp (s := s₁) hlent
    exact Safe.map (restore_back hupset hbg) fun _ _ h => h

/-- A start that is undone before the terminal is given away. -/
theorem notLent_calm {p : ExecProg α} (hp : p.Only Calm) (h : NotLent s) :
    Safe (lending t) Watch.idle (fun _ s' => TakenBackUnless t s') p s := calm_unless hp h.unless

theorem NotLent.store (h : NotLent s) (m : JobManager) : NotLent (s.store m) := ⟨h.1, h.2, h.3, h.4⟩

theorem plumbing_calm {p : ExecProg α} (hp : p.Only Plumbing) : p.Only Calm := hp.mono fun _ h => h.calm

theorem terminalJobCall_table (c : JobCall) (s : TerminalState) (r : c.Ret) (s' : TerminalState)
    (hs : terminalJobCall s c r s') : tableCall s.manager c r s'.manager := by
  have hgiveUp : ∀ (cond : Prop) [Decidable cond], (if cond then s.giveUp else s).manager = s.manager := by
    intro cond _
    split_ifs <;> rfl
  match c, r, hs with
  | .getJobs, _, hs => exact ⟨hs.1, congrArg TerminalState.manager hs.2⟩
  | .setJobs m, _, hs => exact congrArg TerminalState.manager hs
  | .malloc, _, hs | .printf _, _, hs | .waitpid (.process _) _, _, hs | .kill (.process _) _, _, hs
  | .kill (.group _) .sigterm, _, hs | .kill (.group _) .sigkill, _, hs => exact congrArg TerminalState.manager hs
  | .waitpid (.group _) _, _, hs | .kill (.group _) .sigcont, _, hs =>
    exact (congrArg TerminalState.manager hs).trans (hgiveUp _)

/-- The table is a part of the state. -/
def lendingTable (t : ShellTerminal) : HasTable (lending t) Watch.idle where
  manager := TerminalState.manager
  store := TerminalState.store
  manager_store _ _ := rfl
  store_manager _ := rfl
  store_store _ _ _ := rfl
  alone _ _ he := he
  call := terminalJobCall_table
  frame c s r s' hc hs := by
    cases c with
    | waitpid target flags => exact hc.elim
    | kill target sig => exact hc.elim
    | getJobs =>
      obtain ⟨-, rfl⟩ : r = s.manager ∧ s' = s := hs
      rfl
    | setJobs m | malloc | printf line =>
      have hs : s' = _ := hs
      rw [hs]
      rfl
  always _ := trivial
  atCall _ _ _ := trivial

theorem executeSingle_back (com : Command) (maxJob : ℤ) (h : NotLent s) :
    Safe (lending t) Watch.idle (fun _ s' => TakenBackUnless t s') (executeSingle com ⟨maxJob, t.statics⟩) s := by
  refine calm_bind (plumbing_calm startupGateCreate_plumbing) fun r m => ?_
  obtain ⟨code, gate⟩ := r
  have hclose : ∀ {fd : ℤ} {p : ExecProg ℤ}, p.Only Calm → ((closeFd fd).bind fun _ => p).Only Calm :=
    fun hp => (plumbing_calm (closeFd_plumbing _)).bind fun _ => hp
  have h := h.store m
  dsimp only
  by_cases hcode : code < 0
  · rw [if_pos hcode]
    exact Safe.ret_alone trivial h.unless
  rw [if_neg hcode]
  refine Safe.call_alone trivial trivial fun r s₁ hs => ?_
  obtain rfl : s₁ = s.store m := hs
  by_cases hr : r.ret < 0
  · rw [if_pos hr]
    exact notLent_calm (hclose (hclose trivial)) h
  rw [if_neg hr]
  refine closeFd_lent (calm_bind (plumbing_calm (setpgidParent_plumbing _ _)) fun ret m₁ => ?_)
  have hundo : ∀ code : ℤ, ((rollbackSingle r.ret.toNat).bind fun _ => .ret code : ExecProg ℤ).Only Calm :=
    fun _ => (rollbackSingle_calm _).bind fun _ => trivial
  by_cases hret : ret < 0
  · rw [if_pos hret]
    exact notLent_calm (hclose (hundo _)) (h.store m₁)
  rw [if_neg hret]
  refine ((lendingTable t).safe (jobAdd_only _ _) (jobAdd_has _ _ _)).bind fun id s₂ hs₂ _ => ?_
  obtain ⟨m₂, rfl, hadded⟩ := hs₂
  have h := (h.store m₁).store m₂
  cases id with
  | none => exact notLent_calm (hclose (hundo _)) h
  | some id =>
    refine ((lendingTable t).safe (processAdd_only _ _) (processAdd_has _ (hadded id rfl))).bind
      fun ret s₃ hs₃ _ => ?_
    obtain ⟨m₃, rfl, hadded⟩ := hs₃
    have h := h.store m₃
    by_cases hret : ret < 0
    · rw [if_pos hret]
      refine notLent_calm (hclose ?_) h
      exact (rollbackSingle_calm _).bind fun _ => (removeJob_calm _).bind fun _ => trivial
    · rw [if_neg hret]
      exact handOver_back (rollbackSingle_calm _) h (hadded (by omega)).2

/-- The loop of a pipeline does not touch the terminal. -/
theorem pipelineStage_calm (gate : ℤ × ℤ) (current : Command) (next : Bool) (st : PipelineState) :
    (pipelineStage gate current next st).Only Calm := by
  have hopen : ∀ {fd : ℤ} {p : ExecProg (Except ℤ PipelineState)}, p.Only Calm →
      ((closeOpen fd).bind fun _ => p).Only Calm :=
    fun hp => (plumbing_calm (closeOpen_plumbing _)).bind fun _ => hp
  have hclose : ∀ {fd : ℤ} {p : ExecProg (Except ℤ PipelineState)}, p.Only Calm →
      ((closeFd fd).bind fun _ => p).Only Calm :=
    fun hp => (plumbing_calm (closeFd_plumbing _)).bind fun _ => hp
  have hundo : ∀ {pgid : ℕ} {pids : List ℕ} {code : ℤ},
      ((rollbackPipeline pgid pids).bind fun _ => .ret (.error code) : ExecProg (Except ℤ PipelineState)).Only Calm :=
    (rollbackPipeline_calm _ _).bind fun _ => trivial
  unfold pipelineStage
  by_cases hfull : st.pids.length ≥ MAX_PIPELINE
  · rw [if_pos hfull]
    exact hopen (hclose (hclose hundo))
  rw [if_neg hfull]
  refine (plumbing_calm (stagePipe_plumbing next)).bind fun p => ?_
  by_cases hp : p.ret < 0
  · rw [if_pos hp]
    exact hopen (hclose (hclose hundo))
  rw [if_neg hp]
  refine ⟨trivial, fun r => ?_⟩
  dsimp only
  by_cases hr : r.ret < 0
  · rw [if_pos hr]
    exact hopen (hopen (hopen (hclose (hclose hundo))))
  rw [if_neg hr]
  refine (plumbing_calm (setpgidParent_plumbing _ _)).bind fun ret => ?_
  by_cases hret : ret < 0
  · rw [if_pos hret]
    exact hopen (hopen (hopen (hclose (hclose hundo))))
  rw [if_neg hret]
  refine hopen ?_
  cases next with
  | true => exact hclose trivial
  | false => trivial

theorem pipelineStages_calm (gate : ℤ × ℤ) : ∀ (rest : List Command) (st : PipelineState),
    (pipelineStages gate rest st).Only Calm
  | [], _ => trivial
  | current :: rest, st => by
    refine (pipelineStage_calm gate current _ st).bind fun r => ?_
    cases r with
    | error code => trivial
    | ok st' => exact pipelineStages_calm gate rest st'

theorem executePipeline_back (com : Command) (rest : List Command) (maxJob : ℤ) (h : NotLent s) :
    Safe (lending t) Watch.idle (fun _ s' => TakenBackUnless t s') (executePipeline com rest ⟨maxJob, t.statics⟩) s := by
  have hclose : ∀ {fd : ℤ} {p : ExecProg ℤ}, p.Only Calm → ((closeFd fd).bind fun _ => p).Only Calm :=
    fun hp => (plumbing_calm (closeFd_plumbing _)).bind fun _ => hp
  refine calm_bind (plumbing_calm startupGateCreate_plumbing) fun r m => ?_
  obtain ⟨code, gate⟩ := r
  dsimp only
  by_cases hcode : code < 0
  · rw [if_pos hcode]
    exact Safe.ret_alone trivial (h.store m).unless
  rw [if_neg hcode]
  refine calm_bind (pipelineStages_calm gate _ _) fun r m₁ => ?_
  have h := (h.store m).store m₁
  cases r with
  | error code => exact Safe.ret_alone trivial h.unless
  | ok st =>
    dsimp only
    refine calm_bind (plumbing_calm (closeOpen_plumbing _)) fun _ m₂ => closeFd_lent ?_
    refine ((lendingTable t).safe (jobAdd_only _ _) (jobAdd_has _ _ _)).bind fun id s₂ hs₂ _ => ?_
    obtain ⟨m₃, rfl, hadded⟩ := hs₂
    have h := (h.store m₂).store m₃
    cases id with
    | none =>
      exact notLent_calm (hclose ((rollbackPipeline_calm _ _).bind fun _ => trivial)) h
    | some id =>
      dsimp only
      rw [addProcesses_eq]
      refine ((lendingTable t).safe (addJobProcesses_only _ _) (addJobProcesses_has st.pids (hadded id rfl))).bind
        fun ret s₃ hs₃ _ => ?_
      obtain ⟨m₄, rfl, hadded⟩ := hs₃
      have h := h.store m₄
      by_cases hret : ret < 0
      · rw [if_pos hret]
        refine notLent_calm (hclose ?_) h
        exact (rollbackPipeline_calm _ _).bind fun _ => (removeJob_calm _).bind fun _ => trivial
      · rw [if_neg hret]
        exact handOver_back (rollbackPipeline_calm _ _) h (hadded (by omega)).2

/-! ### The builtin -/

/-- The first job with some property is the one its pointer points to. -/
theorem firstJob_find {m : JobManager} (hdistinct : (m.jobs.map Job.id).Nodup) {p : Job → Bool} {job : Job}
    (hjob : m.jobs.find? p = some job) : m.find job.id = some job := by
  obtain ⟨-, before, after, hjobs, -⟩ := List.find?_eq_some_iff_append.mp hjob
  unfold JobManager.find
  rw [hjobs, List.map_append, List.map_cons] at hdistinct
  rw [hjobs]
  refine List.find?_eq_some_iff_append.mpr ⟨decide_eq_true rfl, before, after, rfl, fun other hother => ?_⟩
  have hne := (List.nodup_append.mp hdistinct).2.2 other.id (List.mem_map_of_mem hother) job.id List.mem_cons_self
  simpa using hne

/-- The modes of the job are set once it has the terminal. -/
theorem jobModes_lent (job : Job) (h : Lent t false s) : Safe (lending t) Watch.idle
    (fun ret s' => (0 ≤ ret → Lent t false s' ∧ s'.manager = s.manager) ∧ (ret < 0 → Lent t true s'))
    (match job.terminalModes with
      | some modes => onTerminal (terminalSetModes t.statics modes)
      | none => .ret 0) s := by
  cases job.terminalModes with
  | none => exact Safe.ret_alone trivial ⟨fun _ => ⟨h, rfl⟩, fun h => absurd h (by decide)⟩
  | some modes =>
    refine (onTerminal_lent (terminalSetModes_outcome modes)).weaken fun ret s' _ hs => ⟨fun hret => ?_, fun hret => ?_⟩
    · obtain ⟨-, rfl⟩ := hs.resolve_right fun h => by omega
      refine ⟨fun hgiven => ?_, rfl⟩
      obtain ⟨haway, -, hrest⟩ := h hgiven
      exact ⟨haway, if_neg haway, hrest⟩
    · obtain ⟨-, rfl⟩ := hs.resolve_left fun h => by omega
      intro hgiven
      have hgiven : s.given = true := by
        unfold TerminalState.failModes at hgiven
        split_ifs at hgiven <;> exact hgiven
      obtain ⟨haway, hmodes, -, hrest⟩ := h hgiven
      rw [show s.failModes t = { s with upset := true } from if_neg haway]
      exact ⟨haway, hmodes, rfl, hrest⟩

theorem fgFinish_back {job : Job} (h : Lent t false s) :
    Safe (lending t) Watch.idle (fun _ s' => TakenBackUnless t s') (fgFinish t.statics job) s := by
  have hkeep : (if job.status = .stopped then keepModes t.statics job else .ret () : ExecProg Unit).Only Calm := by
    split_ifs
    · exact keepModes_calm _ _
    · trivial
  exact calm_bind hkeep fun _ m => finish_back (s := s.store m) h

theorem fgJobRun_back {job : Job} (hdistinct : (s.manager.jobs.map Job.id).Nodup) (hfg : fgJob s.manager = some job)
    (h : NotLent s) : Safe (lending t) Watch.idle (fun _ s' => TakenBackUnless t s') (fgJobRun t.statics job) s := by
  have hgiveUp : ∀ {s : TerminalState} {code : ℤ}, Lent t true s → Safe (lending t) Watch.idle
      (fun _ s' => TakenBackUnless t s') ((restoreTerminal t.statics).bind fun _ => .ret code : ExecProg ℤ) s :=
    fun hlent => Safe.map (restoreTerminal_back hlent) fun _ _ h => h
  refine (terminalSetForeground_lent job.pgid h).bind fun ret s₁ hs₁ _ => ?_
  by_cases hret : ret < 0
  · rw [if_pos hret]
    exact Safe.ret_alone trivial (hs₁.2 hret).unless
  rw [if_neg hret]
  obtain ⟨hpgid, hlent, hmanager⟩ := hs₁.1 (by omega)
  have hjob : HasJob job.id job.pids s₁.manager := hmanager ▸ HasJob.first hdistinct hfg hpgid
  have hfind : s₁.manager.find job.id = some job := hmanager ▸ firstJob_find hdistinct hfg
  refine (jobModes_lent job hlent).bind fun ret s₂ hs₂ _ => ?_
  by_cases hret : ret < 0
  · rw [if_pos hret]
    exact hgiveUp (hs₂.2 hret)
  rw [if_neg hret]
  obtain ⟨hlent, hmanager⟩ := hs₂.1 (by omega)
  rw [← hmanager] at hjob hfind
  have hcontinue : Safe (lending t) Watch.idle (JobOutcome job.id job.pids s₂)
      (if job.status = .stopped then onJobs (jobContinue job.id) else .ret 0) s₂ := by
    by_cases hstopped : job.status = .stopped
    · rw [if_pos hstopped]
      exact jobContinue_lent hjob hfind hpgid hstopped
    · rw [if_neg hstopped]
      exact Safe.ret_alone trivial (.inl ⟨Int.le_refl 0, s₂.manager, rfl, hjob⟩)
  refine hcontinue.bind fun ret s₃ hs₃ _ => ?_
  rcases hs₃ with ⟨hret, m, rfl, hjob⟩ | ⟨hret, m, rfl⟩
  · rw [if_neg (by omega)]
    refine (jobWaitForeground_lent (s := s₂.store m) hjob).bind fun ret s₄ hs₄ _ => ?_
    rcases hs₄ with ⟨hret, m', rfl, hjob⟩ | ⟨hret, m', rfl⟩
    · rw [if_neg (by omega)]
      obtain ⟨job', hfind', -⟩ := hjob.spec
      refine Safe.call_alone trivial trivial fun r s₅ hs => ?_
      obtain ⟨rfl, rfl⟩ : r = m' ∧ s₅ = (s₂.store m).store m' := hs
      rw [hfind']
      exact fgFinish_back hlent
    · rw [if_pos hret]
      exact hgiveUp (Lent.giveUp (s := (s₂.store m).store m') hlent)
  · rw [if_pos hret]
    exact hgiveUp (Lent.giveUp (s := s₂.store m) hlent)

theorem builtinFg_back (hdistinct : (s.manager.jobs.map Job.id).Nodup) (h : NotLent s) :
    Safe (lending t) Watch.idle (fun _ s' => TakenBackUnless t s') (builtinFg t.statics) s := by
  refine Safe.call_alone trivial trivial fun m s₁ hs => ?_
  obtain ⟨rfl, rfl⟩ : m = s.manager ∧ s₁ = s := hs
  cases hfg : fgJob s₁.manager with
  | none => exact notLent_calm ⟨trivial, fun _ => trivial⟩ h
  | some job => exact fgJobRun_back hdistinct hfg h

end Runs

/-- When a function returns after a job's group got the terminal, the shell has
it again or stops, unless the run was upset and a call of the restore failed
too; in that case it neither has it nor stops. -/
theorem terminal_taken_back (t : ShellTerminal) (com : Command) (rest : List Command) (maxJob : ℤ) (table : ShellTable) :
    Safe (lending t) Watch.idle (fun _ s => TakenBackUnless t s) (executeSingle com ⟨maxJob, t.statics⟩)
      (.start t table.manager) ∧
    Safe (lending t) Watch.idle (fun _ s => TakenBackUnless t s) (executePipeline com rest ⟨maxJob, t.statics⟩)
      (.start t table.manager) ∧
    Safe (lending t) Watch.idle (fun _ s => TakenBackUnless t s) (builtinFg t.statics) (.start t table.manager) := by
  have h : NotLent (.start t table.manager) := ⟨rfl, rfl, rfl, rfl⟩
  exact ⟨executeSingle_back com maxJob h, executePipeline_back com rest maxJob h, builtinFg_back table.distinct h⟩

abbrev EPIPE : ℕ := 32

/-- The child is killed before it reads from the gate, so the write to the gate
fails; the terminal is hung up, so the `tcsetpgrp` after it fails too. -/
def gateFails (t : ShellTerminal) : Script ExecCall ExecCall.Ret TerminalState
  | s, .job .getJobs => (s.manager, s)
  | s, .job (.setJobs m) => ((), s.store m)
  | s, .job .malloc => (true, s)
  | s, .job (.waitpid (.process pid) _) => (.reported pid (.signaled 9), s)
  | s, .job (.waitpid (.group pgid) _) => (.reported pgid (.signaled 9),
      if (WaitResult.reported pgid (.signaled 9)).isUseless (activeJob s.manager pgid) then s.giveUp else s)
  | s, .job (.kill _ _) => (⟨0, 0⟩, s)
  | s, .job (.printf _) => ((), s)
  | s, .terminal (.tcsetpgrp pgid) =>
    if pgid = t.pgid then (⟨-1, EIO⟩, s.failForeground t pgid) else (⟨0, 0⟩, s.setForeground t pgid)
  | s, .terminal (.tcsetattr modes) => (⟨0, 0⟩, s.setModes t modes)
  | s, .terminal .tcgetattr => (⟨0, 0, 0⟩, s)
  | s, .pipe => (⟨0, 0, (3, 4)⟩, s)
  | s, .getCloexec _ | s, .setCloexec _ | s, .setpgid _ _ => (⟨0, 0⟩, s)
  | s, .fork _ => (⟨7, 0⟩, s)
  | s, .write _ _ => (⟨-1, EPIPE⟩, s.giveUp)
  | s, .close _ => ((), s)
  | s, .setRunning running => ((), { s with running := running })

theorem gateFails_allowed (t : ShellTerminal) : (gateFails t).Allowed (lending t) := by
  intro s o
  match o with
  | .job .getJobs => exact ⟨rfl, rfl⟩
  | .terminal (.tcsetpgrp pgid) =>
    change terminalCall t s (.tcsetpgrp pgid) _ _
    unfold gateFails terminalCall
    by_cases hpgid : pgid = t.pgid
    · simp [hpgid]
    · simp [hpgid]
  | .job (.kill (.group _) sig) =>
    cases sig with
    | sigcont =>
      have hok : ¬ ((0 : ℤ) < 0 ∧ (0 : ℕ) ≠ EINTR) := by decide
      exact (if_neg hok).symm
    | sigterm => rfl
    | sigkill => rfl
  | .job (.setJobs _) | .job .malloc | .job (.waitpid (.process _) _) | .job (.waitpid (.group _) _)
  | .job (.kill (.process _) _) | .job (.printf _) | .terminal (.tcsetattr _) | .terminal .tcgetattr | .pipe
  | .getCloexec _ | .setCloexec _ | .close _ | .fork _ | .setpgid _ _ | .write _ _ | .setRunning _ => rfl

/-- The shell goes on without its terminal. -/
theorem terminal_not_taken_back : ¬ ∀ t com rest maxJob (table : ShellTable),
    Safe (lending t) Watch.idle (fun _ s => TakenBack t s) (executeSingle com ⟨maxJob, t.statics⟩)
      (.start t table.manager) ∧
    Safe (lending t) Watch.idle (fun _ s => TakenBack t s) (executePipeline com rest ⟨maxJob, t.statics⟩)
      (.start t table.manager) ∧
    Safe (lending t) Watch.idle (fun _ s => TakenBack t s) (builtinFg t.statics) (.start t table.manager) := by
  intro h
  let t : ShellTerminal := ⟨1, 0, Nat.one_pos⟩
  have hsingle := (h t foregroundCommand [] 8 ⟨jobmanagerInit, List.nodup_nil⟩).1
  have hrun : (outcome (gateFails t) 60 (executeSingle foregroundCommand ⟨8, t.statics⟩) (.start t jobmanagerInit)).map
      (fun x => (x.2.given, x.2.foreground, x.2.running)) = some (true, 7, true) := by decide +kernel
  obtain ⟨⟨ret, s⟩, hout, heq⟩ := Option.map_eq_some_iff.mp hrun
  obtain ⟨hgiven, hrest⟩ := Prod.mk.inj heq
  obtain ⟨hforeground, hrunning⟩ := Prod.mk.inj hrest
  rcases hsingle.outcome (gateFails_allowed t) 60 hout hgiven with hback | hstop
  · exact absurd (hback.1.symm.trans hforeground) (by decide)
  · exact absurd (hstop.symm.trans hrunning) (by decide)

end DeviceRuntime
