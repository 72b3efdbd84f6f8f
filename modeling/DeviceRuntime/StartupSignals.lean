/-
# Signals while a job starts

What becomes of the signals of the keyboard once a job has the terminal. A
child inherits the handlers of the shell, and signals that the shell ignores;
it blocks the signals itself, with the second call it makes, and the parent
does not wait for that before it hands the terminal over. A signal that comes
to a child in between goes to a handler of the shell, or to nobody
(`signal_swallowed`). One that comes later is kept until the child has reset
its signals, and then takes its default action (`late_signals_default`).

Key definitions: `HandedOver`, `keyboard`, `Early`, `lateKeyboard`,
`SignalsKept`, `SignalsReset`, `Unswallowed`.
Key theorems: `forkedChild_signals`, `late_signals_default`, `signal_swallowed`.
-/
import DeviceRuntime.StartupGate

namespace DeviceRuntime

open Prog

/-! ### Which signals come -/

def startupSignals : List SignalNumber := [.sigint, .sigquit, .sigtstp, .sigttin, .sigttou]

/-- The signals a user sends to the foreground group. -/
def keyboardSignals : List SignalNumber := [.sigint, .sigquit, .sigtstp]

/-- The group of the job, named after its first child, has been given the
terminal. -/
def HandedOver (log : StartLog) : Prop := ∃ pid, (forkedPids log).head? = some pid ∧ .foreground (pid : ℤ) ∈ log

/-- The signals of the keyboard come once the job has the terminal. -/
def keyboard : ArrivalRule := fun w _ sig => sig ∈ keyboardSignals ∧ HandedOver w.parent.log

/-- The child still has the mask and the handlers of the shell. -/
def Early (s : SignalState) : Prop := s.blocked = [] ∧ s.disposition = shellDisposition

/-- None comes to a child that has not blocked its signals yet. -/
def lateKeyboard : ArrivalRule := fun w c sig => keyboard w c sig ∧ ¬ Early c.signals

/-- The calls of a child that come after `signal_reset_child`. -/
def AfterReset : ChildCall → Prop
  | .dup2 _ _ | .openFile _ _ | .execvp _ => True
  | _ => False

/-- A signal that came is blocked and pending, or it has had its default action;
none went to a handler of the shell, or to nobody. -/
structure SignalsKept (s : SignalState) : Prop where
  came : ∀ sig ∈ s.came, (sig ∈ s.blocked ∧ sig ∈ s.pending) ∨ (sig, .default) ∈ s.taken
  taken : ∀ x ∈ s.taken, x.2 = .default

/-- Nothing is blocked or pending, and every signal that came has had its default
action. -/
structure SignalsReset (s : SignalState) : Prop where
  blocked : s.blocked = []
  pending : s.pending = []
  disposition : ∀ sig, s.disposition sig = .default
  came : ∀ sig ∈ s.came, (sig, .default) ∈ s.taken
  taken : ∀ x ∈ s.taken, x.2 = .default

/-- No child has lost a signal, and none has one left to take once it has reset
them. -/
def Unswallowed (w : ExecWorld) : Prop :=
  ∀ c ∈ w.children, SignalsKept c.signals ∧ ∀ o k, c.prog = .call o k → AfterReset o → SignalsReset c.signals

/-! ### A child -/

/-- The same for a child by itself. -/
def lateSignal : SignalRule := fun s sig => sig ∈ keyboardSignals ∧ ¬ Early s.signals

def signalWatch : Watch ChildCall ChildView where
  always s := SignalsKept s.signals
  atCall o s := AfterReset o → SignalsReset s.signals

/-- All signals of the startup are blocked, what came is pending, and none has
been taken. `done` have been reset. -/
structure Blocking (done : List SignalNumber) (s : SignalState) : Prop where
  blocked : s.blocked = startupSignals
  taken : s.taken = []
  came : ∀ sig ∈ s.came, sig ∈ s.pending ∧ sig ∈ startupSignals
  done : ∀ sig ∈ done, s.disposition sig = .default

section Child

variable {α : Type} {Q : α → ChildView → Prop} {s : ChildView} {done : List SignalNumber}

theorem inherited_kept : SignalsKept inheritedSignals :=
  ⟨fun _ h => absurd h List.not_mem_nil, fun _ h => absurd h List.not_mem_nil⟩

theorem Blocking.kept {s : SignalState} (h : Blocking done s) : SignalsKept s := by
  constructor
  · intro sig hsig
    obtain ⟨hpending, hstartup⟩ := h.came sig hsig
    exact .inl ⟨h.blocked ▸ hstartup, hpending⟩
  · intro x hx
    rw [h.taken] at hx
    exact absurd hx List.not_mem_nil

theorem SignalsReset.kept {s : SignalState} (h : SignalsReset s) : SignalsKept s :=
  ⟨fun sig hsig => .inr (h.came sig hsig), h.taken⟩

/-- Only a signal that comes in changes the signals of a child from outside. -/
theorem stable_signals {A : SignalRule} {P : SignalState → Prop}
    (h : ∀ s sig, A s sig → P s.signals → P (s.signals.arrive sig)) :
    Stable (childWorld A) fun s => P s.signals := by
  intro s s' henv hs
  rcases henv.signals with hsame | ⟨sig, hsig, harrive⟩
  · exact (congrArg P hsame).mpr hs
  · exact (congrArg P harrive).mpr (h s sig hsig hs)

/-- What comes to a child before it has blocked its signals is not late. -/
theorem stable_inherited : Stable (childWorld lateSignal) fun s => s.signals = inheritedSignals := by
  refine stable_signals (P := fun s => s = inheritedSignals) fun s sig hsig hs => ?_
  have hearly : Early s.signals := by rw [hs]; exact ⟨rfl, rfl⟩
  exact absurd hearly hsig.2

theorem keyboard_startup {sig : SignalNumber} (h : sig ∈ keyboardSignals) : sig ∈ startupSignals := by
  simp only [keyboardSignals, List.mem_cons, List.not_mem_nil, or_false] at h
  simp only [startupSignals, List.mem_cons]
  tauto

theorem stable_blocking (done : List SignalNumber) :
    Stable (childWorld lateSignal) fun s => Blocking done s.signals := by
  refine stable_signals fun s sig hsig h => ?_
  have hstartup : sig ∈ startupSignals := keyboard_startup hsig.1
  have hmem : sig ∈ s.signals.blocked := by
    rw [h.blocked]
    exact hstartup
  unfold SignalState.arrive
  rw [if_pos hmem]
  refine ⟨h.blocked, h.taken, ?_, h.done⟩
  intro x hx
  rcases List.mem_append.mp hx with hx | hx
  · obtain ⟨hpending, hx⟩ := h.came x hx
    refine ⟨?_, hx⟩
    split_ifs
    · exact hpending
    · exact List.mem_append_left _ hpending
  · rw [List.mem_singleton.mp hx]
    refine ⟨?_, hstartup⟩
    split_ifs with hpending
    · exact hpending
    · exact List.mem_append_right _ List.mem_cons_self

theorem stable_reset {A : SignalRule} : Stable (childWorld A) fun s => SignalsReset s.signals := by
  refine stable_signals fun s sig _ h => ?_
  have hnot : sig ∉ s.signals.blocked := by simp [h.blocked]
  unfold SignalState.arrive
  rw [if_neg hnot, h.disposition sig]
  refine ⟨h.blocked, h.pending, h.disposition, ?_, ?_⟩
  · intro x hx
    rcases List.mem_append.mp hx with hx | hx
    · exact List.mem_append_left _ (h.came x hx)
    · rw [List.mem_singleton.mp hx]
      exact List.mem_append_right _ List.mem_cons_self
  · intro x hx
    rcases List.mem_append.mp hx with hx | hx
    · exact h.taken x hx
    · rw [List.mem_singleton.mp hx]

/-- The calls that have nothing to do with signals. -/
def SignalFree : ChildCall → Prop
  | .sigprocmask _ _ | .setDefault _ => False
  | _ => True

/-- Those of them that come before the signals are reset. -/
def BeforeReset (o : ChildCall) : Prop := SignalFree o ∧ ¬ AfterReset o

theorem signalFree_same {s s' : ChildView} {o : ChildCall} {r : o.Ret} (ho : SignalFree o) (hs : childSem s o r s') :
    s'.signals = s.signals := by
  cases o with
  | sigprocmask how set => exact ho.elim
  | setDefault sig => exact ho.elim
  | close fd =>
    have hs : s' = s.setFds (s.fds.closeFd fd) := hs
    rw [hs]
    rfl
  | setpgid pgid => exact congrArg ChildView.signals (show s' = s from hs)
  | eventShut =>
    have hs : s' = s.setFds s.fds.shutEvent := hs
    rw [hs]
    rfl
  | deviceCloseAll =>
    obtain ⟨fds, -, rfl⟩ := hs
    rfl
  | read fd =>
    have hs : childRead s fd r s' := hs
    unfold childRead at hs
    split at hs
    · rcases hs with ⟨b, rest, -, -, -, rfl⟩ | ⟨-, -, -, rfl⟩ | ⟨-, rfl⟩
      · rfl
      · rfl
      · rfl
    · rw [hs.2]
  | dup2 fd target =>
    rcases hs with ⟨-, -, rfl⟩ | ⟨-, rfl⟩
    · rfl
    · rfl
  | openFile file flags =>
    rcases hs with ⟨-, -, rfl⟩ | ⟨-, rfl⟩
    · rfl
    · rfl
  | execvp argv => exact congrArg ChildView.signals (show s' = s from hs)
  | exit code => exact r.elim

/-- A call that has nothing to do with signals leaves them as they are. -/
theorem signalFree_keeps {P : SignalState → Prop} {s s' : ChildView} {o : ChildCall} {r : o.Ret} (ho : SignalFree o)
    (hs : childSem s o r s') (h : P s.signals) : P s'.signals := by
  rw [signalFree_same ho hs]
  exact h

theorem blocking_free {p : ChildProg α} (hp : p.Only BeforeReset) (h : Blocking done s.signals) :
    Safe (childWorld lateSignal) signalWatch (fun _ s => Blocking done s.signals) p s :=
  Only.safe (stable_blocking done) (fun _ h => h.kept) (fun _ _ ho _ hafter => absurd hafter ho.2)
    (fun _ _ _ _ ho hs hsem => signalFree_keeps ho.1 hsem hs) hp h

/-- One call while the signals are blocked. -/
theorem blocking_call {o : ChildCall} {k : o.Ret → ChildProg α} (ho : BeforeReset o)
    (hk : ∀ r s', Blocking done s'.signals → Safe (childWorld lateSignal) signalWatch Q (k r) s')
    (h : Blocking done s.signals) : Safe (childWorld lateSignal) signalWatch Q (.call o k) s :=
  Safe.call (stable_blocking done) (fun _ hs => ⟨hs.kept, fun hafter => absurd hafter ho.2⟩)
    (fun _ r s' hs hsem => hk r s' (signalFree_keeps ho.1 hsem hs)) h

theorem blocking_exit (code : ℕ) (h : Blocking done s.signals) :
    Safe (childWorld lateSignal) signalWatch Q (childExit code) s :=
  blocking_call ⟨trivial, fun h => h⟩ (fun r => r.elim) h

theorem setpgidChild_free (pgid : ℕ) : (setpgidChild pgid).Only BeforeReset := by
  refine ⟨fun _ => ⟨⟨trivial, fun h => h⟩, fun r => ?_⟩, fun _ => trivial⟩
  dsimp only [ret_bind]
  split_ifs <;> trivial

theorem startupGateWait_free (fd : ℤ) : (startupGateWait fd).Only BeforeReset := by
  refine ⟨fun _ => ⟨⟨trivial, fun h => h⟩, fun r => ?_⟩, fun _ => trivial⟩
  dsimp only
  split_ifs <;> trivial

/-- One signal after the other is reset. -/
theorem setDefaults_safe : ∀ (sigs : List SignalNumber) {done : List SignalNumber} {s : ChildView},
    Blocking done s.signals →
    Safe (childWorld lateSignal) signalWatch (fun _ s => Blocking (done ++ sigs) s.signals)
      (sigs.foldlM (fun _ sig => setDefault sig) ()) s
  | [], done, s, h => by
    rw [List.append_nil]
    exact Safe.ret (stable_blocking done) (fun _ hs => ⟨hs.kept, hs⟩) h
  | sig :: sigs, done, s, h => by
    rw [List.foldlM_cons]
    have hone : Safe (childWorld lateSignal) signalWatch (fun _ s => Blocking (done ++ [sig]) s.signals)
        (setDefault sig) s := by
      refine Safe.call (stable_blocking done) (fun _ hs => ⟨hs.kept, fun h => h.elim⟩) ?_ h
      intro s _ s' hs hsem
      have hsem : s' = s.setSignals (s.signals.setDefault sig) := hsem
      have hs' : Blocking (done ++ [sig]) s'.signals := by
        rw [hsem]
        refine ⟨hs.blocked, hs.taken, hs.came, ?_⟩
        intro x hx
        have hupdate : (s.setSignals (s.signals.setDefault sig)).signals.disposition x =
            Function.update s.signals.disposition sig .default x := rfl
        rw [hupdate]
        by_cases hxs : x = sig
        · rw [hxs, Function.update_self]
        · rw [Function.update_of_ne hxs]
          rcases List.mem_append.mp hx with hx | hx
          · exact hs.done x hx
          · exact absurd (List.mem_singleton.mp hx) hxs
      exact Safe.ret (stable_blocking _) (fun _ hs => ⟨hs.kept, hs⟩) hs'
    refine Safe.bind hone ?_
    intro _ s' hs _
    have hrest := setDefaults_safe sigs hs
    rw [List.append_assoc] at hrest
    exact hrest

/-- All signals are on the list. -/
theorem mem_resetSignals (sig : SignalNumber) : sig ∈ resetSignals := by
  cases sig <;> decide

/-- Unblocked, what is pending takes its default action. -/
theorem Blocking.unblock {s : SignalState} (h : Blocking resetSignals s) : SignalsReset (s.setMask []) := by
  have hdefault : ∀ sig, s.disposition sig = .default := fun sig => h.done sig (mem_resetSignals sig)
  refine ⟨rfl, ?_, hdefault, ?_, ?_⟩
  · unfold SignalState.setMask
    simp
  · intro sig hsig
    obtain ⟨hpending, -⟩ := h.came sig hsig
    refine List.mem_append_right _ (List.mem_map.mpr ⟨sig, ?_, by rw [hdefault sig]⟩)
    simpa using hpending
  · intro x hx
    rcases List.mem_append.mp hx with hx | hx
    · rw [h.taken] at hx
      exact absurd hx List.not_mem_nil
    · obtain ⟨sig, -, rfl⟩ := List.mem_map.mp hx
      exact hdefault sig

theorem signalResetChild_safe (h : Blocking [] s.signals) :
    Safe (childWorld lateSignal) signalWatch (fun _ s => SignalsReset s.signals) signalResetChild s := by
  unfold signalResetChild
  refine Safe.bind (setDefaults_safe resetSignals h) ?_
  intro _ s hs _
  refine Safe.call (stable_blocking _) (fun _ hs => ⟨hs.kept, fun h => h.elim⟩) ?_ hs
  intro s _ s' hs hsem
  have hsem : s' = s.setSignals (s.signals.setMask []) := hsem
  have hreset : SignalsReset s'.signals := by
    rw [hsem]
    exact hs.unblock
  exact Safe.ret stable_reset (fun _ hs => ⟨hs.kept, hs⟩) hreset

/-- No late signal is lost up to the reset, and none is left then. -/
theorem childPrepare_signals (gateRead gateWrite : ℤ) (pgid : ℕ) (h : s.signals = inheritedSignals) :
    Safe (childWorld lateSignal) signalWatch (fun _ s => SignalsReset s.signals)
      (childPrepareBeforeGate gateRead gateWrite pgid) s := by
  have halways : ∀ s : ChildView, s.signals = inheritedSignals → signalWatch.always s := by
    intro s hs
    have hkept : SignalsKept s.signals := by
      rw [hs]
      exact inherited_kept
    exact hkept
  unfold childPrepareBeforeGate
  refine Safe.call stable_inherited (fun s hs => ⟨halways s hs, fun h => h.elim⟩) ?_ h
  intro s _ s' hs hsem
  have hclosed : s'.signals = inheritedSignals :=
    (signalFree_same (o := .close gateWrite) (r := ()) trivial hsem).trans hs
  refine Safe.call stable_inherited (fun s hs => ⟨halways s hs, fun h => h.elim⟩) ?_ hclosed
  intro s _ s' hs hsem
  have hsem : s' = s.setSignals (s.signals.setMask (s.signals.blocked ++ startupSignals)) := hsem
  have hsignals : s'.signals = s.signals.setMask (s.signals.blocked ++ startupSignals) := by rw [hsem]; rfl
  have hblocking : Blocking [] s'.signals := by
    rw [hsignals, hs]
    exact ⟨rfl, rfl, fun _ hx => absurd hx List.not_mem_nil, fun _ hx => absurd hx List.not_mem_nil⟩
  refine Safe.bind (p := setpgidChild pgid) (blocking_free (setpgidChild_free pgid) hblocking) ?_
  intro ret s hs _
  by_cases hret : ret < 0
  · rw [if_pos hret]
    exact blocking_exit 1 hs
  rw [if_neg hret]
  refine blocking_call ⟨trivial, fun h => h⟩ ?_ hs
  intro _ s hs
  refine blocking_call ⟨trivial, fun h => h⟩ ?_ hs
  intro ret s hs
  by_cases hret : ret < 0
  · rw [if_pos hret]
    exact blocking_exit 1 hs
  rw [if_neg hret]
  refine Safe.bind (blocking_free (startupGateWait_free gateRead) hs) ?_
  intro ret s hs _
  by_cases hret : ret < 0
  · rw [if_pos hret]
    exact blocking_exit 1 hs
  rw [if_neg hret]
  refine blocking_call ⟨trivial, fun h => h⟩ ?_ hs
  intro _ s hs
  exact signalResetChild_safe hs

theorem pastCall_free (o : ChildCall) (h : PastCall o) : SignalFree o := by
  cases o with
  | read fd => exact h.elim
  | sigprocmask how set => exact h.elim
  | setDefault sig => exact h.elim
  | _ => trivial

/-- Past the gate nothing more is done about signals. -/
theorem reset_past {p : ChildProg α} (hp : p.Only PastCall) (h : SignalsReset s.signals) :
    Safe (childWorld lateSignal) signalWatch (fun _ s => SignalsReset s.signals) p s :=
  Only.safe stable_reset (fun _ hs => hs.kept) (fun _ _ _ hs _ => hs)
    (fun o _ _ _ ho hs hsem => signalFree_keeps (pastCall_free o ho) hsem hs) hp h

/-- No late signal is lost to a child, whatever its place in the pipeline. -/
theorem forkedChild_signals (child : ForkedChild) (pid : ℕ) (h : s.signals = inheritedSignals) :
    Safe (childWorld lateSignal) signalWatch (fun _ _ => True) (child.program pid) s := by
  cases child with
  | single com gate =>
    refine Safe.bind (childPrepare_signals gate.1 gate.2 0 h) ?_
    intro _ s hs _
    exact (reset_past (childRun_past com) hs).weaken fun _ _ _ _ => trivial
  | stage current next gate pgid pipeFd pipefd =>
    refine Safe.bind (childPrepare_signals gate.1 gate.2 _ h) ?_
    intro _ s hs _
    exact (reset_past (stageRest_past current next pipeFd pipefd) hs).weaken fun _ _ _ _ => trivial

end Child

/-! ### The whole system -/

/-- In every run in which none comes to a child between the `fork` and
`child_block_startup_signals`, no terminal signal is lost: it is pending until
`signal_reset_child`, after which nothing is blocked or pending and every
signal that came has had its default action. One that does come in between is
lost. -/
theorem late_signals_default (chain : List Command) (ctx : ExecContext) (e : ExecEntry) :
    Safe (startup lateKeyboard) ⟨Unswallowed, fun _ _ => True⟩ (fun _ _ => True) (executeCommand chain ctx) e.world ∧
    ∀ s sig, Early s → sig ∈ keyboardSignals → ∃ x ∈ (s.arrive sig).taken, x.1 = sig ∧ x.2 ≠ .default := by
  constructor
  · have hlate : ∀ w c sig, lateKeyboard w c sig → lateSignal (w.view c) sig := fun w c sig h => ⟨h.1.1, h.2⟩
    have hstarted := executor_started (C := fun _ => signalWatch) hlate chain ctx e fun child pid s pipes atEnd _ =>
      forkedChild_signals child pid rfl
    refine hstarted.mono ?_ (fun _ _ _ => trivial) fun _ _ _ _ => trivial
    intro w h c hc
    obtain ⟨i, hi⟩ := List.mem_iff_getElem?.mp hc
    have hgood := (h.2.children i c hi).good
    refine ⟨hgood.always, ?_⟩
    intro o k hprog hafter
    rw [hprog] at hgood
    exact hgood.2 hafter
  · intro s sig hearly hsig
    obtain ⟨hblocked, hdisposition⟩ := hearly
    have hnot : sig ∉ s.blocked := by simp [hblocked]
    refine ⟨(sig, s.disposition sig), ?_, rfl, ?_⟩
    · unfold SignalState.arrive
      rw [if_neg hnot]
      simp
    · rw [hdisposition]
      simp only [keyboardSignals, List.mem_cons, List.not_mem_nil, or_false] at hsig
      rcases hsig with rfl | rfl | rfl <;> simp [shellDisposition]

/-- A `SIGINT` that comes after the terminal was handed over, to a child that
has not run since the `fork`, ends in the handler of the shell. -/
theorem signal_swallowed : ¬ Safe (startup keyboard) ⟨Unswallowed, fun _ _ => True⟩ (fun _ _ => True)
    (executeCommand [plainCommand] plainContext) plainEntry.world := by
  intro h
  replace h := afterParent (o := .job .getJobs) jobmanagerInit plainEntry.parent ⟨rfl, rfl⟩ ⟨rfl, rfl⟩ h
  replace h := afterParent (o := .pipe) ⟨0, 0, (3, 4)⟩ ⟨jobmanagerInit, plainEntry.fds.addPipe (3, 4) 0, 1, []⟩
    (.inl ⟨rfl, ⟨⟨by decide, rfl⟩, ⟨by decide, rfl⟩, by decide⟩, rfl⟩) ⟨rfl, rfl⟩ h
  replace h := afterParent (o := .getCloexec 3) ⟨0, 0⟩ _ rfl ⟨rfl, rfl⟩ h
  replace h := afterParent (o := .setCloexec 3) ⟨0, 0⟩ _ rfl ⟨rfl, rfl⟩ h
  replace h := afterParent (o := .getCloexec 4) ⟨0, 0⟩ _ rfl ⟨rfl, rfl⟩ h
  replace h := afterParent (o := .setCloexec 4) ⟨0, 0⟩ _ rfl ⟨rfl, rfl⟩ h
  replace h := afterFork 7 (by decide) (by decide) h
  replace h := afterParent (o := .close 3) () _ rfl ⟨rfl, rfl⟩ h
  replace h := Safe.afterLoop h
  replace h := afterParent (o := .setpgid 7 7) ⟨0, 0⟩ _ rfl ⟨rfl, rfl⟩ h
  replace h := afterParent (o := .job .malloc) true _ rfl ⟨rfl, rfl⟩ h
  replace h := afterParent (o := .job .getJobs) jobmanagerInit _ ⟨rfl, rfl⟩ ⟨rfl, rfl⟩ h
  replace h := afterParent (o := .job (.setJobs _)) () _ rfl ⟨rfl, rfl⟩ h
  replace h := afterParent (o := .job .malloc) true _ rfl ⟨rfl, rfl⟩ h
  replace h := afterParent (o := .job .getJobs) _ _ ⟨rfl, rfl⟩ ⟨rfl, rfl⟩ h
  replace h := afterParent (o := .job (.setJobs _)) () _ rfl ⟨rfl, rfl⟩ h
  replace h := Safe.afterLoop h
  replace h := afterParent (o := .terminal (.tcsetpgrp 7)) ⟨0, 0⟩ _ rfl ⟨rfl, rfl⟩ h
  -- the child has not run yet
  have hsignal := h.env (.signal (i := 0)
    (c := (ForkedChild.single plainCommand (3, 4)).start 7 (plainEntry.fds.addPipe (3, 4) 0)) .sigint rfl rfl
    ⟨by decide, 7, by decide, by simp [ParentState.extend]⟩)
  have hkept := (hsignal.good.always _ List.mem_cons_self).1
  have hbad := hkept.taken (.sigint, .handler) List.mem_cons_self
  cases hbad

end DeviceRuntime
