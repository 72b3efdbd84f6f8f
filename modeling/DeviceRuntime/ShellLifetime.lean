/-
# What the shell takes it gives back

Every run of `main`, whatever fails and whenever a signal comes. When the loop
waits, the event pipe and the standard descriptors are open, and the signals
are as `DeviceRuntime.StartupWorld` takes them to be, unless the mask could not
be restored. When `main` returns, all descriptors are as they were, but for
standard ones that were closed and are `/dev/null` now, or that a builtin has
redirected; and so are the statics and the mask.

`Keeping` is the list of what the shell holds; each function that gives
something back leaves `Keeping` with less. The commands of the loop come
between: what they have made of standard input and output is then what the
shell is `Keeping` to (`redirectedBase`).

Key definitions: `SignalsShut`, `Keeping`, `Firm`, `Commanded`, `LoopEntry`,
`AtStart`, `Left`.
Key theorems: `signalInit_safe`, `signalShutdown_safe`,
`terminalShutdown_safe`, `shellInit_safe`, `LoopEntry.run`, `shell_lifetime`.
-/
import DeviceRuntime.ShellEvents
import DeviceRuntime.ShellStartup

namespace DeviceRuntime

open Prog Resources

/-! ### Signals -/

section Signals

variable {mask : List SignalNumber} {w : KernelState}

theorem PipeReady.disposed (hw : PipeReady w) (disposition : SignalNumber → Disposition) :
    HandlerSafe { w with disposition := disposition } :=
  (hw.congr rfl fun _ _ _ h => h : PipeReady { w with disposition := disposition }).safe

/-- The dispositions in force if every `sigaction` succeeds. -/
def disposed (actions : List (SignalNumber × Disposition)) (disposition : SignalNumber → Disposition) :
    SignalNumber → Disposition :=
  actions.foldl (fun disposition action => Function.update disposition action.1 action.2) disposition

/-- Only dispositions have changed, to `all` if nothing failed. -/
def Disposed (w : KernelState) (all : SignalNumber → Disposition) (ret : ℤ) (w' : KernelState) : Prop :=
  ∃ disposition, w' = { w with disposition := disposition } ∧ ((ret = 0 ∧ disposition = all) ∨ ret = -1)

theorem setActions_safe (hw : PipeReady w) (actions : List (SignalNumber × Disposition)) :
    ∀ disposition : SignalNumber → Disposition,
      Safe kernelWorld (kernelWatch mask) (Disposed w (disposed actions disposition))
      (setActions actions) { w with disposition := disposition } := by
  induction actions with
  | nil => exact fun disposition => Safe.ret_alone (hw.disposed disposition) ⟨disposition, rfl, Or.inl ⟨rfl, rfl⟩⟩
  | cons action actions ih =>
    intro disposition
    unfold setActions
    apply Safe.call_alone (hw.disposed disposition) trivial
    intro r w' hs
    rcases hs with ⟨hneg, rfl⟩ | ⟨hzero, rfl⟩
    · rw [if_pos hneg]
      exact Safe.ret_alone (hw.disposed disposition) ⟨disposition, rfl, Or.inr rfl⟩
    · rw [if_neg (by omega)]
      exact ih (Function.update disposition action.1 action.2)

theorem disposed_signalActions (disposition : SignalNumber → Disposition) :
    disposed signalActions disposition = shellDisposition := by
  funext sig
  cases sig <;> rfl

theorem signalInit_safe (hw : PipeReady w) :
    Safe kernelWorld (kernelWatch mask) (Disposed w shellDisposition) Process.signalInit w := by
  have hactions : Safe kernelWorld (kernelWatch mask) (Disposed w (disposed signalActions w.disposition))
      (setActions signalActions) w := setActions_safe hw signalActions w.disposition
  rw [disposed_signalActions] at hactions
  unfold Process.signalInit
  apply Safe.call_alone hw.safe trivial
  intro _ w' hs
  obtain rfl : w' = w := hs
  exact hactions

/-- What `signal_shutdown` may change; the dispositions of the other signals
stay. -/
def SignalsShut (w w' : KernelState) : Prop :=
  ∃ disposition mask maskFailed, w' = { w with disposition := disposition, mask := mask, maskFailed := maskFailed } ∧
    disposition .sigttou = w.disposition .sigttou ∧ MaskKept w w'

theorem PipeReady.shut {w' : KernelState} (hw : PipeReady w) (h : SignalsShut w w') : PipeReady w' := by
  obtain ⟨_, _, _, rfl, -, -⟩ := h
  exact hw.congr rfl fun _ _ _ h => h

/-- A `sigaction` that succeeded or not. -/
theorem tries_disposition {sig : SignalNumber} {disposition : Disposition} {ret : ℤ} {w' : KernelState}
    (hs : w.Tries ret { w with disposition := Function.update w.disposition sig disposition } w')
    (hsig : sig ≠ .sigttou) :
    ∃ all, w' = { w with disposition := all } ∧ all .sigttou = w.disposition .sigttou := by
  rcases hs with ⟨-, rfl⟩ | ⟨-, rfl⟩
  · exact ⟨w'.disposition, rfl, rfl⟩
  · exact ⟨_, rfl, Function.update_of_ne hsig.symm ..⟩

theorem signalShutdown_safe (hw : PipeReady w) :
    Safe kernelWorld (kernelWatch mask) (fun _ w' => SignalsShut w w') signalShutdown w := by
  have hsafe : ∀ w', SignalsShut w w' → HandlerSafe w' := fun w' h => (hw.shut h).safe
  have hready : ∀ (disposition : SignalNumber → Disposition) (mask : List SignalNumber),
      HandlerSafe { w with disposition := disposition, mask := mask } := by
    intro disposition mask
    exact (hw.congr rfl fun _ _ _ h => h : PipeReady { w with disposition := disposition, mask := mask }).safe
  unfold signalShutdown
  apply Safe.call_alone hw.safe trivial
  intro before w₁ hs
  rcases hs with ⟨hneg, rfl⟩ | ⟨hzero, hold, rfl⟩
  · rw [if_pos hneg]
    have hshut : SignalsShut w₁ w₁ := ⟨w₁.disposition, w₁.mask, w₁.maskFailed, rfl, rfl, Or.inl ⟨rfl, rfl⟩⟩
    exact Safe.ret_alone (hsafe _ hshut) hshut
  have hold : before.old = w.mask := hold
  rw [if_neg (by omega), hold]
  apply Safe.call_alone (hready w.disposition _) trivial
  intro _ w₂ hs
  obtain ⟨d₁, rfl, hd₁⟩ := tries_disposition hs (by decide)
  apply Safe.call_alone (hready d₁ _) trivial
  intro _ w₃ hs
  obtain ⟨d₂, rfl, hd₂⟩ := tries_disposition hs (by decide)
  have hd : d₂ .sigttou = w.disposition .sigttou := hd₂.trans hd₁
  apply Safe.call_alone (hready d₂ _) trivial
  intro _ w₄ hs
  obtain rfl := hs
  apply Safe.call_alone (hready d₂ _) trivial
  intro _ w₅ hs
  have hshut : SignalsShut w w₅ := by
    rcases hs with ⟨-, rfl⟩ | ⟨-, -, rfl⟩
    · exact ⟨d₂, _, true, rfl, hd, Or.inr rfl⟩
    · exact ⟨d₂, w.mask, w.maskFailed, rfl, hd, Or.inl ⟨rfl, rfl⟩⟩
  exact Safe.ret_alone (hsafe _ hshut) hshut

end Signals

/-! ### What is held -/

def pipeFiles (w : KernelState) : List (ℤ × HeldFile) := [(w.eventPipe.2, writeFile), (w.eventPipe.1, readFile)]

def terminalFiles (t : Terminal) (w : KernelState) : List (ℤ × HeldFile) :=
  if t.initialized then [(w.terminalFd, ttyFile)] else []

/-- The event pipe is open, with its files in the list, or shut. -/
inductive PipeHeld (w : KernelState) : List (ℤ × HeldFile) → Prop
  | shut (hpipe : w.eventPipe = (-1, -1)) : PipeHeld w []
  | opened (hlow : 0 ≤ w.eventPipe.1) (hhigh : 0 ≤ w.eventPipe.2) : PipeHeld w (pipeFiles w)

/-- The statics of the terminal fit the process. -/
def TerminalHeld (t : Terminal) (w : KernelState) : Prop :=
  (t = noTerminal ∧ w.terminalFd = -1) ∨ (t.initialized = true ∧ t.shellPgid = w.pgrp ∧ 0 ≤ w.terminalFd)

/-- The shell, started in `base`, holds `files` for the event pipe, and what
its terminal needs. -/
structure Keeping (base : KernelState) (files : List (ℤ × HeldFile)) (t : Terminal) (w : KernelState) : Prop where
  holds : Resources.Holds base.fds w.fds (files ++ terminalFiles t w)
  pipe : PipeHeld w files
  terminal : TerminalHeld t w
  mask : MaskKept base w
  stuck : w.stuck = base.stuck

/-- `base` has no devices. -/
def NoDevices (fds : Table ℤ HeldFile) : Prop := withoutDevices fds = fds

section Held

variable {mask : List SignalNumber} {base w : KernelState} {files : List (ℤ × HeldFile)} {t : Terminal}

theorem Keeping.ready (h : Keeping base (pipeFiles w) t w) (hlow : 0 ≤ w.eventPipe.1) (hhigh : 0 ≤ w.eventPipe.2) :
    PipeReady w := by
  have hread : (w.eventPipe.1, readFile) ∈ pipeFiles w ++ terminalFiles t w := by simp [pipeFiles]
  have hwrite : (w.eventPipe.2, writeFile) ∈ pipeFiles w ++ terminalFiles t w := by simp [pipeFiles]
  refine ⟨hlow, hhigh, ?_, h.holds.held _ hread, h.holds.held _ hwrite⟩
  intro heq
  have hfiles : some readFile = some writeFile := by
    rw [← h.holds.held _ hread, ← h.holds.held _ hwrite, heq]
  exact absurd hfiles (by decide)

theorem Keeping.safe (h : Keeping base files t w) : HandlerSafe w := by
  obtain ⟨holds, pipe, terminal, hmask, hstuck⟩ := h
  cases pipe with
  | shut hpipe => exact HandlerSafe.closed (by rw [hpipe]; decide)
  | opened hlow hhigh => exact (Keeping.ready ⟨holds, .opened hlow hhigh, terminal, hmask, hstuck⟩ hlow hhigh).safe

/-- The terminal of a shell that has one is open. -/
theorem Keeping.ttyOpen (h : Keeping base files t w) (ht : t.initialized = true) : TtyOpen w := by
  apply h.holds.held (w.terminalFd, ttyFile)
  rw [terminalFiles, if_pos ht]
  simp

/-- Nothing that is held is a device. -/
theorem Keeping.noDevices (h : Keeping base files t w) (hbase : NoDevices base.fds) : NoDevices w.fds := by
  have hheld : ∀ p ∈ files ++ terminalFiles t w, p.2.kind ≠ .device := by
    have hterminal : ∀ p ∈ terminalFiles t w, p.2.kind ≠ .device := by
      intro p hp
      unfold terminalFiles at hp
      split at hp
      · rw [List.mem_singleton.mp hp]
        show ttyFile.kind ≠ .device
        decide
      · exact absurd hp List.not_mem_nil
    have hfiles : ∀ p ∈ files, p.2.kind ≠ .device := by
      intro p hp
      cases h.pipe with
      | shut => exact absurd hp List.not_mem_nil
      | opened =>
        simp only [pipeFiles, List.mem_cons, List.not_mem_nil, or_false] at hp
        rcases hp with rfl | rfl
        · show writeFile.kind ≠ .device
          decide
        · show readFile.kind ≠ .device
          decide
    intro p hp
    rcases List.mem_append.mp hp with hp | hp
    · exact hfiles p hp
    · exact hterminal p hp
  funext fd
  by_cases hmem : fd ∈ keys (files ++ terminalFiles t w)
  · obtain ⟨p, hp, rfl⟩ := List.mem_map.mp hmem
    unfold withoutDevices
    rw [h.holds.held p hp]
    simp [hheld p hp]
  · have hsame : w.fds fd = base.fds fd := h.holds.others fd hmem
    have hnone : withoutDevices base.fds fd = base.fds fd := congrFun hbase fd
    unfold withoutDevices at hnone ⊢
    rw [hsame, hnone]

theorem Keeping.standard (h : Keeping base files t w) (hbase : StandardOpen base.fds) : StandardOpen w.fds := by
  intro fd hlow hhigh
  have hnot : fd ∉ keys (files ++ terminalFiles t w) := fun hmem => hbase fd hlow hhigh (h.holds.free fd hmem)
  rw [h.holds.others fd hnot]
  exact hbase fd hlow hhigh

/-- The event pipe is none of the standard descriptors. -/
theorem Keeping.beyond (h : Keeping base (pipeFiles w) t w) (hbase : StandardOpen base.fds) (hlow : 0 ≤ w.eventPipe.1)
    (hhigh : 0 ≤ w.eventPipe.2) : 2 < w.eventPipe.1 ∧ 2 < w.eventPipe.2 := by
  have hfree : ∀ fd ∈ keys (pipeFiles w), 0 ≤ fd → 2 < fd := by
    intro fd hfd hpos
    by_contra hsmall
    apply hbase fd hpos (not_lt.mp hsmall)
    apply h.holds.free
    rw [keys, List.map_append]
    exact List.mem_append_left _ hfd
  exact ⟨hfree _ (by simp [keys, pipeFiles]) hlow, hfree _ (by simp [keys, pipeFiles]) hhigh⟩

/-- The shell is not stopped by the terminal, whatever is blocked. -/
def Firm (w : KernelState) : Prop := w.disposition .sigttou = .ignore ∨ w.foreground = true

theorem Firm.unstopped (h : Firm w) : Unstopped w := Or.inr h

/-- The end of a function in which the shell is `Keeping` with less. -/
def Down (base : KernelState) (files : List (ℤ × HeldFile)) (t : Terminal) (w w' : KernelState) : Prop :=
  Keeping base files t w' ∧ (Firm w → Firm w')

theorem eventShut_keeping (h : Keeping base files t w) :
    Safe kernelWorld (kernelWatch mask) (fun _ w' => Down base [] t w w') eventShut w := by
  obtain ⟨holds, pipe, terminal, hmask, hstuck⟩ := h
  cases pipe with
  | shut hpipe =>
    apply (eventShut_closed hpipe).weaken
    rintro _ w' _ rfl
    exact ⟨⟨holds, .shut hpipe, terminal, hmask, hstuck⟩, fun hfirm => hfirm⟩
  | opened hlow hhigh =>
    have hready := Keeping.ready ⟨holds, .opened hlow hhigh, terminal, hmask, hstuck⟩ hlow hhigh
    apply (eventShut_safe hready.safe rfl hlow hhigh hready.apart hready.readEnd hready.writeEnd).weaken
    rintro _ w' _ rfl
    have hgiven : Resources.Holds base.fds ((w.setFile w.eventPipe.2 none).setFile w.eventPipe.1 none).fds
        (terminalFiles t w) :=
      Resources.Holds.give (Resources.Holds.give holds)
    exact ⟨⟨hgiven, .shut rfl, terminal, hmask, hstuck⟩, fun hfirm => hfirm⟩

theorem signalShutdown_keeping (h : Keeping base (pipeFiles w) t w) (hlow : 0 ≤ w.eventPipe.1)
    (hhigh : 0 ≤ w.eventPipe.2) :
    Safe kernelWorld (kernelWatch mask) (fun _ w' => Down base (pipeFiles w') t w w') signalShutdown w := by
  apply (signalShutdown_safe (h.ready hlow hhigh)).weaken
  rintro _ w' _ ⟨disposition, set, maskFailed, rfl, hsame, hkept⟩
  refine ⟨⟨h.holds, .opened hlow hhigh, h.terminal, h.mask.trans hkept, h.stuck⟩, ?_⟩
  rintro (hignored | hforeground)
  · exact Or.inl (hsame.trans hignored)
  · exact Or.inr hforeground

/-- The shell gives the terminal to nobody but its own group. -/
def TakesBack (t : Terminal) (c : TerminalCall) : Prop := ∀ pgid, c = .tcsetpgrp pgid → pgid = t.shellPgid

theorem retry_only {Op : Type} {Ret : Op → Type} {A : Op → Prop} {call : Prog Op Ret CallResult} (hcall : call.Only A) :
    (retry call).Only A := by
  refine ⟨fun _ => hcall.bind fun r => ?_, fun _ => trivial⟩
  split
  · split <;> trivial
  · trivial

theorem terminalRestore_only (t : Terminal) : (terminalRestore t).Only (TakesBack t) := by
  have hset : (terminalSetPgrp t.shellPgid).Only (TakesBack t) := by
    apply retry_only
    exact ⟨fun pgid h => (TerminalCall.tcsetpgrp.inj h).symm, fun _ => trivial⟩
  have hmodes : ∀ modes, (terminalSetModes t modes).Only (TakesBack t) := by
    intro modes
    unfold terminalSetModes
    split
    · trivial
    · apply retry_only
      exact ⟨fun pgid h => TerminalCall.noConfusion h, fun _ => trivial⟩
  unfold terminalRestore
  split
  · trivial
  split
  · trivial
  refine hset.bind fun ret => ?_
  split
  · trivial
  split
  · trivial
  · refine (hmodes _).bind fun ret => ?_
    split <;> trivial

theorem terminalRestore_safe (h : Keeping base files t w) (ht : t.initialized = true) (hfirm : Firm w) :
    Safe kernelWorld (kernelWatch mask) (fun _ w' => ∃ foreground, w' = { w with foreground := foreground })
      (onTerminalFd (terminalRestore t)) w := by
  have hgroup : t.shellPgid = w.pgrp := by
    rcases h.terminal with ⟨rfl, -⟩ | ⟨-, hgroup, -⟩
    · exact absurd ht (by decide)
    · exact hgroup
  let P : KernelState → Prop := fun w' => ∃ foreground, w' = { w with foreground := foreground } ∧ Firm w'
  have hsafe : ∀ w', P w' → HandlerSafe w' := by
    rintro _ ⟨foreground, rfl, -⟩
    exact h.safe.congr rfl (fun _ h => h) (fun _ h => h) (fun _ h => h)
  have huse : ∀ c w', TakesBack t c → P w' → TerminalUse c w' := by
    rintro c _ - ⟨foreground, rfl, hfirm⟩
    have hopen := h.ttyOpen ht
    cases c with
    | tcsetpgrp pgid => exact ⟨hopen, hfirm.unstopped⟩
    | tcgetattr => exact hopen
    | tcsetattr modes => exact hopen
  have hsem : ∀ c w' r w'', TakesBack t c → P w' → ttySem w' c r w'' → P w'' := by
    rintro c _ r w'' htakes ⟨foreground, rfl, hfirm⟩ hs
    cases c with
    | tcsetpgrp pgid =>
      rcases hs with ⟨-, rfl⟩ | ⟨-, rfl⟩
      · exact ⟨foreground, rfl, hfirm⟩
      · refine ⟨_, rfl, Or.inr (decide_eq_true ?_)⟩
        rw [htakes pgid rfl]
        exact hgroup
    | tcgetattr =>
      obtain rfl := hs
      exact ⟨foreground, rfl, hfirm⟩
    | tcsetattr modes =>
      obtain rfl := hs
      exact ⟨foreground, rfl, hfirm⟩
  apply onTerminalFd_safe
  apply (Only.safe (stable_alone P) hsafe huse hsem (terminalRestore_only t) ⟨w.foreground, rfl, hfirm⟩).weaken
  rintro _ w' _ ⟨foreground, hw', -⟩
  exact ⟨foreground, hw'⟩

theorem terminalShutdown_safe (h : Keeping base files t w) (hfirm : t.initialized = true → Firm w) :
    Safe kernelWorld (kernelWatch mask) (fun _ w' => Keeping base files noTerminal w') (terminalShutdown t) w := by
  unfold terminalShutdown
  rcases h.terminal with ⟨rfl, hclosed⟩ | ⟨ht, hgroup, hopen⟩
  · show Safe _ _ _ (.call KernelCall.loadTerminalFd _) _
    apply Safe.call_alone h.safe trivial
    intro fd w₁ hs
    obtain ⟨hfd, rfl⟩ := hs
    have hfd : fd = -1 := hfd.trans hclosed
    rw [hfd, if_neg (by decide)]
    apply Safe.call_alone h.safe trivial
    intro _ w₂ hs
    obtain rfl : w₂ = w₁ := by
      rw [← hclosed] at hs
      exact hs
    exact Safe.ret_alone h.safe h
  · apply (terminalRestore_safe h ht (hfirm ht)).bind
    rintro _ _ ⟨foreground, rfl⟩ hw'
    apply Safe.call_alone (o := KernelCall.loadTerminalFd) hw' trivial
    intro fd w₁ hs
    obtain ⟨hfd, rfl⟩ := hs
    have hfd : fd = w.terminalFd := hfd
    rw [hfd, if_pos hopen]
    have hlist : terminalFiles t w = [(w.terminalFd, ttyFile)] := if_pos ht
    have hgiven : Resources.Holds base.fds (w.setFile w.terminalFd none).fds files := by
      apply Resources.Holds.give (x := ttyFile)
      apply h.holds.perm
      rw [hlist]
      exact List.perm_append_comm
    have hrest : ∀ terminalFd : ℤ, terminalFd = -1 → Keeping base files noTerminal
        { w.setFile w.terminalFd none with foreground := foreground, terminalFd := terminalFd } := by
      rintro _ rfl
      refine ⟨?_, ?_, Or.inl ⟨rfl, rfl⟩, h.mask, h.stuck⟩
      · rw [terminalFiles, if_neg (by decide), List.append_nil]
        exact hgiven
      · cases h.pipe with
        | shut hpipe => exact .shut hpipe
        | opened hlow hhigh => exact .opened hlow hhigh
    have hhandler : HandlerSafe ({ w with foreground := foreground }.setFile w.terminalFd none) :=
      (hrest (-1) rfl).safe.congr rfl (fun _ h => h) (fun _ h => h) (fun _ h => h)
    apply close_safe hw' (h.ttyOpen ht)
    intro _
    apply Safe.call_alone hhandler trivial
    intro _ w₂ hs
    obtain rfl := hs
    exact Safe.ret_alone (hrest (-1) rfl).safe (hrest (-1) rfl)

/-- Without devices there is nothing to close. -/
theorem contextDestroy_safe {α : Type} {Q : α → KernelState → Prop} {k : Unit → KernelProg α} (hw : HandlerSafe w)
    (hk : Safe kernelWorld (kernelWatch mask) Q (k ()) { w with fds := withoutDevices w.fds }) :
    Safe kernelWorld (kernelWatch mask) Q (.call .contextDestroy k) w := by
  apply Safe.call_alone hw trivial
  intro _ w' hs
  obtain rfl := hs
  exact hk

theorem Keeping.destroy {α : Type} {Q : α → KernelState → Prop} {k : Unit → KernelProg α} (h : Keeping base files t w)
    (hbase : NoDevices base.fds) (hk : Safe kernelWorld (kernelWatch mask) Q (k ()) w) :
    Safe kernelWorld (kernelWatch mask) Q (.call .contextDestroy k) w := by
  have hnone : withoutDevices w.fds = w.fds := h.noDevices hbase
  apply contextDestroy_safe h.safe
  rw [hnone]
  exact hk

end Held

/-! ### From the start to the loop -/

/-- What `shell_init` leaves for the loop, or nothing. -/
inductive ShellInitOver (base : KernelState) : ShellStatus × Terminal × ShellState → KernelState → Prop
  | failed {ctx : ShellState} {w : KernelState} (h : Keeping base [] noTerminal w) :
    ShellInitOver base (.error, noTerminal, ctx) w
  | ready {t : Terminal} {ctx : ShellState} {w : KernelState} (h : Keeping base (pipeFiles w) t w)
    (hpipe : PipeReady w) (hdisposition : w.disposition = shellDisposition) (hmask : w.mask = base.mask) :
    ShellInitOver base (.ok, t, ctx) w

section Init

variable {mask : List SignalNumber} {base w : KernelState} {t : Terminal} {a b : ℤ}

theorem withPipe_keeping (hfree : FreePair base.fds a b) (hterminal : base.terminalFd = -1) :
    Keeping base (pipeFiles (withPipe base a b readFile writeFile)) noTerminal
      (withPipe base a b readFile writeFile) := by
  have hread : Resources.Holds base.fds (base.setFile a (some readFile)).fds [(a, readFile)] :=
    (Holds.nothing base.fds).take hfree.left
  have hright : (base.setFile a (some readFile)).fds b = none := by
    rw [KernelState.setFile_other _ _ hfree.apart.symm]
    exact hfree.right
  exact ⟨hread.take hright, .opened hfree.low hfree.high, Or.inl ⟨rfl, hterminal⟩, Or.inl ⟨rfl, rfl⟩, rfl⟩

theorem withPipe_ready (hfree : FreePair base.fds a b) : PipeReady (withPipe base a b readFile writeFile) :=
  ⟨hfree.low, hfree.high, hfree.apart, withPipe_read hfree, withPipe_write⟩

/-- The terminal is taken by a shell that has none. -/
theorem Keeping.started {fd : ℤ} {s : Standing} (modes : Termios) (h : Keeping base (pipeFiles w) noTerminal w)
    (hready : PipeReady w) (hfree : w.fds fd = none) (hlow : 0 ≤ fd) (hmask : MaskKept w ((withTty w fd).stand s)) :
    Keeping base (pipeFiles ((withTty w fd).stand s)) ⟨true, s.pgrp, some modes⟩ ((withTty w fd).stand s) := by
  have htaken : Resources.Holds base.fds (w.setFile fd (some ttyFile)).fds
      ((fd, ttyFile) :: (pipeFiles w ++ terminalFiles noTerminal w)) := h.holds.take hfree
  have hlist : terminalFiles noTerminal w = [] := rfl
  rw [hlist, List.append_nil] at htaken
  refine ⟨?_, .opened hready.low hready.high, Or.inr ⟨rfl, rfl, hlow⟩, h.mask.trans hmask, h.stuck⟩
  apply htaken.perm
  show ([(fd, ttyFile)] ++ pipeFiles w).Perm _
  exact List.perm_append_comm

theorem signalInit_over (ctx : ShellState) (hbase : NoDevices base.fds) (h : Keeping base (pipeFiles w) t w)
    (hready : PipeReady w) (hforeground : t.initialized = true → w.foreground = true) (hmask : w.mask = base.mask) :
    Safe kernelWorld (kernelWatch mask) (ShellInitOver base)
      (Process.signalInit.bind fun ret =>
        if ret < 0 then
          signalShutdown.bind fun _ => (terminalShutdown t).bind fun _ => eventShut.bind fun _ =>
            .call .contextDestroy fun _ => .ret (.error, noTerminal, ctx)
        else .ret (.ok, t, ctx)) w := by
  apply (signalInit_safe hready).bind
  rintro ret _ ⟨disposition, rfl, ⟨rfl, rfl⟩ | rfl⟩ hw'
  · rw [if_neg (by decide)]
    have hkeeping : Keeping base (pipeFiles { w with disposition := shellDisposition }) t
        { w with disposition := shellDisposition } :=
      ⟨h.holds, .opened hready.low hready.high, h.terminal, h.mask, h.stuck⟩
    exact Safe.ret_alone hw' (.ready hkeeping (hready.congr rfl fun _ _ _ h => h) rfl hmask)
  · rw [if_pos (by decide)]
    have hkeeping : Keeping base (pipeFiles { w with disposition := disposition }) t
        { w with disposition := disposition } :=
      ⟨h.holds, .opened hready.low hready.high, h.terminal, h.mask, h.stuck⟩
    apply (signalShutdown_keeping hkeeping hready.low hready.high).bind
    rintro _ w₁ ⟨h₁, hfirm₁⟩ -
    apply (terminalShutdown_safe h₁ fun ht => hfirm₁ (Or.inr (hforeground ht))).bind
    intro _ w₂ h₂ _
    apply (eventShut_keeping h₂).bind
    rintro _ w₃ ⟨h₃, -⟩ hw₃
    exact h₃.destroy hbase (Safe.ret_alone hw₃ (.failed h₃))

theorem shellInit_safe (hbase : NoDevices base.fds) (hpipe : base.eventPipe = (-1, -1))
    (hterminal : base.terminalFd = -1)
    (hhandlers : ∀ sig, base.disposition sig ≠ .handler) :
    Safe kernelWorld (kernelWatch mask) (ShellInitOver base) shellInit base := by
  have hnothing : Keeping base [] noTerminal base :=
    ⟨Holds.nothing base.fds, .shut hpipe, Or.inl ⟨rfl, hterminal⟩, Or.inl ⟨rfl, rfl⟩, rfl⟩
  unfold shellInit
  apply Safe.call_alone hnothing.safe trivial
  intro prompts w hs
  obtain rfl : w = base := hs
  apply (eventInit_safe hpipe hhandlers).bind
  intro ret w₁ hover hw₁
  cases hover with
  | failed => exact hnothing.destroy hbase (Safe.ret_alone hw₁ (.failed hnothing))
  | @opened a b hfree =>
    have hkeeping := withPipe_keeping hfree hterminal
    have hready := withPipe_ready hfree
    rw [if_neg (by decide)]
    apply (terminalInit_safe hready hterminal).bind
    intro r w₂ hover hw₂
    cases hover with
    | absent =>
      exact signalInit_over _ hbase hkeeping hready (fun ht => absurd ht (by decide)) rfl
    | @failed s hmask =>
      have hstand : Keeping w (pipeFiles ((withPipe w a b readFile writeFile).stand s)) noTerminal
          ((withPipe w a b readFile writeFile).stand s) :=
        ⟨hkeeping.holds, .opened hready.low hready.high, Or.inl ⟨rfl, hterminal⟩, hmask, rfl⟩
      apply (eventShut_keeping hstand).bind
      rintro _ w₃ ⟨h₃, -⟩ hw₃
      exact h₃.destroy hbase (Safe.ret_alone hw₃ (.failed h₃))
    | @started fd s modes hfd hlow hforeground hmask hfailed =>
      have hstarted := hkeeping.started modes hready hfd hlow (Or.inl ⟨hmask, hfailed⟩)
      exact signalInit_over _ hbase hstarted (withTty_ready hready hfd s) (fun _ => hforeground) hmask

end Init

/-! ### The loop -/

abbrev commandWorld : World ShellCall ShellCall.Ret KernelState := World.alone shellSem

def commandWatch (mask : List SignalNumber) : Watch ShellCall KernelState := ⟨HandlerSafe, ShellUse mask⟩

/-- The calls of the loop but for those of `signal_take_events` on the mask. It
selects on the event pipe. -/
def LoopCall (eventFd : ℤ) : ShellCall → Prop
  | .select fd => fd = eventFd
  | .sigBlock | .sigSetmask _ => False
  | _ => True

/-- What the loop may have done when it waits: devices were opened, standard
input and output redirected, the terminal passed on, and the mask not
restored. -/
structure Commanded (w w' : KernelState) : Prop where
  fds : RedirectsOver w'.stuck w.fds (withoutDevices w'.fds)
  mask : MaskKept w w'
  eventPipe : w'.eventPipe = w.eventPipe
  terminalFd : w'.terminalFd = w.terminalFd
  pgrp : w'.pgrp = w.pgrp
  disposition : w'.disposition = w.disposition

/-- Everything the shell is left with. A standard descriptor that was closed is
`/dev/null`, and one that a builtin has redirected was restored if it could
be. -/
structure Left (start w : KernelState) : Prop where
  fds : ∃ fds, Filled start.fds fds ∧ RedirectsOver w.stuck fds w.fds
  eventPipe : w.eventPipe = (-1, -1)
  terminalFd : w.terminalFd = -1
  mask : MaskKept start w

section Redirects

variable {fds fds' fds'' : Table ℤ HeldFile} {stuck stuck' : ℤ → Bool} {fd : ℤ}

theorem RedirectsOver.refl (stuck : ℤ → Bool) (fds : Table ℤ HeldFile) : RedirectsOver stuck fds fds := by
  intro fd
  split_ifs
  · exact .untouched
  · rfl

theorem RedirectOver.mono {file file' : Option HeldFile} {stuck stuck' : Bool} (h : RedirectOver file stuck file')
    (hstuck : stuck = true → stuck' = true) : RedirectOver file stuck' file' := by
  cases h with
  | untouched => exact .untouched
  | restored hfile => exact .restored hfile
  | stays h => exact .stays (hstuck h)

/-- One builtin after another. -/
theorem RedirectOver.trans {file file' file'' : Option HeldFile} {stuck : Bool} (h : RedirectOver file stuck file')
    (h' : RedirectOver file' stuck file'') : RedirectOver file stuck file'' := by
  cases h' with
  | untouched => exact h
  | restored hfile =>
    cases h with
    | untouched => exact .restored hfile
    | @restored g hfile' =>
      obtain rfl := Option.some.inj hfile
      exact .restored (f := g) hfile'
    | stays hstuck =>
      obtain rfl := Option.some.inj hfile
      exact .stays hstuck
  | stays hstuck => exact .stays hstuck

theorem RedirectsOver.trans (h : RedirectsOver stuck fds fds') (h' : RedirectsOver stuck' fds' fds'') :
    RedirectsOver (fun fd => stuck fd || stuck' fd) fds fds'' := by
  intro fd
  have hfirst := h fd
  have hsecond := h' fd
  split_ifs at hfirst hsecond ⊢
  · exact (hfirst.mono fun hstuck => by simp [hstuck]).trans (hsecond.mono fun hstuck => by simp [hstuck])
  · exact hsecond.trans hfirst

/-- Other descriptors are not redirected. -/
theorem RedirectsOver.beyond (h : RedirectsOver stuck fds fds') (hfd : 2 < fd) : fds' fd = fds fd := by
  have hover := h fd
  have hnot : ¬ (fd = STDIN_FILENO ∨ fd = STDOUT_FILENO) := by
    show ¬ (fd = 0 ∨ fd = 1)
    omega
  rwa [if_neg hnot] at hover

theorem RedirectOver.some {file file' : Option HeldFile} {stuck : Bool} (h : RedirectOver file stuck file')
    (hfile : file ≠ none) : file' ≠ none := by
  cases h with
  | untouched => exact hfile
  | restored _ => exact Option.some_ne_none _
  | stays _ => exact Option.some_ne_none _

theorem RedirectsOver.some (h : RedirectsOver stuck fds fds') (hfd : fds fd ≠ none) : fds' fd ≠ none := by
  have hover := h fd
  split_ifs at hover
  · exact hover.some hfd
  · rwa [hover]

end Redirects

theorem withoutDevices_some {fds : Table ℤ HeldFile} {fd : ℤ} {file : HeldFile}
    (hfile : withoutDevices fds fd = some file) : fds fd = some file :=
  (Option.filter_eq_some_iff.mp hfile).1

theorem inert_loopCall {α : Type} {eventFd : ℤ} {p : ShellProg α} (hp : p.Only Inert) : p.Only (LoopCall eventFd) := by
  refine hp.mono fun c hc => ?_
  cases c with
  | select fd => exact hc.elim
  | sigBlock => exact hc.elim
  | sigSetmask blocked => exact hc.elim
  | _ => trivial

theorem eventDrain_loopCall (eventFd : ℤ) : eventDrain.Only (LoopCall eventFd) := by
  refine ⟨fun _ => ⟨trivial, fun r => ?_⟩, fun _ => trivial⟩
  dsimp only
  split_ifs <;> trivial

theorem reapChildren_loopCall (eventFd : ℤ) (taken : BitVec 32) : (reapChildren taken).Only (LoopCall eventFd) := by
  unfold reapChildren
  split_ifs
  · exact ⟨trivial, fun _ => ⟨trivial, fun _ => trivial⟩⟩
  · trivial

theorem interruptInput_loopCall (eventFd : ℤ) (taken : BitVec 32) (ctx : ShellState) :
    (interruptInput taken ctx).Only (LoopCall eventFd) := by
  unfold interruptInput
  split_ifs
  · refine ⟨trivial, fun _ => ?_⟩
    refine (inert_loopCall shellFlushStdout_inert).bind fun ret => ?_
    split_ifs
    · trivial
    · refine (inert_loopCall (shellWriteAll_inert _)).bind fun ret => ?_
      split_ifs <;> trivial
  · trivial

theorem shellInput_loopCall (eventFd : ℤ) (ready prompt : Bool) (ctx : ShellState) :
    (shellInput ready prompt ctx).Only (LoopCall eventFd) := by
  unfold shellInput
  split_ifs
  · trivial
  · refine (inert_loopCall (shellReadInput_inert ctx)).bind fun i => ?_
    split_ifs <;> trivial
  · trivial

/-- The shell when it enters the loop. -/
structure LoopEntry (base w : KernelState) (t : Terminal) : Prop where
  keeping : Keeping base (pipeFiles w) t w
  pipe : PipeReady w
  disposition : w.disposition = shellDisposition
  mask : w.mask = base.mask
  devices : NoDevices base.fds
  standard : StandardOpen base.fds

section Loop

variable {α : Type} {Q : α → KernelState → Prop} {base w w' : KernelState} {t : Terminal}

theorem Commanded.refl (h : NoDevices w.fds) : Commanded w w := by
  refine ⟨?_, Or.inl ⟨rfl, rfl⟩, rfl, rfl, rfl, rfl⟩
  have hnone : withoutDevices w.fds = w.fds := h
  rw [hnone]
  exact RedirectsOver.refl _ _

theorem LoopEntry.beyond (h : LoopEntry base w t) : 2 < w.eventPipe.1 ∧ 2 < w.eventPipe.2 :=
  h.keeping.beyond h.standard h.pipe.low h.pipe.high

/-- Commands leave the pipe and the standard descriptors open. -/
theorem LoopEntry.ready (h : LoopEntry base w t) (hw : Commanded w w') : PipeReady w' := by
  refine h.pipe.congr hw.eventPipe fun fd file hfd hfile => withoutDevices_some ?_
  have hlarge : 2 < fd := by
    rcases hfd with rfl | rfl
    · exact h.beyond.1
    · exact h.beyond.2
  rw [hw.fds.beyond hlarge]
  exact hfile

theorem LoopEntry.open (h : LoopEntry base w t) (hw : Commanded w w') : StandardOpen w'.fds := by
  intro fd hlow hhigh
  have hkept : withoutDevices w'.fds fd ≠ none := hw.fds.some (h.keeping.standard h.standard fd hlow hhigh)
  obtain ⟨file, hfile⟩ := Option.ne_none_iff_exists'.mp hkept
  rw [withoutDevices_some hfile]
  exact Option.some_ne_none _

theorem LoopEntry.loop (h : LoopEntry base w t) (hw : Commanded w w') : LoopReady base.mask w' w.eventPipe.1 := by
  refine ⟨congrArg Prod.fst hw.eventPipe, h.ready hw, ?_, h.open hw, hw.disposition.trans h.disposition, ?_⟩
  · rw [hw.eventPipe]
    exact h.beyond
  · rcases hw.mask with ⟨hmask, -⟩ | hfailed
    · exact Or.inl (hmask.trans h.mask)
    · exact Or.inr hfailed

theorem LoopEntry.use (h : LoopEntry base w t) {c : ShellCall} (hc : LoopCall w.eventPipe.1 c)
    (hw : Commanded w w') : ShellUse base.mask c w' := by
  cases c with
  | select fd =>
    obtain rfl : fd = w.eventPipe.1 := hc
    exact h.loop hw
  | readEvent size =>
    have hready := h.loop hw
    rw [← congrArg Prod.fst hw.eventPipe] at hready
    exact hready
  | sigBlock => exact hc.elim
  | sigSetmask blocked => exact hc.elim
  | _ => exact h.open hw

/-- A call that leaves the mask alone. -/
theorem Commanded.step {eventFd : ℤ} {c : ShellCall} {r : c.Ret} {w'' : KernelState} (hw : Commanded w w')
    (hc : LoopCall eventFd c) (hs : shellSem w' c r w'') : Commanded w w'' := by
  cases c with
  | command line =>
    obtain ⟨fds, foreground, stuck, hover, rfl⟩ := hs
    exact ⟨hw.fds.trans hover, hw.mask, hw.eventPipe, hw.terminalFd, hw.pgrp, hw.disposition⟩
  | sigBlock => exact hc.elim
  | sigSetmask blocked => exact hc.elim
  | _ =>
    obtain rfl := hs
    exact hw

theorem LoopEntry.calls (h : LoopEntry base w t) {p : ShellProg α} (hp : p.Only (LoopCall w.eventPipe.1))
    (hw : Commanded w w') :
    Safe commandWorld (commandWatch base.mask) (fun _ w'' => Commanded w w'') p w' :=
  Only.safe (stable_alone _) (fun _ hw => (h.ready hw).safe) (fun _ _ hc hw => h.use hc hw)
    (fun _ _ _ _ hc hw hs => hw.step hc hs) hp hw

/-- The mask is restored, or could not be. -/
theorem LoopEntry.taken (h : LoopEntry base w t) (hw : Commanded w w') :
    Safe commandWorld (commandWatch base.mask) (fun _ w'' => Commanded w w'') signalTakeEvents w' := by
  unfold signalTakeEvents
  have hopen := h.open hw
  apply Safe.call_alone (h.ready hw).safe hopen
  intro r w₁ hs
  rcases hs with ⟨hneg, rfl⟩ | ⟨hzero, rfl⟩
  · rw [if_pos hneg]
    exact Safe.ret_alone (h.ready hw).safe hw
  rw [if_neg (by omega)]
  -- SIGINT and SIGCHLD are blocked
  have hblocked : HandlerSafe { w'.setMask .block [.sigint, .sigchld] with saved := w'.mask } :=
    (h.ready hw).safe.congr rfl (fun _ h => h) (fun _ h => h) fun _ h => h
  apply Safe.call_alone hblocked hopen
  intro events w₂ hs
  obtain rfl := hs
  apply Safe.call_alone hblocked hopen
  intro _ w₃ hs
  obtain rfl := hs
  apply Safe.call_alone hblocked hopen
  intro r w₄ hs
  have hback : Commanded w w₄ := by
    rcases hs with ⟨-, rfl⟩ | ⟨-, rfl⟩
    · exact ⟨hw.fds, Or.inr rfl, hw.eventPipe, hw.terminalFd, hw.pgrp, hw.disposition⟩
    · exact ⟨hw.fds, hw.mask, hw.eventPipe, hw.terminalFd, hw.pgrp, hw.disposition⟩
  exact Safe.ret_alone (h.ready hback).safe hback

theorem LoopEntry.events (h : LoopEntry base w t) (ready : Bool) (ctx : ShellState) (hw : Commanded w w') :
    Safe commandWorld (commandWatch base.mask) (fun _ w'' => Commanded w w'') (shellEvents ready ctx) w' := by
  unfold shellEvents
  split_ifs
  · apply (h.calls (eventDrain_loopCall _) hw).bind
    intro ret w₁ hw₁ hsafe₁
    split_ifs
    · exact Safe.ret_alone hsafe₁ hw₁
    · apply (h.taken hw₁).bind
      intro taken w₂ hw₂ _
      apply (h.calls (reapChildren_loopCall _ taken) hw₂).bind
      intro _ w₃ hw₃ _
      exact h.calls (interruptInput_loopCall _ taken ctx) hw₃
  · exact Safe.ret_alone (h.ready hw).safe hw

theorem LoopEntry.turn (h : LoopEntry base w t) (s : Bool × ShellState) (hw : Commanded w w') :
    Safe commandWorld (commandWatch base.mask) (fun _ w'' => Commanded w w'') (shellTurn w.eventPipe.1 s) w' := by
  unfold shellTurn
  split_ifs
  · exact Safe.ret_alone (h.ready hw).safe hw
  apply (h.calls (inert_loopCall (shellPrompt_inert s.1 s.2)) hw).bind
  intro ret w₁ hw₁ hsafe₁
  split_ifs
  · exact Safe.ret_alone hsafe₁ hw₁
  apply Safe.call_alone (o := ShellCall.select w.eventPipe.1) hsafe₁ (h.loop hw₁)
  intro r w₂ hs
  obtain rfl := hs
  split_ifs
  · exact Safe.ret_alone hsafe₁ hw₁
  · exact Safe.ret_alone hsafe₁ hw₁
  apply (h.events r.eventReady s.2 hw₁).bind
  intro e w₃ hw₃ hsafe₃
  cases e with
  | none => exact Safe.ret_alone hsafe₃ hw₃
  | some e => exact h.calls (shellInput_loopCall _ r.stdinReady e.1 e.2) hw₃

theorem onShell_safe {mask : List SignalNumber} {p : ShellProg α}
    (h : Safe commandWorld (commandWatch mask) Q p w) : Safe kernelWorld (kernelWatch mask) Q (onShell p) w :=
  h.embed KernelCall.shell (fun _ r => r) (fun _ _ he => he) (fun _ _ _ _ hs => hs) (fun _ hw => hw) (fun _ _ hc => hc)

theorem LoopEntry.run (h : LoopEntry base w t) (ctx : ShellState) :
    Safe kernelWorld (kernelWatch base.mask) (fun _ w' => Commanded w w')
      (onShell (shellRun w.eventPipe.1 ctx)) w := by
  have hw : Commanded w w := .refl (h.keeping.noDevices h.devices)
  apply onShell_safe
  unfold shellRun
  split_ifs
  · exact Safe.ret_alone h.pipe.safe hw
  · exact Safe.ret_alone h.pipe.safe hw
  · apply Safe.iter (I := fun _ w' => Commanded w w') (fun _ => stable_alone _) (fun _ => stable_alone _)
      (fun _ _ hw => (h.ready hw).safe) (fun _ _ hw => (h.ready hw).safe) ?_ hw
    intro s w' hw'
    refine (h.turn s hw').weaken fun x _ _ hx => ?_
    cases x with
    | inl _ => exact hx
    | inr _ => exact hx

end Loop

/-! ### The end -/

section Run

variable {base w : KernelState} {t : Terminal}

/-- The calls of the last message. -/
def Writes : ShellCall → Prop
  | .fflush | .write _ => True
  | _ => False

theorem shellFlushStdout_writes : shellFlushStdout.Only Writes := by
  refine ⟨fun _ => ⟨trivial, fun r => ?_⟩, fun _ => trivial⟩
  dsimp only
  split_ifs <;> trivial

theorem shellWriteAll_writes (data : List Byte) : (shellWriteAll data).Only Writes := by
  refine ⟨fun written => ?_, fun _ => trivial⟩
  dsimp only
  split_ifs
  · refine ⟨trivial, fun r => ?_⟩
    dsimp only
    split_ifs <;> trivial
  · trivial

theorem farewell_safe {mask : List SignalNumber} {p : ShellProg Unit} (hp : p.Only Writes) (hw : HandlerSafe w)
    (hstandard : StandardOpen w.fds) :
    Safe kernelWorld (kernelWatch mask) (fun _ w' => w' = w) (onShell p) w := by
  have huse : ∀ c w', Writes c → w' = w → ShellUse mask c w' := by
    rintro c _ hc rfl
    cases c with
    | fflush => exact hstandard
    | write data => exact hstandard
    | _ => exact hc.elim
  have hsem : ∀ c w' (r : ShellCall.Ret c) w'', Writes c → w' = w → shellSem w' c r w'' → w'' = w := by
    rintro c _ r w'' hc rfl hs
    cases c with
    | fflush => exact hs
    | write data => exact hs
    | _ => exact hc.elim
  apply onShell_safe
  exact Only.safe (stable_alone _) (fun _ h => h ▸ hw) huse hsem hp rfl

/-- The descriptors the shell found, with what commands have made of standard
input and output. -/
def redirectedFds (base w : KernelState) : Table ℤ HeldFile :=
  fun fd => if fd = STDIN_FILENO ∨ fd = STDOUT_FILENO then withoutDevices w.fds fd else base.fds fd

def redirectedBase (base w : KernelState) : KernelState :=
  { base with fds := redirectedFds base w, stuck := w.stuck }

theorem LoopEntry.redirects {w' : KernelState} (h : LoopEntry base w t) (hw : Commanded w w') :
    RedirectsOver w'.stuck base.fds (redirectedBase base w').fds := by
  intro fd
  have hover := hw.fds fd
  show if _ then RedirectOver _ _ (redirectedFds base w' fd) else redirectedFds base w' fd = _
  unfold redirectedFds
  split_ifs at hover ⊢ with hstd
  · have hopen : base.fds fd ≠ none := by
      rcases hstd with rfl | rfl
      · exact h.standard 0 (by decide) (by decide)
      · exact h.standard 1 (by decide) (by decide)
    rw [← h.keeping.holds.others fd fun hmem => hopen (h.keeping.holds.free fd hmem)]
    exact hover
  · rfl

/-- Once the devices are closed the shell holds what it held before the loop. -/
theorem LoopEntry.leave {w' : KernelState} (h : LoopEntry base w t) (hw : Commanded w w') :
    Keeping (redirectedBase base w') (pipeFiles { w' with fds := withoutDevices w'.fds }) t
      { w' with fds := withoutDevices w'.fds } := by
  have hfiles : pipeFiles { w' with fds := withoutDevices w'.fds } = pipeFiles w := by
    unfold pipeFiles
    rw [hw.eventPipe]
  have hterminal : terminalFiles t { w' with fds := withoutDevices w'.fds } = terminalFiles t w := by
    unfold terminalFiles
    rw [hw.terminalFd]
  have hother : ∀ fd ∈ keys (pipeFiles w ++ terminalFiles t w), ¬ (fd = STDIN_FILENO ∨ fd = STDOUT_FILENO) := by
    rintro fd hmem (rfl | rfl)
    · exact h.standard 0 (by decide) (by decide) (h.keeping.holds.free _ hmem)
    · exact h.standard 1 (by decide) (by decide) (h.keeping.holds.free _ hmem)
  have hsame : ∀ fd, ¬ (fd = STDIN_FILENO ∨ fd = STDOUT_FILENO) → withoutDevices w'.fds fd = w.fds fd := by
    intro fd hfd
    have hover := hw.fds fd
    rwa [if_neg hfd] at hover
  refine ⟨?_, .opened ?_ ?_, ?_, ?_, rfl⟩
  · rw [hfiles, hterminal]
    refine ⟨?_, ?_, ?_, h.keeping.holds.nodup⟩
    · intro fd hmem
      exact (if_neg (hother fd hmem)).trans (h.keeping.holds.free fd hmem)
    · intro p hp
      exact (hsame p.1 (hother p.1 (mem_keys hp))).trans (h.keeping.holds.held p hp)
    · intro fd hmem
      show withoutDevices w'.fds fd = redirectedFds base w' fd
      unfold redirectedFds
      split_ifs with hstd
      · rfl
      · rw [hsame fd hstd]
        exact h.keeping.holds.others fd hmem
  · rw [hw.eventPipe]
    exact h.pipe.low
  · rw [hw.eventPipe]
    exact h.pipe.high
  · rcases h.keeping.terminal with ⟨rfl, hclosed⟩ | ⟨hinit, hgroup, hlow⟩
    · exact Or.inl ⟨rfl, hw.terminalFd.trans hclosed⟩
    · exact Or.inr ⟨hinit, hgroup.trans hw.pgrp.symm, hw.terminalFd.symm ▸ hlow⟩
  · exact h.keeping.mask.trans hw.mask

theorem LoopEntry.stillOpen {w' : KernelState} (h : LoopEntry base w t) (hw : Commanded w w') :
    StandardOpen (redirectedBase base w').fds :=
  fun fd hlow hhigh => (h.redirects hw).some (h.standard fd hlow hhigh)

theorem shellCleanup_safe {mask : List SignalNumber} {w' : KernelState} (h : LoopEntry base w t)
    (hw : Commanded w w') :
    Safe kernelWorld (kernelWatch mask) (fun _ w'' => Keeping (redirectedBase base w') [] noTerminal w'')
      (shellCleanup t) w' := by
  have hkeeping := h.leave hw
  have hready := h.ready hw
  have hfirm : Firm { w' with fds := withoutDevices w'.fds } := by
    left
    show w'.disposition .sigttou = .ignore
    rw [hw.disposition, h.disposition]
    rfl
  unfold shellCleanup
  apply contextDestroy_safe hready.safe
  apply (signalShutdown_keeping hkeeping hready.low hready.high).bind
  rintro _ w₁ ⟨h₁, hfirm₁⟩ -
  apply (eventShut_keeping h₁).bind
  rintro _ w₂ ⟨h₂, hfirm₂⟩ -
  apply (terminalShutdown_safe h₂ fun _ => hfirm₂ (hfirm₁ hfirm)).bind
  intro _ w₃ h₃ hw₃
  have hfarewell : (shellFlushStdout.bind fun ret =>
      if ret = 0 then (shellWriteAll goodbye).bind fun _ => .ret () else .ret () : ShellProg Unit).Only Writes := by
    refine shellFlushStdout_writes.bind fun ret => ?_
    split_ifs
    · exact (shellWriteAll_writes _).bind fun _ => trivial
    · trivial
  apply (farewell_safe hfarewell hw₃ (h₃.standard (h.stillOpen hw))).weaken
  rintro _ _ _ rfl
  exact h₃

end Run

/-! ### The whole run -/

/-- The statics have their initial values, and nobody else has installed
handlers or opened devices. -/
structure AtStart (w : KernelState) : Prop where
  eventPipe : w.eventPipe = (-1, -1)
  terminalFd : w.terminalFd = -1
  handlers : ∀ sig, w.disposition sig ≠ .handler
  devices : NoDevices w.fds

/-- Everything was given back. -/
theorem Keeping.left {base w : KernelState} (start : KernelState) (h : Keeping base [] noTerminal w)
    {fds : Table ℤ HeldFile} (hfilled : Filled start.fds fds) (hover : RedirectsOver base.stuck fds base.fds)
    (hmask : MaskKept start base) : Left start w := by
  have hfds : w.fds = base.fds := Holds.returned h.holds
  have hterminal : w.terminalFd = -1 := by
    rcases h.terminal with ⟨-, hclosed⟩ | ⟨hinit, -⟩
    · exact hclosed
    · exact absurd hinit (by decide)
  refine ⟨⟨fds, hfilled, ?_⟩, ?_, hterminal, hmask.trans h.mask⟩
  · rw [hfds, h.stuck]
    exact hover
  generalize hfiles : ([] : List (ℤ × HeldFile)) = files at h
  cases h.pipe with
  | shut hpipe => exact hpipe
  | opened => exact absurd hfiles (List.cons_ne_nil _ _).symm

theorem FilledAt.noDevices {w w' : KernelState} {targets : List ℤ} {ret : ℤ} (h : FilledAt w targets ret w')
    (hnone : NoDevices w.fds) : NoDevices w'.fds := by
  obtain ⟨fds, rfl, hfilled, -⟩ := h
  funext fd
  show (fds fd).filter _ = fds fd
  rcases hfilled fd with hsame | ⟨-, -, -, hnull⟩
  · rw [hsame]
    exact congrFun hnone fd
  · rw [hnull]
    rfl

/-- From the start of the process to the end of `main`, whatever fails and
whenever a signal comes: the handler can be run at any point, the loop finds
what it relies on, nothing is closed that is not open, and in the end
everything is as it was, but for standard descriptors that were closed or
redirected, and for a mask that could not be restored. -/
theorem shell_lifetime (start : KernelState) (h : AtStart start) :
    Safe kernelWorld (kernelWatch start.mask) (fun _ w => Left start w) main start := by
  have hpipe : start.eventPipe.2 < 0 := by
    rw [h.eventPipe]
    decide
  unfold main
  apply (ensureStandardFds_safe hpipe).bind
  intro ret base hfilled hbase
  have hnone := hfilled.noDevices h.devices
  have hret : ret = 0 ∨ ret = -1 := by
    obtain ⟨_, -, -, hret⟩ := hfilled
    exact hret.imp_left And.left
  rcases hret with rfl | rfl
  · have hstandard := hfilled.standard
    obtain ⟨fds, rfl, hfilled, -⟩ := hfilled
    rw [if_neg (by decide)]
    apply (shellInit_safe hnone h.eventPipe h.terminalFd h.handlers).bind
    intro r w hover hw
    cases hover with
    | failed hkeeping =>
      exact Safe.ret_alone hw (hkeeping.left start hfilled (RedirectsOver.refl _ _) (Or.inl ⟨rfl, rfl⟩))
    | @ready t ctx _ hkeeping hready hdisposition hmask =>
      have hentry : LoopEntry { start with fds := fds } w t :=
        ⟨hkeeping, hready, hdisposition, hmask, hnone, hstandard⟩
      apply Safe.call_alone (o := KernelCall.loadPipe) hw trivial
      intro p w₁ hs
      obtain ⟨rfl, rfl⟩ := hs
      apply (hentry.run ctx).bind
      intro r w₂ hcommanded _
      apply (shellCleanup_safe hentry hcommanded).bind
      intro _ w₃ h₃ hw₃
      have hleft := h₃.left start hfilled (hentry.redirects hcommanded) (Or.inl ⟨rfl, rfl⟩)
      show Safe _ _ _ (if r.1 ≠ .ok then _ else _) w₃
      split_ifs
      · exact Safe.ret_alone hw₃ hleft
      · exact Safe.ret_alone hw₃ hleft
  · rw [if_pos (by decide)]
    obtain ⟨fds, rfl, hfilled, -⟩ := hfilled
    exact Safe.ret_alone hbase
      ⟨⟨fds, hfilled, RedirectsOver.refl _ _⟩, h.eventPipe, h.terminalFd, Or.inl ⟨rfl, rfl⟩⟩

/-- Standard input and output are closed, and the shell is not in the
foreground. -/
def closedStart : KernelState where
  fds := fun fd => if fd = 2 then some ⟨.other, 2, 0⟩ else none
  eventPipe := (-1, -1)
  terminalFd := -1
  pid := 7
  pgrp := 5
  foreground := false
  mask := [.sigpipe]
  saved := []
  maskFailed := false
  stuck := fun _ => false
  disposition := fun _ => .default

theorem shell_lifetime_closed :
    Safe kernelWorld (kernelWatch [.sigpipe]) (fun _ w => Left closedStart w) main closedStart := by
  have hnone : NoDevices closedStart.fds := by
    funext fd
    by_cases hfd : fd = 2
    · rw [hfd]
      rfl
    · have hclosed : closedStart.fds fd = none := if_neg hfd
      show (closedStart.fds fd).filter _ = closedStart.fds fd
      rw [hclosed]
      rfl
  exact shell_lifetime closedStart ⟨rfl, rfl, fun _ => Disposition.noConfusion, hnone⟩

end DeviceRuntime
