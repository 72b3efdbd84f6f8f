/-
# What the shell sets up

Every run of the functions of `DeviceRuntime.ShellProcess` that the shell
starts with, whatever fails. The descriptors, the statics and the mask of the
process are described exactly after each function; a function that fails leaves
what it found.

In every state the handler of `SIGINT` and `SIGCHLD` may run: if
`event_pipe[1]` is not negative it is the open write end of the event pipe,
and it does not block once the handlers are installed (`HandlerSafe`). No
descriptor is closed that is not open, and the shell is not stopped by the
terminal it wants to take (`Unstopped`).

Key definitions: `HandlerSafe`, `PipeReady`, `LoopReady`, `Unstopped`,
`kernelWatch`, `FilledAt`, `EventInitOver`, `TerminalInitOver`.
Key theorems: `ensureStandardFds_safe`, `eventInit_safe`, `eventShut_safe`,
`terminalInit_safe`.
-/
import DeviceRuntime.ShellProcess

namespace DeviceRuntime

open Prog Resources

/-! ### What is watched -/

/-- The handler writes to the open write end of the pipe, which somebody can
read, and does not block. -/
structure HandlerSafe (w : KernelState) : Prop where
  writeEnd : 0 ≤ w.eventPipe.2 → ∃ file, w.fds w.eventPipe.2 = some file ∧ file.kind = .eventWrite ∧
    ((∃ sig, w.disposition sig = .handler) → file.status &&& O_NONBLOCK ≠ 0)
  readEnd : 0 ≤ w.eventPipe.2 → ∃ file, w.fds w.eventPipe.1 = some file ∧ file.kind = .eventRead

/-- `dup2` to one of them is the only way to close it. -/
def StandardOpen (fds : Table ℤ HeldFile) : Prop := ∀ fd, 0 ≤ fd → fd ≤ 2 → fds fd ≠ none

def readFile : HeldFile := ⟨.eventRead, O_NONBLOCK, FD_CLOEXEC⟩

def writeFile : HeldFile := ⟨.eventWrite, 1 ||| O_NONBLOCK, FD_CLOEXEC⟩

structure PipeReady (w : KernelState) : Prop where
  low : 0 ≤ w.eventPipe.1
  high : 0 ≤ w.eventPipe.2
  apart : w.eventPipe.1 ≠ w.eventPipe.2
  readEnd : w.fds w.eventPipe.1 = some readFile
  writeEnd : w.fds w.eventPipe.2 = some writeFile

/-- What the loop of the shell relies on. The mask is the one of the start, unless
it could not be restored. -/
structure LoopReady (mask : List SignalNumber) (w : KernelState) (eventFd : ℤ) : Prop where
  eventFd : w.eventPipe.1 = eventFd
  pipe : PipeReady w
  beyond : 2 < w.eventPipe.1 ∧ 2 < w.eventPipe.2
  standard : StandardOpen w.fds
  disposition : w.disposition = shellDisposition
  mask : w.mask = mask ∨ w.maskFailed = true

/-- `tcsetpgrp` does not stop the caller. -/
def Unstopped (w : KernelState) : Prop :=
  .sigttou ∈ w.mask ∨ w.disposition .sigttou = .ignore ∨ w.foreground = true

def ttyFile : HeldFile := ⟨.tty, 2, FD_CLOEXEC⟩

def TtyOpen (w : KernelState) : Prop := w.fds w.terminalFd = some ttyFile

def TerminalUse (c : TerminalCall) (w : KernelState) : Prop :=
  match c with
  | .tcsetpgrp _ => TtyOpen w ∧ Unstopped w
  | _ => TtyOpen w

def ShellUse (mask : List SignalNumber) (c : ShellCall) (w : KernelState) : Prop :=
  match c with
  | .select fd => LoopReady mask w fd
  | .readEvent _ => LoopReady mask w w.eventPipe.1
  | _ => StandardOpen w.fds

/-- `mask` is the mask that the process was started with. -/
def kernelWatch (mask : List SignalNumber) : Watch KernelCall KernelState where
  always := HandlerSafe
  atCall c w := match c with
    | .close fd => w.fds fd ≠ none
    | .setfd fd _ => w.fds fd ≠ none
    | .setfl fd _ => w.fds fd ≠ none
    | .tcgetpgrp => TtyOpen w
    | .terminal c => TerminalUse c w
    | .shell c => ShellUse mask c w
    | _ => True

theorem HandlerSafe.closed {w : KernelState} (h : w.eventPipe.2 < 0) : HandlerSafe w :=
  ⟨fun hpos => absurd hpos (not_le.mpr h), fun hpos => absurd hpos (not_le.mpr h)⟩

/-- The ends of the pipe are where they were. -/
theorem HandlerSafe.congr {w w' : KernelState} (h : HandlerSafe w) (hpipe : w'.eventPipe = w.eventPipe)
    (hread : ∀ file, w.fds w.eventPipe.1 = some file → w'.fds w.eventPipe.1 = some file)
    (hwrite : ∀ file, w.fds w.eventPipe.2 = some file → w'.fds w.eventPipe.2 = some file)
    (hdisposition : ∀ sig, w'.disposition sig = .handler → w.disposition sig = .handler) : HandlerSafe w' := by
  constructor
  · intro hpos
    rw [hpipe] at hpos ⊢
    obtain ⟨file, hfile, hkind, hblock⟩ := h.writeEnd hpos
    refine ⟨file, hwrite file hfile, hkind, fun hcaught => hblock ?_⟩
    obtain ⟨sig, hsig⟩ := hcaught
    exact ⟨sig, hdisposition sig hsig⟩
  · intro hpos
    rw [hpipe] at hpos ⊢
    obtain ⟨file, hfile, hkind⟩ := h.readEnd hpos
    exact ⟨file, hread file hfile, hkind⟩

theorem PipeReady.safe {w : KernelState} (h : PipeReady w) : HandlerSafe w :=
  ⟨fun _ => ⟨writeFile, h.writeEnd, rfl, fun _ => by decide⟩, fun _ => ⟨readFile, h.readEnd, rfl⟩⟩

/-- The two files and where they are is all that matters. -/
theorem PipeReady.congr {w w' : KernelState} (h : PipeReady w) (hpipe : w'.eventPipe = w.eventPipe)
    (hfds : ∀ fd file, fd = w.eventPipe.1 ∨ fd = w.eventPipe.2 → w.fds fd = some file → w'.fds fd = some file) :
    PipeReady w' := by
  constructor
  · rw [hpipe]
    exact h.low
  · rw [hpipe]
    exact h.high
  · rw [hpipe]
    exact h.apart
  · rw [hpipe]
    exact hfds _ _ (Or.inl rfl) h.readEnd
  · rw [hpipe]
    exact hfds _ _ (Or.inr rfl) h.writeEnd

namespace KernelState

theorem setFile_self (w : KernelState) (fd : ℤ) (file : Option HeldFile) : (w.setFile fd file).fds fd = file :=
  Function.update_self ..

theorem setFile_other (w : KernelState) {fd fd' : ℤ} (file : Option HeldFile) (h : fd' ≠ fd) :
    (w.setFile fd file).fds fd' = w.fds fd' :=
  Function.update_of_ne h ..

theorem setFile_twice (w : KernelState) (fd : ℤ) (file file' : Option HeldFile) :
    (w.setFile fd file).setFile fd file' = w.setFile fd file' := by
  simp [setFile]

/-- A descriptor that was opened is closed. -/
theorem setFile_undo {w : KernelState} {fd : ℤ} (file : Option HeldFile) (h : w.fds fd = none) :
    (w.setFile fd file).setFile fd none = w := by
  rw [setFile_twice]
  unfold setFile
  rw [← h, Function.update_eq_self]

theorem setFile_setPipe (w : KernelState) (pipe : ℤ × ℤ) (fd : ℤ) (file : Option HeldFile) :
    (w.setPipe pipe).setFile fd file = (w.setFile fd file).setPipe pipe := rfl

theorem setPipe_twice (w : KernelState) (pipe pipe' : ℤ × ℤ) : (w.setPipe pipe).setPipe pipe' = w.setPipe pipe' := rfl

theorem setPipe_same {w : KernelState} {pipe : ℤ × ℤ} (h : w.eventPipe = pipe) : w.setPipe pipe = w := by
  rw [← h]
  rfl

theorem setFile_same {w : KernelState} {fd : ℤ} {file : Option HeldFile} (h : w.fds fd = file) :
    w.setFile fd file = w := by
  unfold setFile
  rw [← h, Function.update_eq_self]

theorem setFile_comm (w : KernelState) {fd fd' : ℤ} (file file' : Option HeldFile) (h : fd ≠ fd') :
    (w.setFile fd file).setFile fd' file' = (w.setFile fd' file').setFile fd file := by
  simp [setFile, Function.update_comm h]

end KernelState

/-! ### Calls -/

section Calls

variable {α : Type} {Q : α → KernelState → Prop} {mask : List SignalNumber} {w : KernelState}

/-- A flag call on an open descriptor. -/
theorem getfd_safe {fd : ℤ} {file : HeldFile} {k : FlagsResult → KernelProg α} (hw : HandlerSafe w)
    (hfile : w.fds fd = some file) (hfailed : ∀ r, r.ret < 0 → Safe kernelWorld (kernelWatch mask) Q (k r) w)
    (hok : ∀ r, 0 ≤ r.ret → r.flags = file.flags → Safe kernelWorld (kernelWatch mask) Q (k r) w) :
    Safe kernelWorld (kernelWatch mask) Q (.call (.getfd fd) k) w := by
  apply Safe.call_alone hw trivial
  intro r w' hs
  obtain ⟨hreads, rfl⟩ := hs
  unfold KernelState.Reads at hreads
  rw [hfile] at hreads
  rcases hreads with ⟨hret, hflags⟩ | ⟨hret, -⟩
  · exact hok r hret hflags
  · exact hfailed r hret

theorem getfl_safe {fd : ℤ} {file : HeldFile} {k : FlagsResult → KernelProg α} (hw : HandlerSafe w)
    (hfile : w.fds fd = some file) (hfailed : ∀ r, r.ret < 0 → Safe kernelWorld (kernelWatch mask) Q (k r) w)
    (hok : ∀ r, 0 ≤ r.ret → r.flags = file.status → Safe kernelWorld (kernelWatch mask) Q (k r) w) :
    Safe kernelWorld (kernelWatch mask) Q (.call (.getfl fd) k) w := by
  apply Safe.call_alone hw trivial
  intro r w' hs
  obtain ⟨hreads, rfl⟩ := hs
  unfold KernelState.Reads at hreads
  rw [hfile] at hreads
  rcases hreads with ⟨hret, hflags⟩ | ⟨hret, -⟩
  · exact hok r hret hflags
  · exact hfailed r hret

theorem close_safe {fd : ℤ} {file : HeldFile} {k : CallResult → KernelProg α} (hw : HandlerSafe w)
    (hfile : w.fds fd = some file) (hk : ∀ r, Safe kernelWorld (kernelWatch mask) Q (k r) (w.setFile fd none)) :
    Safe kernelWorld (kernelWatch mask) Q (.call (.close fd) k) w := by
  have hopen : w.fds fd ≠ none := by
    rw [hfile]
    exact Option.some_ne_none _
  apply Safe.call_alone hw hopen
  intro r w' hs
  obtain rfl : w' = w.setFile fd none := hs
  exact hk r

end Calls

/-! ### The standard descriptors -/

/-- Only standard input is opened for reading. -/
def nullFile (fd : ℤ) : HeldFile := ⟨.null, if fd = STDIN_FILENO then O_RDONLY else O_WRONLY, 0⟩

/-- What differs is a standard descriptor that was closed. -/
def Filled (fds fds' : Table ℤ HeldFile) : Prop :=
  ∀ fd, fds' fd = fds fd ∨ (fds fd = none ∧ 0 ≤ fd ∧ fd ≤ 2 ∧ fds' fd = some (nullFile fd))

theorem Filled.refl (fds : Table ℤ HeldFile) : Filled fds fds := fun _ => Or.inl rfl

theorem Filled.single {fds : Table ℤ HeldFile} {target : ℤ} (hlow : 0 ≤ target) (hhigh : target ≤ 2)
    (htarget : fds target = none) : Filled fds (Function.update fds target (some (nullFile target))) := by
  intro fd
  by_cases hfd : fd = target
  · rw [hfd, Function.update_self]
    exact Or.inr ⟨htarget, hlow, hhigh, rfl⟩
  · rw [Function.update_of_ne hfd]
    exact Or.inl rfl

theorem Filled.trans {fds fds' fds'' : Table ℤ HeldFile} (h : Filled fds fds') (h' : Filled fds' fds'') :
    Filled fds fds'' := by
  intro fd
  rcases h' fd with hsame' | ⟨hnone, hlow, hhigh, hnull⟩
  · rw [hsame']
    exact h fd
  · rcases h fd with hsame | ⟨-, -, -, hfilled⟩
    · exact Or.inr ⟨hsame ▸ hnone, hlow, hhigh, hnull⟩
    · rw [hfilled] at hnone
      exact absurd hnone (Option.some_ne_none _)

theorem Filled.open {fds fds' : Table ℤ HeldFile} (h : Filled fds fds') {fd : ℤ} (hopen : fds fd ≠ none) :
    fds' fd ≠ none := by
  rcases h fd with hsame | ⟨hnone, -⟩
  · rw [hsame]
    exact hopen
  · exact absurd hnone hopen

/-- The descriptors after `ensure_standard_fd`. -/
def FilledAt (w : KernelState) (targets : List ℤ) (ret : ℤ) (w' : KernelState) : Prop :=
  ∃ fds, w' = { w with fds := fds } ∧ Filled w.fds fds ∧
    ((ret = 0 ∧ ∀ fd ∈ targets, fds fd ≠ none) ∨ ret = -1)

/-- It was open, or it is `/dev/null` now. -/
theorem Filled.filledAt {w : KernelState} {fds : Table ℤ HeldFile} {target : ℤ} (h : Filled w.fds fds)
    (hopen : fds target ≠ none) : FilledAt w [target] 0 { w with fds := fds } := by
  refine ⟨fds, rfl, h, Or.inl ⟨rfl, ?_⟩⟩
  intro fd hfd
  rw [List.mem_singleton.mp hfd]
  exact hopen

theorem FilledAt.same (w : KernelState) (targets : List ℤ) : FilledAt w targets (-1) w :=
  ⟨w.fds, rfl, Filled.refl _, Or.inr rfl⟩

section Standard

variable {mask : List SignalNumber} {w : KernelState}

theorem ensureStandardFd_safe {target : ℤ} {flags : BitVec 32} (hlow : 0 ≤ target) (hhigh : target ≤ 2)
    (hnull : nullFile target = ⟨.null, flags, 0⟩) (hpipe : w.eventPipe.2 < 0) :
    Safe kernelWorld (kernelWatch mask) (FilledAt w [target]) (ensureStandardFd target flags) w := by
  have hsafe : ∀ v : KernelState, v.eventPipe = w.eventPipe → HandlerSafe v := by
    intro v hv
    rw [← hv] at hpipe
    exact HandlerSafe.closed hpipe
  unfold ensureStandardFd
  apply Safe.call_alone (hsafe w rfl) trivial
  intro r w' hs
  obtain ⟨hreads, rfl⟩ := hs
  unfold KernelState.Reads at hreads
  cases htarget : w'.fds target with
  | some file =>
    rw [htarget] at hreads
    rcases hreads with ⟨hret, -⟩ | ⟨hret, herrno⟩
    · rw [if_pos hret]
      have hopen : w'.fds target ≠ none := htarget ▸ Option.some_ne_none _
      exact Safe.ret_alone (hsafe _ (by rfl)) ((Filled.refl w'.fds).filledAt hopen)
    · rw [if_neg (not_le.mpr hret), if_pos herrno]
      exact Safe.ret_alone (hsafe _ (by rfl)) (FilledAt.same _ _)
  | none =>
    rw [htarget] at hreads
    obtain ⟨hret, herrno⟩ := hreads
    rw [if_neg (not_le.mpr hret), if_neg (not_not.mpr herrno)]
    have hfilled : FilledAt w' [target] 0 (w'.setFile target (some (nullFile target))) := by
      apply (Filled.single hlow hhigh htarget).filledAt
      rw [Function.update_self]
      exact Option.some_ne_none _
    apply Safe.call_alone (hsafe _ (by rfl)) trivial
    intro fd w₁ hopens
    rcases hopens with ⟨hfd, rfl⟩ | ⟨hfd, hfree, rfl⟩
    · rw [if_pos (by omega)]
      exact Safe.ret_alone (hsafe _ (by rfl)) (FilledAt.same _ _)
    rw [if_neg (by omega)]
    by_cases hsame : fd.ret = target
    · rw [if_neg (not_not.mpr hsame), hsame, ← hnull]
      exact Safe.ret_alone (hsafe _ (by rfl)) hfilled
    · rw [if_pos hsame]
      apply Safe.call_alone (hsafe _ (by rfl)) trivial
      intro r w₂ hdup
      -- the descriptor that was opened is closed whether or not it was copied
      rcases hdup with ⟨hneg, rfl⟩ | ⟨file, hret, hfile, rfl⟩
      · apply close_safe (hsafe _ (by rfl)) (KernelState.setFile_self ..)
        intro _
        rw [KernelState.setFile_undo _ hfree, if_pos hneg]
        exact Safe.ret_alone (hsafe _ (by rfl)) (FilledAt.same _ _)
      · rw [KernelState.setFile_self] at hfile
        obtain rfl := Option.some.inj hfile
        have hfree' : (w'.setFile target (some (nullFile target))).fds fd.ret = none := by
          rw [KernelState.setFile_other _ _ hsame]
          exact hfree
        rw [KernelState.setFile_comm _ _ _ hsame]
        apply close_safe (hsafe _ (by rfl)) (KernelState.setFile_self ..)
        intro _
        rw [← hnull, KernelState.setFile_undo _ hfree', if_neg (by omega)]
        exact Safe.ret_alone (hsafe _ (by rfl)) hfilled

theorem FilledAt.cons {target : ℤ} {targets : List ℤ} {w' w'' : KernelState} {ret : ℤ} (h : FilledAt w [target] 0 w')
    (h' : FilledAt w' targets ret w'') : FilledAt w (target :: targets) ret w'' := by
  obtain ⟨fds, rfl, hfilled, hret⟩ := h
  obtain ⟨fds', rfl, hfilled', hret'⟩ := h'
  refine ⟨fds', rfl, hfilled.trans hfilled', ?_⟩
  rcases hret' with ⟨hzero, hopen'⟩ | hneg
  · refine Or.inl ⟨hzero, ?_⟩
    intro fd hfd
    rcases List.mem_cons.mp hfd with heq | hfd
    · rcases hret with ⟨-, hopen⟩ | habsurd
      · exact hfilled'.open (hopen fd (heq ▸ List.mem_singleton_self _))
      · exact absurd habsurd (by decide)
    · exact hopen' fd hfd
  · exact Or.inr hneg

theorem FilledAt.failed {targets targets' : List ℤ} {w' : KernelState} (h : FilledAt w targets (-1) w') :
    FilledAt w targets' (-1) w' := by
  obtain ⟨fds, rfl, hfilled, -⟩ := h
  exact ⟨fds, rfl, hfilled, Or.inr rfl⟩

/-- One descriptor and then the others. -/
theorem ensureStandardFd_bind {target : ℤ} {targets : List ℤ} {flags : BitVec 32} {rest : KernelProg ℤ}
    (hlow : 0 ≤ target) (hhigh : target ≤ 2) (hnull : nullFile target = ⟨.null, flags, 0⟩) (hpipe : w.eventPipe.2 < 0)
    (hrest : ∀ w' : KernelState, w'.eventPipe.2 < 0 →
      Safe kernelWorld (kernelWatch mask) (FilledAt w' targets) rest w') :
    Safe kernelWorld (kernelWatch mask) (FilledAt w (target :: targets))
      ((ensureStandardFd target flags).bind fun ret => if ret < 0 then .ret (-1) else rest) w := by
  apply (ensureStandardFd_safe hlow hhigh hnull hpipe).bind
  intro ret w' h hw'
  have hret : ret = 0 ∨ ret = -1 := by
    obtain ⟨_, -, -, hret⟩ := h
    exact hret.imp_left And.left
  have hpipe' : w'.eventPipe.2 < 0 := by
    obtain ⟨_, rfl, -⟩ := h
    exact hpipe
  rcases hret with rfl | rfl
  · rw [if_neg (by decide)]
    exact (hrest w' hpipe').weaken fun _ _ _ h' => h.cons h'
  · rw [if_pos (by decide)]
    exact Safe.ret_alone hw' h.failed

theorem ensureStandardFds_safe (hpipe : w.eventPipe.2 < 0) :
    Safe kernelWorld (kernelWatch mask) (FilledAt w [0, 1, 2]) ensureStandardFds w := by
  have hdone : ∀ w' : KernelState, w'.eventPipe.2 < 0 →
      Safe kernelWorld (kernelWatch mask) (FilledAt w' []) (.ret 0) w' := by
    intro w' hpipe'
    refine Safe.ret_alone (HandlerSafe.closed hpipe') ⟨_, rfl, Filled.refl _, Or.inl ⟨rfl, ?_⟩⟩
    exact fun _ h => absurd h List.not_mem_nil
  unfold ensureStandardFds
  apply ensureStandardFd_bind (by decide) (by decide) rfl hpipe
  intro w₁ hpipe₁
  apply ensureStandardFd_bind (by decide) (by decide) rfl hpipe₁
  intro w₂ hpipe₂
  exact ensureStandardFd_bind (by decide) (by decide) rfl hpipe₂ hdone

/-- All three descriptors are open, and nothing else has changed. -/
theorem FilledAt.standard {w' : KernelState} (h : FilledAt w [0, 1, 2] 0 w') : StandardOpen w'.fds := by
  obtain ⟨fds, rfl, -, hret⟩ := h
  rcases hret with ⟨-, hopen⟩ | habsurd
  · intro fd hlow hhigh
    apply hopen
    simp
    omega
  · exact absurd habsurd (by decide)

end Standard

/-! ### The event pipe -/

/-- The flags of one end were changed, perhaps not all of them. -/
def FlagsSet (w : KernelState) (fd : ℤ) (file : HeldFile) (ret : ℤ) (w' : KernelState) : Prop :=
  ∃ file', file'.kind = file.kind ∧ w' = w.setFile fd (some file') ∧
    ((ret = 0 ∧ file' = ⟨file.kind, file.status ||| O_NONBLOCK, file.flags ||| FD_CLOEXEC⟩) ∨ ret = -1)

/-- `event_pipe` with its two files in the table. -/
def withPipe (w : KernelState) (a b : ℤ) (readEnd writeEnd : HeldFile) : KernelState :=
  ((w.setFile a (some readEnd)).setFile b (some writeEnd)).setPipe (a, b)

/-- Two descriptors that are free. -/
structure FreePair (fds : Table ℤ HeldFile) (a b : ℤ) : Prop where
  low : 0 ≤ a
  high : 0 ≤ b
  apart : a ≠ b
  left : fds a = none
  right : fds b = none

/-- `event_init` has opened the pipe, or left everything as it was. -/
inductive EventInitOver (w : KernelState) : ℤ → KernelState → Prop
  | failed : EventInitOver w (-1) w
  | opened {a b : ℤ} (hfree : FreePair w.fds a b) : EventInitOver w 0 (withPipe w a b readFile writeFile)

section Event

variable {mask : List SignalNumber} {w : KernelState} {a b : ℤ} {readEnd writeEnd file : HeldFile}

theorem eventSetFlags_safe {fd : ℤ} (hfile : w.fds fd = some file)
    (hsafe : ∀ file' : HeldFile, file'.kind = file.kind → HandlerSafe (w.setFile fd (some file'))) :
    Safe kernelWorld (kernelWatch mask) (FlagsSet w fd file) (eventSetFlags fd) w := by
  have hsame : w.setFile fd (some file) = w := KernelState.setFile_same hfile
  have hw : HandlerSafe w := hsame ▸ hsafe file rfl
  have hunset : FlagsSet w fd file (-1) w := ⟨file, rfl, hsame.symm, Or.inr rfl⟩
  unfold eventSetFlags
  apply getfl_safe hw hfile
  · intro r hret
    rw [if_pos hret]
    exact Safe.ret_alone hw hunset
  intro r hret hstatus
  rw [if_neg (not_lt.mpr hret), hstatus]
  have hopen : w.fds fd ≠ none := by
    rw [hfile]
    exact Option.some_ne_none _
  apply Safe.call_alone hw hopen
  intro set w₁ hset
  rcases hset with ⟨hneg, rfl⟩ | ⟨hzero, rfl⟩
  · rw [if_pos hneg]
    exact Safe.ret_alone hw hunset
  rw [hfile, Option.map_some, if_neg (by omega)]
  have hw₁ : HandlerSafe (w.setFile fd (some { file with status := file.status ||| O_NONBLOCK })) := hsafe _ rfl
  have hhalf : FlagsSet w fd file (-1) (w.setFile fd (some { file with status := file.status ||| O_NONBLOCK })) :=
    ⟨{ file with status := file.status ||| O_NONBLOCK }, rfl, rfl, Or.inr rfl⟩
  apply getfd_safe hw₁ (KernelState.setFile_self ..)
  · intro r hret
    rw [if_pos hret]
    exact Safe.ret_alone hw₁ hhalf
  intro r hret hflags
  rw [if_neg (not_lt.mpr hret), hflags]
  have hopen₁ : (w.setFile fd (some { file with status := file.status ||| O_NONBLOCK })).fds fd ≠ none := by
    rw [KernelState.setFile_self]
    exact Option.some_ne_none _
  apply Safe.call_alone hw₁ hopen₁
  intro set w₂ hset
  rcases hset with ⟨hneg, rfl⟩ | ⟨hzero, rfl⟩
  · rw [if_pos hneg]
    exact Safe.ret_alone hw₁ hhalf
  rw [KernelState.setFile_self, Option.map_some, KernelState.setFile_twice, if_neg (by omega)]
  exact Safe.ret_alone (hsafe _ rfl) ⟨⟨file.kind, file.status ||| O_NONBLOCK, file.flags ||| FD_CLOEXEC⟩, rfl, rfl,
    Or.inl ⟨rfl, rfl⟩⟩

theorem withPipe_read (hfree : FreePair w.fds a b) : (withPipe w a b readEnd writeEnd).fds a = some readEnd := by
  show ((w.setFile a _).setFile b _).fds a = _
  rw [KernelState.setFile_other _ _ hfree.apart, KernelState.setFile_self]

theorem withPipe_write : (withPipe w a b readEnd writeEnd).fds b = some writeEnd :=
  KernelState.setFile_self ..

theorem withPipe_setRead (hfree : FreePair w.fds a b) :
    (withPipe w a b readEnd writeEnd).setFile a (some file) = withPipe w a b file writeEnd := by
  unfold withPipe
  rw [KernelState.setFile_setPipe, KernelState.setFile_comm _ _ _ hfree.apart.symm, KernelState.setFile_twice]

theorem withPipe_setWrite : (withPipe w a b readEnd writeEnd).setFile b (some file) = withPipe w a b readEnd file := by
  unfold withPipe
  rw [KernelState.setFile_setPipe, KernelState.setFile_twice]

/-- The pipe is closed again. -/
theorem withPipe_shut (hfree : FreePair w.fds a b) (hpipe : w.eventPipe = (-1, -1)) :
    (((withPipe w a b readEnd writeEnd).setFile b none).setFile a none).setPipe (-1, -1) = w := by
  have hright : (w.setFile a (some readEnd)).fds b = none := by
    rw [KernelState.setFile_other _ _ hfree.apart.symm]
    exact hfree.right
  unfold withPipe
  rw [KernelState.setFile_setPipe, KernelState.setFile_undo _ hright, KernelState.setFile_setPipe,
    KernelState.setFile_undo _ hfree.left, KernelState.setPipe_twice, KernelState.setPipe_same hpipe]

/-- Until the handlers are installed only the kinds of the two files matter. -/
theorem withPipe_safe (hfree : FreePair w.fds a b) (hread : readEnd.kind = .eventRead)
    (hwrite : writeEnd.kind = .eventWrite)
    (hcaught : (∃ sig, w.disposition sig = .handler) → writeEnd.status &&& O_NONBLOCK ≠ 0) :
    HandlerSafe (withPipe w a b readEnd writeEnd) :=
  ⟨fun _ => ⟨writeEnd, withPipe_write, hwrite, hcaught⟩, fun _ => ⟨readEnd, withPipe_read hfree, hread⟩⟩

/-- `event_shut` closes the two ends of the pipe, whatever else is open. -/
theorem eventShut_safe (hw : HandlerSafe w) (hpipe : w.eventPipe = (a, b)) (ha : 0 ≤ a) (hb : 0 ≤ b) (hne : a ≠ b)
    (hread : w.fds a = some readEnd) (hwrite : w.fds b = some writeEnd) :
    Safe kernelWorld (kernelWatch mask) (fun _ w' => w' = ((w.setFile b none).setFile a none).setPipe (-1, -1))
      eventShut w := by
  have hshut : ∀ v : KernelState, v.eventPipe.2 = -1 → HandlerSafe v := by
    intro v hv
    apply HandlerSafe.closed
    omega
  unfold eventShut eventShutWrite eventShutRead
  simp only [call_bind]
  apply Safe.call_alone hw trivial
  intro p w₁ hs
  obtain ⟨rfl, rfl⟩ := hs
  rw [hpipe]
  dsimp only
  rw [if_pos hb]
  apply Safe.call_alone hw trivial
  intro _ w₂ hs
  obtain rfl : w₂ = w₁.setPipe (a, -1) := hs
  have hopen : (w₁.setPipe (a, -1)).fds b = some writeEnd := hwrite
  apply close_safe (hshut _ (by rfl)) hopen
  intro _
  apply Safe.call_alone (hshut _ (by rfl)) trivial
  intro p w₃ hs
  obtain ⟨rfl, rfl⟩ := hs
  show Safe _ _ _ (if a ≥ 0 then _ else _) _
  rw [if_pos ha]
  apply Safe.call_alone (hshut _ (by rfl)) trivial
  intro _ w₄ hs
  obtain rfl : w₄ = (w₁.setFile b none).setPipe (-1, -1) := hs
  have hstill : ((w₁.setFile b none).setPipe (-1, -1)).fds a = some readEnd := by
    show (w₁.setFile b none).fds a = _
    rw [KernelState.setFile_other _ _ hne]
    exact hread
  apply close_safe (hshut _ (by rfl)) hstill
  intro _
  exact Safe.ret_alone (hshut _ (by rfl)) rfl

/-- Nothing is open. -/
theorem eventShut_closed (hpipe : w.eventPipe = (-1, -1)) :
    Safe kernelWorld (kernelWatch mask) (fun _ w' => w' = w) eventShut w := by
  have hw : HandlerSafe w := HandlerSafe.closed (by rw [hpipe]; decide)
  unfold eventShut eventShutWrite eventShutRead
  simp only [call_bind]
  apply Safe.call_alone hw trivial
  intro p w₁ hs
  obtain ⟨rfl, rfl⟩ := hs
  rw [hpipe]
  show Safe _ _ _ (.call KernelCall.loadPipe _) _
  apply Safe.call_alone hw trivial
  intro p w₂ hs
  obtain ⟨rfl, rfl⟩ := hs
  rw [hpipe]
  exact Safe.ret_alone hw rfl

/-- A pipe that could not be set up. -/
theorem eventInit_failed (hfree : FreePair w.fds a b) (hpipe : w.eventPipe = (-1, -1))
    (hsafe : HandlerSafe (withPipe w a b readEnd writeEnd)) :
    Safe kernelWorld (kernelWatch mask) (EventInitOver w) (eventShut.bind fun _ => .ret (-1))
      (withPipe w a b readEnd writeEnd) := by
  apply (eventShut_safe hsafe rfl hfree.low hfree.high hfree.apart (withPipe_read hfree) withPipe_write).bind
  intro _ w' hw' hw'safe
  rw [withPipe_shut hfree hpipe] at hw'
  rw [hw'] at hw'safe ⊢
  exact Safe.ret_alone hw'safe .failed

theorem eventInit_safe (hpipe : w.eventPipe = (-1, -1)) (hhandlers : ∀ sig, w.disposition sig ≠ .handler) :
    Safe kernelWorld (kernelWatch mask) (EventInitOver w) eventInit w := by
  have hw : HandlerSafe w := HandlerSafe.closed (by rw [hpipe]; decide)
  have hcaught : ∀ status : BitVec 32, (∃ sig, w.disposition sig = .handler) → status &&& O_NONBLOCK ≠ 0 := by
    intro status hsig
    obtain ⟨sig, hsig⟩ := hsig
    exact absurd hsig (hhandlers sig)
  unfold eventInit
  apply Safe.call_alone hw trivial
  intro p w₁ hs
  obtain ⟨rfl, rfl⟩ := hs
  rw [hpipe]
  show Safe _ _ _ (.call KernelCall.pipe _) _
  apply Safe.call_alone hw trivial
  intro r w₂ hs
  rcases hs with ⟨hneg, rfl⟩ | ⟨a, b, hzero, ha, hb, hne, hleft, hright, rfl⟩
  · rw [if_pos hneg]
    apply Safe.call_alone hw trivial
    intro _ w₃ hs
    obtain rfl : w₃ = w₂ := hs.trans (KernelState.setPipe_same hpipe)
    exact Safe.ret_alone hw .failed
  have hfree : FreePair w₁.fds a b := ⟨ha, hb, hne, hleft, hright⟩
  have hsafe : ∀ readEnd writeEnd : HeldFile, readEnd.kind = .eventRead → writeEnd.kind = .eventWrite →
      HandlerSafe (withPipe w₁ a b readEnd writeEnd) := by
    intro readEnd writeEnd hread hwrite
    exact withPipe_safe hfree hread hwrite (hcaught _)
  rw [if_neg (by omega)]
  show Safe _ _ _ _ (withPipe w₁ a b ⟨.eventRead, 0, 0⟩ ⟨.eventWrite, 1, 0⟩)
  apply Safe.call_alone (hsafe _ _ rfl rfl) trivial
  intro p w₃ hs
  obtain ⟨rfl, rfl⟩ := hs
  have hread : ∀ file' : HeldFile, file'.kind = .eventRead →
      HandlerSafe ((withPipe w₁ a b ⟨.eventRead, 0, 0⟩ ⟨.eventWrite, 1, 0⟩).setFile a (some file')) := by
    intro file' hkind
    rw [withPipe_setRead hfree]
    exact hsafe _ _ hkind rfl
  apply (eventSetFlags_safe (withPipe_read hfree) hread).bind
  intro ret w₄ hset hw₄
  obtain ⟨readEnd, hkind, rfl, hret⟩ := hset
  rw [withPipe_setRead hfree] at hw₄ ⊢
  rcases hret with ⟨rfl, rfl⟩ | rfl
  · rw [if_neg (by decide)]
    have hwrite : ∀ file' : HeldFile, file'.kind = .eventWrite →
        HandlerSafe ((withPipe w₁ a b readFile ⟨.eventWrite, 1, 0⟩).setFile b (some file')) := by
      intro file' hkind
      rw [withPipe_setWrite]
      exact hsafe _ _ rfl hkind
    apply (eventSetFlags_safe (withPipe_write) hwrite).bind
    intro ret w₅ hset hw₅
    obtain ⟨writeEnd, hkind, rfl, hret⟩ := hset
    rw [withPipe_setWrite] at hw₅ ⊢
    rcases hret with ⟨rfl, rfl⟩ | rfl
    · rw [if_neg (by decide)]
      exact Safe.ret_alone hw₅ (.opened hfree)
    · rw [if_pos (by decide)]
      exact eventInit_failed hfree hpipe hw₅
  · rw [if_pos (by decide)]
    exact eventInit_failed hfree hpipe hw₄

end Event

/-! ### The terminal -/

abbrev ttyWorld : World TerminalCall TerminalCall.Ret KernelState := World.alone ttySem

def ttyWatch : Watch TerminalCall KernelState := ⟨HandlerSafe, TerminalUse⟩

/-- What `terminal_init` may change for good. -/
structure Standing where
  pgrp : ℤ
  foreground : Bool
  mask : List SignalNumber
  maskFailed : Bool

def KernelState.stand (w : KernelState) (s : Standing) : KernelState :=
  { w with pgrp := s.pgrp, foreground := s.foreground, mask := s.mask, maskFailed := s.maskFailed }

/-- `terminal_fd` is `fd`. -/
def withTty (w : KernelState) (fd : ℤ) : KernelState := (w.setFile fd (some ttyFile)).setTerminalFd fd

/-- The mask is what it was, unless it could not be restored. -/
def MaskKept (w w' : KernelState) : Prop :=
  (w'.mask = w.mask ∧ w'.maskFailed = w.maskFailed) ∨ w'.maskFailed = true

theorem MaskKept.trans {w w' w'' : KernelState} (h : MaskKept w w') (h' : MaskKept w' w'') : MaskKept w w'' := by
  rcases h' with ⟨hmask', hfailed'⟩ | hfailed'
  · rcases h with ⟨hmask, hfailed⟩ | hfailed
    · exact Or.inl ⟨hmask'.trans hmask, hfailed'.trans hfailed⟩
    · exact Or.inr (hfailed'.trans hfailed)
  · exact Or.inr hfailed'

/-- The shell has the terminal, or everything but its standing is as it was. -/
inductive TerminalInitOver (w : KernelState) : ℤ × Terminal → KernelState → Prop
  | absent : TerminalInitOver w (0, noTerminal) w
  | failed {s : Standing} (hmask : MaskKept w (w.stand s)) : TerminalInitOver w (-1, noTerminal) (w.stand s)
  | started {fd : ℤ} {s : Standing} {modes : Termios} (hfree : w.fds fd = none) (hlow : 0 ≤ fd)
    (hforeground : s.foreground = true) (hmask : s.mask = w.mask) (hfailed : s.maskFailed = w.maskFailed) :
    TerminalInitOver w (0, ⟨true, s.pgrp, some modes⟩) ((withTty w fd).stand s)

/-- What the loop of `terminal_init` is left with. -/
inductive ForegroundOver (w : KernelState) (fd : ℤ) : Option ℤ → KernelState → Prop
  | failed {pgrp : ℤ} {foreground : Bool} :
    ForegroundOver w fd none ((withTty w fd).stand ⟨pgrp, foreground, w.mask, w.maskFailed⟩)
  | reached {pgrp : ℤ} : ForegroundOver w fd (some pgrp) ((withTty w fd).stand ⟨pgrp, true, w.mask, w.maskFailed⟩)

/-- What `takeTerminal` is left with. -/
inductive TakenOver (w : KernelState) (fd : ℤ) (mask : List SignalNumber) : Option ℤ → KernelState → Prop
  | failed {pgrp : ℤ} {foreground : Bool} :
    TakenOver w fd mask none ((withTty w fd).stand ⟨pgrp, foreground, mask, w.maskFailed⟩)
  | taken {pgrp : ℤ} : TakenOver w fd mask (some pgrp) ((withTty w fd).stand ⟨pgrp, true, mask, w.maskFailed⟩)

section Terminal

variable {mask : List SignalNumber} {w : KernelState} {fd : ℤ}

theorem onTerminalFd_safe {α : Type} {Q : α → KernelState → Prop} {p : TerminalProg α}
    (h : Safe ttyWorld ttyWatch Q p w) : Safe kernelWorld (kernelWatch mask) Q (onTerminalFd p) w :=
  h.embed KernelCall.terminal (fun _ r => r) (fun _ _ he => he) (fun _ _ _ _ hs => hs) (fun _ hw => hw)
    (fun _ _ hc => hc)

theorem terminalSetPgrp_safe (pgid : ℤ) (hw : HandlerSafe w) (hopen : TtyOpen w) (hstop : Unstopped w) :
    Safe ttyWorld ttyWatch
      (fun ret w' => (ret = 0 ∧ w' = { w with foreground := pgid = w.pgrp }) ∨ (ret = -1 ∧ w' = w))
      (terminalSetPgrp pgid) w := by
  have hgiven : HandlerSafe { w with foreground := pgid = w.pgrp } :=
    hw.congr rfl (fun _ h => h) (fun _ h => h) (fun _ h => h)
  unfold terminalSetPgrp retry
  apply Safe.iter (I := fun _ w' => w' = w) (fun _ => stable_alone _) (fun _ => stable_alone _)
  · rintro _ _ rfl
    exact hw
  · rintro ret w' (⟨-, rfl⟩ | ⟨-, rfl⟩)
    · exact hgiven
    · exact hw
  · intro _ v hv
    obtain rfl : w = v := hv.symm
    rw [call_bind]
    have huse : TerminalUse (.tcsetpgrp pgid) w := ⟨hopen, hstop⟩
    apply Safe.call_alone hw huse
    intro r w' hs
    rw [ret_bind]
    rcases hs with ⟨hneg, rfl⟩ | ⟨hzero, rfl⟩
    · rw [if_pos hneg]
      by_cases herrno : r.errno = EINTR
      · rw [if_pos herrno]
        exact Safe.ret_alone hw rfl
      · rw [if_neg herrno]
        exact Safe.ret_alone hw (Or.inr ⟨rfl, rfl⟩)
    · rw [if_neg (by omega)]
      exact Safe.ret_alone hgiven (Or.inl ⟨rfl, rfl⟩)
  · rfl

theorem withTty_open (w : KernelState) (fd : ℤ) (s : Standing) : TtyOpen ((withTty w fd).stand s) :=
  KernelState.setFile_self ..

theorem withTty_ready (hw : PipeReady w) (hfree : w.fds fd = none) (s : Standing) :
    PipeReady ((withTty w fd).stand s) := by
  refine hw.congr (by rfl) ?_
  intro fd' file _ hfile
  have hne : fd' ≠ fd := by
    rintro rfl
    rw [hfree] at hfile
    exact absurd hfile.symm (Option.some_ne_none _)
  show (w.setFile fd _).fds fd' = _
  rw [KernelState.setFile_other _ _ hne]
  exact hfile

/-- The descriptor is closed again. -/
theorem withTty_close (hfree : w.fds fd = none) (hterminal : w.terminalFd = -1) (s : Standing) :
    (((withTty w fd).stand s).setFile fd none).setTerminalFd (-1) = w.stand s := by
  have hfds : ((w.setFile fd (some ttyFile)).setFile fd none).fds = w.fds := by
    rw [KernelState.setFile_undo _ hfree]
  have hcongr : ∀ fds, fds = w.fds → ({ w.stand s with fds := fds, terminalFd := -1 } : KernelState) = w.stand s := by
    rintro _ rfl
    rw [← hterminal]
    rfl
  exact hcongr _ hfds

/-- Every failure after the terminal was opened. -/
theorem terminalFail_safe (hw : PipeReady w) (hfree : w.fds fd = none) (hterminal : w.terminalFd = -1) {s : Standing}
    (hmask : MaskKept w (w.stand s)) :
    Safe kernelWorld (kernelWatch mask) (TerminalInitOver w) terminalFail ((withTty w fd).stand s) := by
  have hready := withTty_ready hw hfree s
  have hclosed : PipeReady (((withTty w fd).stand s).setFile fd none) := by
    refine hw.congr (by rfl) ?_
    intro fd' file _ hfile
    have hne : fd' ≠ fd := by
      rintro rfl
      rw [hfree] at hfile
      exact absurd hfile.symm (Option.some_ne_none _)
    rw [KernelState.setFile_other _ _ hne]
    show (w.setFile fd _).fds fd' = _
    rw [KernelState.setFile_other _ _ hne]
    exact hfile
  unfold terminalFail
  apply Safe.call_alone hready.safe trivial
  intro fd' w₁ hs
  obtain ⟨hfd, rfl⟩ := hs
  have hfd : fd' = fd := hfd
  rw [hfd]
  apply close_safe hready.safe (withTty_open w fd s)
  intro _
  apply Safe.call_alone hclosed.safe trivial
  intro _ w₂ hs
  obtain rfl : w₂ = w.stand s := hs.trans (withTty_close hfree hterminal s)
  have hback : PipeReady (w.stand s) := hw.congr rfl fun _ _ _ h => h
  exact Safe.ret_alone hback.safe (.failed hmask)

/-- The loop ends only in the foreground. -/
theorem foregroundLoop_safe (hw : PipeReady w) (hfree : w.fds fd = none) (pgrp : ℤ) (foreground : Bool) :
    Safe kernelWorld (kernelWatch mask) (ForegroundOver w fd) (Prog.iter foregroundTurn pgrp)
      ((withTty w fd).stand ⟨pgrp, foreground, w.mask, w.maskFailed⟩) := by
  have hready := fun s => (withTty_ready hw hfree s).safe
  apply Safe.iter (I := fun pgrp v => ∃ foreground, v = (withTty w fd).stand ⟨pgrp, foreground, w.mask, w.maskFailed⟩)
    (fun _ => stable_alone _) (fun _ => stable_alone _)
  · rintro _ _ ⟨_, rfl⟩
    exact hready _
  · intro _ _ hover
    cases hover with
    | failed => exact hready _
    | reached => exact hready _
  · rintro pgrp _ ⟨foreground, rfl⟩
    unfold foregroundTurn
    apply Safe.call_alone (hready _) (withTty_open w fd _)
    intro r w₁ hs
    rcases hs with ⟨hneg, rfl⟩ | ⟨hpos, -, rfl⟩
    · rw [if_pos hneg]
      exact Safe.ret_alone (hready _) .failed
    rw [if_neg (not_lt.mpr hpos)]
    by_cases hsame : r.ret = pgrp
    · rw [if_pos hsame, hsame]
      have hforeground : decide (pgrp = pgrp) = true := decide_eq_true rfl
      refine Safe.ret_alone (hready ⟨pgrp, decide (pgrp = pgrp), w.mask, w.maskFailed⟩) ?_
      show ForegroundOver w fd (some pgrp) ((withTty w fd).stand ⟨pgrp, decide (pgrp = pgrp), w.mask, w.maskFailed⟩)
      rw [hforeground]
      exact .reached
    rw [if_neg hsame]
    apply Safe.call_alone (hready ⟨pgrp, decide (r.ret = pgrp), w.mask, w.maskFailed⟩) trivial
    intro r' w₂ hs
    rcases hs with ⟨hneg, rfl⟩ | ⟨hzero, pgrp', foreground', rfl⟩
    · rw [if_pos hneg]
      by_cases herrno : r'.errno = EINTR
      · rw [if_pos herrno]
        exact Safe.ret_alone (hready ⟨pgrp, decide (r.ret = pgrp), w.mask, w.maskFailed⟩) ⟨_, rfl⟩
      · rw [if_neg herrno]
        exact Safe.ret_alone (hready ⟨pgrp, decide (r.ret = pgrp), w.mask, w.maskFailed⟩) .failed
    · rw [if_neg (by omega)]
      apply Safe.call_alone (hready ⟨pgrp', foreground', w.mask, w.maskFailed⟩) trivial
      intro group w₃ hs
      obtain ⟨hgroup, rfl⟩ := hs
      have hgroup : group = pgrp' := hgroup
      rw [hgroup]
      exact Safe.ret_alone (hready ⟨pgrp', foreground', w.mask, w.maskFailed⟩) ⟨foreground', rfl⟩
  · exact ⟨foreground, rfl⟩

/-- The group of its own is made with `SIGTTOU` blocked. -/
theorem takeTerminal_safe (hw : PipeReady w) (hfree : w.fds fd = none) {pgrp : ℤ} {held : List SignalNumber}
    (hheld : .sigttou ∈ held) :
    Safe kernelWorld (kernelWatch mask) (TakenOver w fd held) (takeTerminal pgrp)
      ((withTty w fd).stand ⟨pgrp, true, held, w.maskFailed⟩) := by
  have hready := fun s => (withTty_ready hw hfree s).safe
  have htake : ∀ (pgrp : ℤ) (foreground : Bool), Safe kernelWorld (kernelWatch mask) (TakenOver w fd held)
      ((onTerminalFd (terminalSetPgrp pgrp)).bind fun ret => if ret < 0 then .ret none else .ret (some pgrp))
      ((withTty w fd).stand ⟨pgrp, foreground, held, w.maskFailed⟩) := by
    intro pgrp foreground
    have hset := terminalSetPgrp_safe pgrp (hready ⟨pgrp, foreground, held, w.maskFailed⟩) (withTty_open w fd _)
      (Or.inl hheld)
    apply (onTerminalFd_safe hset).bind
    rintro ret v (⟨rfl, rfl⟩ | ⟨rfl, rfl⟩) hv
    · rw [if_neg (by decide)]
      have hforeground : decide (pgrp = pgrp) = true := decide_eq_true rfl
      refine Safe.ret_alone hv ?_
      show TakenOver w fd held (some pgrp) ((withTty w fd).stand ⟨pgrp, decide (pgrp = pgrp), held, w.maskFailed⟩)
      rw [hforeground]
      exact .taken
    · rw [if_pos (by decide)]
      exact Safe.ret_alone hv .failed
  unfold takeTerminal
  apply Safe.call_alone (hready _) trivial
  intro pid w₁ hs
  obtain ⟨-, rfl⟩ := hs
  unfold ownGroup
  by_cases hleader : pgrp ≠ pid
  · rw [if_pos hleader]
    apply Safe.call_alone (hready ⟨pgrp, true, held, w.maskFailed⟩) trivial
    intro r w₂ hs
    have hgroup : ∃ pgrp' foreground, w₂ = (withTty w fd).stand ⟨pgrp', foreground, held, w.maskFailed⟩ := by
      rcases hs with ⟨-, rfl⟩ | ⟨-, rfl⟩
      · exact ⟨pgrp, true, rfl⟩
      · exact ⟨_, _, rfl⟩
    obtain ⟨pgrp', foreground', rfl⟩ := hgroup
    dsimp only
    by_cases hrefused : r.ret < 0 ∧ r.errno ≠ EACCES
    · rw [if_pos hrefused]
      exact Safe.ret_alone (hready ⟨pgrp', foreground', held, w.maskFailed⟩) .failed
    · rw [if_neg hrefused]
      apply Safe.call_alone (hready ⟨pgrp', foreground', held, w.maskFailed⟩) trivial
      intro group w₃ hs
      obtain ⟨hgroup, rfl⟩ := hs
      have hgroup : group = pgrp' := hgroup
      rw [hgroup]
      exact htake pgrp' foreground'
  · rw [if_neg hleader]
    exact htake pgrp true

theorem terminalSetup_safe (hw : PipeReady w) (hfree : w.fds fd = none) (hlow : 0 ≤ fd) (hterminal : w.terminalFd = -1)
    (pgrp : ℤ) :
    Safe kernelWorld (kernelWatch mask) (TerminalInitOver w) (terminalSetup pgrp)
      ((withTty w fd).stand ⟨pgrp, true, w.mask, w.maskFailed⟩) := by
  have hready := fun s => (withTty_ready hw hfree s).safe
  unfold terminalSetup
  apply Safe.call_alone (hready _) trivial
  intro before w₁ hs
  rcases hs with ⟨hneg, rfl⟩ | ⟨hzero, hold, rfl⟩
  · rw [if_pos hneg]
    exact terminalFail_safe (s := ⟨pgrp, true, w.mask, w.maskFailed⟩) hw hfree hterminal (Or.inl ⟨rfl, rfl⟩)
  have hold : before.old = w.mask := hold
  rw [if_neg (by omega), hold]
  have hheld : SignalNumber.sigttou ∈ w.mask ++ [.sigttou] := by simp
  have htake : Safe kernelWorld (kernelWatch mask) (TakenOver w fd (w.mask ++ [.sigttou])) (takeTerminal pgrp)
      ((withTty w fd).stand ⟨pgrp, true, w.mask ++ [.sigttou], w.maskFailed⟩) := takeTerminal_safe hw hfree hheld
  apply htake.bind
  intro taken w₂ hover _
  cases hover with
  | @failed pgrp' foreground' =>
    apply Safe.call_alone (hready ⟨pgrp', foreground', w.mask ++ [.sigttou], w.maskFailed⟩) trivial
    intro r w₃ hs
    rcases hs with ⟨-, rfl⟩ | ⟨-, -, rfl⟩
    · exact terminalFail_safe (s := ⟨pgrp', foreground', _, true⟩) hw hfree hterminal (Or.inr rfl)
    · exact terminalFail_safe (s := ⟨pgrp', foreground', w.mask, w.maskFailed⟩) hw hfree hterminal (Or.inl ⟨rfl, rfl⟩)
  | @taken pgrp' =>
    apply Safe.call_alone (hready ⟨pgrp', true, w.mask ++ [.sigttou], w.maskFailed⟩) trivial
    intro r w₃ hs
    rcases hs with ⟨hneg, rfl⟩ | ⟨hzero, -, rfl⟩
    · rw [if_pos hneg]
      exact terminalFail_safe (s := ⟨pgrp', true, _, true⟩) hw hfree hterminal (Or.inr rfl)
    rw [if_neg (by omega)]
    have hopen : TerminalUse .tcgetattr ((withTty w fd).stand ⟨pgrp', true, w.mask, w.maskFailed⟩) :=
      withTty_open w fd _
    apply Safe.call_alone (hready ⟨pgrp', true, w.mask, w.maskFailed⟩) hopen
    intro r' w₄ hs
    obtain rfl : w₄ = (withTty w fd).stand ⟨pgrp', true, w.mask, w.maskFailed⟩ := hs
    by_cases hret : r'.ret < 0
    · rw [if_pos hret]
      exact terminalFail_safe (s := ⟨pgrp', true, w.mask, w.maskFailed⟩) hw hfree hterminal (Or.inl ⟨rfl, rfl⟩)
    · rw [if_neg hret]
      exact Safe.ret_alone (hready ⟨pgrp', true, w.mask, w.maskFailed⟩)
        (TerminalInitOver.started (s := ⟨pgrp', true, w.mask, w.maskFailed⟩) hfree hlow rfl rfl rfl)

theorem terminalInit_safe (hw : PipeReady w) (hterminal : w.terminalFd = -1) :
    Safe kernelWorld (kernelWatch mask) (TerminalInitOver w) terminalInit w := by
  have hsame : w.setTerminalFd (-1) = w := by
    rw [← hterminal]
    rfl
  unfold terminalInit
  apply Safe.call_alone hw.safe trivial
  intro _ w₁ hs
  obtain rfl : w₁ = w := hs.trans hsame
  apply Safe.call_alone hw.safe trivial
  intro tty w₂ hs
  obtain rfl : w₂ = w₁ := hs
  cases tty with
  | false => exact Safe.ret_alone hw.safe .absent
  | true =>
    rw [if_neg (by decide)]
    apply Safe.call_alone hw.safe trivial
    intro fd w₃ hs
    rcases hs with ⟨hret, rfl⟩ | ⟨hlow, hfree, rfl⟩
    · apply Safe.call_alone hw.safe trivial
      intro _ w₄ hs
      obtain rfl : w₄ = w₃ := by
        rw [← hsame, ← hret]
        exact hs
      rw [if_pos (by omega)]
      exact Safe.ret_alone hw.safe (TerminalInitOver.failed (s := ⟨w₄.pgrp, w₄.foreground, w₄.mask, w₄.maskFailed⟩)
        (Or.inl ⟨rfl, rfl⟩))
    have hready := fun s => (withTty_ready hw hfree s).safe
    have hopened : PipeReady (w₂.setFile fd.ret (some ttyFile)) := by
      refine hw.congr (by rfl) ?_
      intro fd' file _ hfile
      have hne : fd' ≠ fd.ret := by
        rintro rfl
        rw [hfree] at hfile
        exact absurd hfile.symm (Option.some_ne_none _)
      rw [KernelState.setFile_other _ _ hne]
      exact hfile
    apply Safe.call_alone hopened.safe trivial
    intro _ w₄ hs
    obtain rfl : w₄ = withTty w₂ fd.ret := hs
    rw [if_neg (not_lt.mpr hlow)]
    apply Safe.call_alone (hready ⟨w₂.pgrp, w₂.foreground, w₂.mask, w₂.maskFailed⟩) trivial
    intro group w₅ hs
    obtain ⟨hgroup, rfl⟩ := hs
    have hgroup : group = w₂.pgrp := hgroup
    rw [hgroup]
    apply (foregroundLoop_safe hw hfree w₂.pgrp w₂.foreground).bind
    intro reached v hover _
    cases hover with
    | failed => exact terminalFail_safe hw hfree hterminal (Or.inl ⟨rfl, rfl⟩)
    | reached => exact terminalSetup_safe hw hfree hlow hterminal _

end Terminal

end DeviceRuntime
