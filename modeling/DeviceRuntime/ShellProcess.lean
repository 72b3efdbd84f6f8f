/-
# The process of the shell

`src/main.c`, `event_init` and `event_shut` of `src/event.c`, `signal_init` and
`signal_shutdown` of `src/sig.c`, `terminal_init` and `terminal_shutdown` of
`src/terminal.c`, and `shell_init` and `shell_cleanup` of `src/shell.c`: what
the shell sets up before its loop, and what it takes down afterwards.

The state is what the kernel keeps for the process (its descriptors, its mask
and dispositions of signals, its group, and whether this group has the
terminal) with the statics `event_pipe` and `terminal_fd`. Any call may fail,
with any `errno`. Other processes may take the terminal as long as the group of
the shell does not have it, and while the shell is stopped they may put it into
another group. `signal_handler` may run between any two calls; it
changes nothing of this state, but writes to `event_pipe[1]` if that is not
negative.

The configuration, the devices and the jobs are behind `contextInit` and
`contextDestroy`, and the loop of `DeviceRuntime.Shell` makes its calls as
`shell`; `sigBlock` and `sigSetmask` are the two calls of `sigprocmask` in
`signal_take_events`, the second of which may fail. Commands may open and close
devices and pass on the terminal, and the redirections of a builtin are undone
as far as `dup2` allows; the last devices are closed by `contextDestroy`. What
is logged is left out.

Key definitions: `KernelState`, `KernelCall`, `kernelSem`, `ensureStandardFds`,
`eventInit`, `terminalInit`, `Process.signalInit`, `shellInit`, `shellCleanup`, `main`.
-/
import DeviceRuntime.Shell
import DeviceRuntime.PipelineWiring
import DeviceRuntime.Lib.Resources

namespace DeviceRuntime

abbrev O_RDONLY : BitVec 32 := 0
abbrev O_WRONLY : BitVec 32 := 1
abbrev O_NONBLOCK : BitVec 32 := 0x800
abbrev FD_CLOEXEC : BitVec 32 := 1

/-- `/dev/null`, the ends of the event pipe, `/dev/tty`, what the devices
open, and any other file. -/
inductive FileKind
  | null | eventRead | eventWrite | tty | device | other
deriving DecidableEq, Repr

/-- `status` is what `F_GETFL` gives, and `flags` what `F_GETFD` gives. -/
structure HeldFile where
  kind : FileKind
  status : BitVec 32
  flags : BitVec 32
deriving DecidableEq, Repr

/-- A return value; if it is not negative, it is `flags`. -/
structure FlagsResult where
  ret : ℤ
  errno : ℕ
  flags : BitVec 32
deriving DecidableEq, Repr

inductive KernelCall
  | getfd (fd : ℤ)
  | setfd (fd : ℤ) (flags : BitVec 32)
  | getfl (fd : ℤ)
  | setfl (fd : ℤ) (status : BitVec 32)
  | openNull (flags : BitVec 32)
  | openTty
  | dup2 (fd target : ℤ)
  | close (fd : ℤ)
  | pipe
  | loadPipe
  | storePipe (pipe : ℤ × ℤ)
  | loadTerminalFd
  | storeTerminalFd (fd : ℤ)
  | isatty
  | getpid
  | getpgrp
  | setpgid
  | tcgetpgrp
  | killGroup (pgid : ℤ)
  | terminal (c : TerminalCall)
  | sigprocmask (how : MaskHow) (set : List SignalNumber)
  | sigaction (sig : SignalNumber) (disposition : Disposition)
  | storePending (events : BitVec 32)
  | contextInit
  | contextDestroy
  | shell (c : ShellCall)

/-- `sigprocmask` also gives the mask before. -/
structure MaskResult where
  ret : ℤ
  old : List SignalNumber
deriving DecidableEq, Repr

abbrev KernelCall.Ret : KernelCall → Type
  | .getfd _ | .getfl _ => FlagsResult
  | .setfd _ _ | .setfl _ _ | .openNull _ | .openTty | .dup2 _ _ | .close _ | .pipe => CallResult
  | .setpgid | .tcgetpgrp | .killGroup _ | .sigaction _ _ => CallResult
  | .loadPipe => ℤ × ℤ
  | .loadTerminalFd | .getpid | .getpgrp => ℤ
  | .isatty => Bool
  | .terminal c => c.Ret
  | .sigprocmask _ _ => MaskResult
  | .contextInit => List Byte
  | .storePipe _ | .storeTerminalFd _ | .storePending _ | .contextDestroy => Unit
  | .shell c => c.Ret

abbrev KernelProg := Prog KernelCall KernelCall.Ret

/-! ### The standard descriptors -/

def ensureStandardFd (target : ℤ) (flags : BitVec 32) : KernelProg ℤ :=
  .call (.getfd target) fun r =>
    if r.ret ≥ 0 then .ret 0
    else if r.errno ≠ EBADF then .ret (-1)
    else .call (.openNull flags) fun fd =>
      if fd.ret < 0 then .ret (-1)
      else if fd.ret ≠ target then
        .call (.dup2 fd.ret target) fun r => .call (.close fd.ret) fun _ =>
          if r.ret < 0 then .ret (-1) else .ret 0
      else .ret 0

def ensureStandardFds : KernelProg ℤ :=
  (ensureStandardFd STDIN_FILENO O_RDONLY).bind fun ret =>
    if ret < 0 then .ret (-1)
    else (ensureStandardFd STDOUT_FILENO O_WRONLY).bind fun ret =>
      if ret < 0 then .ret (-1)
      else (ensureStandardFd STDERR_FILENO O_WRONLY).bind fun ret =>
        if ret < 0 then .ret (-1) else .ret 0

/-! ### The event pipe -/

def eventSetFlags (fd : ℤ) : KernelProg ℤ :=
  .call (.getfl fd) fun r =>
    if r.ret < 0 then .ret (-1)
    else .call (.setfl fd (r.flags ||| O_NONBLOCK)) fun set =>
      if set.ret < 0 then .ret (-1)
      else .call (.getfd fd) fun r =>
        if r.ret < 0 then .ret (-1)
        else .call (.setfd fd (r.flags ||| FD_CLOEXEC)) fun set =>
          if set.ret < 0 then .ret (-1) else .ret 0

/-- `event_pipe[1]`, and then the other end: the static is -1 before the
descriptor is closed. -/
def eventShutWrite : KernelProg Unit :=
  .call .loadPipe fun p =>
    if p.2 ≥ 0 then .call (.storePipe (p.1, -1)) fun _ => .call (.close p.2) fun _ => .ret () else .ret ()

def eventShutRead : KernelProg Unit :=
  .call .loadPipe fun p =>
    if p.1 ≥ 0 then .call (.storePipe (-1, p.2)) fun _ => .call (.close p.1) fun _ => .ret () else .ret ()

def eventShut : KernelProg Unit := eventShutWrite.bind fun _ => eventShutRead

/-- `event_pipe` is open at one end only. -/
def eventHalf (p : ℤ × ℤ) : KernelProg Unit := if p.1 ≥ 0 ∨ p.2 ≥ 0 then eventShut else .ret ()

def eventInit : KernelProg ℤ :=
  .call .loadPipe fun p =>
    if p.1 ≥ 0 ∧ p.2 ≥ 0 then .ret 0
    else (eventHalf p).bind fun _ => .call .pipe fun r =>
      if r.ret < 0 then .call (.storePipe (-1, -1)) fun _ => .ret (-1)
      else .call .loadPipe fun p =>
        (eventSetFlags p.1).bind fun ret =>
          if ret < 0 then eventShut.bind fun _ => .ret (-1)
          else (eventSetFlags p.2).bind fun ret =>
            if ret < 0 then eventShut.bind fun _ => .ret (-1) else .ret 0

def eventGetfd : KernelProg ℤ := .call .loadPipe fun p => .ret p.1

/-! ### The terminal -/

/-- The statics of `terminal.c` while the terminal is not initialised. -/
def noTerminal : Terminal := ⟨false, -1, none⟩

def onTerminalFd {α : Type} (p : TerminalProg α) : KernelProg α := p.link fun c => .call (.terminal c) .ret

/-- The loop of `terminal_init`: the group of the shell once it has the
terminal, `none` for `goto fail`. -/
def foregroundTurn (shellGroup : ℤ) : KernelProg (ℤ ⊕ Option ℤ) :=
  .call .tcgetpgrp fun foreground =>
    if foreground.ret < 0 then .ret (.inr none)
    else if foreground.ret = shellGroup then .ret (.inr (some shellGroup))
    else .call (.killGroup shellGroup) fun r =>
      if r.ret < 0 then if r.errno = EINTR then .ret (.inl shellGroup) else .ret (.inr none)
      else .call .getpgrp fun shellGroup => .ret (.inl shellGroup)

/-- The part of `terminal_init` at `fail`. -/
def terminalFail : KernelProg (ℤ × Terminal) :=
  .call .loadTerminalFd fun fd => .call (.close fd) fun _ => .call (.storeTerminalFd (-1)) fun _ =>
    .ret (-1, noTerminal)

/-- `shell_group` after the shell has become the leader of its own group;
`none` for a failure. -/
def ownGroup (shellGroup pid : ℤ) : KernelProg (Option ℤ) :=
  if shellGroup ≠ pid then
    .call .setpgid fun r =>
      if r.ret < 0 ∧ r.errno ≠ EACCES then .ret none else .call .getpgrp fun shellGroup => .ret (some shellGroup)
  else .ret (some shellGroup)

/-- The part of `terminal_init` in which `SIGTTOU` is blocked: the group that
was given the terminal. -/
def takeTerminal (shellGroup : ℤ) : KernelProg (Option ℤ) :=
  .call .getpid fun pid => (ownGroup shellGroup pid).bind fun
    | none => .ret none
    | some shellPgid => (onTerminalFd (terminalSetPgrp shellPgid)).bind fun ret =>
      if ret < 0 then .ret none else .ret (some shellPgid)

/-- `terminal_init` once the shell is in the foreground. -/
def terminalSetup (shellGroup : ℤ) : KernelProg (ℤ × Terminal) :=
  .call (.sigprocmask .block [.sigttou]) fun mask =>
    if mask.ret < 0 then terminalFail
    else (takeTerminal shellGroup).bind fun
      | none => .call (.sigprocmask .setmask mask.old) fun _ => terminalFail
      | some shellPgid => .call (.sigprocmask .setmask mask.old) fun r =>
        if r.ret < 0 then terminalFail
        else .call (.terminal .tcgetattr) fun r =>
          if r.ret < 0 then terminalFail else .ret (0, ⟨true, shellPgid, some r.modes⟩)

def terminalInit : KernelProg (ℤ × Terminal) :=
  .call (.storeTerminalFd (-1)) fun _ => .call .isatty fun tty =>
    if !tty then .ret (0, noTerminal)
    else .call .openTty fun fd => .call (.storeTerminalFd fd.ret) fun _ =>
      if fd.ret < 0 then .ret (-1, noTerminal)
      else .call .getpgrp fun shellGroup => (Prog.iter foregroundTurn shellGroup).bind fun
        | none => terminalFail
        | some shellGroup => terminalSetup shellGroup

def terminalShutdown (t : Terminal) : KernelProg Unit :=
  (onTerminalFd (terminalRestore t)).bind fun _ => .call .loadTerminalFd fun fd =>
    if fd ≥ 0 then .call (.close fd) fun _ => .call (.storeTerminalFd (-1)) .ret
    else .call (.storeTerminalFd (-1)) .ret

/-! ### Signals -/

/-- The dispositions that `signal_init` sets, in its order. -/
def signalActions : List (SignalNumber × Disposition) :=
  [(.sigint, .handler), (.sigchld, .handler), (.sigquit, .ignore), (.sigtstp, .ignore), (.sigttin, .ignore),
    (.sigttou, .ignore), (.sigpipe, .ignore)]

def setActions : List (SignalNumber × Disposition) → KernelProg ℤ
  | [] => .ret 0
  | (sig, disposition) :: actions => .call (.sigaction sig disposition) fun r =>
    if r.ret < 0 then .ret (-1) else setActions actions

def Process.signalInit : KernelProg ℤ := .call (.storePending SIGNAL_EVENT_NONE) fun _ => setActions signalActions

def signalShutdown : KernelProg Unit :=
  .call (.sigprocmask .block [.sigint, .sigchld]) fun mask =>
    if mask.ret < 0 then .ret ()
    else .call (.sigaction .sigint .ignore) fun _ => .call (.sigaction .sigchld .ignore) fun _ =>
      .call (.storePending SIGNAL_EVENT_NONE) fun _ => .call (.sigprocmask .setmask mask.old) fun _ => .ret ()

/-! ### The shell -/

/-- What `shell_context_init` leaves for the loop. -/
def shellContext (prompts : List Byte) : ShellState := ⟨true, 0, prompts, [], false, empty_fits⟩

def shellInit : KernelProg (ShellStatus × Terminal × ShellState) :=
  .call .contextInit fun prompts =>
    let ctx := shellContext prompts
    eventInit.bind fun ret =>
      if ret < 0 then .call .contextDestroy fun _ => .ret (.error, noTerminal, ctx)
      else terminalInit.bind fun (ret, t) =>
        if ret < 0 then eventShut.bind fun _ => .call .contextDestroy fun _ => .ret (.error, t, ctx)
        else Process.signalInit.bind fun ret =>
          if ret < 0 then
            signalShutdown.bind fun _ => (terminalShutdown t).bind fun _ => eventShut.bind fun _ =>
              .call .contextDestroy fun _ => .ret (.error, noTerminal, ctx)
          else .ret (.ok, t, ctx)

def onShell {α : Type} (p : ShellProg α) : KernelProg α := p.link fun c => .call (.shell c) .ret

def goodbye : List Byte := [0x3E, 0x3E, 0x4D, 0x69, 0x6E, 0x69, 0x53, 0x68, 0x65, 0x6C, 0x6C, 0x20, 0xE5, 0xB7, 0xB2,
  0xE9, 0x80, 0x80, 0xE5, 0x87, 0xBA, 0x0D, 0x0A]

def shellCleanup (t : Terminal) : KernelProg Unit :=
  .call .contextDestroy fun _ => signalShutdown.bind fun _ => eventShut.bind fun _ =>
    (terminalShutdown t).bind fun _ =>
      onShell <| shellFlushStdout.bind fun ret =>
        if ret = 0 then (shellWriteAll goodbye).bind fun _ => .ret () else .ret ()

def main : KernelProg ℤ :=
  ensureStandardFds.bind fun ret =>
    if ret < 0 then .ret 1
    else shellInit.bind fun (status, t, ctx) =>
      if status ≠ .ok then .ret 1
      else (eventGetfd.bind fun eventFd => onShell (shellRun eventFd ctx)).bind fun (runStatus, ctx) =>
        (shellCleanup t).bind fun _ => if runStatus ≠ .ok then .ret 1 else .ret ctx.lastExitStatus

/-! ### The kernel -/

open Prog Resources

/-- `foreground`: the group of the shell has the terminal. `saved` is what
`signal_take_events` has in `old_set`. `maskFailed`: a `sigprocmask` that was to
restore the mask has failed. `stuck`: a `dup2` that was to restore the
descriptor after a builtin has failed. -/
structure KernelState where
  fds : Table ℤ HeldFile
  eventPipe : ℤ × ℤ
  terminalFd : ℤ
  pid : ℤ
  pgrp : ℤ
  foreground : Bool
  mask : List SignalNumber
  saved : List SignalNumber
  maskFailed : Bool
  stuck : ℤ → Bool
  disposition : SignalNumber → Disposition

namespace KernelState

def setFile (w : KernelState) (fd : ℤ) (file : Option HeldFile) : KernelState :=
  { w with fds := Function.update w.fds fd file }

def setPipe (w : KernelState) (pipe : ℤ × ℤ) : KernelState := { w with eventPipe := pipe }

def setTerminalFd (w : KernelState) (fd : ℤ) : KernelState := { w with terminalFd := fd }

def setMask (w : KernelState) (how : MaskHow) (set : List SignalNumber) : KernelState :=
  match how with
  | .block => { w with mask := w.mask ++ set }
  | .setmask => { w with mask := set }

/-- A mask that is only added to needs nothing to be restored. -/
def maskRefused (w : KernelState) (how : MaskHow) : KernelState :=
  match how with
  | .block => w
  | .setmask => { w with maskFailed := true }

/-- A call whose success changes the state. -/
def Tries (w : KernelState) (ret : ℤ) (after w' : KernelState) : Prop := (ret < 0 ∧ w' = w) ∨ (ret = 0 ∧ w' = after)

/-- A flag call: a descriptor that is not open gives `EBADF`, and no other
does. -/
def Reads (w : KernelState) (fd : ℤ) (get : HeldFile → BitVec 32) (r : FlagsResult) : Prop :=
  match w.fds fd with
  | none => r.ret < 0 ∧ r.errno = EBADF
  | some file => (0 ≤ r.ret ∧ r.flags = get file) ∨ (r.ret < 0 ∧ r.errno ≠ EBADF)

/-- A new descriptor. -/
def Opens (w : KernelState) (file : HeldFile) (ret : ℤ) (w' : KernelState) : Prop :=
  (ret = -1 ∧ w' = w) ∨ (0 ≤ ret ∧ w.fds ret = none ∧ w' = w.setFile ret (some file))

/-- Two new descriptors, which are in `event_pipe` then. -/
def Pipes (w : KernelState) (ret : ℤ) (w' : KernelState) : Prop :=
  (ret < 0 ∧ w' = w) ∨ ∃ a b, ret = 0 ∧ 0 ≤ a ∧ 0 ≤ b ∧ a ≠ b ∧ w.fds a = none ∧ w.fds b = none ∧
    w' = ((w.setFile a (some ⟨.eventRead, 0, 0⟩)).setFile b (some ⟨.eventWrite, 1, 0⟩)).setPipe (a, b)

end KernelState

/-- The calls on the terminal. -/
def ttySem (w : KernelState) : (c : TerminalCall) → c.Ret → KernelState → Prop
  | .tcsetpgrp pgid, r, w' => w.Tries r.ret { w with foreground := pgid = w.pgrp } w'
  | .tcgetattr, _, w' => w' = w
  | .tcsetattr _, _, w' => w' = w

/-- What the devices have opened is closed. -/
def withoutDevices (fds : Table ℤ HeldFile) : Table ℤ HeldFile :=
  fun fd => (fds fd).filter fun file => file.kind ≠ .device

/-- A standard descriptor after a builtin. One that was redirected is restored
by `dup2`, which leaves it without flags; if this fails, it stays on the file of
the redirection. -/
inductive RedirectOver (file : Option HeldFile) (stuck : Bool) : Option HeldFile → Prop
  | untouched : RedirectOver file stuck file
  | restored {f : HeldFile} (hfile : file = some f) : RedirectOver file stuck (some { f with flags := 0 })
  | stays {status : BitVec 32} (hstuck : stuck = true) : RedirectOver file stuck (some ⟨.other, status, 0⟩)

/-- Only standard input and output are redirected. -/
def RedirectsOver (stuck : ℤ → Bool) (fds fds' : Table ℤ HeldFile) : Prop :=
  ∀ fd, if fd = STDIN_FILENO ∨ fd = STDOUT_FILENO then RedirectOver (fds fd) (stuck fd) (fds' fd) else fds' fd = fds fd

/-- A command may open and close devices, redirect standard input and output,
and pass on the terminal. -/
def shellSem (w : KernelState) (c : ShellCall) (r : c.Ret) (w' : KernelState) : Prop :=
  match c, r with
  | .command _, _ => ∃ fds foreground stuck, RedirectsOver stuck (withoutDevices w.fds) (withoutDevices fds) ∧
    w' = { w with fds := fds, foreground := foreground, stuck := fun fd => w.stuck fd || stuck fd }
  | .sigBlock, r =>
    (r.1.ret < 0 ∧ w' = w.maskRefused .block) ∨
      (r.1.ret = 0 ∧ w' = { w.setMask .block [.sigint, .sigchld] with saved := w.mask })
  | .sigSetmask _, r =>
    (r.ret < 0 ∧ w' = w.maskRefused .setmask) ∨ (r.ret = 0 ∧ w' = w.setMask .setmask w.saved)
  | _, _ => w' = w

/-- A process that `SIGTTIN` has stopped goes on in any group. -/
def kernelSem (w : KernelState) : (c : KernelCall) → c.Ret → KernelState → Prop
  | .getfd fd, r, w' => w.Reads fd HeldFile.flags r ∧ w' = w
  | .getfl fd, r, w' => w.Reads fd HeldFile.status r ∧ w' = w
  | .setfd fd flags, r, w' => w.Tries r.ret (w.setFile fd ((w.fds fd).map fun f => { f with flags := flags })) w'
  | .setfl fd status, r, w' => w.Tries r.ret (w.setFile fd ((w.fds fd).map fun f => { f with status := status })) w'
  | .openNull flags, r, w' => w.Opens ⟨.null, flags, 0⟩ r.ret w'
  | .openTty, r, w' => w.Opens ⟨.tty, 2, FD_CLOEXEC⟩ r.ret w'
  | .dup2 fd target, r, w' =>
    (r.ret < 0 ∧ w' = w) ∨ ∃ f, r.ret = target ∧ w.fds fd = some f ∧ w' = w.setFile target (some { f with flags := 0 })
  | .close fd, _, w' => w' = w.setFile fd none
  | .pipe, r, w' => w.Pipes r.ret w'
  | .loadPipe, p, w' => p = w.eventPipe ∧ w' = w
  | .storePipe p, _, w' => w' = w.setPipe p
  | .loadTerminalFd, fd, w' => fd = w.terminalFd ∧ w' = w
  | .storeTerminalFd fd, _, w' => w' = w.setTerminalFd fd
  | .isatty, _, w' => w' = w
  | .getpid, pid, w' => pid = w.pid ∧ w' = w
  | .getpgrp, pgid, w' => pgid = w.pgrp ∧ w' = w
  | .setpgid, r, w' => w.Tries r.ret { w with pgrp := w.pid, foreground := w.foreground && w.pgrp = w.pid } w'
  | .tcgetpgrp, r, w' =>
    (r.ret < 0 ∧ w' = w) ∨ (0 ≤ r.ret ∧ (w.foreground = true → r.ret = w.pgrp) ∧
      w' = { w with foreground := r.ret = w.pgrp })
  | .killGroup _, r, w' =>
    (r.ret < 0 ∧ w' = w) ∨ (r.ret = 0 ∧ ∃ pgrp foreground, w' = { w with pgrp := pgrp, foreground := foreground })
  | .terminal c, r, w' => ttySem w c r w'
  | .sigprocmask how set, r, w' =>
    (r.ret < 0 ∧ w' = w.maskRefused how) ∨ (r.ret = 0 ∧ r.old = w.mask ∧ w' = w.setMask how set)
  | .sigaction sig disposition, r, w' =>
    w.Tries r.ret { w with disposition := Function.update w.disposition sig disposition } w'
  | .storePending _, _, w' => w' = w
  | .contextInit, _, w' => w' = w
  | .contextDestroy, _, w' => w' = { w with fds := withoutDevices w.fds }
  | .shell c, r, w' => shellSem w c r w'

abbrev kernelWorld : World KernelCall KernelCall.Ret KernelState := World.alone kernelSem

end DeviceRuntime
