/-
# The executor

`src/executor.c`: a command or a pipeline is started as a job. The parent
makes a pipe, the gate, and forks a child for each command; a child waits for
a byte from the gate before it sets up its descriptors and runs its program.
The parent puts the children into the job table, hands the terminal over, and
only then writes one byte for each child. Every failure before that is undone
by a sequence of its own.

The child of a `fork` is another program, with calls of its own; the call
carries what the child has of the parent's variables. `pid`s are natural
numbers with 0 for "none". The messages to `stderr` are left out, and so is
what `close` returns, which nobody looks at.

Key definitions: `ChildCall`, `ForkedChild.program`, `ExecCall`,
`rollbackPipeline`, `executeSingle`, `pipelineStage`, `executePipeline`,
`executeCommand`.
-/
import DeviceRuntime.Parser
import DeviceRuntime.Terminal

namespace DeviceRuntime

abbrev MAX_PIPELINE : ℕ := 64

abbrev STDIN_FILENO : ℤ := 0
abbrev STDOUT_FILENO : ℤ := 1

/-! ### The child -/

inductive SignalNumber
  | sigint | sigquit | sigtstp | sigttin | sigttou | sigchld | sigpipe
deriving DecidableEq, Repr

inductive MaskHow
  | block | setmask
deriving DecidableEq, Repr

/-- `O_RDONLY`, and `O_WRONLY | O_CREAT` with `O_TRUNC` or `O_APPEND`. -/
inductive OpenFlags
  | rdonly | truncate | append
deriving DecidableEq, Repr

structure ReadResult where
  ret : ℤ
  errno : ℕ
  value : Byte
deriving DecidableEq, Repr

/-- `setDefault` is `sigaction` with `SIG_DFL`. `eventShut` and
`deviceCloseAll` close the descriptors of the event loop and of the devices. -/
inductive ChildCall
  | close (fd : ℤ)
  | sigprocmask (how : MaskHow) (set : List SignalNumber)
  | setDefault (sig : SignalNumber)
  | setpgid (pgid : ℕ)
  | eventShut
  | deviceCloseAll
  | read (fd : ℤ)
  | dup2 (fd target : ℤ)
  | openFile (file : List Byte) (flags : OpenFlags)
  | execvp (argv : Vector (Option (List Byte)) MAX_ARGS)
  | exit (code : ℕ)

/-- `execvp` returns if it fails, with `errno`; `exit` does not return. -/
abbrev ChildCall.Ret : ChildCall → Type
  | .close _ | .sigprocmask _ _ | .setDefault _ | .eventShut => Unit
  | .setpgid _ | .dup2 _ _ | .openFile _ _ => CallResult
  | .deviceCloseAll => ℤ
  | .read _ => ReadResult
  | .execvp _ => ℕ
  | .exit _ => Empty

abbrev ChildProg := Prog ChildCall ChildCall.Ret

def childExit {α : Type} (code : ℕ) : ChildProg α := .call (.exit code) fun r => r.elim

def setpgidChild (pgid : ℕ) : ChildProg ℤ := retry (.call (.setpgid pgid) .ret)

def childBlockStartupSignals : ChildProg Unit :=
  .call (.sigprocmask .block [.sigint, .sigquit, .sigtstp, .sigttin, .sigttou]) .ret

def startupGateWait (fd : ℤ) : ChildProg ℤ :=
  .iter (fun _ => .call (.read fd) fun r =>
    if r.ret = 1 then .ret (.inr (if r.value = 'G'.toUInt8 then 0 else -1))
    else if r.ret = 0 then .ret (.inr (-1))
    else if r.errno = EINTR then .ret (.inl ())
    else .ret (.inr (-1))) ()

def setDefault (sig : SignalNumber) : ChildProg Unit := .call (.setDefault sig) .ret

def resetSignals : List SignalNumber := [.sigint, .sigquit, .sigtstp, .sigttin, .sigttou, .sigchld, .sigpipe]

def signalResetChild : ChildProg Unit :=
  (resetSignals.foldlM (fun _ sig => setDefault sig) ()).bind fun _ => .call (.sigprocmask .setmask []) .ret

def childPrepareBeforeGate (gateRead gateWrite : ℤ) (pgid : ℕ) : ChildProg Unit :=
  .call (.close gateWrite) fun _ =>
  childBlockStartupSignals.bind fun _ =>
  (setpgidChild pgid).bind fun ret =>
  if ret < 0 then childExit 1
  else .call .eventShut fun _ =>
    .call .deviceCloseAll fun ret =>
    if ret < 0 then childExit 1
    else (startupGateWait gateRead).bind fun ret =>
      if ret < 0 then childExit 1
      else .call (.close gateRead) fun _ => signalResetChild

def redirectFd (fd target : ℤ) : ChildProg ℤ :=
  if fd = target then .ret MiniShell_OK
  else (retry (.call (.dup2 fd target) .ret)).bind fun ret =>
    if ret < 0 then .ret MiniShell_ERR_DUP2
    else .call (.close fd) fun _ => .ret MiniShell_OK

def execStatusFromErrno (error : ℕ) : ℕ := if error = ENOENT then 127 else 126

def runProcess (com : Command) : ChildProg Unit :=
  .call (.execvp com.argv) fun errno => childExit (execStatusFromErrno errno)

/-- One of the two redirections of `setredirect`. -/
def redirectFile (file : Option (List Byte)) (flags : OpenFlags) (target : ℤ) : ChildProg ℤ :=
  match file with
  | none => .ret MiniShell_OK
  | some file => .call (.openFile file flags) fun r =>
    if r.ret < 0 then .ret MiniShell_ERR_OPEN
    else (redirectFd r.ret target).bind fun ret =>
      if ret ≠ MiniShell_OK then
        if r.ret ≠ target then .call (.close r.ret) fun _ => .ret MiniShell_ERR_DUP2
        else .ret MiniShell_ERR_DUP2
      else .ret MiniShell_OK

def setredirect (com : Command) : ChildProg ℤ :=
  (redirectFile com.redirect.outputFile (if com.redirect.append ≠ 0 then .append else .truncate)
    STDOUT_FILENO).bind fun ret =>
  if ret ≠ MiniShell_OK then .ret ret
  else redirectFile com.redirect.inputFile .rdonly STDIN_FILENO

/-- What every child does at last. -/
def childRun (com : Command) : ChildProg Unit :=
  (setredirect com).bind fun ret => if ret ≠ MiniShell_OK then childExit 1 else runProcess com

/-- What a child has of its parent's variables, in `execute_single` and in a
turn of the loop of `execute_pipeline`. -/
inductive ForkedChild
  | single (com : Command) (gate : ℤ × ℤ)
  | stage (current : Command) (next : Bool) (gate : ℤ × ℤ) (pgid : ℕ) (pipeFd : ℤ) (pipefd : ℤ × ℤ)
deriving DecidableEq

def ForkedChild.gate : ForkedChild → ℤ × ℤ
  | .single _ gate => gate
  | .stage _ _ gate _ _ _ => gate

/-- The program of the child that `getpid` calls `pid`. -/
def ForkedChild.program (child : ForkedChild) (pid : ℕ) : ChildProg Unit :=
  match child with
  | .single com gate => (childPrepareBeforeGate gate.1 gate.2 0).bind fun _ => childRun com
  | .stage current next gate pgid pipeFd pipefd =>
    (childPrepareBeforeGate gate.1 gate.2 (if pgid = 0 then pid else pgid)).bind fun _ =>
    (if pipeFd ≥ 0 then redirectFd pipeFd STDIN_FILENO else .ret MiniShell_OK).bind fun ret =>
    if ret ≠ MiniShell_OK then childExit 1
    else (if next then redirectFd pipefd.2 STDOUT_FILENO else .ret MiniShell_OK).bind fun ret =>
      if ret ≠ MiniShell_OK then childExit 1
      else if pipefd.1 ≥ 0 then .call (.close pipefd.1) fun _ => childRun current
        else childRun current

/-! ### The calls of the parent -/

structure PipeResult where
  ret : ℤ
  errno : ℕ
  fds : ℤ × ℤ
deriving DecidableEq, Repr

inductive ExecCall
  | job (c : JobCall)
  | terminal (c : TerminalCall)
  | pipe
  | getCloexec (fd : ℤ)
  | setCloexec (fd : ℤ)
  | close (fd : ℤ)
  | fork (child : ForkedChild)
  | setpgid (pid pgid : ℕ)
  | write (fd : ℤ) (value : Byte)
  | setRunning (running : Bool)

abbrev ExecCall.Ret : ExecCall → Type
  | .job c => c.Ret
  | .terminal c => c.Ret
  | .pipe => PipeResult
  | .getCloexec _ | .setCloexec _ | .fork _ | .setpgid _ _ | .write _ _ => CallResult
  | .close _ | .setRunning _ => Unit

abbrev ExecProg := Prog ExecCall ExecCall.Ret

def onJobs {α : Type} (p : JobProg α) : ExecProg α := p.link fun c => .call (.job c) .ret

def onTerminal {α : Type} (p : TerminalProg α) : ExecProg α := p.link fun c => .call (.terminal c) .ret

def closeFd (fd : ℤ) : ExecProg Unit := .call (.close fd) .ret

/-- `if (fd >= 0) close(fd);` -/
def closeOpen (fd : ℤ) : ExecProg Unit := if fd ≥ 0 then closeFd fd else .ret ()

def setpgidParent (pid pgid : ℕ) : ExecProg ℤ :=
  .iter (fun _ => .call (.setpgid pid pgid) fun r =>
    if r.ret < 0 then
      if r.errno = EINTR then .ret (.inl ())
      else if r.errno = EACCES ∨ r.errno = ESRCH then .ret (.inr 0)
      else .ret (.inr (-1))
    else .ret (.inr 0)) ()

/-- `fcntl(fd, F_GETFD)`, and `F_SETFD` with `FD_CLOEXEC` added. -/
def setCloexec (fd : ℤ) : ExecProg ℤ :=
  .call (.getCloexec fd) fun flags =>
    if flags.ret < 0 then .ret (-1) else .call (.setCloexec fd) fun r => .ret r.ret

/-! ### The gate -/

/-- The result and the gate, which is -1, -1 if there is none. -/
def startupGateCreate : ExecProg (ℤ × ℤ × ℤ) :=
  .call .pipe fun p =>
    if p.ret < 0 then .ret (-1, -1, -1)
    else
      let fail : ExecProg (ℤ × ℤ × ℤ) :=
        (closeFd p.fds.1).bind fun _ => (closeFd p.fds.2).bind fun _ => .ret (-1, -1, -1)
      (setCloexec p.fds.1).bind fun ret =>
        if ret < 0 then fail
        else (setCloexec p.fds.2).bind fun ret => if ret < 0 then fail else .ret (0, p.fds)

/-- One byte for one child. -/
def writeGate (fd : ℤ) : ExecProg ℤ :=
  .iter (fun _ => .call (.write fd 'G'.toUInt8) fun r =>
    if r.ret = 1 then .ret (.inr 0)
    else if r.ret < 0 ∧ r.errno = EINTR then .ret (.inl ())
    else .ret (.inr (-1))) ()

def startupGateRelease (fd : ℤ) : ℕ → ExecProg ℤ
  | 0 => .ret 0
  | count + 1 => (writeGate fd).bind fun ret => if ret < 0 then .ret (-1) else startupGateRelease fd count

/-! ### Undoing a start -/

/-- All results of `waitpid` but `EINTR` leave the loop. -/
def reapPid (pid : ℕ) : ExecProg Unit :=
  if pid = 0 then .ret ()
  else .iter (fun _ => .call (.job (.waitpid (.process pid) ⟨false, false, false⟩)) fun
    | .failed errno => if errno = EINTR then .ret (.inl ()) else .ret (.inr ())
    | .nothing => .ret (.inr ())
    | .reported _ _ => .ret (.inr ())) ()

def killGroup (pgid : ℕ) : ExecProg Unit :=
  if pgid = 0 then .ret () else .call (.job (.kill (.group pgid) .sigkill)) fun _ => .ret ()

def killPid (pid : ℕ) : ExecProg Unit :=
  if pid = 0 then .ret () else .call (.job (.kill (.process pid) .sigkill)) fun _ => .ret ()

def rollbackSingle (pid : ℕ) : ExecProg Unit :=
  if pid = 0 then .ret ()
  else (killGroup pid).bind fun _ => (killPid pid).bind fun _ => reapPid pid

def rollbackPipeline (pgid : ℕ) (pids : List ℕ) : ExecProg Unit :=
  (killGroup pgid).bind fun _ =>
  (pids.foldlM (fun _ pid => killPid pid) ()).bind fun _ =>
  pids.foldlM (fun _ pid => reapPid pid) ()

def removeJob (pgid : ℕ) : ExecProg Unit :=
  .call (.job .getJobs) fun m => .call (.job (.setJobs (jobRemove m pgid))) .ret

/-! ### A job in the foreground -/

/-- `max_job` of the configuration, and the terminal. -/
structure ExecContext where
  maxJob : ℤ
  terminal : Terminal
deriving DecidableEq, Repr

def checkJobLimit (ctx : ExecContext) : ExecProg ℤ :=
  .call (.job .getJobs) fun m =>
    if (jobCountActive m : ℤ) ≥ ctx.maxJob then .ret MiniShell_ERR_JOB else .ret MiniShell_OK

/-- The modes of the terminal are kept for a job that is stopped. -/
def keepModes (t : Terminal) (job : Job) : ExecProg Unit :=
  (onTerminal (terminalGetModes t (job.terminalModes.getD 0))).bind fun r =>
    if r.1 = 0 then onJobs (modifyJob job.id fun job => { job with terminalModes := some r.2 }) else .ret ()

def finishForegroundJob (t : Terminal) (id : ℕ) : ExecProg ℤ :=
  .call (.job .getJobs) fun m =>
    match m.find id with
    | none => .ret MiniShell_ERR_UNKNOWN
    | some job =>
      (if t.initialized ∧ job.status = .stopped then keepModes t job else .ret ()).bind fun _ =>
      (if t.initialized then onTerminal (terminalRestore t) else .ret 0).bind fun ret =>
      if ret < 0 then .call (.setRunning false) fun _ => .ret MiniShell_ERR_UNKNOWN
      else if job.status = .stopped then
        .call (.job (.printf (text "\n[" ++ decimal job.id ++ text "]+ Stopped " ++ job.command ++ text "\n")))
          fun _ => .ret MiniShell_OK
      else if job.status ≠ .done then .ret MiniShell_ERR_UNKNOWN
      else (removeJob job.pgid).bind fun _ =>
        .ret (if jobExitStatus job < 0 then MiniShell_ERR_UNKNOWN else jobExitStatus job)

/-- `terminal_restore();` with its result ignored. -/
def restoreTerminal (t : Terminal) : ExecProg Unit := (onTerminal (terminalRestore t)).bind fun _ => .ret ()

/-! ### One command -/

def executeSingle (com : Command) (ctx : ExecContext) : ExecProg ℤ :=
  startupGateCreate.bind fun (ret, gate) =>
  if ret < 0 then .ret MiniShell_ERR_PIPE
  else .call (.fork (.single com gate)) fun r =>
    if r.ret < 0 then
      (closeFd gate.1).bind fun _ =>
      (closeFd gate.2).bind fun _ => .ret MiniShell_ERR_FORK
    else
      let pid := r.ret.toNat
      (closeFd gate.1).bind fun _ =>
      (setpgidParent pid pid).bind fun ret =>
      if ret < 0 then
        (closeFd gate.2).bind fun _ =>
        (rollbackSingle pid).bind fun _ => .ret MiniShell_ERR_UNKNOWN
      else (onJobs (jobAdd pid (getElem com.argv 0 argv_pos))).bind fun
        | none =>
          (closeFd gate.2).bind fun _ =>
          (rollbackSingle pid).bind fun _ => .ret MiniShell_ERR_JOB
        | some job =>
          (onJobs (processAdd job pid)).bind fun ret =>
          if ret < 0 then
            (closeFd gate.2).bind fun _ =>
            (rollbackSingle pid).bind fun _ =>
            (removeJob pid).bind fun _ => .ret MiniShell_ERR_JOB
          else
            (if com.background = 0 ∧ ctx.terminal.initialized then
              onTerminal (terminalSetForeground ctx.terminal pid) else .ret 0).bind fun ret =>
            if ret < 0 then
              (closeFd gate.2).bind fun _ =>
              (rollbackSingle pid).bind fun _ =>
              (removeJob pid).bind fun _ =>
              (restoreTerminal ctx.terminal).bind fun _ => .ret MiniShell_ERR_UNKNOWN
            else (startupGateRelease gate.2 1).bind fun ret =>
              if ret < 0 then
                (closeFd gate.2).bind fun _ =>
                (rollbackSingle pid).bind fun _ =>
                (removeJob pid).bind fun _ =>
                (if com.background = 0 ∧ ctx.terminal.initialized then restoreTerminal ctx.terminal
                  else .ret ()).bind fun _ => .ret MiniShell_ERR_UNKNOWN
              else (closeFd gate.2).bind fun _ =>
                if com.background ≠ 0 then .ret MiniShell_OK
                else (onJobs (jobWaitForeground job)).bind fun ret =>
                  if ret < 0 then
                    (rollbackSingle pid).bind fun _ =>
                    (if ctx.terminal.initialized then restoreTerminal ctx.terminal else .ret ()).bind fun _ =>
                    (removeJob pid).bind fun _ => .ret MiniShell_ERR_UNKNOWN
                  else finishForegroundJob ctx.terminal job

/-! ### A pipeline -/

/-- The variables of the loop. `count` is the length of `pids`. -/
structure PipelineState where
  pipeFd : ℤ
  pids : List ℕ
  pgid : ℕ
deriving DecidableEq, Repr

/-- A pipe to the next command, if there is one. -/
def stagePipe (next : Bool) : ExecProg PipeResult :=
  if next then .call .pipe .ret else .ret ⟨0, 0, (-1, -1)⟩

/-- One turn of the loop: the code to return, or the variables after it. -/
def pipelineStage (gate : ℤ × ℤ) (current : Command) (next : Bool) (s : PipelineState) :
    ExecProg (Except ℤ PipelineState) :=
  if s.pids.length ≥ MAX_PIPELINE then
    (closeOpen s.pipeFd).bind fun _ =>
    (closeFd gate.1).bind fun _ =>
    (closeFd gate.2).bind fun _ =>
    (rollbackPipeline s.pgid s.pids).bind fun _ => .ret (.error MiniShell_ERR_UNKNOWN)
  else (stagePipe next).bind fun p =>
    if p.ret < 0 then
      (closeOpen s.pipeFd).bind fun _ =>
      (closeFd gate.1).bind fun _ =>
      (closeFd gate.2).bind fun _ =>
      (rollbackPipeline s.pgid s.pids).bind fun _ => .ret (.error MiniShell_ERR_PIPE)
    else .call (.fork (.stage current next gate s.pgid s.pipeFd p.fds)) fun r =>
      if r.ret < 0 then
        (closeOpen p.fds.1).bind fun _ =>
        (closeOpen p.fds.2).bind fun _ =>
        (closeOpen s.pipeFd).bind fun _ =>
        (closeFd gate.1).bind fun _ =>
        (closeFd gate.2).bind fun _ =>
        (rollbackPipeline s.pgid s.pids).bind fun _ => .ret (.error MiniShell_ERR_FORK)
      else
        let pid := r.ret.toNat
        let pids := s.pids ++ [pid]
        let pgid := if s.pgid = 0 then pid else s.pgid
        (setpgidParent pid pgid).bind fun ret =>
        if ret < 0 then
          (closeOpen p.fds.1).bind fun _ =>
          (closeOpen p.fds.2).bind fun _ =>
          (closeOpen s.pipeFd).bind fun _ =>
          (closeFd gate.1).bind fun _ =>
          (closeFd gate.2).bind fun _ =>
          (rollbackPipeline pgid pids).bind fun _ => .ret (.error MiniShell_ERR_UNKNOWN)
        else (closeOpen s.pipeFd).bind fun _ =>
          if next then (closeFd p.fds.2).bind fun _ => .ret (.ok ⟨p.fds.1, pids, pgid⟩)
          else .ret (.ok ⟨-1, pids, pgid⟩)

/-- `while (current)`. -/
def pipelineStages (gate : ℤ × ℤ) : List Command → PipelineState → ExecProg (Except ℤ PipelineState)
  | [], s => .ret (.ok s)
  | current :: rest, s => (pipelineStage gate current (!rest.isEmpty) s).bind fun
    | .error ret => .ret (.error ret)
    | .ok s => pipelineStages gate rest s

def addProcesses (job : ℕ) : List ℕ → ExecProg ℤ
  | [] => .ret 0
  | pid :: pids => (onJobs (processAdd job pid)).bind fun ret => if ret < 0 then .ret (-1) else addProcesses job pids

/-- What follows the loop. `com` is the first command. -/
def launchPipeline (com : Command) (ctx : ExecContext) (gate : ℤ × ℤ) (s : PipelineState) : ExecProg ℤ :=
  (closeOpen s.pipeFd).bind fun _ =>
  (closeFd gate.1).bind fun _ =>
  (onJobs (jobAdd s.pgid (getElem com.argv 0 argv_pos))).bind fun
  | none =>
    (closeFd gate.2).bind fun _ =>
    (rollbackPipeline s.pgid s.pids).bind fun _ => .ret MiniShell_ERR_JOB
  | some job =>
    (addProcesses job s.pids).bind fun ret =>
    if ret < 0 then
      (closeFd gate.2).bind fun _ =>
      (rollbackPipeline s.pgid s.pids).bind fun _ =>
      (removeJob s.pgid).bind fun _ => .ret MiniShell_ERR_JOB
    else
      (if com.background = 0 ∧ ctx.terminal.initialized then
        onTerminal (terminalSetForeground ctx.terminal s.pgid) else .ret 0).bind fun ret =>
      if ret < 0 then
        (closeFd gate.2).bind fun _ =>
        (rollbackPipeline s.pgid s.pids).bind fun _ =>
        (removeJob s.pgid).bind fun _ =>
        (restoreTerminal ctx.terminal).bind fun _ => .ret MiniShell_ERR_UNKNOWN
      else (startupGateRelease gate.2 s.pids.length).bind fun ret =>
        if ret < 0 then
          (closeFd gate.2).bind fun _ =>
          (rollbackPipeline s.pgid s.pids).bind fun _ =>
          (removeJob s.pgid).bind fun _ =>
          (if com.background = 0 ∧ ctx.terminal.initialized then restoreTerminal ctx.terminal
            else .ret ()).bind fun _ => .ret MiniShell_ERR_UNKNOWN
        else (closeFd gate.2).bind fun _ =>
          if com.background ≠ 0 then .ret MiniShell_OK
          else (onJobs (jobWaitForeground job)).bind fun ret =>
            if ret < 0 then
              (rollbackPipeline s.pgid s.pids).bind fun _ =>
              (if ctx.terminal.initialized then restoreTerminal ctx.terminal else .ret ()).bind fun _ =>
              (removeJob s.pgid).bind fun _ => .ret MiniShell_ERR_UNKNOWN
            else finishForegroundJob ctx.terminal job

def executePipeline (com : Command) (rest : List Command) (ctx : ExecContext) : ExecProg ℤ :=
  startupGateCreate.bind fun (ret, gate) =>
  if ret < 0 then .ret MiniShell_ERR_PIPE
  else (pipelineStages gate (com :: rest) ⟨-1, [], 0⟩).bind fun
    | .error ret => .ret ret
    | .ok s => launchPipeline com ctx gate s

/-- A chain is the list of its commands. -/
def executeCommand (chain : List Command) (ctx : ExecContext) : ExecProg ℤ :=
  match chain with
  | [] => .ret MiniShell_ERR_UNKNOWN
  | com :: rest =>
    (checkJobLimit ctx).bind fun ret =>
    if ret ≠ MiniShell_OK then .ret ret
    else if rest.isEmpty then executeSingle com ctx else executePipeline com rest ctx

end DeviceRuntime
