/-
# The loop of the shell

`src/shell.c` from `shell_print_prompt` to `shell_run`, with `event_drain` of
`src/event.c` and `signal_take_events` of `src/sig.c`. The two signals the
shell handles set bits of `pending_events` and write to the event pipe; both
are outside the program, and `signal_take_events` reads and clears the bits
between two calls of `sigprocmask`.

A line is parsed and dispatched by a call that may take any number of steps;
what it leaves in the context is its result.

Key definitions: `ShellCall`, `eventDrain`, `signalTakeEvents`,
`shellReadInput`, `shellEvents`, `shellRun`.
-/
import DeviceRuntime.Lib.Prog
import DeviceRuntime.Libc

namespace DeviceRuntime

abbrev FD_SETSIZE : ℤ := 1024
abbrev SHELL_INPUT_SIZE : ℕ := 4096
abbrev PROMPT_SIZE : ℕ := 128

abbrev SIGNAL_EVENT_NONE : BitVec 32 := 0
abbrev SIGNAL_EVENT_CHILD : BitVec 32 := 1#32 <<< 0
abbrev SIGNAL_EVENT_INTERRUPT : BitVec 32 := 1#32 <<< 1

inductive ShellStatus
  | ok | error
deriving DecidableEq, Repr

/-- The part of the context that the loop works on. `input` is the first
`input_length` bytes of the buffer. -/
structure ShellState where
  running : Bool
  lastExitStatus : ℤ
  prompts : List Byte
  input : List Byte
  discarding : Bool
  fits : input.length < SHELL_INPUT_SIZE
deriving DecidableEq, Repr

/-- What parsing and dispatching a line leaves: the status of the dispatcher
if the line was parsed, and the fields of the context. -/
structure LineResult where
  status : Option ℤ
  lastExitStatus : ℤ
  running : Bool
  prompts : List Byte
deriving DecidableEq, Repr

structure SelectResult where
  ret : ℤ
  errno : ℕ
  eventReady : Bool
  stdinReady : Bool
deriving DecidableEq, Repr

/-- The calls of the shell. `command` is a step of parsing and dispatching a
line; `resetInput` is where the input buffer is emptied. -/
inductive ShellCall
  | fflush
  | write (data : List Byte)
  | fprintf (message : List Byte)
  | select (eventFd : ℤ)
  | readEvent (size : ℕ)
  | readStdin
  | sigBlock
  | sigSetmask (blocked : Bool)
  | loadPending
  | storePending (events : BitVec 32)
  | jobReap
  | jobCleanupDone
  | resetInput
  | command (line : List Byte)

abbrev ShellCall.Ret : ShellCall → Type
  | .fflush => CallResult
  | .write _ => CallResult
  | .fprintf _ => Unit
  | .select _ => SelectResult
  | .readEvent _ => CallResult
  | .readStdin => CallResult × Byte
  | .sigBlock => CallResult × Bool
  | .sigSetmask _ => CallResult
  | .loadPending => BitVec 32
  | .storePending _ => Unit
  | .jobReap => Unit
  | .jobCleanupDone => Unit
  | .resetInput => Unit
  | .command _ => Option LineResult

abbrev ShellProg := Prog ShellCall ShellCall.Ret

/-! ### Input and output -/

def shellNormalizeStatus (status : ℤ) : ℤ := if status < 0 then 1 else status

theorem empty_fits : ([] : List Byte).length < SHELL_INPUT_SIZE := by decide

def shellResetInput (ctx : ShellState) : ShellProg ShellState :=
  .call .resetInput fun _ => .ret { ctx with discarding := false, input := [], fits := empty_fits }

/-- 0, or -1 for a failure that is not `EINTR`. -/
def shellFlushStdout : ShellProg ℤ :=
  .iter (fun _ => .call .fflush fun r =>
    if r.ret = 0 then .ret (.inr 0) else if r.errno = EINTR then .ret (.inl ()) else .ret (.inr (-1))) ()

def shellWriteAll (data : List Byte) : ShellProg ℤ :=
  .iter (fun written =>
    if written < data.length then
      .call (.write (data.drop written)) fun r =>
        if r.ret < 0 then if r.errno = EINTR then .ret (.inl written) else .ret (.inr (-1))
        else if r.ret = 0 then .ret (.inr (-1))
        else .ret (.inl (written + r.ret.toNat))
    else .ret (.inr 0)) 0

def shellPrintPrompt (ctx : ShellState) : ShellProg ℤ :=
  let prompt := text ">>" ++ ctx.prompts ++ text " "
  if prompt.length ≥ PROMPT_SIZE then .ret (-1)
  else shellFlushStdout.bind fun ret => if ret < 0 then .ret (-1) else shellWriteAll prompt

def shellDispatchInput (ctx : ShellState) : ShellProg ShellState := do
  let line := if ctx.input.getLast? = some CR then ctx.input.dropLast else ctx.input
  let r ← (.iter (fun _ => .call (.command line) fun
    | none => .ret (.inl ())
    | some r => .ret (.inr r)) () : ShellProg LineResult)
  shellResetInput { ctx with
    running := r.running
    prompts := r.prompts
    lastExitStatus := match r.status with
      | some status => shellNormalizeStatus status
      | none => r.lastExitStatus }

/-- What `shell_read_input` returns, with `*line_done` and `*eof`. -/
structure InputResult where
  ret : ℤ
  lineDone : Bool
  eof : Bool
  ctx : ShellState

def shellReadInput (ctx : ShellState) : ShellProg InputResult := do
  let (r, ch) ← (.call .readStdin .ret : ShellProg (CallResult × Byte))
  if r.ret < 0 then
    if r.errno = EINTR then return ⟨0, false, false, ctx⟩
    return ⟨-1, false, false, ctx⟩
  if r.ret = 0 then
    if !ctx.discarding && ctx.input.length > 0 then
      let ctx ← shellDispatchInput ctx
      return ⟨0, true, true, ctx⟩
    let ctx ← shellResetInput ctx
    return ⟨0, true, true, ctx⟩
  if ctx.discarding then
    if ch = LF then
      let ctx ← shellResetInput ctx
      return ⟨0, true, false, ctx⟩
    return ⟨0, false, false, ctx⟩
  if ch = LF then
    let ctx ← shellDispatchInput ctx
    return ⟨0, true, false, ctx⟩
  if h : ctx.input.length + 1 < SHELL_INPUT_SIZE then
    return ⟨0, false, false, { ctx with input := ctx.input ++ [ch], fits := by rw [List.length_append]; exact h }⟩
  let _ ← (.call (.fprintf (text "minishell: input line is too long\n")) .ret : ShellProg Unit)
  return ⟨0, false, false, { ctx with lastExitStatus := 2, input := [], discarding := true, fits := by decide }⟩

/-! ### Events -/

/-- The pipe is open while the shell runs. -/
def eventDrain : ShellProg ℤ :=
  .iter (fun _ => .call (.readEvent 64) fun r =>
    if r.ret > 0 then .ret (.inl ())
    else if r.ret = 0 then .ret (.inr (-1))
    else if r.errno = EINTR then .ret (.inl ())
    else if r.errno = EAGAIN ∨ r.errno = EWOULDBLOCK then .ret (.inr 0)
    else .ret (.inr (-1))) ()

def signalTakeEvents : ShellProg (BitVec 32) :=
  .call .sigBlock fun r =>
    if r.1.ret < 0 then .ret SIGNAL_EVENT_NONE
    else .call .loadPending fun events => .call (.storePending SIGNAL_EVENT_NONE) fun _ =>
      .call (.sigSetmask r.2) fun _ => .ret events

def reapChildren (events : BitVec 32) : ShellProg Unit :=
  if events &&& SIGNAL_EVENT_CHILD ≠ 0 then .call .jobReap fun _ => .call .jobCleanupDone .ret else .ret ()

/-- The new prompt and context after an interrupt, `none` for a failure. -/
def interruptInput (events : BitVec 32) (ctx : ShellState) : ShellProg (Option (Bool × ShellState)) :=
  if events &&& SIGNAL_EVENT_INTERRUPT ≠ 0 then
    (shellResetInput ctx).bind fun ctx => shellFlushStdout.bind fun ret =>
      if ret < 0 then .ret none
      else (shellWriteAll [LF]).bind fun ret => if ret < 0 then .ret none else .ret (some (true, ctx))
  else .ret (some (false, ctx))

/-- The part of a turn for a readable event pipe. -/
def shellEvents (ready : Bool) (ctx : ShellState) : ShellProg (Option (Bool × ShellState)) :=
  if ready then
    eventDrain.bind fun ret =>
      if ret < 0 then .ret none
      else signalTakeEvents.bind fun events => (reapChildren events).bind fun _ => interruptInput events ctx
  else .ret (some (false, ctx))

/-! ### The loop -/

def shellPrompt (prompt : Bool) (ctx : ShellState) : ShellProg ℤ :=
  if prompt then shellPrintPrompt ctx else .ret 0

/-- The part of a turn for standard input. -/
def shellInput (ready prompt : Bool) (ctx : ShellState) :
    ShellProg ((Bool × ShellState) ⊕ (ShellStatus × ShellState)) :=
  if !ctx.running then .ret (.inr (.ok, ctx))
  else if ready then
    (shellReadInput ctx).bind fun r =>
      if r.ret < 0 then .ret (.inr (.error, r.ctx))
      else if r.eof then .ret (.inr (.ok, r.ctx))
      else .ret (.inl (prompt || r.lineDone, r.ctx))
  else .ret (.inl (prompt, ctx))

/-- One turn of the loop of `shell_run`, with `prompt`. -/
def shellTurn (eventFd : ℤ) (s : Bool × ShellState) :
    ShellProg ((Bool × ShellState) ⊕ (ShellStatus × ShellState)) :=
  if !s.2.running then .ret (.inr (.ok, s.2))
  else (shellPrompt s.1 s.2).bind fun ret =>
    if ret < 0 then .ret (.inr (.error, s.2))
    else .call (.select eventFd) fun r =>
      if r.ret < 0 then if r.errno = EINTR then .ret (.inl (false, s.2)) else .ret (.inr (.error, s.2))
      else (shellEvents r.eventReady s.2).bind fun
        | none => .ret (.inr (.error, s.2))
        | some (prompt, ctx) => shellInput r.stdinReady prompt ctx

/-- `eventFd` is what `event_getfd` returns. -/
def shellRun (eventFd : ℤ) (ctx : ShellState) : ShellProg (ShellStatus × ShellState) :=
  if eventFd < 0 then .ret (.error, ctx)
  else if eventFd ≥ FD_SETSIZE then .ret (.error, ctx)
  else .iter (shellTurn eventFd) (true, ctx)

end DeviceRuntime
