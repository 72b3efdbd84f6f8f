/-
# The terminal of the shell

`src/terminal.c` after `terminal_init`: the shell gives its terminal to the
process group of a job, and takes it back together with the modes it had.
The statics of the file do not change while commands run; they are a
`Terminal`.

Key definitions: `Terminal`, `TerminalCall`, `terminalSetForeground`,
`terminalGetModes`, `terminalRestore`.
-/
import DeviceRuntime.Job

namespace DeviceRuntime

/-- The statics; `shellModes` is `none` while they are not valid. -/
structure Terminal where
  initialized : Bool
  shellPgid : ℤ
  shellModes : Option Termios
deriving DecidableEq, Repr

structure ModesResult where
  ret : ℤ
  errno : ℕ
  modes : Termios
deriving DecidableEq, Repr

/-- The calls on `terminal_fd`. -/
inductive TerminalCall
  | tcsetpgrp (pgid : ℤ)
  | tcgetattr
  | tcsetattr (modes : Termios)

abbrev TerminalCall.Ret : TerminalCall → Type
  | .tcsetpgrp _ => CallResult
  | .tcgetattr => ModesResult
  | .tcsetattr _ => CallResult

abbrev TerminalProg := Prog TerminalCall TerminalCall.Ret

def terminalSetPgrp (pgid : ℤ) : TerminalProg ℤ := retry (.call (.tcsetpgrp pgid) .ret)

def terminalSetForeground (t : Terminal) (pgid : ℤ) : TerminalProg ℤ :=
  if !t.initialized then .ret 0
  else if pgid ≤ 0 then .ret (-1)
  else terminalSetPgrp pgid

/-- The result with the modes that are then in the caller's buffer, which held
`modes` before. -/
def terminalGetModes (t : Terminal) (modes : Termios) : TerminalProg (ℤ × Termios) :=
  if !t.initialized then .ret (0, modes)
  else .iter (fun _ => .call .tcgetattr fun r =>
    if r.ret < 0 then if r.errno = EINTR then .ret (.inl ()) else .ret (.inr (-1, modes))
    else .ret (.inr (0, r.modes))) ()

def terminalSetModes (t : Terminal) (modes : Termios) : TerminalProg ℤ :=
  if !t.initialized then .ret 0 else retry (.call (.tcsetattr modes) .ret)

def terminalRestore (t : Terminal) : TerminalProg ℤ :=
  if !t.initialized then .ret 0
  else if t.shellPgid ≤ 0 then .ret (-1)
  else (terminalSetPgrp t.shellPgid).bind fun ret =>
    if ret < 0 then .ret (-1)
    else match t.shellModes with
      | none => .ret 0
      | some modes => (terminalSetModes t modes).bind fun ret => if ret < 0 then .ret (-1) else .ret 0

end DeviceRuntime
