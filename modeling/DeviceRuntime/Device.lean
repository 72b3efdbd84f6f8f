/-
# The device layer

`src/device.c`: a device is a configuration, a table of backend callbacks and
the three fields the layer keeps, `state`, `opened` and `lastErrno`. The
callbacks are outside: calling one is a call of the program, answered with a
return value and the `errno` it left. A function returns its value, `errno`
and the device as it leaves it.

A pointer to a device or a configuration is the value it points to; which
callbacks of a table are NULL is part of the table.

Key definitions: `Device`, `DeviceCall`, `deviceOpen`, `deviceRead`,
`deviceWrite`, `deviceControl`, `deviceClose`, `deviceDestroy`.
-/
import DeviceRuntime.Lib.Prog
import DeviceRuntime.Libc

namespace DeviceRuntime

abbrev DEVICE_NAME_SIZE : ℕ := 64
abbrev DEVICE_PATH_SIZE : ℕ := 256
abbrev DEVICE_MAX_COUNT : ℕ := 16

inductive DeviceType
  | uart | i2c | oled | gpio | led
deriving DecidableEq, Repr

inductive DeviceState
  | closed | opened | error | disabled
deriving DecidableEq, Repr

/-- `DeviceConfig`. An array of characters is the string in it, of the full
length of the array where it has no NUL. -/
structure DeviceConfig where
  name : List Byte
  type : DeviceType
  path : List Byte
  enabled : ℤ
  baudrate : ℤ
  address : ℕ
  offset : ℕ
  gpioOutput : ℤ
  initialValue : ℤ
  bias : ℤ
  ledName : List Byte
deriving DecidableEq, Repr

/-- Which of the static tables of `device_backend.c` a table is, or a caller's. -/
inductive OpsTable
  | uartOps | i2cOps | oledOps | gpioOps | ledOps | caller (id : ℕ)
deriving DecidableEq, Repr

/-- `DeviceOps`: the table and which of its pointers are set. -/
structure DeviceOps where
  table : OpsTable
  hasOpen : Bool
  hasRead : Bool
  hasWrite : Bool
  hasControl : Bool
  hasClose : Bool
  hasDestroy : Bool
deriving DecidableEq, Repr

structure Device where
  config : DeviceConfig
  ops : Option DeviceOps
  context : Option ℕ
  state : DeviceState
  opened : ℤ
  lastErrno : ℕ
deriving DecidableEq, Repr

inductive DeviceControl
  | uartWait | uartWriteAll | uartFlush
  | oledClear | oledText | oledRefresh | oledOn | oledOff
  | ledOn | ledOff | ledTrigger
deriving DecidableEq, Repr

structure DeviceWriteRequest where
  data : List Byte
  timeoutMs : ℤ
deriving DecidableEq, Repr

structure DeviceText where
  x : ℤ
  y : ℤ
  text : List Byte
deriving DecidableEq, Repr

/-- What the `void *` of `device_control` points to. `null`: it is NULL, or the
pointer to the data in what it points to is. -/
inductive ControlArgument
  | null
  | timeout (ms : ℤ)
  | write (request : DeviceWriteRequest)
  | text (t : DeviceText)
  | trigger (name : List Byte)
deriving DecidableEq, Repr

/-- The calls the layer makes: the callbacks of a device, and the clock. -/
inductive DeviceCall
  | backendOpen (d : Device)
  | backendRead (d : Device) (size : ℕ)
  | backendWrite (d : Device) (data : List Byte)
  | backendControl (d : Device) (request : DeviceControl) (argument : ControlArgument)
  | backendClose (d : Device)
  | backendDestroy (d : Device)
  | clockGettime
deriving DecidableEq, Repr

/-- `clock_gettime`: the time, or the `errno` of a failure. -/
structure Timespec where
  sec : ℤ
  nsec : ℤ
deriving DecidableEq, Repr

abbrev DeviceCall.Ret : DeviceCall → Type
  | .backendOpen _ => CallResult
  | .backendRead _ _ => CallResult × List Byte
  | .backendWrite _ _ => CallResult
  | .backendControl _ _ _ => CallResult
  | .backendClose _ => CallResult
  | .backendDestroy _ => Unit
  | .clockGettime => Except ℕ Timespec

abbrev DeviceProg := Prog DeviceCall DeviceCall.Ret

namespace DeviceCall

def callOpen (d : Device) : DeviceProg CallResult := .call (DeviceCall.backendOpen d) .ret
def callRead (d : Device) (size : ℕ) : DeviceProg (CallResult × List Byte) :=
  .call (DeviceCall.backendRead d size) .ret
def callWrite (d : Device) (data : List Byte) : DeviceProg CallResult := .call (DeviceCall.backendWrite d data) .ret
def callControl (d : Device) (request : DeviceControl) (argument : ControlArgument) :
    DeviceProg CallResult := .call (DeviceCall.backendControl d request argument) .ret
def callClose (d : Device) : DeviceProg CallResult := .call (DeviceCall.backendClose d) .ret
def callDestroy (d : Device) : DeviceProg Unit := .call (DeviceCall.backendDestroy d) .ret
def callClock : DeviceProg (Except ℕ Timespec) := .call DeviceCall.clockGettime .ret

end DeviceCall

open DeviceCall

/-- What a function of the layer returns, with the device it leaves. -/
structure DeviceResult where
  ret : ℤ
  errno : ℕ
  device : Device
deriving DecidableEq, Repr

/-- `errno` is set and `device_failure` returns. -/
def deviceFailure (d : Device) (errno : ℕ) : DeviceResult :=
  ⟨-1, errno, { d with lastErrno := errno }⟩

/-- The errors that leave a device usable. -/
def transientErrno (errno : ℕ) : Bool :=
  errno = EAGAIN || errno = EINTR || errno = ETIMEDOUT || errno = EINVAL || errno = ENOTSUP ||
    errno = EPROTO || errno = EMSGSIZE || errno = EBUSY

/-- `device_result`, after a callback returned `r`. -/
def deviceResult (d : Device) (r : CallResult) : Device :=
  if ¬ r.ret < 0 then
    { d with lastErrno := 0, state := if d.opened ≠ 0 then .opened else .closed }
  else if transientErrno r.errno then { d with lastErrno := r.errno }
  else { d with lastErrno := r.errno, state := .error }

/-- The return value of the function that called the callback. -/
def deviceReturn (d : Device) (r : CallResult) : DeviceResult := ⟨r.ret, r.errno, deviceResult d r⟩

/-- `device_ready`: `none` when the device may be used, the failure otherwise. -/
def deviceReady (d : Device) : Option DeviceResult :=
  if d.ops = none then some (deviceFailure d EINVAL)
  else if d.config.enabled = 0 then some (deviceFailure d EACCES)
  else if d.opened = 0 then some (deviceFailure d EBADF)
  else if d.state = .error then
    some (deviceFailure d (if d.lastErrno ≠ 0 then d.lastErrno else EIO))
  else none

/-- `config` is `none` for a NULL pointer: the fields are those `memset` leaves. -/
def deviceInit (config : Option DeviceConfig) (ops : Option DeviceOps) (context : Option ℕ) : Device :=
  let c := config.getD ⟨[], .uart, [], 0, 0, 0, 0, 0, 0, 0, []⟩
  { config := c, ops := ops, context := context
    state := if c.enabled ≠ 0 then .closed else .disabled, opened := 0, lastErrno := 0 }

def deviceOpen (d : Device) : DeviceProg DeviceResult := do
  if d.ops.all fun ops => !ops.hasOpen then return deviceFailure d EINVAL
  if d.config.enabled = 0 then return deviceFailure d EACCES
  if d.opened ≠ 0 then
    if d.state = .error then return deviceFailure d EBUSY
    return ⟨0, 0, { d with lastErrno := 0 }⟩
  let r ← callOpen d
  return deviceReturn (if r.ret = 0 then { d with opened := 1 } else d) r

/-- `buffer`: the pointer is not NULL. -/
def deviceRead (d : Device) (buffer : Bool) (size : ℕ) : DeviceProg (DeviceResult × List Byte) := do
  if let some failure := deviceReady d then return (failure, [])
  if !buffer || size = 0 then return (deviceFailure d EINVAL, [])
  if d.ops.all fun ops => !ops.hasRead then return (deviceFailure d ENOTSUP, [])
  let r ← callRead d size
  return (deviceReturn d r.1, r.2)

/-- `buffer` is `none` for a NULL pointer. -/
def deviceWrite (d : Device) (buffer : Option (List Byte)) : DeviceProg DeviceResult := do
  if let some failure := deviceReady d then return failure
  match buffer with
  | none => return deviceFailure d EINVAL
  | some data =>
    if data.length = 0 then return deviceFailure d EINVAL
    if d.ops.all fun ops => !ops.hasWrite then return deviceFailure d ENOTSUP
    let r ← callWrite d data
    return deviceReturn d r

def deviceControl (d : Device) (request : DeviceControl) (argument : ControlArgument) :
    DeviceProg DeviceResult := do
  if let some failure := deviceReady d then return failure
  if d.ops.all fun ops => !ops.hasControl then return deviceFailure d ENOTSUP
  let r ← callControl d request argument
  return deviceReturn d r

def deviceClose (d : Device) : DeviceProg DeviceResult := do
  if d.ops = none then return deviceFailure d EINVAL
  if d.opened = 0 then
    return ⟨0, 0, { d with state := if d.config.enabled ≠ 0 then .closed else .disabled,
                           lastErrno := 0 }⟩
  if d.ops.all fun ops => !ops.hasClose then return deviceFailure d ENOTSUP
  let r ← callClose d
  return deviceReturn (if r.ret = 0 then { d with opened := 0 } else d) r

/-- `device_destroy`: close and let the backend release the context. The
device is then all zero, which no caller reads. -/
def deviceDestroy (d : Device) : DeviceProg Unit := do
  if d.ops.isSome then
    let r ← deviceClose d
    if r.device.ops.any (·.hasDestroy) then callDestroy r.device

theorem deviceFailure_ret (d : Device) (e : ℕ) : (deviceFailure d e).ret < 0 := by
  show (-1 : ℤ) < 0
  decide

theorem deviceReady_failure {d : Device} {f : DeviceResult} (h : deviceReady d = some f) :
    ∃ e, f = deviceFailure d e := by
  unfold deviceReady at h
  split_ifs at h <;> exact ⟨_, (Option.some.inj h).symm⟩

/-! ### The calls of a device that may be used -/

theorem deviceControl_ready {d : Device} (h : deviceReady d = none)
    (hc : d.ops.all (fun ops => !ops.hasControl) = false) (request : DeviceControl)
    (argument : ControlArgument) : deviceControl d request argument =
      .call (.backendControl d request argument) fun r => .ret (deviceReturn d r) := by
  simp [deviceControl, h, hc, callControl]

theorem deviceRead_ready {d : Device} (h : deviceReady d = none)
    (hr : d.ops.all (fun ops => !ops.hasRead) = false) {size : ℕ} (hs : size ≠ 0) :
    deviceRead d true size =
      .call (.backendRead d size) fun r => .ret (deviceReturn d r.1, r.2) := by
  simp [deviceRead, h, hr, callRead, hs]

theorem deviceReady_eq_none {d : Device} : deviceReady d = none ↔
    d.ops ≠ none ∧ d.config.enabled ≠ 0 ∧ d.opened ≠ 0 ∧ d.state ≠ .error := by
  unfold deviceReady
  split_ifs <;> simp_all

end DeviceRuntime
