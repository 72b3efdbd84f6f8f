/-
# Bus, line and attribute files

`src/i2c_bus.c`, `src/gpio_line.c` and `src/sysfs_io.c` over the system calls
they make. What stands behind `device->context` depends on the type of the
device; it is loaded and stored by calls of its own. The calls of the serial
port are those of `SerialPort`.

A pointer to a bus or a line is the value it points to, and the buffers are
there by type, so the tests for NULL have no branch here. `i2c_bus_probe` is
left out: nothing modelled calls it. `sysfs_read_ulong` is in `SysfsNumbers`.

Key definitions: `HardwareCall`, `I2cBus`, `i2cBusOpen`, `i2cBusWrite`,
`GpioLine`, `gpioBiasFlags`, `gpioLineRequest`, `sysfsReadText`,
`sysfsReadCleared`, `sysfsReadLong`, `sysfsReadUll`, `sysfsWriteText`.
-/
import Mathlib.Data.List.DropRight
import DeviceRuntime.SerialPort

namespace DeviceRuntime

abbrev OLED_WIDTH : ℕ := 128
abbrev OLED_HEIGHT : ℕ := 64
abbrev OLED_BUFFER_SIZE : ℕ := OLED_WIDTH * OLED_HEIGHT / 8

structure I2cBus where
  fd : ℤ
  address : UInt8
deriving DecidableEq, Repr

/-- `bus`: the pointer to the bus is not NULL. -/
structure Oled where
  bus : Bool
  buffer : Vector Byte OLED_BUFFER_SIZE
deriving DecidableEq, Repr

structure OledContext where
  bus : I2cBus
  display : Oled
deriving DecidableEq, Repr

structure GpioLine where
  fd : ℤ
deriving DecidableEq, Repr

structure LedContext where
  brightnessPath : List Byte
deriving DecidableEq, Repr

/-- What `device->context` points to. -/
abbrev BackendContext : DeviceType → Type
  | .uart => SerialPort
  | .i2c => I2cBus
  | .oled => OledContext
  | .gpio => GpioLine
  | .led => LedContext

/-! ### System calls -/

inductive AccessMode
  | rdonly | wronly | rdwr
deriving DecidableEq, Repr

/-- `struct gpiohandle_request`, for one line. -/
structure GpiohandleRequest where
  lineoffset : ℕ
  flags : ℕ
  defaultValue : ℤ
deriving DecidableEq, Repr

/-- Every `open` is with `O_CLOEXEC`. `serial` has the calls of `SerialPort`,
with the clock and the heap. `logError` is `log_error` with its format and the
`errno` it is called with. After `overflow`, of an `int`, nothing is defined. -/
inductive HardwareCall
  | load (type : DeviceType)
  | store (type : DeviceType) (context : BackendContext type)
  | serial (c : SerialCall)
  | open (path : List Byte) (mode : AccessMode)
  | close (fd : ℤ)
  | read (fd : ℤ) (size : ℕ)
  | write (fd : ℤ) (data : List Byte)
  | i2cSlave (fd : ℤ) (address : UInt8)
  | getLinehandle (fd : ℤ) (request : GpiohandleRequest)
  | getLineValues (fd : ℤ)
  | setLineValues (fd : ℤ) (value : ℤ)
  | logError (format : List Byte) (errno : ℕ)
  | overflow

/-- `getLinehandle` leaves a descriptor, `getLineValues` a value and `logError`
an `errno`. -/
abbrev HardwareCall.Ret : HardwareCall → Type
  | .load type => BackendContext type
  | .store _ _ => Unit
  | .serial c => c.Ret
  | .open _ _ => CallResult
  | .close _ => CallResult
  | .read _ _ => CallResult × List Byte
  | .write _ _ => CallResult
  | .i2cSlave _ _ => CallResult
  | .getLinehandle _ _ => CallResult × ℤ
  | .getLineValues _ => CallResult × Byte
  | .setLineValues _ _ => CallResult
  | .logError _ _ => ℕ
  | .overflow => Empty

abbrev HardwareProg := Prog HardwareCall HardwareCall.Ret

namespace HardwareCall

def loadContext (type : DeviceType) : HardwareProg (BackendContext type) := .call (HardwareCall.load type) .ret
def storeContext (type : DeviceType) (context : BackendContext type) : HardwareProg Unit :=
  .call (HardwareCall.store type context) .ret
def hwOpen (path : List Byte) (mode : AccessMode) : HardwareProg CallResult :=
  .call (HardwareCall.open path mode) .ret
def hwClose (fd : ℤ) : HardwareProg CallResult := .call (HardwareCall.close fd) .ret
def hwRead (fd : ℤ) (size : ℕ) : HardwareProg (CallResult × List Byte) := .call (HardwareCall.read fd size) .ret
def hwWrite (fd : ℤ) (data : List Byte) : HardwareProg CallResult := .call (HardwareCall.write fd data) .ret
def hwI2cSlave (fd : ℤ) (address : UInt8) : HardwareProg CallResult :=
  .call (HardwareCall.i2cSlave fd address) .ret
def hwGetLinehandle (fd : ℤ) (request : GpiohandleRequest) : HardwareProg (CallResult × ℤ) :=
  .call (HardwareCall.getLinehandle fd request) .ret
def hwGetLineValues (fd : ℤ) : HardwareProg (CallResult × Byte) := .call (HardwareCall.getLineValues fd) .ret
def hwSetLineValues (fd value : ℤ) : HardwareProg CallResult := .call (HardwareCall.setLineValues fd value) .ret
def undefined {α : Type} : HardwareProg α := .call HardwareCall.overflow fun e => e.elim
def hwLogError (format : List Byte) (errno : ℕ) : HardwareProg ℕ := .call (HardwareCall.logError format errno) .ret

end HardwareCall

open HardwareCall

/-! ### The I2C bus -/

def i2cBusInit : I2cBus := ⟨-1, 0⟩

def i2cBusOpen (bus : I2cBus) (devicePath : List Byte) (address : UInt8) : HardwareProg (CallResult × I2cBus) := do
  if devicePath = [] ∨ address > 0x7F then return (⟨-1, EINVAL⟩, bus)
  if bus.fd ≥ 0 then return (⟨-1, EBUSY⟩, bus)
  let fd ← hwOpen devicePath .rdwr
  if fd.ret < 0 then return (⟨-1, fd.errno⟩, bus)
  let slave ← hwI2cSlave fd.ret address
  if slave.ret < 0 then
    let _ ← hwClose fd.ret
    return (⟨-1, slave.errno⟩, bus)
  return (⟨0, 0⟩, ⟨fd.ret, address⟩)

def i2cBusWrite (bus : I2cBus) (data : List Byte) : HardwareProg CallResult := do
  if bus.fd < 0 then return ⟨-1, EINVAL⟩
  .iter (fun _ => do
    let ret ← hwWrite bus.fd data
    if ret.ret < 0 ∧ ret.errno = EINTR then return .inl ()
    if ret.ret < 0 then return .inr ⟨-1, ret.errno⟩
    if ret.ret ≠ data.length then return .inr ⟨-1, EIO⟩
    return .inr ⟨0, 0⟩) ()

def i2cBusRead (bus : I2cBus) (size : ℕ) : HardwareProg (CallResult × List Byte) := do
  if bus.fd < 0 then return (⟨-1, EINVAL⟩, [])
  .iter (fun _ => do
    let ret ← hwRead bus.fd size
    if ret.1.ret < 0 ∧ ret.1.errno = EINTR then return .inl ()
    if ret.1.ret < 0 then return .inr (⟨-1, ret.1.errno⟩, [])
    if ret.1.ret ≠ size then return .inr (⟨-1, EIO⟩, ret.2)
    return .inr (⟨0, 0⟩, ret.2)) ()

def i2cBusClose (bus : I2cBus) : HardwareProg I2cBus := do
  if bus.fd ≥ 0 then
    let _ ← hwClose bus.fd
  return ⟨-1, 0⟩

/-! ### GPIO lines -/

abbrev GPIOHANDLE_REQUEST_INPUT : ℕ := 1
abbrev GPIOHANDLE_REQUEST_OUTPUT : ℕ := 2
abbrev GPIOHANDLE_REQUEST_BIAS_PULL_UP : ℕ := 32
abbrev GPIOHANDLE_REQUEST_BIAS_PULL_DOWN : ℕ := 64
abbrev GPIOHANDLE_REQUEST_BIAS_DISABLE : ℕ := 128

/-- `none` is the failure with `EINVAL`. -/
def gpioBiasFlags (bias : ℤ) : Option ℕ :=
  if bias = 0 then some 0
  else if bias = 1 then some GPIOHANDLE_REQUEST_BIAS_PULL_UP
  else if bias = 2 then some GPIOHANDLE_REQUEST_BIAS_PULL_DOWN
  else if bias = 3 then some GPIOHANDLE_REQUEST_BIAS_DISABLE
  else none

def gpioLineInit : GpioLine := ⟨-1⟩

def gpioLineRequest (line : GpioLine) (chipPath : List Byte) (offset flags : ℕ) (defaultValue : ℤ) :
    HardwareProg (CallResult × GpioLine) := do
  if chipPath = [] then return (⟨-1, EINVAL⟩, line)
  if line.fd ≥ 0 then return (⟨-1, EBUSY⟩, line)
  let chip ← hwOpen chipPath .rdonly
  if chip.ret < 0 then return (⟨-1, chip.errno⟩, line)
  let request ← hwGetLinehandle chip.ret ⟨offset, flags, if defaultValue ≠ 0 then 1 else 0⟩
  if request.1.ret < 0 then
    let _ ← hwClose chip.ret
    return (⟨-1, request.1.errno⟩, line)
  let closed ← hwClose chip.ret
  if closed.ret < 0 then
    let _ ← hwClose request.2
    return (⟨-1, closed.errno⟩, line)
  return (⟨0, 0⟩, ⟨request.2⟩)

def gpioLineOpenInput (line : GpioLine) (chipPath : List Byte) (offset : ℕ) (bias : ℤ) :
    HardwareProg (CallResult × GpioLine) :=
  match gpioBiasFlags bias with
  | none => .ret (⟨-1, EINVAL⟩, line)
  | some flags => gpioLineRequest line chipPath offset (GPIOHANDLE_REQUEST_INPUT ||| flags) 0

def gpioLineOpenOutput (line : GpioLine) (chipPath : List Byte) (offset : ℕ) (initialValue : ℤ) :
    HardwareProg (CallResult × GpioLine) :=
  if initialValue ≠ 0 ∧ initialValue ≠ 1 then .ret (⟨-1, EINVAL⟩, line)
  else gpioLineRequest line chipPath offset GPIOHANDLE_REQUEST_OUTPUT initialValue

/-- The value that is read. -/
def gpioLineGetValue (line : GpioLine) : HardwareProg (CallResult × ℤ) := do
  if line.fd < 0 then return (⟨-1, EINVAL⟩, 0)
  let data ← hwGetLineValues line.fd
  if data.1.ret < 0 then return (⟨-1, data.1.errno⟩, 0)
  return (⟨0, 0⟩, if data.2 ≠ 0 then 1 else 0)

def gpioLineSetValue (line : GpioLine) (value : ℤ) : HardwareProg CallResult := do
  if line.fd < 0 ∨ (value ≠ 0 ∧ value ≠ 1) then return ⟨-1, EINVAL⟩
  hwSetLineValues line.fd value

def gpioLineClose (line : GpioLine) : HardwareProg GpioLine := do
  if line.fd ≥ 0 then
    let _ ← hwClose line.fd
    return ⟨-1⟩
  return line

/-! ### Attributes of sysfs -/

/-- One turn of the loop of `sysfs_read_text`, with what is in the buffer. -/
def sysfsReadTurn (fd : ℤ) (size : ℕ) (buffer : List Byte) :
    HardwareProg (List Byte ⊕ Except ℕ (List Byte)) := do
  if ¬ buffer.length < size - 1 then return .inr (.ok buffer)
  let count ← hwRead fd (size - buffer.length - 1)
  if count.1.ret < 0 then
    if count.1.errno = EINTR then return .inl buffer
    let _ ← hwClose fd
    return .inr (.error count.1.errno)
  if count.1.ret = 0 then return .inr (.ok buffer)
  return .inl (buffer ++ count.2)

/-- The string that is left in the buffer, or the `errno`. -/
def sysfsReadText (path : List Byte) (size : ℕ) : HardwareProg (Except ℕ (List Byte)) := do
  if size < 2 then return .error EINVAL
  let fd ← hwOpen path .rdonly
  if fd.ret < 0 then return .error fd.errno
  match ← Prog.iter (sysfsReadTurn fd.ret size) [] with
  | .error errno => return .error errno
  | .ok buffer =>
    let closed ← hwClose fd.ret
    if closed.ret < 0 then return .error closed.errno
    return .ok (cstr (buffer.rdropWhile fun c => c = LF || c = CR))

def sysfsReadLong (path : List Byte) : HardwareProg (Except ℕ ℤ) := do
  match ← sysfsReadText path 64 with
  | .error errno => return .error errno
  | .ok buffer =>
    let result := strtol buffer
    if result.erange ∨ result.rest = buffer ∨ result.rest ≠ [] then return .error EINVAL
    return .ok result.number

/-- `sysfs_read_text` into a buffer of zeros for a caller that does not look at
the result: the string in the buffer, also after a failure. -/
def sysfsReadCleared (path : List Byte) (size : ℕ) : HardwareProg (List Byte) := do
  if size < 2 then return []
  let fd ← hwOpen path .rdonly
  if fd.ret < 0 then return []
  let read ← Prog.iter (fun buffer => do
    if ¬ buffer.length < size - 1 then return .inr (true, buffer)
    let count ← hwRead fd.ret (size - buffer.length - 1)
    if count.1.ret < 0 then
      if count.1.errno = EINTR then return .inl buffer
      let _ ← hwClose fd.ret
      return .inr (false, buffer)
    if count.1.ret = 0 then return .inr (true, buffer)
    return .inl (buffer ++ count.2)) []
  if !read.1 then return cstr read.2
  let closed ← hwClose fd.ret
  if closed.ret < 0 then return cstr read.2
  return cstr (read.2.rdropWhile fun c => c = LF || c = CR)

def sysfsReadUll (path : List Byte) : HardwareProg (Except ℕ ℕ) := do
  match ← sysfsReadText path 64 with
  | .error errno => return .error errno
  | .ok buffer =>
    if buffer.head? = some '-'.toUInt8 then return .error EINVAL
    let result := strtoull buffer
    if result.erange ∨ result.rest = buffer ∨ result.rest ≠ [] then return .error EINVAL
    return .ok result.parsed

def sysfsWriteText (path value : List Byte) : HardwareProg CallResult := do
  if value = [] then return ⟨-1, EINVAL⟩
  let fd ← hwOpen path .wronly
  if fd.ret < 0 then return ⟨-1, fd.errno⟩
  let written ← Prog.iter (fun _ => do
    let written ← hwWrite fd.ret value
    if written.ret < 0 ∧ written.errno = EINTR then return .inl ()
    return .inr written) ()
  if written.ret < 0 ∨ written.ret ≠ value.length then
    let _ ← hwClose fd.ret
    return ⟨-1, if written.ret < 0 then written.errno else EIO⟩
  let closed ← hwClose fd.ret
  if closed.ret < 0 then return ⟨-1, closed.errno⟩
  return ⟨0, 0⟩

end DeviceRuntime
