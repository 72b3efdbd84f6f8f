/-
# The backends

`src/device_backend.c`: the callbacks of the five types of device over the
drivers, and the context that `device_backend_init` prepares. The callbacks of
the serial port are those of `SerialPort`, with its context behind the same
pointer as the others.

The bytes of an `int` are in the order of a little-endian machine.

Key definitions: `backendContext`, `i2cOpen`, `oledControl`, `gpioWrite`,
`ledSet`, `ledControl`, `backend`.
-/
import DeviceRuntime.DeviceManager
import DeviceRuntime.LedControl
import DeviceRuntime.Oled

namespace DeviceRuntime

open HardwareCall

abbrev SSIZE_MAX : ℕ := 9223372036854775807

/-- What `device_backend_init` leaves behind the pointer. -/
def backendContext (config : DeviceConfig) : (type : DeviceType) → BackendContext type
  | .uart => serialPortInit
  | .i2c => i2cBusInit
  | .oled => ⟨i2cBusInit, ⟨false, Vector.replicate OLED_BUFFER_SIZE 0⟩⟩
  | .gpio => gpioLineInit
  | .led => ⟨brightnessPath config.ledName⟩

/-! ### Integers in buffers -/

abbrev INT_SIZE : ℕ := 4

def intBytes (value : ℤ) : List Byte :=
  (List.range INT_SIZE).map fun i => UInt8.ofBitVec ((BitVec.ofInt 32 value).extractLsb' (8 * i) 8)

def intOfBytes (buffer : List Byte) : ℤ :=
  (BitVec.ofNat 32 (buffer.foldr (fun b n => b.toNat + 256 * n) 0)).toInt

/-! ### UART -/

/-- The calls of the serial backend: its port is behind the pointer. -/
def serialCall : (c : SerialCall) → HardwareProg c.Ret
  | .loadPort => .call (HardwareCall.load .uart) .ret
  | .storePort port => .call (HardwareCall.store .uart port) .ret
  | c => .call (HardwareCall.serial c) .ret

/-! ### I2C -/

def i2cOpen (d : Device) : HardwareProg CallResult := do
  let bus ← loadContext .i2c
  let r ← i2cBusOpen bus d.config.path (UInt8.ofNat d.config.address)
  storeContext .i2c r.2
  return r.1

def i2cRead (size : ℕ) : HardwareProg (CallResult × List Byte) := do
  if size > SSIZE_MAX then return (⟨-1, EMSGSIZE⟩, [])
  let bus ← loadContext .i2c
  let r ← i2cBusRead bus size
  if r.1.ret < 0 then return (⟨-1, r.1.errno⟩, r.2)
  return (⟨size, 0⟩, r.2)

def i2cWrite (data : List Byte) : HardwareProg CallResult := do
  if data.length > SSIZE_MAX then return ⟨-1, EMSGSIZE⟩
  let bus ← loadContext .i2c
  let r ← i2cBusWrite bus data
  if r.ret < 0 then return ⟨-1, r.errno⟩
  return ⟨data.length, 0⟩

def i2cClose : HardwareProg CallResult := do
  let bus ← loadContext .i2c
  let bus ← i2cBusClose bus
  storeContext .i2c bus
  return ⟨0, 0⟩

/-! ### OLED -/

def oledOpen (d : Device) : HardwareProg CallResult := do
  let context ← loadContext .oled
  let bus ← i2cBusOpen context.bus d.config.path (UInt8.ofNat d.config.address)
  storeContext .oled { context with bus := bus.2 }
  if bus.1.ret < 0 then return ⟨-1, bus.1.errno⟩
  let display ← oledInit context.display bus.2
  storeContext .oled ⟨bus.2, display.2⟩
  if display.1.ret < 0 then
    let closed ← i2cBusClose bus.2
    storeContext .oled ⟨closed, { display.2 with bus := false }⟩
    return ⟨-1, display.1.errno⟩
  return ⟨0, 0⟩

def oledControl (font : OledFont) (request : DeviceControl) (argument : ControlArgument) :
    HardwareProg CallResult := do
  let context ← loadContext .oled
  match request, argument with
  | .oledClear, _ =>
    storeContext .oled { context with display := oledClear context.display }
    return ⟨0, 0⟩
  | .oledText, .text t =>
    match oledDrawTextUtf8 font context.display t.x t.y t.text with
    | none => undefined
    | some (r, display) =>
      storeContext .oled { context with display := display }
      return r
  | .oledText, _ => return ⟨-1, EINVAL⟩
  | .oledRefresh, _ => oledRefresh context.display context.bus
  | .oledOn, _ => oledDisplayOn context.display context.bus
  | .oledOff, _ => oledDisplayOff context.display context.bus
  | _, _ => return ⟨-1, ENOTSUP⟩

def oledClose : HardwareProg CallResult := do
  let context ← loadContext .oled
  let bus ← i2cBusClose context.bus
  storeContext .oled ⟨bus, { context.display with bus := false }⟩
  return ⟨0, 0⟩

/-! ### GPIO -/

/-- The line of a configuration is requested. -/
def gpioOpenLine (line : GpioLine) (config : DeviceConfig) : HardwareProg (CallResult × GpioLine) :=
  if config.gpioOutput ≠ 0 then gpioLineOpenOutput line config.path config.offset config.initialValue
  else gpioLineOpenInput line config.path config.offset config.bias

def gpioOpen (d : Device) : HardwareProg CallResult := do
  let line ← loadContext .gpio
  let r ← gpioOpenLine line d.config
  storeContext .gpio r.2
  return r.1

def gpioRead (size : ℕ) : HardwareProg (CallResult × List Byte) := do
  if size ≠ INT_SIZE then return (⟨-1, EINVAL⟩, [])
  let line ← loadContext .gpio
  let value ← gpioLineGetValue line
  if value.1.ret < 0 then return (⟨-1, value.1.errno⟩, [])
  return (⟨INT_SIZE, 0⟩, intBytes value.2)

def gpioWrite (d : Device) (data : List Byte) : HardwareProg CallResult := do
  if data.length ≠ INT_SIZE then return ⟨-1, EINVAL⟩
  if d.config.gpioOutput = 0 then return ⟨-1, ENOTSUP⟩
  let line ← loadContext .gpio
  let set ← gpioLineSetValue line (intOfBytes data)
  if set.ret < 0 then return ⟨-1, set.errno⟩
  return ⟨INT_SIZE, 0⟩

def gpioClose : HardwareProg CallResult := do
  let line ← loadContext .gpio
  let line ← gpioLineClose line
  storeContext .gpio line
  return ⟨0, 0⟩

/-! ### LED -/

def ledOpen : HardwareProg CallResult := do
  let context ← loadContext .led
  match ← sysfsReadLong context.brightnessPath with
  | .error errno => return ⟨-1, errno⟩
  | .ok _ => return ⟨0, 0⟩

def ledRead (size : ℕ) : HardwareProg (CallResult × List Byte) := do
  if size ≠ INT_SIZE then return (⟨-1, EINVAL⟩, [])
  let context ← loadContext .led
  match ← sysfsReadLong context.brightnessPath with
  | .error errno => return (⟨-1, errno⟩, [])
  | .ok brightness => return (⟨INT_SIZE, 0⟩, intBytes (if brightness ≠ 0 then 1 else 0))

/-- The result of a function of `led_control.c`: a failure that leaves no
`errno` is `EIO`. -/
def ledResult (result : CallResult) : CallResult :=
  if result.ret ≠ 0 then ⟨-1, if result.errno = 0 then EIO else result.errno⟩ else ⟨0, 0⟩

def ledSet (d : Device) (value : ℤ) : HardwareProg CallResult := do
  if value = 1 then return ledResult (← ledControlSetOn d.config.ledName 0)
  if value = 0 then return ledResult (← ledControlSetOff d.config.ledName 0)
  return ⟨-1, EINVAL⟩

def ledWrite (d : Device) (data : List Byte) : HardwareProg CallResult := do
  if data.length ≠ INT_SIZE then return ⟨-1, EINVAL⟩
  let set ← ledSet d (intOfBytes data)
  if set.ret < 0 then return ⟨-1, set.errno⟩
  return ⟨INT_SIZE, 0⟩

def ledControl (d : Device) (request : DeviceControl) (argument : ControlArgument) : HardwareProg CallResult := do
  match request, argument with
  | .ledOn, _ => ledSet d 1
  | .ledOff, _ => ledSet d 0
  | .ledTrigger, .trigger name => return ledResult (← ledControlSetTrigger d.config.ledName name 0)
  | .ledTrigger, _ => return ⟨-1, EINVAL⟩
  | _, _ => return ⟨-1, ENOTSUP⟩

/-! ### The tables -/

/-- The table of a type. A pointer that is NULL there is never called. -/
def hardwareBackend (font : OledFont) : DeviceType → (c : DeviceCall) → HardwareProg c.Ret
  | .uart, c => (uartBackend c).link serialCall
  | .i2c, .backendOpen d => i2cOpen d
  | .i2c, .backendRead _ size => i2cRead size
  | .i2c, .backendWrite _ data => i2cWrite data
  | .i2c, .backendClose _ => i2cClose
  | .i2c, .backendDestroy _ => i2cClose.bind fun _ => .call (HardwareCall.serial .free) .ret
  | .oled, .backendOpen d => oledOpen d
  | .oled, .backendControl _ request argument => oledControl font request argument
  | .oled, .backendClose _ => oledClose
  | .oled, .backendDestroy _ => oledClose.bind fun _ => .call (HardwareCall.serial .free) .ret
  | .gpio, .backendOpen d => gpioOpen d
  | .gpio, .backendRead _ size => gpioRead size
  | .gpio, .backendWrite d data => gpioWrite d data
  | .gpio, .backendClose _ => gpioClose
  | .gpio, .backendDestroy _ => gpioClose.bind fun _ => .call (HardwareCall.serial .free) .ret
  | .led, .backendOpen _ => ledOpen
  | .led, .backendRead _ size => ledRead size
  | .led, .backendWrite d data => ledWrite d data
  | .led, .backendControl d request argument => ledControl d request argument
  | .led, .backendClose _ => .ret ⟨0, 0⟩
  | .led, .backendDestroy _ => .call (HardwareCall.serial .free) .ret
  | _, .clockGettime => .call (HardwareCall.serial .clockGettime) .ret
  | _, .backendRead _ _ => .ret (⟨-1, ENOTSUP⟩, [])
  | _, .backendWrite _ _ => .ret ⟨-1, ENOTSUP⟩
  | _, .backendControl _ _ _ => .ret ⟨-1, ENOTSUP⟩

/-- A function of the device layer on a device of this type. -/
def onHardware (font : OledFont) (type : DeviceType) {α : Type} (p : DeviceProg α) : HardwareProg α :=
  p.link (hardwareBackend font type)

end DeviceRuntime
