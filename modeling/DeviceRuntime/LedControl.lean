/-
# The LED driver

`src/led_control.c`: an LED is a directory of sysfs with the attributes
`trigger`, `max_brightness` and `brightness`. What is written is read back.

The functions return a code of `error.h` with the `errno` that is left, which
the log may have changed.

Key definitions: `ledNameValid`, `ledTriggerValid`, `ledBuildPath`,
`ledControlSetOn`, `ledControlSetOff`, `ledControlSetTrigger`.
-/
import DeviceRuntime.Hardware

namespace DeviceRuntime

open HardwareCall

abbrev LED_PATH_SIZE : ℕ := 512
abbrev LED_TRIGGER_BUFFER_SIZE : ℕ := 2048

def LED_SYSFS_BASE : List Byte := text "/sys/class/leds"

/-- `name` is not NULL. -/
def ledNameValid (name : List Byte) : Bool :=
  name ≠ [] && name ≠ text "." && name ≠ text ".." &&
    name.all fun p => !(p = '/'.toUInt8 || p < 0x20 || p = 0x7f)

/-- `trigger` is not NULL. -/
def ledTriggerValid (trigger : List Byte) : Bool :=
  trigger ≠ [] && trigger.all fun p => !(p = '/'.toUInt8 || isspace p || p < 0x20 || p = 0x7f)

/-- The path, or the `errno`. -/
def ledBuildPath (size : ℕ) (name attr : List Byte) : Except ℕ (List Byte) :=
  if size = 0 ∨ !ledNameValid name ∨ attr = [] then .error EINVAL
  else
    let path := LED_SYSFS_BASE ++ '/'.toUInt8 :: name ++ '/'.toUInt8 :: attr
    if path.length ≥ size then .error ENAMETOOLONG else .ok path

/-- What stands in brackets, if it fits. -/
def activeTrigger (buffer : List Byte) (size : ℕ) : Except ℕ (List Byte) :=
  match buffer.dropWhile (· ≠ '['.toUInt8) with
  | [] => .error EIO
  | _ :: inside =>
    let trigger := inside.takeWhile (· ≠ ']'.toUInt8)
    if trigger = inside ∨ trigger = [] then .error EIO
    else if trigger.length ≥ size then .error EOVERFLOW
    else .ok trigger

def ledReadActiveTrigger (name : List Byte) (size : ℕ) : HardwareProg (Except ℕ (List Byte)) := do
  if size = 0 then return .error EINVAL
  match ledBuildPath LED_PATH_SIZE name (text "trigger") with
  | .error errno => return .error errno
  | .ok path =>
    match ← sysfsReadText path LED_TRIGGER_BUFFER_SIZE with
    | .error errno => return .error errno
    | .ok buffer => return activeTrigger buffer size

def ledWriteTrigger (name trigger : List Byte) : HardwareProg CallResult := do
  match ledBuildPath LED_PATH_SIZE name (text "trigger") with
  | .error errno => return ⟨-1, errno⟩
  | .ok path =>
    let written ← sysfsWriteText path trigger
    if written.ret < 0 then return ⟨-1, written.errno⟩
    match ← ledReadActiveTrigger name 64 with
    | .error errno => return ⟨-1, errno⟩
    | .ok actual => return if actual ≠ trigger then ⟨-1, EIO⟩ else ⟨0, 0⟩

def ledReadMaxBrightness (name : List Byte) : HardwareProg (Except ℕ ℤ) := do
  match ledBuildPath LED_PATH_SIZE name (text "max_brightness") with
  | .error errno => return .error errno
  | .ok path =>
    match ← sysfsReadLong path with
    | .error errno => return .error errno
    | .ok value => return if value ≤ 0 then .error EINVAL else .ok value

/-- The number fits the buffer of 32 bytes. -/
def ledWriteBrightness (name : List Byte) (value : ℤ) : HardwareProg CallResult := do
  match ledBuildPath LED_PATH_SIZE name (text "brightness") with
  | .error errno => return ⟨-1, errno⟩
  | .ok path =>
    if (decimalInt value).length ≥ 32 then return ⟨-1, EINVAL⟩
    let written ← sysfsWriteText path (decimalInt value)
    if written.ret < 0 then return ⟨-1, written.errno⟩
    match ← sysfsReadLong path with
    | .error errno => return ⟨-1, errno⟩
    | .ok actual => return if actual ≠ value then ⟨-1, EIO⟩ else ⟨0, 0⟩

/-- `log_error`, then the failure; `errno` is what the log leaves. -/
def ledFailure (format : String) (errno : ℕ) : HardwareProg CallResult := do
  let errno ← hwLogError (text format) errno
  return ⟨MiniShell_ERR_UNKNOWN, errno⟩

/-- `errno`: what it is at the call. -/
def ledControlSetOn (name : List Byte) (errno : ℕ) : HardwareProg CallResult := do
  if !ledNameValid name then return ← ledFailure "invalid LED name" errno
  match ← ledReadMaxBrightness name with
  | .error errno => ledFailure "failed read LED max brightness: %s" errno
  | .ok maxBrightness =>
    let manual ← ledWriteTrigger name (text "none")
    if manual.ret < 0 then return ← ledFailure "failed set LED manual mode: %s" manual.errno
    let on ← ledWriteBrightness name maxBrightness
    if on.ret < 0 then return ← ledFailure "failed turn LED on: %s" on.errno
    return ⟨MiniShell_OK, 0⟩

def ledControlSetOff (name : List Byte) (errno : ℕ) : HardwareProg CallResult := do
  if !ledNameValid name then return ← ledFailure "invalid LED name" errno
  let manual ← ledWriteTrigger name (text "none")
  if manual.ret < 0 then return ← ledFailure "failed set LED manual mode: %s" manual.errno
  let off ← ledWriteBrightness name 0
  if off.ret < 0 then return ← ledFailure "failed turn LED off: %s" off.errno
  return ⟨MiniShell_OK, 0⟩

def ledControlSetTrigger (name trigger : List Byte) (errno : ℕ) : HardwareProg CallResult := do
  if !ledNameValid name ∨ !ledTriggerValid trigger then return ← ledFailure "invalid LED trigger" errno
  let written ← ledWriteTrigger name trigger
  if written.ret < 0 then return ← ledFailure "failed set LED trigger: %s" written.errno
  return ⟨MiniShell_OK, 0⟩

end DeviceRuntime
