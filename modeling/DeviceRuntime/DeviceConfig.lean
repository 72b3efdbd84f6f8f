/-
# The device configuration file

`src/device_config.c`: the defaults and the validation of a configuration, and
the loader of the file with one section for each device. A section is checked
when the next one starts or the file ends, so its keys are taken before its
type is known; `fields` has a bit for each key that was seen.

A file is its bytes, with how reading and closing it end. The result of the
loader is its return value, `errno` and the list as it leaves it.

Key definitions: `deviceConfigInit`, `deviceConfigValidate`, `configField`,
`configSectionValidate`, `configReadLine`, `configLine`, `deviceConfigLoad`.
-/
import Mathlib.Data.List.DropRight
import DeviceRuntime.Device

namespace DeviceRuntime

abbrev DEVICE_CONFIG_LINE_SIZE : ℕ := 512
abbrev UINT_MAX : ℕ := 4294967295

abbrev CONFIG_TYPE : BitVec 32 := 1#32 <<< 0
abbrev CONFIG_PATH : BitVec 32 := 1#32 <<< 1
abbrev CONFIG_ENABLED : BitVec 32 := 1#32 <<< 2
abbrev CONFIG_BAUDRATE : BitVec 32 := 1#32 <<< 3
abbrev CONFIG_ADDRESS : BitVec 32 := 1#32 <<< 4
abbrev CONFIG_OFFSET : BitVec 32 := 1#32 <<< 5
abbrev CONFIG_DIRECTION : BitVec 32 := 1#32 <<< 6
abbrev CONFIG_BIAS : BitVec 32 := 1#32 <<< 7
abbrev CONFIG_INITIAL : BitVec 32 := 1#32 <<< 8
abbrev CONFIG_LED_NAME : BitVec 32 := 1#32 <<< 9

/-- At most `DEVICE_MAX_COUNT` configurations. -/
structure DeviceConfigList where
  devices : List DeviceConfig
  count_le : devices.length ≤ DEVICE_MAX_COUNT
deriving DecidableEq, Repr

def configNameValid (name : List Byte) : Bool :=
  name ≠ [] && name.all fun p => isalnum p || p = '_'.toUInt8 || p = '-'.toUInt8

def configLedNameValid (name : List Byte) : Bool :=
  name ≠ [] && name ≠ text "." && name ≠ text ".." &&
    name.all fun p => !(p = '/'.toUInt8 || isspace p || p < 0x20 || p = 0x7f)

def deviceConfigInit : DeviceConfig := ⟨[], .uart, [], 1, 115200, 0, 0, 0, 0, 0, []⟩

/-- `false`: -1 with `EINVAL`. The strings end within their arrays. -/
def deviceConfigValidate (config : DeviceConfig) : Bool :=
  if config.name.length ≥ DEVICE_NAME_SIZE ∨ config.path.length ≥ DEVICE_PATH_SIZE ∨
      config.ledName.length ≥ DEVICE_NAME_SIZE then false
  else if !configNameValid config.name ∨ (config.enabled ≠ 0 ∧ config.enabled ≠ 1) then false
  else if config.type = .led then configLedNameValid config.ledName
  else if config.path.getD 0 0 ≠ '/'.toUInt8 ∨ config.path.getD 1 0 = 0 then false
  else if config.type = .uart then
    config.baudrate ∈ ([9600, 19200, 38400, 57600, 115200, 230400] : List ℤ)
  else if (config.type = .i2c ∨ config.type = .oled) ∧ (config.address < 0x03 ∨ config.address > 0x77) then
    false
  else if config.type = .gpio ∧ ((config.gpioOutput ≠ 0 ∧ config.gpioOutput ≠ 1) ∨
      (config.initialValue ≠ 0 ∧ config.initialValue ≠ 1) ∨ config.bias < 0 ∨ config.bias > 3 ∨
      (config.gpioOutput ≠ 0 ∧ config.bias ≠ 0)) then false
  else true

def configTrim (text : List Byte) : List Byte := (text.dropWhile isspace).rdropWhile isspace

/-- `config_copy`: the string, if it fits an array of `size`. -/
def configCopy (size : ℕ) (value : List Byte) : Option (List Byte) :=
  if value.length = 0 ∨ value.length ≥ size then none else some value

def configUnsigned (value : List Byte) (maximum : ℕ) : Option ℕ :=
  if value = [] ∨ value.headD 0 = '-'.toUInt8 ∨ value.headD 0 = '+'.toUInt8 ∨ isspace (value.headD 0) then none
  else
    let r := strtoul value
    if r.erange ∨ r.rest ≠ [] ∨ r.parsed > maximum then none else some r.parsed

def deviceTypeString : DeviceType → List Byte
  | .uart => text "uart"
  | .i2c => text "i2c"
  | .oled => text "oled"
  | .gpio => text "gpio"
  | .led => text "led"

def configKeys : List (List Byte) :=
  [text "type", text "path", text "enabled", text "baudrate", text "address", text "offset",
    text "direction", text "bias", text "initial_value", text "led_name"]

def deviceTypes : List DeviceType := [.uart, .i2c, .oled, .gpio, .led]

def biases : List (List Byte) := [text "default", text "pull_up", text "pull_down", text "disabled"]

/-- The switch of `config_field`; `none` is a failure with `EINVAL`. -/
def configValue (config : DeviceConfig) (index : ℕ) (value : List Byte) : Option DeviceConfig :=
  match index with
  | 0 => (deviceTypes.find? fun type => deviceTypeString type = value).map fun type => { config with type := type }
  | 1 => (configCopy DEVICE_PATH_SIZE value).map fun path => { config with path := path }
  | 2 => (configUnsigned value 1).map fun (number : ℕ) => { config with enabled := number }
  | 3 => (configUnsigned value 2147483647).map fun (number : ℕ) => { config with baudrate := number }
  | 4 => (configUnsigned value UINT_MAX).map fun (number : ℕ) => { config with address := number }
  | 5 => (configUnsigned value UINT_MAX).map fun (number : ℕ) => { config with offset := number }
  | 6 =>
    if value ≠ text "input" ∧ value ≠ text "output" then none
    else some { config with gpioOutput := if value = text "output" then 1 else 0 }
  | 7 => if biases.idxOf value = biases.length then none else some { config with bias := biases.idxOf value }
  | 8 => (configUnsigned value 1).map fun (number : ℕ) => { config with initialValue := number }
  | 9 => (configCopy DEVICE_NAME_SIZE value).map fun name => { config with ledName := name }
  | _ => none

/-- The configuration and the fields after a key, `none` for -1. -/
def configField (config : DeviceConfig) (fields : BitVec 32) (key value : List Byte) :
    Option (DeviceConfig × BitVec 32) :=
  let index := configKeys.idxOf key
  if index = configKeys.length ∨ fields &&& (1#32 <<< index) ≠ 0 ∨ value = [] then none
  else (configValue config index value).map fun config => (config, fields ||| (1#32 <<< index))

/-- The fields a section must have and those it may have. -/
def configRequired (config : DeviceConfig) : BitVec 32 :=
  match config.type with
  | .uart => CONFIG_TYPE ||| CONFIG_PATH
  | .i2c | .oled => CONFIG_TYPE ||| (CONFIG_PATH ||| CONFIG_ADDRESS)
  | .gpio => CONFIG_TYPE ||| (CONFIG_PATH ||| CONFIG_OFFSET)
  | .led => CONFIG_TYPE ||| CONFIG_LED_NAME

def configAllowed (config : DeviceConfig) : BitVec 32 :=
  match config.type with
  | .uart => CONFIG_TYPE ||| CONFIG_ENABLED ||| (CONFIG_PATH ||| CONFIG_BAUDRATE)
  | .i2c | .oled => CONFIG_TYPE ||| CONFIG_ENABLED ||| (CONFIG_PATH ||| CONFIG_ADDRESS)
  | .gpio => CONFIG_TYPE ||| CONFIG_ENABLED ||| (CONFIG_PATH ||| CONFIG_OFFSET ||| CONFIG_DIRECTION) |||
      (if config.gpioOutput ≠ 0 then CONFIG_INITIAL else CONFIG_BIAS)
  | .led => CONFIG_TYPE ||| CONFIG_ENABLED ||| CONFIG_LED_NAME

def configSectionValidate (config : DeviceConfig) (fields : BitVec 32) : Bool :=
  if fields &&& configRequired config ≠ configRequired config ∨ fields &&& ~~~configAllowed config ≠ 0 then false
  else deviceConfigValidate config

/-- A file that was opened: what is read from it, whether the end of it is a
read error, and the `errno` with which `fclose` fails, if it does. -/
structure ConfigFile where
  bytes : List Byte
  readError : Bool
  closeErrno : Option ℕ
deriving DecidableEq, Repr

/-- `config_read_line`, with `line` read so far: the line and what comes
after it, `none` at the end of the file. -/
def configReadLine (readError : Bool) : List Byte → List Byte → Except ℕ (Option (List Byte × List Byte))
  | [], line =>
    if readError then .error EIO
    else if line.length = 0 then .ok none
    else .ok (some (line, []))
  | character :: rest, line =>
    if character = LF then .ok (some (line, rest))
    else if character = 0 ∨ line.length + 1 ≥ DEVICE_CONFIG_LINE_SIZE then .error EINVAL
    else configReadLine readError rest (line ++ [character])

/-- The sections so far: those before the last, and the last with its fields. -/
structure Loading where
  done : List DeviceConfig
  current : DeviceConfig
  fields : BitVec 32
  fit : done.length < DEVICE_MAX_COUNT

def Loading.devices (s : Loading) : List DeviceConfig := s.done ++ [s.current]

/-- `temporary.devices`; `none` is an empty list. -/
def loadedDevices (s : Option Loading) : List DeviceConfig := s.elim [] Loading.devices

/-- The check of the last section, if there is one. -/
def lastSectionValid (s : Option Loading) : Bool :=
  s.all fun s => configSectionValidate s.current s.fields

/-- A header line: the next section is begun. -/
def configHeader (s : Option Loading) (line : List Byte) : Except ℕ (Option Loading) :=
  if line.length < 3 ∨ line.getLast? ≠ some ']'.toUInt8 ∨ !lastSectionValid s then .error EINVAL
  else
    let name := line.tail.dropLast
    if !configNameValid name ∨ name.length ≥ DEVICE_NAME_SIZE then .error EINVAL
    else if (loadedDevices s).any fun device => device.name = name then .error EEXIST
    else if h : (loadedDevices s).length < DEVICE_MAX_COUNT then
      .ok (some ⟨loadedDevices s, { deviceConfigInit with name := name }, 0, h⟩)
    else .error ENOSPC

/-- One turn of the loop of `device_config_load`, for a line that was read. -/
def configLine (s : Option Loading) (line : List Byte) : Except ℕ (Option Loading) :=
  let text := configTrim line
  if text = [] ∨ text.headD 0 = '#'.toUInt8 ∨ text.headD 0 = ';'.toUInt8 then .ok s
  else if text.headD 0 = '['.toUInt8 then configHeader s text
  else
    match s, text.dropWhile (· ≠ '='.toUInt8) with
    | none, _ => .error EINVAL
    | some _, [] => .error EINVAL
    | some s, _ :: value =>
      match configField s.current s.fields (configTrim (text.takeWhile (· ≠ '='.toUInt8)))
          (configTrim value) with
      | none => .error EINVAL
      | some (config, fields) => .ok (some { s with current := config, fields := fields })

/-- A line takes bytes, unless there were none left but a line was begun. -/
theorem configReadLine_length {readError : Bool} : ∀ {bytes line l rest : List Byte},
    configReadLine readError bytes line = .ok (some (l, rest)) →
      rest.length < bytes.length ∨ (bytes = [] ∧ rest = [] ∧ line ≠ [])
  | [], line, l, rest, h => by
    rw [configReadLine] at h
    by_cases herr : readError = true
    · rw [if_pos herr] at h
      cases h
    by_cases hnil : line.length = 0
    · rw [if_neg herr, if_pos hnil] at h
      cases h
    rw [if_neg herr, if_neg hnil] at h
    simp only [Except.ok.injEq, Option.some.injEq, Prod.mk.injEq] at h
    exact .inr ⟨rfl, h.2.symm, fun hl => hnil (by rw [hl]; rfl)⟩
  | c :: bytes, line, l, rest, h => by
    rw [configReadLine] at h
    by_cases hlf : c = LF
    · rw [if_pos hlf] at h
      obtain ⟨-, rfl⟩ : line = l ∧ bytes = rest := by simpa using h
      exact .inl (Nat.lt_succ_self _)
    rw [if_neg hlf] at h
    by_cases hbad : c = 0 ∨ line.length + 1 ≥ DEVICE_CONFIG_LINE_SIZE
    · rw [if_pos hbad] at h
      cases h
    rw [if_neg hbad] at h
    rcases configReadLine_length h with hlt | ⟨rfl, rfl, -⟩
    · exact .inl (Nat.lt_succ_of_lt hlt)
    · exact .inl Nat.zero_lt_one

/-- The loop of `device_config_load`. -/
def configLoop (readError : Bool) (bytes : List Byte) (s : Option Loading) : Except ℕ (Option Loading) :=
  match _h : configReadLine readError bytes [] with
  | .error errno => .error errno
  | .ok none => .ok s
  | .ok (some (line, rest)) =>
    match configLine s line with
    | .error errno => .error errno
    | .ok s => configLoop readError rest s
termination_by bytes.length
decreasing_by exact (configReadLine_length _h).resolve_right fun hne => hne.2.2 rfl

/-- What `device_config_load` returns, with the list as it leaves it. -/
structure ConfigLoad where
  ret : ℤ
  errno : ℕ
  list : DeviceConfigList
deriving DecidableEq, Repr

theorem loadedDevices_length (s : Option Loading) : (loadedDevices s).length ≤ DEVICE_MAX_COUNT := by
  cases s with
  | none => exact Nat.zero_le _
  | some s =>
    have h := s.fit
    simp only [loadedDevices, Option.elim, Loading.devices, List.length_append, List.length_singleton]
    omega

/-- `fopen` finds `files filename`; an `errno` where it fails. -/
def deviceConfigLoad (files : List Byte → Except ℕ ConfigFile) (list : DeviceConfigList)
    (filename : List Byte) : ConfigLoad :=
  if filename = [] then ⟨-1, EINVAL, list⟩
  else
    match files filename with
    | .error errno => ⟨-1, errno, list⟩
    | .ok file =>
      match configLoop file.readError file.bytes none with
      | .error errno => ⟨-1, errno, list⟩
      | .ok s =>
        if !lastSectionValid s then ⟨-1, EINVAL, list⟩
        else
          match file.closeErrno with
          | some errno => ⟨-1, errno, list⟩
          | none => ⟨0, 0, ⟨loadedDevices s, loadedDevices_length s⟩⟩

end DeviceRuntime
