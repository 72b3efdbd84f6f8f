/-
# The device command

`src/cmd_device.c`: `device <action> <name> ...` on a device of the manager.
`argv` are the words of the command, the first one `device`; a function that
works on a device returns it as it leaves it.

The calls are those of the manager and what is printed, on standard output or
standard error.

Key definitions: `DeviceCommandCall`, `deviceUsage`, `deviceCommandRead`,
`deviceCommandWrite`, `deviceCommandUart`, `deviceCommandLed`,
`deviceCommandOled`, `deviceAction`, `cmdDevice`.
-/
import DeviceRuntime.Backend
import DeviceRuntime.DecimalNumbers
import DeviceRuntime.DeviceManager
import DeviceRuntime.UartProtocol

namespace DeviceRuntime

abbrev DEVICE_COMMAND_BUFFER_SIZE : ℕ := 256
abbrev DEVICE_COMMAND_TIMEOUT_MS : ℤ := 1000
abbrev UCHAR_MAX : ℕ := 255

inductive DeviceCommandCall
  | manager (c : ManagerCall)
  | strerror (errno : ℕ)
  | print (line : List Byte)
  | complain (line : List Byte)

abbrev DeviceCommandCall.Ret : DeviceCommandCall → Type
  | .manager c => c.Ret
  | .strerror _ => List Byte
  | .print _ | .complain _ => Unit

abbrev DeviceCommandProg := Prog DeviceCommandCall DeviceCommandCall.Ret

/-- A function of the manager, in the command. -/
def onCommand {α : Type} (p : ManagerProg α) : DeviceCommandProg α := p.link fun c => .call (.manager c) .ret

/-- A function of the device layer, in the command. -/
def runDevice {α : Type} (p : DeviceProg α) : DeviceCommandProg α := onCommand (onDevices p)

/-! ### What is printed -/

def deviceUsageText : List Byte :=
  text "usage:\n  device list\n  device info|open|close <name>\n  device read <name> [count]\n" ++
  text "  device write <name> <byte ...>\n  device ping|status <uart>\n  device heartbeat <uart> <number>\n" ++
  text "  device led <uart|led> on|off\n  device led <led> trigger <trigger>\n" ++
  text "  device oled <oled> clear|refresh|on|off\n  device oled <oled> text <x> <y> <text ...>\n  device reload\n"

def deviceUsage : DeviceCommandProg ℤ := .call (.print deviceUsageText) fun _ => .ret MiniShell_ERR_PARSE

def deviceCommandError (action name : List Byte) (errno : ℕ) : DeviceCommandProg ℤ :=
  .call (.strerror errno) fun message =>
    .call (.complain (text "device: " ++ action ++ text " " ++ name ++ text ": " ++ message ++ [LF])) fun _ =>
      .ret MiniShell_ERR_UNKNOWN

def deviceStateString : DeviceState → List Byte
  | .closed => text "closed"
  | .opened => text "open"
  | .error => text "error"
  | .disabled => text "disabled"

/-- `%-<width>s` -/
def padded (width : ℕ) (s : List Byte) : List Byte := s ++ List.replicate (width - s.length) ' '.toUInt8

/-- `%02x` -/
def hexadecimal (n : ℕ) : List Byte :=
  let digits := (Nat.toDigits 16 n).map Char.toUInt8
  List.replicate (2 - digits.length) '0'.toUInt8 ++ digits

def printed (line : List Byte) (status : ℤ) : DeviceCommandProg ℤ := .call (.print line) fun _ => .ret status

def printLines : List (List Byte) → DeviceCommandProg ℤ
  | [] => .ret MiniShell_OK
  | line :: lines => .call (.print (line ++ [LF])) fun _ => printLines lines

def deviceCommandList (m : DeviceManager) : DeviceCommandProg ℤ :=
  if m.devices = [] then printed (text "no devices configured\n") MiniShell_OK
  else printLines (text "Name             Type   State" :: m.devices.map fun device =>
    padded 16 device.config.name ++ text " " ++ padded 6 (deviceTypeString device.config.type) ++ text " " ++
      deviceStateString device.state)

/-- The lines of `device_command_info` about the configuration. -/
def configLines (config : DeviceConfig) : List (List Byte) :=
  (if config.type = .led then text "LED Name       : " ++ config.ledName
    else text "Path           : " ++ config.path) ::
    match config.type with
    | .uart => [text "Baudrate       : " ++ decimalInt config.baudrate]
    | .i2c | .oled => [text "Address        : 0x" ++ hexadecimal config.address]
    | .gpio => [text "Offset         : " ++ decimal config.offset,
        text "Direction      : " ++ (if config.gpioOutput ≠ 0 then text "output" else text "input"),
        text "Bias           : " ++ decimalInt config.bias]
    | .led => []

def deviceCommandInfo (device : Device) : DeviceCommandProg ℤ :=
  (if device.lastErrno ≠ 0 then .call (.strerror device.lastErrno) .ret else .ret (text "none") :
    DeviceCommandProg (List Byte)).bind fun lastError => printLines <|
      [text "Name           : " ++ device.config.name,
        text "Type           : " ++ deviceTypeString device.config.type,
        text "State          : " ++ deviceStateString device.state,
        text "Opened         : " ++ decimalInt device.opened,
        text "Enabled        : " ++ decimalInt device.config.enabled,
        text "Last Error     : " ++ lastError] ++ configLines device.config

/-! ### The actions on a device -/

/-- The status of the command, and the device. -/
abbrev DeviceAction := DeviceCommandProg (ℤ × Device)

/-- The device as it is, after something was printed. -/
def leaving (device : Device) (p : DeviceCommandProg ℤ) : DeviceAction := p.bind fun status => .ret (status, device)

def deviceCommandOpen (device : Device) : DeviceAction :=
  (runDevice (deviceOpen device)).bind fun r =>
    if r.ret < 0 then leaving r.device (deviceCommandError (text "open") r.device.config.name r.errno)
    else leaving r.device
      (printed (r.device.config.name ++ text ": " ++ deviceStateString r.device.state ++ [LF]) MiniShell_OK)

def deviceCommandClose (device : Device) : DeviceAction :=
  (runDevice (deviceClose device)).bind fun r =>
    if r.ret < 0 then leaving r.device (deviceCommandError (text "close") r.device.config.name r.errno)
    else leaving r.device
      (printed (r.device.config.name ++ text ": " ++ deviceStateString r.device.state ++ [LF]) MiniShell_OK)

/-- `%02x` of all bytes, with blanks between them. -/
def hexDump (bytes : List Byte) : List Byte := (text " ").intercalate (bytes.map fun b => hexadecimal b.toNat)

/-- The `count` of `device read`. -/
def readCount (argv : List (List Byte)) : Option ℕ :=
  match argv.drop 3 with
  | [] => some 16
  | word :: _ => (deviceNumber word DEVICE_COMMAND_BUFFER_SIZE 0).filter fun count => count ≠ 0

/-- `device read` for a device whose data are bytes. -/
def readBytes (device : Device) (count : ℕ) : DeviceAction :=
  (runDevice (deviceRead device true count)).bind fun r =>
    if r.1.ret < 0 then leaving r.1.device (deviceCommandError (text "read") r.1.device.config.name r.1.errno)
    else leaving r.1.device (printed (hexDump (r.2.take r.1.ret.toNat) ++ [LF]) MiniShell_OK)

def deviceCommandRead (argv : List (List Byte)) (device : Device) : DeviceAction :=
  if device.config.type = .gpio ∨ device.config.type = .led then
    if argv.length ≠ 3 then leaving device deviceUsage
    else (runDevice (deviceRead device true INT_SIZE)).bind fun r =>
      if r.1.ret < 0 then leaving r.1.device (deviceCommandError (text "read") r.1.device.config.name r.1.errno)
      else leaving r.1.device (printed (decimalInt (intOfBytes r.2) ++ [LF]) MiniShell_OK)
  else if (device.config.type ≠ .uart ∧ device.config.type ≠ .i2c) ∨ argv.length > 4 then leaving device deviceUsage
  else match readCount argv with
    | none => leaving device deviceUsage
    | some count =>
      if device.config.type = .uart then
        (runDevice (deviceControl device .uartWait (.timeout DEVICE_COMMAND_TIMEOUT_MS))).bind fun ready =>
          if ready.ret ≤ 0 then
            if ready.ret = 0 then
              leaving { ready.device with lastErrno := ETIMEDOUT }
                (deviceCommandError (text "read") ready.device.config.name ETIMEDOUT)
            else leaving ready.device (deviceCommandError (text "read") ready.device.config.name ready.errno)
          else readBytes ready.device count
      else readBytes device count

/-- The bytes of `device write`, `none` if one of the words is not a byte. -/
def writeBytes : List (List Byte) → Option (List Byte)
  | [] => some []
  | word :: words => (deviceNumber word UCHAR_MAX 0).bind fun number =>
    (writeBytes words).map fun buffer => UInt8.ofNat number :: buffer

/-- The end of `device write`. -/
def wroteBytes (size : ℕ) (r : DeviceResult) : DeviceAction :=
  if r.ret < 0 then leaving r.device (deviceCommandError (text "write") r.device.config.name r.errno)
  else leaving r.device
    (printed (r.device.config.name ++ text ": wrote " ++ decimal size ++ text " bytes\n") MiniShell_OK)

def deviceCommandWrite (argv : List (List Byte)) (device : Device) : DeviceAction :=
  match argv.drop 3 with
  | [] => leaving device deviceUsage
  | word :: words =>
    if device.config.type = .gpio ∨ device.config.type = .led then
      match words, deviceNumber word 1 0 with
      | [], some number =>
        (runDevice (deviceWrite device (some (intBytes number)))).bind fun r =>
          if r.ret < 0 then leaving r.device (deviceCommandError (text "write") r.device.config.name r.errno)
          else leaving r.device (printed (r.device.config.name ++ text ": " ++ decimal number ++ [LF]) MiniShell_OK)
      | _, _ => leaving device deviceUsage
    else if device.config.type ≠ .uart ∧ device.config.type ≠ .i2c then leaving device deviceUsage
    else if (word :: words).length > DEVICE_COMMAND_BUFFER_SIZE then leaving device deviceUsage
    else match writeBytes (word :: words) with
      | none => leaving device deviceUsage
      | some buffer =>
        if device.config.type = .uart then
          (runDevice (deviceControl device .uartWriteAll (.write ⟨buffer, DEVICE_COMMAND_TIMEOUT_MS⟩))).bind
            (wroteBytes buffer.length)
        else (runDevice (deviceWrite device (some buffer))).bind (wroteBytes buffer.length)

/-- `errno` is what `uart_protocol_request` has left in `last_errno`. -/
def deviceCommandUart (device : Device) (request : List Byte) : DeviceAction :=
  if device.config.type ≠ .uart then leaving device deviceUsage
  else (runDevice (uartProtocolRequest device request [] UART_PROTOCOL_LINE_SIZE DEVICE_COMMAND_TIMEOUT_MS)).bind
      fun r =>
    if r.ret < 0 then
      leaving r.device (deviceCommandError (text "request") r.device.config.name r.device.lastErrno)
    else leaving r.device (printed (r.reply ++ [LF]) MiniShell_OK)

/-- `device_control` for the LED and the display, with what is printed if it
succeeds. -/
def controlAction (device : Device) (request : DeviceControl) (argument : ControlArgument) (action shown : List Byte) :
    DeviceAction :=
  (runDevice (deviceControl device request argument)).bind fun r =>
    if r.ret < 0 then leaving r.device (deviceCommandError action r.device.config.name r.errno)
    else leaving r.device (printed (r.device.config.name ++ text ": " ++ shown ++ [LF]) MiniShell_OK)

/-- The part of `device_command_led` for an LED. -/
def ledAction (device : Device) (action : List Byte) (rest : List (List Byte)) : DeviceAction :=
  if device.config.type ≠ .led then leaving device deviceUsage
  else if action = text "on" ∧ rest = [] then controlAction device .ledOn .null action action
  else if action = text "off" ∧ rest = [] then controlAction device .ledOff .null action action
  else match rest with
    | [trigger] =>
      if action = text "trigger" then
        controlAction device .ledTrigger (.trigger trigger) action (action ++ text "=" ++ trigger)
      else leaving device deviceUsage
    | _ => leaving device deviceUsage

def deviceCommandLed (argv : List (List Byte)) (device : Device) : DeviceAction :=
  match argv.drop 3 with
  | [] => leaving device deviceUsage
  | action :: rest =>
    if device.config.type = .uart ∧ rest = [] ∧ action = text "on" then deviceCommandUart device (text "LED ON")
    else if device.config.type = .uart ∧ rest = [] ∧ action = text "off" then deviceCommandUart device (text "LED OFF")
    else ledAction device action rest

/-- The loop that puts the words of the text into `buffer`, with blanks between
them; `none` if they do not fit. -/
def joinWords : List Byte → List (List Byte) → Option (List Byte)
  | buffer, [] => some buffer
  | buffer, word :: words =>
    if (text " " ++ word).length ≥ DEVICE_COMMAND_BUFFER_SIZE - buffer.length then none
    else joinWords (buffer ++ (text " " ++ word)) words

/-- The text of `device oled <oled> text`. -/
def oledText (word : List Byte) (words : List (List Byte)) : Option (List Byte) :=
  if word.length ≥ DEVICE_COMMAND_BUFFER_SIZE then none else joinWords word words

/-- The requests of `device oled` that have no argument. -/
def oledRequest (action : List Byte) : Option DeviceControl :=
  if action = text "clear" then some .oledClear
  else if action = text "refresh" then some .oledRefresh
  else if action = text "on" then some .oledOn
  else if action = text "off" then some .oledOff
  else none

def deviceCommandOled (argv : List (List Byte)) (device : Device) : DeviceAction :=
  if device.config.type ≠ .oled then leaving device deviceUsage
  else match argv.drop 3 with
    | [action] => match oledRequest action with
      | some request => controlAction device request .null action action
      | none => leaving device deviceUsage
    | action :: first :: second :: word :: words =>
      if action ≠ text "text" then leaving device deviceUsage
      else match deviceNumber first 127 0, deviceNumber second 63 0 with
        | some x, some y => match oledText word words with
          | some line => controlAction device .oledText (.text ⟨x, y, line⟩) action action
          | none => leaving device deviceUsage
        | _, _ => leaving device deviceUsage
    | _ => leaving device deviceUsage

/-! ### The command -/

/-- `cmd_device` once the device was found. -/
def deviceAction (argv : List (List Byte)) (action : List Byte) (device : Device) : DeviceAction :=
  if action = text "info" ∧ argv.length = 3 then leaving device (deviceCommandInfo device)
  else if action = text "open" ∧ argv.length = 3 then deviceCommandOpen device
  else if action = text "close" ∧ argv.length = 3 then deviceCommandClose device
  else if action = text "read" then deviceCommandRead argv device
  else if action = text "write" then deviceCommandWrite argv device
  else if action = text "ping" ∧ argv.length = 3 then deviceCommandUart device (text "PING")
  else if action = text "status" ∧ argv.length = 3 then deviceCommandUart device (text "STATUS")
  else if action = text "heartbeat" ∧ argv.length = 4 then
    match deviceHeartbeat (argv.getD 3 []) with
    | none => leaving device deviceUsage
    | some request => deviceCommandUart device request
  else if action = text "led" then deviceCommandLed argv device
  else if action = text "oled" then deviceCommandOled argv device
  else leaving device deviceUsage

/-- Where `device_manager_find` has found the device. -/
def DeviceManager.indexOf (m : DeviceManager) (name : List Byte) : ℕ :=
  m.devices.findIdx fun device => device.config.name = name

/-- `files` is the file system, and `devicesFile` the path in the context. -/
def deviceReload (m : DeviceManager) (files : List Byte → Except ℕ ConfigFile) (devicesFile : List Byte) :
    DeviceCommandProg (ℤ × DeviceManager) :=
  if devicesFile = [] then
    (deviceCommandError (text "reload") (text "devices.conf") ENOENT).bind fun status => .ret (status, m)
  else (onCommand (deviceManagerLoad m files devicesFile)).bind fun r =>
    if r.1.ret < 0 then
      (deviceCommandError (text "reload") devicesFile r.1.errno).bind fun status => .ret (status, r.2)
    else (printed (text "devices config reloaded\n") MiniShell_OK).bind fun status => .ret (status, r.2)

def cmdDevice (m : DeviceManager) (files : List Byte → Except ℕ ConfigFile) (devicesFile : List Byte)
    (argv : List (List Byte)) : DeviceCommandProg (ℤ × DeviceManager) :=
  match argv.drop 1 with
  | [] => deviceUsage.bind fun status => .ret (status, m)
  | action :: rest =>
    if action = text "list" ∧ rest = [] then (deviceCommandList m).bind fun status => .ret (status, m)
    else if action = text "reload" ∧ rest = [] then deviceReload m files devicesFile
    else match rest with
      | [] => deviceUsage.bind fun status => .ret (status, m)
      | name :: _ => match deviceManagerFind m name with
        | none => (printedError name).bind fun status => .ret (status, m)
        | some device => (deviceAction argv action device).bind fun r => .ret (r.1, m.set (m.indexOf name) r.2)
where
  printedError (name : List Byte) : DeviceCommandProg ℤ :=
    .call (.complain (text "device: device not found: " ++ name ++ [LF])) fun _ => .ret MiniShell_ERR_UNKNOWN

end DeviceRuntime
