/-
# The serial port

`src/serial_port.c` and the serial backend of `src/device_backend.c` over the
system calls they make. A descriptor below 0 stands for a port that is not
open. The buffers are there by type, so the tests for NULL have no branch
here; a `SerialPort *` is the port, loaded from the device's context where
the backend follows the pointer.

Key definitions: `SerialCall`, `pollFd`, `serialPortWriteAll`,
`serialPortFlushInput`, `uartControl`, `uartBackend`.
-/
import DeviceRuntime.UartProtocol

namespace DeviceRuntime

structure SerialPort where
  fd : ℤ
deriving DecidableEq, Repr

inductive PollEvent
  | pollin | pollout
deriving DecidableEq, Repr

/-- `revents` of a `struct pollfd`. -/
structure PollFlags where
  pollin : Bool
  pollout : Bool
  pollerr : Bool
  pollhup : Bool
  pollnval : Bool
deriving DecidableEq, Repr

/-- `revents & events`. -/
def PollFlags.has (revents : PollFlags) : PollEvent → Bool
  | .pollin => revents.pollin
  | .pollout => revents.pollout

inductive FlushQueue
  | tciflush | tcioflush
deriving DecidableEq, Repr

/-- The system calls, and the port behind `device->context`. What
`configure_serial` asks `tcsetattr` for is a raw line; of it only the speed
and `VMIN` differ from call to call. -/
inductive SerialCall
  | loadPort
  | storePort (port : SerialPort)
  | clockGettime
  | poll (fd : ℤ) (events : PollEvent) (timeoutMs : ℤ)
  | read (fd : ℤ) (size : ℕ)
  | write (fd : ℤ) (data : List Byte)
  | tcflush (fd : ℤ) (queue : FlushQueue)
  | open (path : List Byte) (nonblocking : Bool)
  | tcgetattr (fd : ℤ)
  | tcsetattr (fd : ℤ) (speed : ℤ) (vmin : ℕ)
  | close (fd : ℤ)
  | free
deriving DecidableEq, Repr

abbrev SerialCall.Ret : SerialCall → Type
  | .loadPort => SerialPort
  | .storePort _ => Unit
  | .clockGettime => Except ℕ Timespec
  | .poll _ _ _ => CallResult × PollFlags
  | .read _ _ => CallResult × List Byte
  | .write _ _ => CallResult
  | .tcflush _ _ => CallResult
  | .open _ _ => CallResult
  | .tcgetattr _ => CallResult
  | .tcsetattr _ _ _ => CallResult
  | .close _ => CallResult
  | .free => Unit

abbrev SerialProg := Prog SerialCall SerialCall.Ret

namespace SerialPort

def sysClock : SerialProg (Except ℕ Timespec) := .call SerialCall.clockGettime .ret
def sysPoll (fd : ℤ) (events : PollEvent) (timeoutMs : ℤ) : SerialProg (CallResult × PollFlags) :=
  .call (SerialCall.poll fd events timeoutMs) .ret
def sysRead (fd : ℤ) (size : ℕ) : SerialProg (CallResult × List Byte) :=
  .call (SerialCall.read fd size) .ret
def sysWrite (fd : ℤ) (data : List Byte) : SerialProg CallResult :=
  .call (SerialCall.write fd data) .ret
def sysTcflush (fd : ℤ) (queue : FlushQueue) : SerialProg CallResult :=
  .call (SerialCall.tcflush fd queue) .ret
def sysOpen (path : List Byte) (nonblocking : Bool) : SerialProg CallResult :=
  .call (SerialCall.open path nonblocking) .ret
def sysTcgetattr (fd : ℤ) : SerialProg CallResult := .call (SerialCall.tcgetattr fd) .ret
def sysTcsetattr (fd speed : ℤ) (vmin : ℕ) : SerialProg CallResult :=
  .call (SerialCall.tcsetattr fd speed vmin) .ret
def sysClose (fd : ℤ) : SerialProg CallResult := .call (SerialCall.close fd) .ret
def loadPort : SerialProg SerialPort := .call SerialCall.loadPort .ret
def storePort (port : SerialPort) : SerialProg Unit := .call (SerialCall.storePort port) .ret

end SerialPort

open SerialPort

/-- The speeds there are; `none` is the failure with `EINVAL`. -/
def baudToSpeed (baudrate : ℤ) : Option ℤ :=
  if baudrate ∈ ([9600, 19200, 38400, 57600, 115200, 230400] : List ℤ) then some baudrate else none

namespace SerialPort

/-- This file's copy of `monotonic_ms`. -/
def monotonicMs : SerialProg CallResult := do
  match ← sysClock with
  | .error errno => return ⟨-1, errno⟩
  | .ok now => return ⟨now.sec * 1000 + now.nsec.tdiv 1000000, 0⟩

end SerialPort

/-- The clock, which `poll_fd` reads only where there is a timeout. -/
def pollNow (timeoutMs : ℤ) : SerialProg CallResult :=
  if timeoutMs > 0 then SerialPort.monotonicMs else .ret ⟨0, 0⟩

/-- One turn of the loop of `poll_fd`. -/
def pollTurn (fd : ℤ) (events : PollEvent) (timeoutMs deadline : ℤ) :
    SerialProg (Unit ⊕ CallResult) := do
  let now ← pollNow timeoutMs
  if now.ret < 0 then return .inr ⟨-1, now.errno⟩
  let remaining := if timeoutMs > 0 then deadline - now.ret else 0
  if timeoutMs > 0 ∧ remaining ≤ 0 then return .inr ⟨0, 0⟩
  let waitMs := if remaining > INT_MAX then INT_MAX else remaining
  let result ← sysPoll fd events waitMs
  if result.1.ret > 0 then
    if result.2.has events then return .inr ⟨1, 0⟩
    if result.2.pollnval then return .inr ⟨-1, EBADF⟩
    if result.2.pollerr || result.2.pollhup then return .inr ⟨-1, EIO⟩
    return .inl ()
  if result.1.ret = 0 then return .inr ⟨0, 0⟩
  if result.1.errno ≠ EINTR then return .inr ⟨-1, result.1.errno⟩
  return .inl ()

def pollFd (fd : ℤ) (events : PollEvent) (timeoutMs : ℤ) : SerialProg CallResult := do
  if timeoutMs < 0 then return ⟨-1, EINVAL⟩
  let now ← pollNow timeoutMs
  if now.ret < 0 then return ⟨-1, now.errno⟩
  .iter (fun _ => pollTurn fd events timeoutMs (now.ret + timeoutMs)) ()

def configureSerial (fd baudrate : ℤ) (nonblocking : Bool) : SerialProg CallResult := do
  match baudToSpeed baudrate with
  | none => return ⟨-1, EINVAL⟩
  | some speed =>
    let get ← sysTcgetattr fd
    if get.ret < 0 then return ⟨-1, get.errno⟩
    let set ← sysTcsetattr fd speed (if nonblocking then 0 else 1)
    if set.ret < 0 then return ⟨-1, set.errno⟩
    sysTcflush fd .tcioflush

def serialPortInit : SerialPort := ⟨-1⟩

def serialPortOpen (port : SerialPort) (devicePath : List Byte) (baudrate : ℤ) (nonblocking : Bool) :
    SerialProg (CallResult × SerialPort) := do
  if devicePath = [] then return (⟨-1, EINVAL⟩, port)
  if port.fd ≥ 0 then return (⟨-1, EBUSY⟩, port)
  let fd ← sysOpen devicePath nonblocking
  if fd.ret < 0 then return (⟨-1, fd.errno⟩, port)
  let configured ← configureSerial fd.ret baudrate nonblocking
  if configured.ret < 0 then
    let _ ← sysClose fd.ret
    return (⟨-1, configured.errno⟩, port)
  return (⟨0, 0⟩, ⟨fd.ret⟩)

def serialPortRead (port : SerialPort) (size : ℕ) : SerialProg (CallResult × List Byte) := do
  if port.fd < 0 then return (⟨-1, EINVAL⟩, [])
  .iter (fun _ => do
    let result ← sysRead port.fd size
    if result.1.ret < 0 ∧ result.1.errno = EINTR then return .inl ()
    return .inr result) ()

def serialPortWrite (port : SerialPort) (data : List Byte) : SerialProg CallResult := do
  if port.fd < 0 then return ⟨-1, EINVAL⟩
  .iter (fun _ => do
    let result ← sysWrite port.fd data
    if result.ret < 0 ∧ result.errno = EINTR then return .inl ()
    return .inr result) ()

/-- One turn of the loop of `serial_port_write_all`, `total` bytes into the
data. -/
def writeTurn (port : SerialPort) (data : List Byte) (deadline : ℤ) (total : ℕ) :
    SerialProg (ℕ ⊕ CallResult) := do
  if ¬ total < data.length then return .inr ⟨0, 0⟩
  let now ← SerialPort.monotonicMs
  if now.ret < 0 then return .inr ⟨-1, now.errno⟩
  let remaining := deadline - now.ret
  if remaining ≤ 0 then return .inr ⟨-1, ETIMEDOUT⟩
  let ready ← pollFd port.fd .pollout (if remaining > INT_MAX then INT_MAX else remaining)
  if ready.ret < 0 then return .inr ⟨-1, ready.errno⟩
  if ready.ret = 0 then return .inr ⟨-1, ETIMEDOUT⟩
  let written ← serialPortWrite port (data.drop total)
  if written.ret > 0 then return .inl (total + written.ret.toNat)
  if written.ret = 0 ∨ written.errno = EAGAIN ∨ written.errno = EWOULDBLOCK then return .inl total
  return .inr ⟨-1, written.errno⟩

def serialPortWriteAll (port : SerialPort) (data : List Byte) (timeoutMs : ℤ) :
    SerialProg CallResult := do
  if port.fd < 0 ∨ timeoutMs < 0 then return ⟨-1, EINVAL⟩
  if data.length = 0 then return ⟨0, 0⟩
  let now ← SerialPort.monotonicMs
  if now.ret < 0 then return ⟨-1, now.errno⟩
  .iter (writeTurn port data (now.ret + timeoutMs)) 0

def serialPortWaitReadable (port : SerialPort) (timeoutMs : ℤ) : SerialProg CallResult := do
  if port.fd < 0 ∨ timeoutMs < 0 then return ⟨-1, EINVAL⟩
  pollFd port.fd .pollin timeoutMs

def serialPortFlushInput (port : SerialPort) : SerialProg CallResult := do
  if port.fd < 0 then return ⟨-1, EINVAL⟩
  .iter (fun _ => do
    let result ← sysTcflush port.fd .tciflush
    if result.ret < 0 then
      if result.errno ≠ EINTR then return .inr ⟨-1, result.errno⟩
      return .inl ()
    return .inr ⟨0, 0⟩) ()

def serialPortClose (port : SerialPort) : SerialProg SerialPort := do
  if port.fd ≥ 0 then
    let _ ← sysClose port.fd
  return ⟨-1⟩

/-! ### The serial backend -/

def uartOpen (d : Device) : SerialProg CallResult := do
  let port ← loadPort
  let r ← serialPortOpen port d.config.path d.config.baudrate true
  storePort r.2
  return r.1

def uartRead (size : ℕ) : SerialProg (CallResult × List Byte) := do
  let port ← loadPort
  serialPortRead port size

def uartWrite (data : List Byte) : SerialProg CallResult := do
  let port ← loadPort
  serialPortWrite port data

def uartControl (request : DeviceControl) (argument : ControlArgument) : SerialProg CallResult := do
  let port ← loadPort
  match request, argument with
  | .uartWait, .timeout ms => serialPortWaitReadable port ms
  | .uartWait, _ => return ⟨-1, EINVAL⟩
  | .uartWriteAll, .write w => serialPortWriteAll port w.data w.timeoutMs
  | .uartWriteAll, _ => return ⟨-1, EINVAL⟩
  | .uartFlush, _ => serialPortFlushInput port
  | _, _ => return ⟨-1, ENOTSUP⟩

def uartClose : SerialProg CallResult := do
  let port ← loadPort
  let port ← serialPortClose port
  storePort port
  return ⟨0, 0⟩

/-- `uart_ops`, with the clock of the process. -/
def uartBackend : (c : DeviceCall) → SerialProg c.Ret
  | .backendOpen d => uartOpen d
  | .backendRead _ size => uartRead size
  | .backendWrite _ data => uartWrite data
  | .backendControl _ request argument => uartControl request argument
  | .backendClose _ => uartClose
  | .backendDestroy _ => uartClose.bind fun _ => .call .free .ret
  | .clockGettime => sysClock

end DeviceRuntime
