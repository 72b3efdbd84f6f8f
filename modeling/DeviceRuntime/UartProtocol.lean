/-
# The host's side of the serial line protocol

`src/uart_protocol.c`: one request, one reply, under one deadline. A request
is checked against the five the protocol has, sent with a line feed, and the
bytes that come back are collected into a line that `validateReply` has to
accept. The device is driven through the device layer, so any of its failures
ends the request; an end of file puts the device into `error` here and not
there.

A reply buffer is the string in it: `reply` before the call, the field
`reply` of the result after it.

Key definitions: `parseRequest`, `validateReply`, `receiveByte`,
`uartProtocolRequest`.
-/
import DeviceRuntime.Device

namespace DeviceRuntime

abbrev UART_PROTOCOL_LINE_SIZE : ℕ := 128

inductive UartRequest
  | ping | status | ledOn | ledOff | heartbeat
deriving DecidableEq, Repr

namespace UartProtocol

/-- The host's copy of `parse_unsigned`. -/
def parseUnsigned (s : List Byte) : Option ℕ := scanUnsigned s

end UartProtocol

open UartProtocol DeviceCall

/-- The request and the number of a heartbeat (0 for the others); `none` is
the failure with `EINVAL`. -/
def parseRequest (request : List Byte) : Option (UartRequest × ℕ) :=
  if request = text "PING" then some (.ping, 0)
  else if request = text "STATUS" then some (.status, 0)
  else if request = text "LED ON" then some (.ledOn, 0)
  else if request = text "LED OFF" then some (.ledOff, 0)
  else if strncmp request (text "HEARTBEAT ") then
    (UartProtocol.parseUnsigned (request.drop 10)).map fun n => (.heartbeat, n)
  else none

def validateReply (request : UartRequest) (heartbeat : ℕ) (reply : List Byte) : Bool :=
  match request with
  | .ping => reply = text "PONG"
  | .status =>
    24 ≤ reply.length && strncmp reply (text "STATUS LED=") &&
      (reply.getD 11 0 = '0'.toUInt8 || reply.getD 11 0 = '1'.toUInt8) &&
      strncmp (reply.drop 12) (text " UPTIME_MS=") &&
      (UartProtocol.parseUnsigned (reply.drop 23)).isSome
  | .ledOn => reply = text "OK LED=1"
  | .ledOff => reply = text "OK LED=0"
  | .heartbeat =>
    strncmp reply (text "OK HEARTBEAT=") &&
      UartProtocol.parseUnsigned (reply.drop 13) = some heartbeat

/-- Milliseconds of the monotonic clock; negative when it cannot be read. -/
def monotonicMs : DeviceProg CallResult := do
  match ← callClock with
  | .error errno => return ⟨-1, errno⟩
  | .ok now => return ⟨now.sec * 1000 + now.nsec.tdiv 1000000, 0⟩

def remainingMs (deadline : ℤ) : DeviceProg CallResult := do
  let now ← monotonicMs
  if now.ret < 0 then return ⟨-1, now.errno⟩
  let remaining := deadline - now.ret
  if remaining ≤ 0 then return ⟨-1, ETIMEDOUT⟩
  return ⟨if remaining > INT_MAX then INT_MAX else remaining, 0⟩

/-- What `uart_protocol_request` returns. -/
structure RequestResult where
  ret : ℤ
  device : Device
  reply : List Byte
deriving DecidableEq, Repr

/-- `errno` is set and `protocol_result (device, -1)` returned. -/
def requestFailure (d : Device) (errno : ℕ) (reply : List Byte) : RequestResult :=
  ⟨-1, { d with lastErrno := errno }, reply⟩

/-- The variables of the receive loop. -/
structure Receiving where
  device : Device
  line : List Byte
  carriageReturn : Bool
deriving DecidableEq, Repr

/-- How the receive loop is left: with a line, or with an error. -/
structure Received where
  device : Device
  line : Except ℕ (List Byte)

/-- A byte that was read, in the receive loop: go on, or the `errno` of a
failure, or the line. -/
def acceptByte (s : Receiving) (byte : Byte) : Receiving ⊕ Received :=
  if byte = LF then .inr ⟨s.device, .ok s.line⟩
  else if s.carriageReturn then .inr ⟨s.device, .error EPROTO⟩
  else if byte = CR then .inl { s with carriageReturn := true }
  else if byte < 0x20 ∨ byte > 0x7e then .inr ⟨s.device, .error EPROTO⟩
  else if s.line.length ≥ UART_PROTOCOL_LINE_SIZE - 1 then .inr ⟨s.device, .error EMSGSIZE⟩
  else .inl { s with line := s.line ++ [byte] }

/-- One turn of the receive loop. -/
def receiveByte (deadline : ℤ) (s : Receiving) : DeviceProg (Receiving ⊕ Received) := do
  let timeout ← remainingMs deadline
  if timeout.ret < 0 then return .inr ⟨s.device, .error timeout.errno⟩
  let ready ← deviceControl s.device .uartWait (.timeout timeout.ret)
  if ready.ret < 0 then return .inr ⟨ready.device, .error ready.errno⟩
  if ready.ret = 0 then return .inr ⟨ready.device, .error ETIMEDOUT⟩
  let result ← deviceRead ready.device true 1
  if result.1.ret < 0 then
    if result.1.errno = EAGAIN ∨ result.1.errno = EWOULDBLOCK then
      return .inl { s with device := result.1.device }
    return .inr ⟨result.1.device, .error result.1.errno⟩
  if result.1.ret = 0 then
    return .inr ⟨{ result.1.device with state := .error }, .error EIO⟩
  return acceptByte { s with device := result.1.device } (result.2.headD 0)

def uartProtocolRequest (d : Device) (request reply : List Byte) (size : ℕ) (timeoutMs : ℤ) :
    DeviceProg RequestResult := do
  if d.config.type ≠ .uart ∨ size = 0 ∨ timeoutMs < 0 then return requestFailure d EINVAL reply
  if d.config.enabled = 0 then return requestFailure d EACCES reply
  if d.opened = 0 then return requestFailure d EBADF reply
  if request.length ≥ UART_PROTOCOL_LINE_SIZE then return requestFailure d EMSGSIZE reply
  match parseRequest request with
  | none => return requestFailure d EINVAL reply
  | some (requestType, heartbeat) =>
    -- reply[0] = '\0' from here on
    if timeoutMs = 0 then return requestFailure d ETIMEDOUT []
    let now ← monotonicMs
    if now.ret < 0 then return requestFailure d now.errno []
    let deadline := now.ret + timeoutMs
    let flush ← deviceControl d .uartFlush .null
    if flush.ret < 0 then return requestFailure flush.device flush.errno []
    let timeout ← remainingMs deadline
    if timeout.ret < 0 then return requestFailure flush.device timeout.errno []
    let write ← deviceControl flush.device .uartWriteAll (.write ⟨request ++ [LF], timeout.ret⟩)
    if write.ret < 0 then return requestFailure write.device write.errno []
    let received ← .iter (receiveByte deadline) ⟨write.device, [], false⟩
    match received.line with
    | .error errno => return requestFailure received.device errno []
    | .ok line =>
      let left ← remainingMs deadline
      if left.ret < 0 then return requestFailure received.device left.errno []
      if !validateReply requestType heartbeat line then
        return requestFailure received.device EPROTO []
      if line.length ≥ size then return requestFailure received.device EMSGSIZE []
      return ⟨0, { received.device with lastErrno := 0 }, line⟩

end DeviceRuntime
