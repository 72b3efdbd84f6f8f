/-
# The firmware's side of the serial line protocol

`examples/stm32_uart_protocol/stm32_uart_protocol.c`: a byte automaton that
collects a line, `stm32UartProtocolFeed`, and the handler of a complete line,
`stm32UartProtocolHandle`. The board is a state `σ` behind four callbacks,
which may do anything; `Stm32UartCallbacks.traced` notes what is called.

A buffer with a length is the list of its first `length` bytes. The pointers
the sources test for NULL are there by type: `stm32UartProtocolInit` is where
a missing callback is refused.

Key definitions: `stm32UartProtocolHandle`, `stm32UartProtocolFeed`, `feedAll`,
`WorkingBoard`, `lineState`.
Key theorems: `feedAll_line`, `feed_LF`.
-/
import DeviceRuntime.Libc

namespace DeviceRuntime

abbrev STM32_UART_PROTOCOL_LINE_SIZE : ℕ := 128

/-- The callbacks the integrator passes to `stm32_uart_protocol_init`. -/
structure Stm32UartCallbackPointers (σ : Type) where
  setLed : Option (ℤ → σ → ℤ × σ)
  getLed : Option (σ → ℤ × σ)
  uptimeMs : Option (σ → UInt32 × σ)
  send : Option (List Byte → σ → ℤ × σ)

/-- Callbacks none of which is missing. -/
structure Stm32UartCallbacks (σ : Type) where
  setLed : ℤ → σ → ℤ × σ
  getLed : σ → ℤ × σ
  uptimeMs : σ → UInt32 × σ
  send : List Byte → σ → ℤ × σ

/-- The state of the line automaton; `line` is what stands before `length`. -/
structure Stm32UartProtocol where
  line : List Byte
  carriageReturn : Bool
  discarding : Bool
  lineTooLong : Bool
deriving DecidableEq, Repr

namespace Stm32Uart

/-- The firmware's copy of `parse_unsigned`. -/
def parseUnsigned (s : List Byte) : Option ℕ := scanUnsigned s

def copyReply (size : ℕ) (t : List Byte) : Option (List Byte) :=
  if t.length ≥ size then none else some t

/-- What `snprintf` into a buffer of `size` bytes is used for here. -/
def snprintfReply (size : ℕ) (t : List Byte) : Option (List Byte) :=
  if t.length < size then some t else none

/-- The state `memset` leaves, and every line feed. -/
def initial : Stm32UartProtocol := ⟨[], false, false, false⟩

end Stm32Uart

open Stm32Uart

section Firmware

variable {σ : Type} (cb : Stm32UartCallbacks σ)

/-- The reply to a complete line, `none` for the return value -1. -/
def stm32UartProtocolHandle (request : List Byte) (size : ℕ) (s : σ) : Option (List Byte) × σ :=
  if size = 0 then (none, s)
  else if request.length ≥ STM32_UART_PROTOCOL_LINE_SIZE then
    (copyReply size (text "ERR LINE_TOO_LONG\n"), s)
  else if request = text "PING" then (copyReply size (text "PONG\n"), s)
  else if request = text "STATUS" then
    let (led, s) := cb.getLed s
    if led ≠ 0 ∧ led ≠ 1 then (copyReply size (text "ERR DEVICE\n"), s)
    else
      let (uptime, s) := cb.uptimeMs s
      (snprintfReply size (text "STATUS LED=" ++ decimalInt led ++ text " UPTIME_MS=" ++
        decimal uptime.toNat ++ text "\n"), s)
  else if request = text "LED ON" ∨ request = text "LED OFF" then
    let enabled : ℤ := if request = text "LED ON" then 1 else 0
    let (set, s) := cb.setLed enabled s
    if set ≠ 0 then (copyReply size (text "ERR DEVICE\n"), s)
    else
      let (led, s) := cb.getLed s
      if led ≠ enabled then (copyReply size (text "ERR DEVICE\n"), s)
      else (copyReply size (if enabled ≠ 0 then text "OK LED=1\n" else text "OK LED=0\n"), s)
  else if strncmp request (text "HEARTBEAT ") then
    match Stm32Uart.parseUnsigned (request.drop 10) with
    | none => (copyReply size (text "ERR ARGUMENT\n"), s)
    | some sequence =>
      (snprintfReply size (text "OK HEARTBEAT=" ++ decimal sequence ++ text "\n"), s)
  else (copyReply size (text "ERR COMMAND\n"), s)

/-- `none`: a callback is missing. -/
def stm32UartProtocolInit (p : Stm32UartCallbackPointers σ) :
    Option (Stm32UartCallbacks σ × Stm32UartProtocol) :=
  match p.setLed, p.getLed, p.uptimeMs, p.send with
  | some setLed, some getLed, some uptimeMs, some send =>
    some (⟨setLed, getLed, uptimeMs, send⟩, Stm32Uart.initial)
  | _, _, _, _ => none

def stm32UartProtocolFeed (p : Stm32UartProtocol) (byte : Byte) (s : σ) :
    ℤ × Stm32UartProtocol × σ :=
  if byte = LF then
    let (result, s) :=
      if p.discarding then
        (copyReply STM32_UART_PROTOCOL_LINE_SIZE
          (if p.lineTooLong then text "ERR LINE_TOO_LONG\n" else text "ERR COMMAND\n"), s)
      else stm32UartProtocolHandle cb p.line STM32_UART_PROTOCOL_LINE_SIZE s
    match result with
    | none => (-1, Stm32Uart.initial, s)
    | some reply =>
      let (sent, s) := cb.send reply s
      (sent, Stm32Uart.initial, s)
  else if p.discarding then (0, p, s)
  else if p.carriageReturn then (0, { p with discarding := true }, s)
  else if byte = CR then (0, { p with carriageReturn := true }, s)
  else if byte < 0x20 ∨ byte > 0x7e then (0, { p with discarding := true }, s)
  else if p.line.length ≥ STM32_UART_PROTOCOL_LINE_SIZE - 1 then
    (0, { p with discarding := true, lineTooLong := true }, s)
  else (0, { p with line := p.line ++ [byte] }, s)

/-- Feed a sequence of bytes. -/
def feedAll (p : Stm32UartProtocol) : List Byte → σ → Stm32UartProtocol × σ
  | [], s => (p, s)
  | b :: bs, s => let r := stm32UartProtocolFeed cb p b s; feedAll r.2.1 bs r.2.2

end Firmware

/-! ### What is called -/

/-- A call of a callback, with its argument or result. -/
inductive Stm32UartCall
  | setLed (enabled : ℤ)
  | getLed
  | uptimeMs
  | send (data : List Byte)
deriving DecidableEq, Repr

/-- The data of the sends among the calls. -/
def sends : List Stm32UartCall → List (List Byte) :=
  List.filterMap fun
    | .send data => some data
    | _ => none

theorem sends_append (calls calls' : List Stm32UartCall) : sends (calls ++ calls') = sends calls ++ sends calls' :=
  List.filterMap_append

/-- The same callbacks, noting every call. -/
def Stm32UartCallbacks.traced {σ : Type} (cb : Stm32UartCallbacks σ) :
    Stm32UartCallbacks (σ × List Stm32UartCall) where
  setLed v s := let r := cb.setLed v s.1; (r.1, r.2, s.2 ++ [.setLed v])
  getLed s := let r := cb.getLed s.1; (r.1, r.2, s.2 ++ [.getLed])
  uptimeMs s := let r := cb.uptimeMs s.1; (r.1, r.2, s.2 ++ [.uptimeMs])
  send d s := let r := cb.send d s.1; (r.1, r.2, s.2 ++ [.send d])

/-- A board whose LED works: setting it to 0 or 1 succeeds, reading it gives
what was set last, and nothing else changes it. -/
structure WorkingBoard (σ : Type) extends Stm32UartCallbacks σ where
  led : σ → Bool
  uptime : σ → UInt32
  setLed_ok : ∀ (b : Bool) (s : σ), (setLed b.toInt s).1 = 0 ∧ led (setLed b.toInt s).2 = b
  getLed_ok : ∀ s, (getLed s).1 = (led s).toInt ∧ led (getLed s).2 = led s ∧
    uptime (getLed s).2 = uptime s
  uptimeMs_ok : ∀ s, (uptimeMs s).1 = uptime s ∧ led (uptimeMs s).2 = led s
  send_ok : ∀ d s, led (send d s).2 = led s

section Line

variable {σ : Type} (cb : Stm32UartCallbacks σ)

theorem feedAll_append (p : Stm32UartProtocol) (xs ys : List Byte) (s : σ) :
    feedAll cb p (xs ++ ys) s = feedAll cb (feedAll cb p xs s).1 ys (feedAll cb p xs s).2 := by
  induction xs generalizing p s with
  | nil => rfl
  | cons b bs ih => simp only [List.cons_append, feedAll, ih]

/-- What a run of printable bytes since the last line feed leaves. -/
def lineState (raw : List Byte) : Stm32UartProtocol :=
  if raw.length ≤ 127 then ⟨raw, false, false, false⟩ else ⟨raw.take 127, false, true, true⟩

theorem lineState_nil : lineState [] = Stm32Uart.initial := rfl

theorem feed_printable (raw : List Byte) (b : Byte) (s : σ) (hb : printable b = true) :
    stm32UartProtocolFeed cb (lineState raw) b s = (0, lineState (raw ++ [b]), s) := by
  have hlf : b ≠ LF := by rintro rfl; exact absurd hb (by decide)
  have hcr : b ≠ CR := by rintro rfl; exact absurd hb (by decide)
  have hr : ¬ (b < 0x20 ∨ b > 0x7e) := by
    simp only [printable, Bool.and_eq_true, decide_eq_true_eq] at hb
    simp only [gt_iff_lt, not_or, UInt8.not_lt]
    exact hb
  simp only [stm32UartProtocolFeed, if_neg hlf, if_neg hcr, if_neg hr]
  by_cases h1 : raw.length ≤ 127
  · rw [lineState, if_pos h1]
    simp only [Bool.false_eq_true, if_false, STM32_UART_PROTOCOL_LINE_SIZE]
    by_cases h2 : raw.length = 127
    · rw [if_pos (by omega), lineState, if_neg (by simp [h2])]
      simp [h2]
    · rw [if_neg (by omega), lineState, if_pos (by simp; omega)]
  · rw [lineState, if_neg h1]
    simp only [if_true]
    rw [lineState, if_neg (by simp; omega), List.take_append_of_le_length (by omega)]

theorem feedAll_printable (raw : List Byte) : ∀ (bs : List Byte) (s : σ),
    (∀ b ∈ bs, printable b = true) → feedAll cb (lineState raw) bs s = (lineState (raw ++ bs), s) := by
  intro bs
  induction bs generalizing raw with
  | nil => intro s _; simp [feedAll]
  | cons b bs ih =>
    intro s h
    rw [feedAll, feed_printable cb raw b s (h b List.mem_cons_self)]
    simp only [ih (raw ++ [b]) s fun x hx => h x (List.mem_cons_of_mem _ hx), List.append_assoc,
      List.singleton_append]

/-- The answer to the line feed after a run of printable bytes. -/
def lineReply (raw : List Byte) (s : σ) : Option (List Byte) × σ :=
  if raw.length ≤ 127 then stm32UartProtocolHandle cb raw STM32_UART_PROTOCOL_LINE_SIZE s
  else (some (text "ERR LINE_TOO_LONG\n"), s)

theorem feed_LF (raw : List Byte) (s : σ) : stm32UartProtocolFeed cb (lineState raw) LF s =
    match (lineReply cb raw s).1 with
    | none => (-1, Stm32Uart.initial, (lineReply cb raw s).2)
    | some reply => ((cb.send reply (lineReply cb raw s).2).1, Stm32Uart.initial,
        (cb.send reply (lineReply cb raw s).2).2) := by
  rw [stm32UartProtocolFeed, if_pos rfl]
  by_cases h : raw.length ≤ 127
  · rw [lineState, if_pos h, lineReply, if_pos h]
    rfl
  · rw [lineState, if_neg h, lineReply, if_neg h]
    rfl

end Line

end DeviceRuntime
