/-
# Host and firmware agree on every request

The host's `uartProtocolRequest` wired to the firmware's byte automaton: what
is written is fed to the firmware, what the firmware sends is what the host
reads, with the line feed as it is or turned into carriage return and line
feed. Every request the host accepts is answered by one send, the host takes
that line as the reply, and the LED is as asked (`request_agreement`).

Key definitions: `Wire`, `wire`, `UartReady`.
Key theorems: `receive_line`, `request_agreement`.
-/
import DeviceRuntime.Lib.Safe
import DeviceRuntime.RequestLine

namespace DeviceRuntime

open Prog

/-- A device on which a request gets as far as the backend. -/
structure UartReady (d : Device) : Prop where
  uart : d.config.type = .uart
  ready : deviceReady d = none
  control : d.ops.all (fun ops => !ops.hasControl) = false
  read : d.ops.all (fun ops => !ops.hasRead) = false

/-- A callback that does not fail leaves the device ready. -/
theorem UartReady.return {d : Device} (h : UartReady d) {r : CallResult} (hr : ¬ r.ret < 0) :
    UartReady (deviceReturn d r).device := by
  have hd : (deviceReturn d r).device =
      { d with lastErrno := 0, state := if d.opened ≠ 0 then .opened else .closed } := by
    simp only [deviceReturn, deviceResult, if_pos hr]
  obtain ⟨h1, h2, h3, -⟩ := deviceReady_eq_none.mp h.ready
  rw [hd]
  refine ⟨h.uart, deviceReady_eq_none.mpr ⟨h1, h2, h3, ?_⟩, h.control, h.read⟩
  simp [h3]

/-- The line between the two ends: the firmware, its board with the calls
made, and the bytes that have arrived at the host. -/
structure Wire (σ : Type) where
  firmware : Stm32UartProtocol
  board : σ × List Stm32UartCall
  received : List Byte

/-- The line with its end as the host sees it. -/
def lineEnd (crlf : Bool) (data : List Byte) : List Byte :=
  data.flatMap fun b => if crlf ∧ b = LF then [CR, LF] else [b]

def timespecMs (t : Timespec) : ℤ := t.sec * 1000 + t.nsec.tdiv 1000000

section Wire

variable {σ : Type} (B : WorkingBoard σ) (crlf : Bool) (lo hi : ℤ)

/-- The device at the end of the line; the clock stays between `lo` and `hi`. -/
def wireSem : Wire σ → (o : DeviceCall) → DeviceCall.Ret o → Wire σ → Prop
  | w, .clockGettime, r, w' => ∃ t, r = .ok t ∧ lo ≤ timespecMs t ∧ timespecMs t < hi ∧ w' = w
  | w, .backendControl _ .uartFlush _, r, w' => r.ret = 0 ∧ w' = { w with received := [] }
  | w, .backendControl _ .uartWriteAll (.write q), r, w' =>
    let f := feedAll B.traced.toStm32UartCallbacks w.firmware q.data w.board
    r.ret = 0 ∧ w' = ⟨f.1, f.2, w.received ++
      lineEnd crlf ((sends f.2.2).drop (sends w.board.2).length).flatten⟩
  | w, .backendControl _ .uartWait (.timeout _), r, w' =>
    r.ret = (if w.received = [] then 0 else 1) ∧ w' = w
  | w, .backendRead _ 1, r, w' =>
    ∃ b rest, w.received = b :: rest ∧ r.1.ret = 1 ∧ r.2 = [b] ∧ w' = { w with received := rest }
  | _, _, _, _ => False

abbrev wire : World DeviceCall DeviceCall.Ret (Wire σ) := .alone (wireSem B crlf lo hi)

theorem monotonicMs_total (hlt : lo < hi) (w : Wire σ) :
    Total (wire B crlf lo hi) (fun r w' => lo ≤ r.ret ∧ r.ret < hi ∧ w' = w) monotonicMs w := by
  unfold monotonicMs DeviceCall.callClock
  refine .call ⟨.ok ⟨0, lo * 1000000⟩, w, ⟨0, lo * 1000000⟩, rfl, ?_, ?_, rfl⟩ ?_
  · simp only [timespecMs, Int.mul_tdiv_cancel _ (show (1000000 : ℤ) ≠ 0 by decide)]
    omega
  · simp only [timespecMs, Int.mul_tdiv_cancel _ (show (1000000 : ℤ) ≠ 0 by decide)]
    omega
  · rintro r w' ⟨t, rfl, h1, h2, rfl⟩
    exact .ret ⟨h1, h2, rfl⟩

theorem remainingMs_total (hlo : 0 ≤ lo) (hlt : lo < hi) {deadline : ℤ} (hd : hi ≤ deadline)
    (w : Wire σ) :
    Total (wire B crlf lo hi) (fun r w' => 0 < r.ret ∧ w' = w) (remainingMs deadline) w := by
  unfold remainingMs
  refine Total.bind (monotonicMs_total B crlf lo hi hlt w) ?_
  rintro now w' ⟨h1, h2, rfl⟩
  rw [if_neg (by omega), if_neg (by omega)]
  refine .ret ⟨?_, rfl⟩
  unfold INT_MAX
  dsimp only
  split_ifs <;> omega

/-- One turn of the receive loop takes one byte. -/
theorem receiveByte_total (hlo : 0 ≤ lo) (hlt : lo < hi) {deadline : ℤ} (hd : hi ≤ deadline)
    {s : Receiving} (hs : UartReady s.device) (w : Wire σ) (b : Byte) (rest : List Byte) :
    Total (wire B crlf lo hi)
      (fun x w' => ∃ d, UartReady d ∧ x = acceptByte { s with device := d } b ∧
        w' = { w with received := rest })
      (receiveByte deadline s) { w with received := b :: rest } := by
  unfold receiveByte
  refine Total.bind (remainingMs_total B crlf lo hi hlo hlt hd _) ?_
  rintro timeout w' ⟨ht, rfl⟩
  rw [if_neg (by omega), deviceControl_ready hs.ready hs.control]
  refine .call ⟨⟨1, 0⟩, { w with received := b :: rest }, rfl, rfl⟩ ?_
  rintro ready w' ⟨hready, rfl⟩
  have hret : (deviceReturn s.device ready).ret = 1 := hready
  have hd₁ : UartReady (deviceReturn s.device ready).device := by
    refine hs.return ?_
    rw [show ready.ret = 1 from hready]
    decide
  simp only [bind_eq, ret_bind, pure_eq, hret, show ¬ (1 : ℤ) < 0 by decide, show ¬ (1 : ℤ) = 0 by decide,
    if_false]
  rw [deviceRead_ready hd₁.ready hd₁.read (by decide)]
  refine .call ⟨(⟨1, 0⟩, [b]), { w with received := rest }, b, rest, rfl, rfl, rfl, rfl⟩ ?_
  rintro result w' ⟨b', rest', hb, hret', hdata, rfl⟩
  obtain ⟨rfl, rfl⟩ : b' = b ∧ rest' = rest := by
    have : b :: rest = b' :: rest' := hb
    simp only [List.cons.injEq] at this
    exact ⟨this.1.symm, this.2.symm⟩
  have hret₂ : (deviceReturn (deviceReturn s.device ready).device result.1).ret = 1 := hret'
  simp only [ret_bind, hret₂, show ¬ (1 : ℤ) < 0 by decide, show ¬ (1 : ℤ) = 0 by decide, if_false,
    hdata, List.headD_cons]
  refine .ret ⟨_, hd₁.return ?_, rfl, rfl⟩
  rw [show result.1.ret = 1 from hret']
  decide

/-- The end of a line, as it is sent or with a carriage return before it. -/
theorem receive_end (hlo : 0 ≤ lo) (hlt : lo < hi) {deadline : ℤ} (hd : hi ≤ deadline)
    {d : Device} (hdev : UartReady d) (acc : List Byte) (w : Wire σ) :
    Total (wire B crlf lo hi)
      (fun r w' => UartReady r.device ∧ r.line = .ok acc ∧ w' = { w with received := [] })
      (.iter (receiveByte deadline) ⟨d, acc, false⟩) { w with received := lineEnd crlf [LF] } := by
  -- the line feed itself, after a carriage return or not
  have hlf : ∀ (cr : Bool) (d : Device), UartReady d → Total (wire B crlf lo hi)
      (fun r w' => UartReady r.device ∧ r.line = .ok acc ∧ w' = { w with received := [] })
      (.iter (receiveByte deadline) ⟨d, acc, cr⟩) { w with received := [LF] } := by
    intro cr d hdev
    refine .loop (Total.bind (receiveByte_total B crlf lo hi hlo hlt hd hdev w LF []) ?_)
    rintro x w' ⟨d', hd', rfl, rfl⟩
    exact .ret ⟨hd', rfl, rfl⟩
  cases crlf with
  | false => exact hlf false d hdev
  | true =>
    refine .loop (Total.bind (receiveByte_total B true lo hi hlo hlt hd hdev w CR [LF]) ?_)
    rintro x w' ⟨d', hd', rfl, rfl⟩
    exact hlf true d' hd'

/-- The receive loop takes a line that fits, byte by byte. -/
theorem receive_line (hlo : 0 ≤ lo) (hlt : lo < hi) {deadline : ℤ} (hd : hi ≤ deadline) (w : Wire σ) :
    ∀ (bs acc : List Byte) (d : Device), UartReady d → (∀ b ∈ bs, printable b = true) →
      acc.length + bs.length ≤ 127 →
      Total (wire B crlf lo hi)
        (fun r w' => UartReady r.device ∧ r.line = .ok (acc ++ bs) ∧ w' = { w with received := [] })
        (.iter (receiveByte deadline) ⟨d, acc, false⟩)
        { w with received := bs ++ lineEnd crlf [LF] }
  | [], acc, d, hdev, _, _ => by
    rw [List.append_nil, List.nil_append]
    exact receive_end B crlf lo hi hlo hlt hd hdev acc w
  | b :: bs, acc, d, hdev, hp, hlen => by
    refine .loop (Total.bind
      (receiveByte_total B crlf lo hi hlo hlt hd hdev w b (bs ++ lineEnd crlf [LF])) ?_)
    rintro x w' ⟨d', hd', rfl, rfl⟩
    have hb := hp b List.mem_cons_self
    have hlf : b ≠ LF := by rintro rfl; exact absurd hb (by decide)
    have hcr : b ≠ CR := by rintro rfl; exact absurd hb (by decide)
    have hr : ¬ (b < 0x20 ∨ b > 0x7e) := by
      simp only [printable, Bool.and_eq_true, decide_eq_true_eq] at hb
      simp only [gt_iff_lt, not_or, UInt8.not_lt]
      exact hb
    simp only [List.length_cons] at hlen
    have hfit : ¬ acc.length ≥ UART_PROTOCOL_LINE_SIZE - 1 := by
      unfold UART_PROTOCOL_LINE_SIZE
      omega
    have hacc : acceptByte ⟨d', acc, false⟩ b = .inl ⟨d', acc ++ [b], false⟩ := by
      simp only [acceptByte, if_neg hlf, if_neg hcr, if_neg hr, if_neg hfit, Bool.false_eq_true, if_false]
    rw [hacc]
    have ih := receive_line hlo hlt hd w bs (acc ++ [b]) d' hd'
      (fun c hc => hp c (List.mem_cons_of_mem _ hc)) (by simp only [List.length_append, List.length_singleton]; omega)
    rw [List.append_assoc] at ih
    exact ih

/-- Writing a request has the firmware send its answer. -/
theorem feedAll_request {r : List Byte} {q : UartRequest} {n : ℕ} (h : parseRequest r = some (q, n))
    (hlen : r.length ≤ 127) (s : σ) : ∃ s' calls,
      feedAll B.traced.toStm32UartCallbacks Stm32Uart.initial (r ++ [LF]) (s, []) =
        (Stm32Uart.initial, (s', calls)) ∧
      sends calls = [expectedReply (B.led s) (B.uptime s) n q ++ [LF]] ∧
      B.led s' = ledAfter (B.led s) q := by
  obtain ⟨ret, reply, s', calls, hfeed, hsends, hans⟩ := feed_line B r s []
  simp only [Answered, if_pos hlen, h] at hans
  obtain ⟨rfl, hled⟩ := hans
  refine ⟨s', calls, ?_, hsends, hled⟩
  rw [feedAll_append, ← lineState_nil,
    feedAll_printable B.traced.toStm32UartCallbacks [] r (s, []) (printable_of_parseRequest h),
    List.nil_append, feedAll, hfeed]
  rfl

theorem lineEnd_line {line : List Byte} (h : ∀ b ∈ line, printable b = true) :
    lineEnd crlf (line ++ [LF]) = line ++ lineEnd crlf [LF] := by
  have hline : lineEnd crlf line = line := by
    induction line with
    | nil => rfl
    | cons b bs ih =>
      have hb : b ≠ LF := by
        rintro rfl
        exact absurd (h LF List.mem_cons_self) (by decide)
      have hbs := ih fun c hc => h c (List.mem_cons_of_mem _ hc)
      simp only [lineEnd, List.flatMap_cons, if_neg (fun h => hb h.2 : ¬ (crlf = true ∧ b = LF))] at hbs ⊢
      rw [hbs]
      rfl
  rw [lineEnd, List.flatMap_append]
  exact congrArg (· ++ _) hline

/-- **The host and the firmware agree.** Every request of at most 127 bytes
the host accepts, written to a firmware between two lines, has it send one
line; the host, reading that line before its deadline, returns 0 with exactly
it, and the LED is as asked. And the host takes none of the firmware's
refusals for a reply. -/
theorem request_agreement {d : Device} (hd : UartReady d) {request : List Byte} {q : UartRequest}
    {n : ℕ} (hreq : parseRequest request = some (q, n)) (hlen : request.length ≤ 127)
    (s : σ) (pending reply : List Byte) {timeoutMs : ℤ} (hlo : 0 ≤ lo) (hlt : lo < hi)
    (hhi : hi ≤ lo + timeoutMs) :
    Total (wire B crlf lo hi)
      (fun r w => ∃ line,
        sends w.board.2 = [line ++ [LF]] ∧ r.ret = 0 ∧ r.reply = line ∧
        line = expectedReply (B.led s) (B.uptime s) n q ∧
        (q = .heartbeat → n = numberOf (request.drop 10)) ∧
        B.led w.board.1 = ledAfter (B.led s) q)
      (uartProtocolRequest d request reply 128 timeoutMs)
      ⟨Stm32Uart.initial, (s, []), pending⟩ ∧
    ∀ e ∈ errLines, ∀ q n, validateReply q n e = false := by
  refine ⟨?_, fun e he q n => validateReply_err he q n⟩
  obtain ⟨-, henabled, hopened, -⟩ := deviceReady_eq_none.mp hd.ready
  have hn : n ≤ UINT32_MAX ∧ (q = .heartbeat → n = numberOf (request.drop 10)) := by
    rcases parseRequest_eq_some hreq with ⟨-, rfl, rfl⟩ | ⟨-, rfl, rfl⟩ | ⟨-, rfl, rfl⟩ | ⟨-, rfl, rfl⟩ |
      ⟨ds, rfl, rfl, hds⟩
    · exact ⟨Nat.zero_le _, fun h => by cases h⟩
    · exact ⟨Nat.zero_le _, fun h => by cases h⟩
    · exact ⟨Nat.zero_le _, fun h => by cases h⟩
    · exact ⟨Nat.zero_le _, fun h => by cases h⟩
    · obtain ⟨-, -, hv, hmax⟩ := scanUnsigned_eq_some.mp hds
      exact ⟨hmax, fun _ => hv⟩
  unfold uartProtocolRequest
  rw [if_neg (by simp only [hd.uart, ne_eq, not_true_eq_false, false_or, not_or]; omega),
    if_neg henabled, if_neg hopened,
    if_neg (by unfold UART_PROTOCOL_LINE_SIZE; omega), hreq]
  dsimp only
  rw [if_neg (by omega)]
  refine Total.bind (monotonicMs_total B crlf lo hi hlt _) ?_
  rintro now w₁ ⟨hnow₁, hnow₂, rfl⟩
  rw [if_neg (by omega)]
  have hdeadline : hi ≤ now.ret + timeoutMs := by omega
  -- the flush
  simp only [deviceControl_ready hd.ready hd.control]
  refine .call ⟨⟨0, 0⟩, _, rfl, rfl⟩ ?_
  rintro flush w₂ ⟨hflush, rfl⟩
  have hret₁ : (deviceReturn d flush).ret = 0 := hflush
  have hd₁ : UartReady (deviceReturn d flush).device :=
    hd.return (by rw [hflush]; decide)
  simp only [bind_eq, ret_bind, hret₁, show ¬ (0 : ℤ) < 0 by decide, if_false]
  refine Total.bind (remainingMs_total B crlf lo hi hlo hlt hdeadline _) ?_
  rintro timeout w₃ ⟨htimeout, rfl⟩
  rw [if_neg (by omega)]
  -- the write
  obtain ⟨s', calls, hfeed, hsends, hled⟩ := feedAll_request B hreq hlen s
  have hline := printable_expectedReply (B.led s) (B.uptime s) n q
  have hline_len := length_expectedReply (B.led s) (B.uptime s) hn.1 q
  simp only [deviceControl_ready hd₁.ready hd₁.control]
  refine .call ⟨⟨0, 0⟩, _, rfl, rfl⟩ ?_
  rintro write w₄ ⟨hwrite, rfl⟩
  have hret₂ : (deviceReturn (deviceReturn d flush).device write).ret = 0 := hwrite
  have hd₂ : UartReady (deviceReturn (deviceReturn d flush).device write).device :=
    hd₁.return (by rw [hwrite]; decide)
  simp only [ret_bind, hret₂, show ¬ (0 : ℤ) < 0 by decide, if_false, hfeed, hsends,
    show (sends ([] : List Stm32UartCall)).length = 0 from rfl, List.drop_zero, List.flatten_cons,
    List.flatten_nil, List.append_nil, List.nil_append, lineEnd_line crlf hline]
  -- the reply
  refine Total.bind (receive_line B crlf lo hi hlo hlt hdeadline ⟨Stm32Uart.initial, (s', calls), []⟩ _
    [] _ hd₂ hline (by simp only [List.length_nil]; omega)) ?_
  rintro received w₅ ⟨-, hreceived, rfl⟩
  rw [hreceived, List.nil_append]
  dsimp only
  refine Total.bind (remainingMs_total B crlf lo hi hlo hlt hdeadline _) ?_
  rintro left w₆ ⟨hleft, rfl⟩
  rw [if_neg (by omega), validateReply_expected hn.1 q, if_neg (by decide), if_neg (by omega)]
  exact .ret ⟨_, hsends, rfl, rfl, rfl, hn.2, hled⟩

end Wire

/-! ### A board that is its LED -/

def ledBoard (uptime : UInt32) : WorkingBoard Bool where
  setLed v _ := (0, decide (v ≠ 0))
  getLed s := (s.toInt, s)
  uptimeMs s := (uptime, s)
  send _ s := (0, s)
  led s := s
  uptime _ := uptime
  setLed_ok b _ := by cases b <;> exact ⟨rfl, rfl⟩
  getLed_ok _ := ⟨rfl, rfl, rfl⟩
  uptimeMs_ok _ := ⟨rfl, rfl⟩
  send_ok _ _ := rfl

/-- An open serial device. -/
def openUart : Device where
  config := ⟨text "stm32", .uart, text "/dev/ttyS3", 1, 115200, 0, 0, 0, 0, 0, []⟩
  ops := some ⟨.uartOps, true, true, true, true, true, true⟩
  context := some 0
  state := .opened
  opened := 1
  lastErrno := 0

theorem openUart_ready : UartReady openUart := ⟨rfl, rfl, rfl, rfl⟩

/-- A heartbeat with leading zeros, answered with carriage return and line feed. -/
theorem request_agreement_heartbeat : ∃ r w,
    Reach (wire (ledBoard 7) true 0 1000)
      (uartProtocolRequest openUart (text "HEARTBEAT 0042") [] 128 1000,
        ⟨Stm32Uart.initial, (false, []), text "PONG"⟩) (.ret r, w) ∧
    r.ret = 0 ∧ r.reply = text "OK HEARTBEAT=42" := by
  obtain ⟨r, w, hreach, line, -, hret, hreply, hline, -⟩ :=
    (request_agreement (ledBoard 7) true 0 1000 openUart_ready
      (show parseRequest (text "HEARTBEAT 0042") = some (.heartbeat, 42) by decide) (by decide) false
      (text "PONG") [] (by decide) (by decide) (show (1000 : ℤ) ≤ 0 + 1000 by decide)).1.returns
  refine ⟨r, w, hreach, hret, ?_⟩
  rw [hreply, hline]
  decide

end DeviceRuntime
