/-
# Requests and replies

What the two ends of the serial line agree on. A line the host accepts as a
request is one of four words or `HEARTBEAT` with a number
(`parseRequest_eq_some`); a board whose LED works answers exactly these with
the reply the host validates, and every other line with one of its four `ERR`
lines, which the host never takes (`handle_request`, `handle_other`,
`validateReply_err`).

Key definitions: `expectedReply`, `ledAfter`, `errLines`.
Key theorems: `handle_request`, `handle_other`, `validateReply_expected`,
`validateReply_err`.
-/
import Mathlib.Data.List.Infix
import DeviceRuntime.Stm32Uart
import DeviceRuntime.UartProtocol

namespace DeviceRuntime

/-! ### Requests -/

theorem parseRequest_eq_some {r : List Byte} {q : UartRequest} {n : ℕ}
    (h : parseRequest r = some (q, n)) :
    (r = text "PING" ∧ q = .ping ∧ n = 0) ∨ (r = text "STATUS" ∧ q = .status ∧ n = 0) ∨
    (r = text "LED ON" ∧ q = .ledOn ∧ n = 0) ∨ (r = text "LED OFF" ∧ q = .ledOff ∧ n = 0) ∨
    (∃ ds, r = text "HEARTBEAT " ++ ds ∧ q = .heartbeat ∧ scanUnsigned ds = some n) := by
  unfold parseRequest at h
  split_ifs at h with h1 h2 h3 h4 h5
  · simp only [Option.some.injEq, Prod.mk.injEq] at h
    exact .inl ⟨h1, h.1.symm, h.2.symm⟩
  · simp only [Option.some.injEq, Prod.mk.injEq] at h
    exact .inr (.inl ⟨h2, h.1.symm, h.2.symm⟩)
  · simp only [Option.some.injEq, Prod.mk.injEq] at h
    exact .inr (.inr (.inl ⟨h3, h.1.symm, h.2.symm⟩))
  · simp only [Option.some.injEq, Prod.mk.injEq] at h
    exact .inr (.inr (.inr (.inl ⟨h4, h.1.symm, h.2.symm⟩)))
  · obtain ⟨ds, rfl⟩ := strncmp_iff.mp h5
    rw [show (10 : ℕ) = (text "HEARTBEAT ").length from rfl, List.drop_left] at h
    obtain ⟨m, hm, he⟩ := Option.map_eq_some_iff.mp h
    simp only [Prod.mk.injEq] at he
    exact .inr (.inr (.inr (.inr ⟨ds, rfl, he.1.symm, he.2 ▸ hm⟩)))

/-- A string that goes on after `a` is no string that does not start with `a`. -/
theorem append_ne {a w : List Byte} (h : w.take a.length ≠ a) (ds : List Byte) : a ++ ds ≠ w := by
  rintro rfl
  exact h List.take_left

theorem parseRequest_heartbeat (ds : List Byte) : parseRequest (text "HEARTBEAT " ++ ds) =
    (scanUnsigned ds).map fun n => (.heartbeat, n) := by
  unfold parseRequest
  rw [if_neg (append_ne (by decide) ds), if_neg (append_ne (by decide) ds),
    if_neg (append_ne (by decide) ds), if_neg (append_ne (by decide) ds),
    if_pos (strncmp_iff.mpr ⟨ds, rfl⟩), show (10 : ℕ) = (text "HEARTBEAT ").length from rfl,
    List.drop_left]
  rfl

theorem printable_of_all {t : List Byte} (h : t.all printable = true) : ∀ c ∈ t, printable c = true :=
  List.all_eq_true.mp h

theorem printable_text_append {t ds : List Byte} (ht : ∀ c ∈ t, printable c = true)
    (hd : ∀ c ∈ ds, printable c = true) : ∀ c ∈ t ++ ds, printable c = true := by
  intro c hc
  rcases List.mem_append.mp hc with hc | hc
  · exact ht c hc
  · exact hd c hc

/-- The host sends nothing but printable characters and the line feed. -/
theorem printable_of_parseRequest {r : List Byte} {q : UartRequest} {n : ℕ}
    (h : parseRequest r = some (q, n)) : ∀ c ∈ r, printable c = true := by
  rcases parseRequest_eq_some h with ⟨rfl, -⟩ | ⟨rfl, -⟩ | ⟨rfl, -⟩ | ⟨rfl, -⟩ | ⟨ds, rfl, -, hd⟩
  · exact printable_of_all (by decide)
  · exact printable_of_all (by decide)
  · exact printable_of_all (by decide)
  · exact printable_of_all (by decide)
  · exact printable_text_append (printable_of_all (by decide)) fun c hc =>
      printable_of_isdigit ((scanUnsigned_eq_some.mp hd).2.1 c hc)

/-- Every request starts with the first letter of its word. -/
theorem head_of_parseRequest {r : List Byte} {x : UartRequest × ℕ} (h : parseRequest r = some x) :
    r.headD 0 = 'P'.toUInt8 ∨ r.headD 0 = 'S'.toUInt8 ∨ r.headD 0 = 'L'.toUInt8 ∨
      r.headD 0 = 'H'.toUInt8 := by
  rcases parseRequest_eq_some (q := x.1) (n := x.2) h with
    ⟨rfl, -⟩ | ⟨rfl, -⟩ | ⟨rfl, -⟩ | ⟨rfl, -⟩ | ⟨ds, rfl, -⟩
  · exact .inl rfl
  · exact .inr (.inl rfl)
  · exact .inr (.inr (.inl rfl))
  · exact .inr (.inr (.inl rfl))
  · exact .inr (.inr (.inr rfl))

/-- No request follows other bytes on a line that is a request itself. -/
theorem prefix_nil_of_parseRequest {p r : List Byte} {x y : UartRequest × ℕ}
    (hr : parseRequest r = some x) (h : parseRequest (p ++ r) = some y) : p = [] := by
  have hsuf : r <:+ p ++ r := List.suffix_append p r
  have hhead := head_of_parseRequest hr
  by_contra hp
  -- a proper suffix of a word that starts with P, S, L or H is too short to be a word
  have hword : ∀ w : List Byte, (∀ t ∈ w.tails, t ≠ w → parseRequest t = none) → p ++ r ≠ w := by
    intro w hw he
    have hne : r ≠ w := by
      intro hrw
      have hlen := congrArg List.length (he.trans hrw.symm)
      rw [List.length_append] at hlen
      exact hp (List.length_eq_zero_iff.mp (by omega))
    have hnone := hw r (by rw [← he]; exact (List.mem_tails r _).mpr hsuf) hne
    rw [hr] at hnone
    cases hnone
  rcases parseRequest_eq_some (q := y.1) (n := y.2) h with
    ⟨he, -⟩ | ⟨he, -⟩ | ⟨he, -⟩ | ⟨he, -⟩ | ⟨ds, he, -, hd⟩
  · exact hword _ (by decide) he
  · exact hword _ (by decide) he
  · exact hword _ (by decide) he
  · exact hword _ (by decide) he
  · -- the letters of HEARTBEAT behind the first, the blank and the digits start no word
    have hdig := (scanUnsigned_eq_some.mp hd).2.1
    cases p with
    | nil => exact hp rfl
    | cons b p =>
      have he' : p ++ r = text "EARTBEAT " ++ ds := by
        have : b :: (p ++ r) = 'H'.toUInt8 :: (text "EARTBEAT " ++ ds) := he
        exact (List.cons.inj this).2
      have hmem : ∀ c ∈ r, c ∈ text "EARTBEAT " ∨ isdigit c = true := by
        intro c hc
        have hc' : c ∈ text "EARTBEAT " ++ ds := by
          rw [← he']
          exact List.mem_append_right p hc
        rcases List.mem_append.mp hc' with hc | hc
        · exact .inl hc
        · exact .inr (hdig c hc)
      cases r with
      | nil => cases hr
      | cons c r =>
        simp only [List.headD_cons] at hhead
        have := hmem c List.mem_cons_self
        rcases hhead with rfl | rfl | rfl | rfl <;> revert this <;> decide

/-! ### Replies -/

/-- The four lines with which the firmware refuses. -/
def errLines : List (List Byte) :=
  [text "ERR LINE_TOO_LONG", text "ERR DEVICE", text "ERR ARGUMENT", text "ERR COMMAND"]

/-- The host takes none of the refusals, whatever it asked. -/
theorem validateReply_err {e : List Byte} (he : e ∈ errLines) (q : UartRequest) (n : ℕ) :
    validateReply q n e = false := by
  simp only [errLines, List.mem_cons, List.not_mem_nil, or_false] at he
  cases q with
  | heartbeat =>
    have hs : strncmp e (text "OK HEARTBEAT=") = false := by
      rcases he with rfl | rfl | rfl | rfl <;> decide
    simp only [validateReply, hs, Bool.false_and]
  | ping => rcases he with rfl | rfl | rfl | rfl <;> rfl
  | status => rcases he with rfl | rfl | rfl | rfl <;> rfl
  | ledOn => rcases he with rfl | rfl | rfl | rfl <;> rfl
  | ledOff => rcases he with rfl | rfl | rfl | rfl <;> rfl

/-- The line, without its line feed, that answers a request on a board whose
LED is `led` and whose clock shows `uptime`. -/
def expectedReply (led : Bool) (uptime : UInt32) (n : ℕ) : UartRequest → List Byte
  | .ping => text "PONG"
  | .status =>
    text "STATUS LED=" ++ decimalInt led.toInt ++ text " UPTIME_MS=" ++ decimal uptime.toNat
  | .ledOn => text "OK LED=1"
  | .ledOff => text "OK LED=0"
  | .heartbeat => text "OK HEARTBEAT=" ++ decimal n

/-- The LED after a request. -/
def ledAfter (led : Bool) : UartRequest → Bool
  | .ledOn => true
  | .ledOff => false
  | _ => led

theorem decimalInt_toInt (b : Bool) : decimalInt b.toInt = if b then ['1'.toUInt8] else ['0'.toUInt8] := by
  cases b <;> decide

theorem toNat_le_UINT32_MAX (x : UInt32) : x.toNat ≤ UINT32_MAX := by
  have := x.toNat_lt
  unfold UINT32_MAX
  omega

/-- What the firmware prints the host reads, and finds to be the answer. -/
theorem validateReply_expected {led : Bool} {uptime : UInt32} {n : ℕ} (hn : n ≤ UINT32_MAX)
    (q : UartRequest) : validateReply q n (expectedReply led uptime n q) = true := by
  cases q with
  | ping => rfl
  | ledOn => rfl
  | ledOff => rfl
  | status =>
    have h1 : ∀ c : Byte, ∀ ds, (text "STATUS LED=" ++ [c] ++ text " UPTIME_MS=" ++ ds).drop 12 =
        text " UPTIME_MS=" ++ ds := fun _ _ => rfl
    have h2 : ∀ c : Byte, ∀ ds, (text "STATUS LED=" ++ [c] ++ text " UPTIME_MS=" ++ ds).drop 23 = ds :=
      fun _ _ => rfl
    have h3 : ∀ c : Byte, ∀ ds, strncmp (text "STATUS LED=" ++ [c] ++ text " UPTIME_MS=" ++ ds)
        (text "STATUS LED=") = true := fun c ds => strncmp_iff.mpr ⟨[c] ++ text " UPTIME_MS=" ++ ds, by simp⟩
    have hpos := List.length_pos_iff.mpr (decimal_ne_nil uptime.toNat)
    have hlen : ∀ c : Byte, 24 ≤ (text "STATUS LED=" ++ [c] ++ text " UPTIME_MS=" ++
        decimal uptime.toNat).length := by
      intro c
      simp only [List.length_append, List.length_singleton, show (text "STATUS LED=").length = 11 from rfl,
        show (text " UPTIME_MS=").length = 11 from rfl]
      omega
    simp only [expectedReply, decimalInt_toInt, validateReply]
    cases led
    all_goals
      simp only [Bool.false_eq_true, if_true, if_false, h1, h2, h3, hlen, decide_true, Bool.true_and,
        UartProtocol.parseUnsigned, scanUnsigned_decimal (toNat_le_UINT32_MAX uptime),
        strncmp_iff.mpr ⟨decimal uptime.toNat, rfl⟩, Option.isSome_some, Bool.and_true]
      rfl
  | heartbeat =>
    have h1 : (text "OK HEARTBEAT=" ++ decimal n).drop 13 = decimal n := rfl
    simp only [expectedReply, validateReply, h1, UartProtocol.parseUnsigned, scanUnsigned_decimal hn,
      strncmp_iff.mpr ⟨decimal n, rfl⟩, decide_true, Bool.and_true]

theorem length_expectedReply (led : Bool) (uptime : UInt32) {n : ℕ} (hn : n ≤ UINT32_MAX)
    (q : UartRequest) : (expectedReply led uptime n q).length ≤ 33 := by
  have h1 := length_decimal_le hn
  have h2 := length_decimal_le (toNat_le_UINT32_MAX uptime)
  cases q with
  | ping => exact show (text "PONG").length ≤ 33 by decide
  | ledOn => exact show (text "OK LED=1").length ≤ 33 by decide
  | ledOff => exact show (text "OK LED=0").length ≤ 33 by decide
  | status =>
    have h3 : (decimalInt led.toInt).length = 1 := by cases led <;> rfl
    simp only [expectedReply, List.length_append, h3, show (text "STATUS LED=").length = 11 from rfl,
      show (text " UPTIME_MS=").length = 11 from rfl]
    omega
  | heartbeat =>
    simp only [expectedReply, List.length_append, show (text "OK HEARTBEAT=").length = 13 from rfl]
    omega

theorem printable_expectedReply (led : Bool) (uptime : UInt32) (n : ℕ) (q : UartRequest) :
    ∀ c ∈ expectedReply led uptime n q, printable c = true := by
  have hdec : ∀ m, ∀ c ∈ decimal m, printable c = true := fun m c hc =>
    printable_of_isdigit (isdigit_of_mem_decimal c hc)
  cases q with
  | ping => exact printable_of_all (t := expectedReply false 0 0 .ping) (by decide)
  | ledOn => exact printable_of_all (t := expectedReply false 0 0 .ledOn) (by decide)
  | ledOff => exact printable_of_all (t := expectedReply false 0 0 .ledOff) (by decide)
  | status =>
    have hled : ∀ c ∈ decimalInt led.toInt, printable c = true := by
      cases led
      · exact printable_of_all (by decide)
      · exact printable_of_all (by decide)
    refine printable_text_append (printable_text_append (printable_text_append ?_ hled) ?_) (hdec _)
    · exact printable_of_all (by decide)
    · exact printable_of_all (by decide)
  | heartbeat => exact printable_text_append (printable_of_all (by decide)) (hdec _)

/-! ### The handler on a working board -/

section Handler

variable {σ : Type} (B : WorkingBoard σ)

theorem snprintfReply_line {t : List Byte} (h : t.length < 127) :
    Stm32Uart.snprintfReply STM32_UART_PROTOCOL_LINE_SIZE (t ++ [LF]) = some (t ++ [LF]) := by
  rw [Stm32Uart.snprintfReply, if_pos]
  simp only [List.length_append, List.length_singleton, STM32_UART_PROTOCOL_LINE_SIZE]
  omega

/-- A request is answered, and the LED is as it asks. -/
theorem handle_request {r : List Byte} {q : UartRequest} {n : ℕ} (h : parseRequest r = some (q, n))
    (hlen : r.length ≤ 127) (s : σ) : ∃ s',
      stm32UartProtocolHandle B.toStm32UartCallbacks r STM32_UART_PROTOCOL_LINE_SIZE s =
        (some (expectedReply (B.led s) (B.uptime s) n q ++ [LF]), s') ∧
      B.led s' = ledAfter (B.led s) q := by
  have hshort : ¬ r.length ≥ STM32_UART_PROTOCOL_LINE_SIZE := by
    unfold STM32_UART_PROTOCOL_LINE_SIZE
    omega
  have hsize : ¬ STM32_UART_PROTOCOL_LINE_SIZE = 0 := by decide
  unfold stm32UartProtocolHandle
  rw [if_neg hsize, if_neg hshort]
  rcases parseRequest_eq_some h with ⟨rfl, rfl, rfl⟩ | ⟨rfl, rfl, rfl⟩ | ⟨rfl, rfl, rfl⟩ | ⟨rfl, rfl, rfl⟩ |
    ⟨ds, rfl, rfl, hd⟩
  · exact ⟨s, rfl, rfl⟩
  · obtain ⟨hg, hgl, hgu⟩ := B.getLed_ok s
    obtain ⟨hu, hul⟩ := B.uptimeMs_ok (B.getLed s).2
    refine ⟨(B.uptimeMs (B.getLed s).2).2, ?_, hul.trans hgl⟩
    have hled : ¬ ((B.getLed s).1 ≠ 0 ∧ (B.getLed s).1 ≠ 1) := by
      rw [hg]
      cases B.led s <;> decide
    have hlen' := length_expectedReply (B.led s) (B.uptime s) (Nat.zero_le UINT32_MAX) .status
    rw [if_neg (by decide), if_pos rfl]
    simp only [if_neg hled]
    rw [hu, hgu, hg]
    exact congrArg (·, _) (snprintfReply_line (by simp only [expectedReply] at hlen'; omega))
  · obtain ⟨hs, hsl⟩ := B.setLed_ok true s
    obtain ⟨hg, hgl, -⟩ := B.getLed_ok (B.setLed 1 s).2
    have hs : (B.setLed 1 s).1 = 0 := hs
    have hsl : B.led (B.setLed 1 s).2 = true := hsl
    refine ⟨(B.getLed (B.setLed 1 s).2).2, ?_, hgl.trans hsl⟩
    have hget : ¬ (B.getLed (B.setLed 1 s).2).1 ≠ 1 := by rw [hg, hsl]; decide
    rw [if_neg (by decide), if_neg (by decide), if_pos (.inl rfl), if_pos rfl]
    simp only [hs, ne_eq, not_true_eq_false, if_false, if_neg hget]
    rfl
  · obtain ⟨hs, hsl⟩ := B.setLed_ok false s
    obtain ⟨hg, hgl, -⟩ := B.getLed_ok (B.setLed 0 s).2
    have hs : (B.setLed 0 s).1 = 0 := hs
    have hsl : B.led (B.setLed 0 s).2 = false := hsl
    refine ⟨(B.getLed (B.setLed 0 s).2).2, ?_, hgl.trans hsl⟩
    have hget : ¬ (B.getLed (B.setLed 0 s).2).1 ≠ 0 := by rw [hg, hsl]; decide
    rw [if_neg (by decide), if_neg (by decide), if_pos (.inr rfl), if_neg (by decide)]
    simp only [hs, ne_eq, not_true_eq_false, if_false, if_neg hget]
    rfl
  · have hn := (scanUnsigned_eq_some.mp hd).2.2.2
    have hlen' := length_expectedReply (B.led s) (B.uptime s) hn .heartbeat
    refine ⟨s, ?_, rfl⟩
    rw [if_neg (append_ne (by decide) ds), if_neg (append_ne (by decide) ds),
      if_neg (not_or.mpr ⟨append_ne (by decide) ds, append_ne (by decide) ds⟩),
      if_pos (strncmp_iff.mpr ⟨ds, rfl⟩),
      show (text "HEARTBEAT " ++ ds).drop 10 = ds from rfl]
    simp only [Stm32Uart.parseUnsigned, hd]
    exact congrArg (·, _) (snprintfReply_line (by simp only [expectedReply] at hlen'; omega))

/-- Any other line is refused, and the LED stays. -/
theorem handle_other {r : List Byte} (h : parseRequest r = none) (hlen : r.length ≤ 127) (s : σ) :
    ∃ e ∈ errLines,
      stm32UartProtocolHandle B.toStm32UartCallbacks r STM32_UART_PROTOCOL_LINE_SIZE s =
        (some (e ++ [LF]), s) := by
  have hshort : ¬ r.length ≥ STM32_UART_PROTOCOL_LINE_SIZE := by
    unfold STM32_UART_PROTOCOL_LINE_SIZE
    omega
  have hsize : ¬ STM32_UART_PROTOCOL_LINE_SIZE = 0 := by decide
  unfold parseRequest at h
  split_ifs at h with h1 h2 h3 h4 h5
  · have hp : Stm32Uart.parseUnsigned (r.drop 10) = none := Option.map_eq_none_iff.mp h
    refine ⟨text "ERR ARGUMENT", by decide, ?_⟩
    rw [stm32UartProtocolHandle, if_neg hsize, if_neg hshort, if_neg h1, if_neg h2,
      if_neg (not_or.mpr ⟨h3, h4⟩), if_pos h5, hp]
    rfl
  · refine ⟨text "ERR COMMAND", by decide, ?_⟩
    rw [stm32UartProtocolHandle, if_neg hsize, if_neg hshort, if_neg h1, if_neg h2,
      if_neg (not_or.mpr ⟨h3, h4⟩), if_neg h5]
    rfl

/-- The board that notes the calls works when the board does. -/
def WorkingBoard.traced : WorkingBoard (σ × List Stm32UartCall) where
  toStm32UartCallbacks := B.toStm32UartCallbacks.traced
  led s := B.led s.1
  uptime s := B.uptime s.1
  setLed_ok b s := B.setLed_ok b s.1
  getLed_ok s := B.getLed_ok s.1
  uptimeMs_ok s := B.uptimeMs_ok s.1
  send_ok d s := B.send_ok d s.1

theorem sends_getLed (cb : Stm32UartCallbacks σ) (s : σ × List Stm32UartCall) :
    sends (cb.traced.getLed s).2.2 = sends s.2 := by
  simp [Stm32UartCallbacks.traced, sends]

theorem sends_setLed (cb : Stm32UartCallbacks σ) (v : ℤ) (s : σ × List Stm32UartCall) :
    sends (cb.traced.setLed v s).2.2 = sends s.2 := by
  simp [Stm32UartCallbacks.traced, sends]

theorem sends_uptimeMs (cb : Stm32UartCallbacks σ) (s : σ × List Stm32UartCall) :
    sends (cb.traced.uptimeMs s).2.2 = sends s.2 := by
  simp [Stm32UartCallbacks.traced, sends]

/-- The handler itself sends nothing. -/
theorem sends_handle (cb : Stm32UartCallbacks σ) (r : List Byte) (size : ℕ)
    (s : σ × List Stm32UartCall) :
    sends (stm32UartProtocolHandle cb.traced r size s).2.2 = sends s.2 := by
  have hled : ∀ v, sends (cb.traced.getLed (cb.traced.setLed v s).2).2.2 = sends s.2 := fun v =>
    (sends_getLed cb _).trans (sends_setLed cb v s)
  have hstatus : sends (cb.traced.uptimeMs (cb.traced.getLed s).2).2.2 = sends s.2 :=
    (sends_uptimeMs cb _).trans (sends_getLed cb s)
  unfold stm32UartProtocolHandle
  by_cases h0 : size = 0
  · rw [if_pos h0]
  by_cases h1 : r.length ≥ STM32_UART_PROTOCOL_LINE_SIZE
  · rw [if_neg h0, if_pos h1]
  by_cases h2 : r = text "PING"
  · rw [if_neg h0, if_neg h1, if_pos h2]
  by_cases h3 : r = text "STATUS"
  · rw [if_neg h0, if_neg h1, if_neg h2, if_pos h3]
    dsimp only
    split_ifs
    · exact sends_getLed cb s
    · exact hstatus
  by_cases h4 : r = text "LED ON" ∨ r = text "LED OFF"
  · rw [if_neg h0, if_neg h1, if_neg h2, if_neg h3, if_pos h4]
    generalize (if r = text "LED ON" then (1 : ℤ) else 0) = v
    dsimp only
    split_ifs
    · exact sends_setLed cb v s
    · exact hled v
    · exact hled v
    · exact hled v
  · rw [if_neg h0, if_neg h1, if_neg h2, if_neg h3, if_neg h4]
    split_ifs
    · split <;> rfl
    · rfl

/-- What the answer to the line `raw` has to be: the expected reply with the
LED set where the line is a request, a refusal with the LED left alone
otherwise. -/
def Answered (led : Bool) (uptime : UInt32) (raw reply : List Byte) (led' : Bool) : Prop :=
  match if raw.length ≤ 127 then parseRequest raw else none with
  | some (q, n) => reply = expectedReply led uptime n q ∧ led' = ledAfter led q
  | none => reply ∈ errLines ∧ led' = led

/-- The line feed after a run of printable bytes: one send, of the answer. -/
theorem feed_line (raw : List Byte) (s : σ) (calls : List Stm32UartCall) :
    ∃ ret reply s' calls',
      stm32UartProtocolFeed B.traced.toStm32UartCallbacks (lineState raw) LF (s, calls) =
        (ret, Stm32Uart.initial, (s', calls')) ∧
      sends calls' = sends calls ++ [reply ++ [LF]] ∧
      Answered (B.led s) (B.uptime s) raw reply (B.led s') := by
  -- the handler's answer, with the state it leaves
  have hreply : ∃ reply s₁, lineReply B.traced.toStm32UartCallbacks raw (s, calls) =
        (some (reply ++ [LF]), s₁) ∧ sends s₁.2 = sends calls ∧
      Answered (B.led s) (B.uptime s) raw reply (B.led s₁.1) := by
    by_cases hlen : raw.length ≤ 127
    · have hs := sends_handle B.toStm32UartCallbacks raw STM32_UART_PROTOCOL_LINE_SIZE (s, calls)
      cases hp : parseRequest raw with
      | none =>
        obtain ⟨e, he, heq⟩ := handle_other B.traced hp hlen (s, calls)
        refine ⟨e, (s, calls), by rw [lineReply, if_pos hlen, heq], rfl, ?_⟩
        simp only [Answered, if_pos hlen, hp]
        exact ⟨he, trivial⟩
      | some x =>
        obtain ⟨s₁, heq, hled⟩ := handle_request B.traced (q := x.1) (n := x.2) hp hlen (s, calls)
        refine ⟨_, s₁, by rw [lineReply, if_pos hlen, heq], ?_, ?_⟩
        · have heq' : stm32UartProtocolHandle B.toStm32UartCallbacks.traced raw
              STM32_UART_PROTOCOL_LINE_SIZE (s, calls) = _ := heq
          rw [heq'] at hs
          exact hs
        · simp only [Answered, if_pos hlen, hp]
          exact ⟨rfl, hled⟩
    · refine ⟨text "ERR LINE_TOO_LONG", (s, calls), by rw [lineReply, if_neg hlen]; rfl, rfl, ?_⟩
      simp only [Answered, if_neg hlen]
      exact ⟨by decide, trivial⟩
  obtain ⟨reply, s₁, heq, hsends, hans⟩ := hreply
  refine ⟨(B.send (reply ++ [LF]) s₁.1).1, reply, (B.send (reply ++ [LF]) s₁.1).2,
    s₁.2 ++ [.send (reply ++ [LF])], ?_, ?_, ?_⟩
  · rw [feed_LF, heq]
    rfl
  · rw [sends_append, hsends]
    rfl
  · rw [B.send_ok]
    exact hans

end Handler

end DeviceRuntime
