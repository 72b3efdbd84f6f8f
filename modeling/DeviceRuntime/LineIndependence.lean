/-
# The firmware answers every line for itself

`stm32_uart_protocol_feed` sees one byte at a time; `lineAnswer` says what a
whole line is answered with. The state after some bytes of a line is computed
from these bytes alone, `heldLine`, and every line feed goes back to the
initial state. So what a stream does to the board is what its lines do, one
after the other, and each line gets one reply.

Key definitions: `LineFits`, `LineOverflows`, `lineAnswer`, `heldLine`,
`answerLine`.
Key theorems: `feed_heldLine`, `feed_lineAnswer`, `feedAll_lines`,
`line_independence`.
-/
import DeviceRuntime.Lib.Lines
import DeviceRuntime.Stm32Uart

namespace DeviceRuntime

open Lines

/-! ### What a line is answered with -/

/-- A line that is handled. -/
def LineFits (line : List Byte) : Prop := line.length ≤ 127 ∧ ∀ b ∈ line, printable b = true

/-- A line whose first fault is its 128th printable byte. -/
def LineOverflows (line : List Byte) : Prop := 127 < line.length ∧ ∀ b ∈ line.take 128, printable b = true

instance (line : List Byte) : Decidable (LineFits line) := inferInstanceAs (Decidable (_ ∧ _))

instance (line : List Byte) : Decidable (LineOverflows line) := inferInstanceAs (Decidable (_ ∧ _))

/-- The state after the bytes `line` of a line that has not ended. -/
def heldLine (line : List Byte) : Stm32UartProtocol :=
  if 127 < (line.takeWhile printable).length then ⟨line.take 127, false, true, true⟩
  else match line.dropWhile printable with
    | [] => ⟨line, false, false, false⟩
    | b :: more => ⟨line.takeWhile printable, b = CR, b ≠ CR ∨ more ≠ [], false⟩

section Answer

variable {σ : Type} (cb : Stm32UartCallbacks σ)

/-- The reply to a line, which may end with a CR, and what it leaves of the
board. -/
def lineAnswer (line : List Byte) (s : σ) : Option (List Byte) × σ :=
  if LineFits (dropCR line) then stm32UartProtocolHandle cb (dropCR line) STM32_UART_PROTOCOL_LINE_SIZE s
  else if LineOverflows (dropCR line) then (some (text "ERR LINE_TOO_LONG\n"), s)
  else (some (text "ERR COMMAND\n"), s)

/-- The reply to a line is sent. -/
def answerLine (s : σ) (line : List Byte) : σ :=
  match lineAnswer cb line s with
  | (none, s) => s
  | (some reply, s) => (cb.send reply s).2

end Answer

/-! ### The state within a line -/

theorem printable_or_broken (line : List Byte) : (∀ b ∈ line, printable b = true) ∨
    ∃ kept b more, line = kept ++ b :: more ∧ (∀ b ∈ kept, printable b = true) ∧ ¬ printable b = true := by
  have hkept : ∀ b ∈ line.takeWhile printable, printable b = true := fun b hb => List.mem_takeWhile_imp hb
  cases hdrop : line.dropWhile printable with
  | nil =>
    have hall : line.takeWhile printable = line := by
      have h := List.takeWhile_append_dropWhile (p := printable) (l := line)
      rw [hdrop, List.append_nil] at h
      exact h
    rw [hall] at hkept
    exact .inl hkept
  | cons b more =>
    refine .inr ⟨line.takeWhile printable, b, more, ?_, hkept, ?_⟩
    · rw [← hdrop, List.takeWhile_append_dropWhile]
    · have hhead := List.head_dropWhile_not printable (l := line) (by simp [hdrop])
      simpa [hdrop] using hhead

theorem heldLine_printable {line : List Byte} (h : ∀ b ∈ line, printable b = true) :
    heldLine line = lineState line := by
  have htake : line.takeWhile printable = line := List.takeWhile_eq_self_iff.mpr h
  have hdrop : line.dropWhile printable = [] := List.dropWhile_eq_nil_iff.mpr h
  rw [heldLine, htake, hdrop, lineState]
  by_cases hlen : line.length ≤ 127
  · rw [if_neg (by omega), if_pos hlen]
  · rw [if_pos (by omega), if_neg hlen]

theorem heldLine_broken {kept : List Byte} {b : Byte} (h : ∀ b ∈ kept, printable b = true)
    (hb : ¬ printable b = true) (more : List Byte) : heldLine (kept ++ b :: more) =
      if 127 < kept.length then ⟨kept.take 127, false, true, true⟩
      else ⟨kept, b = CR, b ≠ CR ∨ more ≠ [], false⟩ := by
  have htake : (kept ++ b :: more).takeWhile printable = kept := by
    rw [List.takeWhile_append_of_pos h]
    simp [hb]
  have hdrop : (kept ++ b :: more).dropWhile printable = b :: more := by
    rw [List.dropWhile_append_of_pos h]
    simp [hb]
  rw [heldLine, htake, hdrop]
  by_cases hlen : 127 < kept.length
  · rw [if_pos hlen, if_pos hlen, List.take_append_of_le_length (by omega)]
  · rw [if_neg hlen, if_neg hlen]

theorem length_heldLine (line : List Byte) : (heldLine line).line.length ≤ 127 := by
  unfold heldLine
  by_cases hlen : 127 < (line.takeWhile printable).length
  · rw [if_pos hlen]
    simp
  · rw [if_neg hlen]
    cases hdrop : line.dropWhile printable with
    | nil =>
      have hall := List.takeWhile_append_dropWhile (p := printable) (l := line)
      rw [hdrop, List.append_nil] at hall
      rw [hall] at hlen
      simpa using hlen
    | cons b more => simpa using hlen

section Feed

variable {σ : Type} (cb : Stm32UartCallbacks σ)

theorem feed_discarding {p : Stm32UartProtocol} (hp : p.discarding = true) {b : Byte} (hb : b ≠ LF) (s : σ) :
    stm32UartProtocolFeed cb p b s = (0, p, s) := by
  simp [stm32UartProtocolFeed, hp, hb]

/-- A byte that does not end the line calls nothing. -/
theorem feed_heldLine (line : List Byte) {b : Byte} (hb : b ≠ LF) (s : σ) :
    stm32UartProtocolFeed cb (heldLine line) b s = (0, heldLine (line ++ [b]), s) := by
  rcases printable_or_broken line with hall | ⟨kept, x, more, rfl, hkept, hx⟩
  · rw [heldLine_printable hall]
    by_cases hprint : printable b = true
    · have hall' : ∀ c ∈ line ++ [b], printable c = true := by
        simp only [List.mem_append, List.mem_singleton]
        rintro c (hc | rfl)
        · exact hall c hc
        · exact hprint
      rw [feed_printable cb line b s hprint, heldLine_printable hall']
    · rw [heldLine_broken hall hprint [], lineState]
      by_cases hlen : line.length ≤ 127
      · -- the first byte that is not printable
        have hrange : b < 0x20 ∨ b > 0x7e := by
          simp only [printable, Bool.and_eq_true, decide_eq_true_eq, not_and_or, UInt8.not_le] at hprint
          exact hprint
        rw [if_pos hlen, if_neg (by omega)]
        by_cases hcr : b = CR
        · simp [stm32UartProtocolFeed, hcr, show CR ≠ LF by decide]
        · simp [stm32UartProtocolFeed, hb, hcr, hrange]
      · rw [if_neg hlen, if_pos (by omega), feed_discarding cb rfl hb]
  · rw [List.append_assoc, List.cons_append, heldLine_broken hkept hx, heldLine_broken hkept hx]
    by_cases hlen : 127 < kept.length
    · rw [if_pos hlen, if_pos hlen, feed_discarding cb rfl hb]
    · rw [if_neg hlen, if_neg hlen]
      by_cases hcr : x = CR ∧ more = []
      · simp [stm32UartProtocolFeed, hb, hcr.1, hcr.2]
      · have hdiscard : x ≠ CR ∨ more ≠ [] := not_and_or.mp hcr
        rw [feed_discarding cb (by simpa using hdiscard) hb]
        simp [hdiscard]

theorem dropCR_printable {line : List Byte} (h : ∀ b ∈ line, printable b = true) : dropCR line = line := by
  rw [dropCR, if_neg]
  intro hlast
  have hcr : printable CR = true := h CR (List.mem_of_getLast? hlast)
  exact absurd hcr (by decide)

theorem dropCR_snoc (line : List Byte) (b : Byte) : dropCR (line ++ [b]) = if b = CR then line else line ++ [b] := by
  simp [dropCR]

/-- The byte that breaks a line is still there without the CR of its ending,
or it is that CR. -/
theorem dropCR_broken (kept : List Byte) (b : Byte) (more : List Byte) :
    (b = CR ∧ more = [] ∧ dropCR (kept ++ b :: more) = kept) ∨
      ∃ more', dropCR (kept ++ b :: more) = kept ++ b :: more' ∧ (b ≠ CR ∨ more ≠ []) := by
  rcases List.eq_nil_or_concat more with rfl | ⟨init, last, rfl⟩
  · rw [dropCR_snoc]
    by_cases hcr : b = CR
    · exact .inl ⟨hcr, rfl, if_pos hcr⟩
    · exact .inr ⟨[], if_neg hcr, .inl hcr⟩
  · have hne : init.concat last ≠ [] := by simp
    have hsnoc : kept ++ b :: init.concat last = (kept ++ b :: init) ++ [last] := by simp
    rw [hsnoc, dropCR_snoc]
    by_cases hlast : last = CR
    · exact .inr ⟨init, if_pos hlast, .inr hne⟩
    · exact .inr ⟨init ++ [last], by rw [if_neg hlast]; simp, .inr hne⟩

theorem not_fits_broken (kept : List Byte) {b : Byte} (hb : ¬ printable b = true) (more : List Byte) :
    ¬ LineFits (kept ++ b :: more) := fun h => hb (h.2 b (by simp))

/-- What a line feed makes of the state is the answer to the line. -/
theorem heldLine_answer (line : List Byte) (s : σ) :
    (if (heldLine line).discarding then
      (Stm32Uart.copyReply STM32_UART_PROTOCOL_LINE_SIZE
        (if (heldLine line).lineTooLong then text "ERR LINE_TOO_LONG\n" else text "ERR COMMAND\n"), s)
    else stm32UartProtocolHandle cb (heldLine line).line STM32_UART_PROTOCOL_LINE_SIZE s) =
      lineAnswer cb line s := by
  have hlong : Stm32Uart.copyReply STM32_UART_PROTOCOL_LINE_SIZE (text "ERR LINE_TOO_LONG\n") =
      some (text "ERR LINE_TOO_LONG\n") := by decide
  have hcommand : Stm32Uart.copyReply STM32_UART_PROTOCOL_LINE_SIZE (text "ERR COMMAND\n") =
      some (text "ERR COMMAND\n") := by decide
  unfold lineAnswer
  rcases printable_or_broken line with hall | ⟨kept, b, more, rfl, hkept, hb⟩
  · rw [heldLine_printable hall, dropCR_printable hall, lineState]
    by_cases hlen : line.length ≤ 127
    · have hfits : LineFits line := ⟨hlen, hall⟩
      rw [if_pos hlen, if_pos hfits]
      rfl
    · have hfits : ¬ LineFits line := fun h => hlen h.1
      have hover : LineOverflows line := ⟨by omega, fun b hb => hall b (List.mem_of_mem_take hb)⟩
      rw [if_neg hlen, if_neg hfits, if_pos hover, if_pos rfl, if_pos rfl, hlong]
  · rw [heldLine_broken hkept hb]
    by_cases hlen : 127 < kept.length
    · -- the 128th byte is among those that were kept
      have htake : ∀ more', LineOverflows (kept ++ more') := by
        intro more'
        refine ⟨by rw [List.length_append]; omega, fun c hc => ?_⟩
        rw [List.take_append_of_le_length (by omega)] at hc
        exact hkept c (List.mem_of_mem_take hc)
      rw [if_pos hlen, if_pos rfl, if_pos rfl, hlong]
      rcases dropCR_broken kept b more with ⟨-, -, hdrop⟩ | ⟨more', hdrop, -⟩
      · have hover := htake []
        rw [List.append_nil] at hover
        rw [hdrop, if_neg fun h => absurd h.1 (by omega), if_pos hover]
      · rw [hdrop, if_neg (not_fits_broken kept hb more'), if_pos (htake _)]
    · rw [if_neg hlen]
      rcases dropCR_broken kept b more with ⟨hcr, hmore, hdrop⟩ | ⟨more', hdrop, hdiscard⟩
      · have hfits : LineFits kept := ⟨by omega, hkept⟩
        rw [hdrop, if_pos hfits]
        simp [hcr, hmore]
      · have hover : ¬ LineOverflows (kept ++ b :: more') := by
          intro h
          refine hb (h.2 b ?_)
          rw [List.take_append, List.mem_append]
          obtain ⟨n, hn⟩ := Nat.exists_eq_succ_of_ne_zero (show 128 - kept.length ≠ 0 by omega)
          rw [hn, List.take_succ_cons]
          exact .inr List.mem_cons_self
        rw [hdrop, if_neg (not_fits_broken kept hb more'), if_neg hover]
        simp only [decide_eq_true hdiscard, if_true, Bool.false_eq_true, if_false, hcommand]

/-- A line feed answers the line, and goes back to the initial state. -/
theorem feed_lineAnswer (line : List Byte) (s : σ) : stm32UartProtocolFeed cb (heldLine line) LF s =
    match lineAnswer cb line s with
    | (none, s) => (-1, Stm32Uart.initial, s)
    | (some reply, s) => ((cb.send reply s).1, Stm32Uart.initial, (cb.send reply s).2) := by
  rw [stm32UartProtocolFeed, if_pos rfl]
  dsimp only
  rw [heldLine_answer cb line s]
  rcases lineAnswer cb line s with ⟨_ | reply, s'⟩
  · rfl
  · rfl

/-! ### A stream of bytes -/

theorem heldLine_nil : heldLine [] = Stm32Uart.initial := rfl

theorem feedAll_eq_foldl (p : Stm32UartProtocol) (bs : List Byte) (s : σ) :
    feedAll cb p bs s = bs.foldl (fun x b => (stm32UartProtocolFeed cb x.1 b x.2).2) (p, s) := by
  induction bs generalizing p s with
  | nil => rfl
  | cons b bs ih => exact ih _ _

/-- The lines of the stream are answered one after the other, and the state is
that of the line that has not ended. -/
theorem feedAll_lines (bs : List Byte) (s : σ) :
    feedAll cb Stm32Uart.initial bs s = (heldLine (pending LF bs), (complete LF bs).foldl (answerLine cb) s) := by
  rw [feedAll_eq_foldl, ← heldLine_nil]
  apply foldl_lines
  · intro line s b hb
    rw [feed_heldLine cb line hb]
  · intro line s
    rw [feed_lineAnswer, heldLine_nil, answerLine]
    rcases lineAnswer cb line s with ⟨_ | reply, s'⟩
    · rfl
    · rfl

/-! ### One reply for each line -/

/-- The handler always has a reply, and it sends nothing itself: what the
other callbacks keep, it keeps. -/
theorem handle_replies {P : σ → Prop} (hset : ∀ v s, P s → P (cb.setLed v s).2)
    (hget : ∀ s, P s → P (cb.getLed s).2) (huptime : ∀ s, P s → P (cb.uptimeMs s).2)
    (request : List Byte) {s : σ} (hs : P s) :
    (∃ reply, (stm32UartProtocolHandle cb request STM32_UART_PROTOCOL_LINE_SIZE s).1 = some reply) ∧
      P (stm32UartProtocolHandle cb request STM32_UART_PROTOCOL_LINE_SIZE s).2 := by
  have hcopy : ∀ (t : List Byte) (s : σ), t.length < 128 → P s →
      (∃ reply, Stm32Uart.copyReply STM32_UART_PROTOCOL_LINE_SIZE t = some reply) ∧ P s := by
    intro t s ht hs
    exact ⟨⟨t, by rw [Stm32Uart.copyReply, if_neg (Nat.not_le_of_lt ht)]⟩, hs⟩
  have hprint : ∀ (t : List Byte) (s : σ), t.length < 128 → P s →
      (∃ reply, Stm32Uart.snprintfReply STM32_UART_PROTOCOL_LINE_SIZE t = some reply) ∧ P s := by
    intro t s ht hs
    exact ⟨⟨t, by rw [Stm32Uart.snprintfReply, if_pos ht]⟩, hs⟩
  have hdevice : ∀ s : σ, P s →
      (∃ reply, Stm32Uart.copyReply STM32_UART_PROTOCOL_LINE_SIZE (text "ERR DEVICE\n") = some reply) ∧ P s :=
    fun s => hcopy _ s (by decide)
  unfold stm32UartProtocolHandle
  rw [if_neg (by decide)]
  by_cases hlen : request.length ≥ STM32_UART_PROTOCOL_LINE_SIZE
  · rw [if_pos hlen]
    exact hcopy (text "ERR LINE_TOO_LONG\n") s (by decide) hs
  rw [if_neg hlen]
  by_cases hping : request = text "PING"
  · rw [if_pos hping]
    exact hcopy (text "PONG\n") s (by decide) hs
  rw [if_neg hping]
  by_cases hstatus : request = text "STATUS"
  · rw [if_pos hstatus]
    have hgot := hget s hs
    dsimp only
    by_cases hled : (cb.getLed s).1 ≠ 0 ∧ (cb.getLed s).1 ≠ 1
    · rw [if_pos hled]
      exact hdevice _ hgot
    · rw [if_neg hled]
      have hone : (decimalInt (cb.getLed s).1).length = 1 := by
        rcases not_and_or.mp hled with h | h
        · rw [not_not.mp h]
          rfl
        · rw [not_not.mp h]
          rfl
      have hdecimal := length_decimal_le (Nat.le_of_lt_succ (cb.uptimeMs (cb.getLed s).2).1.toNat_lt)
      have hlength : (text "STATUS LED=" ++ decimalInt (cb.getLed s).1 ++ text " UPTIME_MS=" ++
          decimal (cb.uptimeMs (cb.getLed s).2).1.toNat ++ text "\n").length < 128 := by
        simp only [List.length_append, hone, show (text "STATUS LED=").length = 11 from rfl,
          show (text " UPTIME_MS=").length = 11 from rfl, show (text "\n").length = 1 from rfl]
        omega
      exact hprint _ _ hlength (huptime _ hgot)
  rw [if_neg hstatus]
  by_cases hled : request = text "LED ON" ∨ request = text "LED OFF"
  · rw [if_pos hled]
    generalize (if request = text "LED ON" then (1 : ℤ) else 0) = v
    have hwritten := hset v s hs
    have hgot := hget _ hwritten
    dsimp only
    by_cases hfailed : (cb.setLed v s).1 ≠ 0
    · rw [if_pos hfailed]
      exact hdevice _ hwritten
    rw [if_neg hfailed]
    by_cases hother : (cb.getLed (cb.setLed v s).2).1 ≠ v
    · rw [if_pos hother]
      exact hdevice _ hgot
    · rw [if_neg hother]
      apply hcopy _ _ _ hgot
      split_ifs
      · decide
      · decide
  rw [if_neg hled]
  by_cases hbeat : strncmp request (text "HEARTBEAT ") = true
  · rw [if_pos hbeat]
    cases hscan : Stm32Uart.parseUnsigned (request.drop 10) with
    | none => exact hcopy (text "ERR ARGUMENT\n") s (by decide) hs
    | some n =>
      apply hprint _ _ _ hs
      have hdecimal := length_decimal_le (scanUnsigned_eq_some.mp hscan).2.2.2
      simp only [List.length_append, show (text "OK HEARTBEAT=").length = 13 from rfl,
        show (text "\n").length = 1 from rfl]
      omega
  · rw [if_neg hbeat]
    exact hcopy (text "ERR COMMAND\n") s (by decide) hs

/-- Every line has a reply, which nothing was sent before. -/
theorem lineAnswer_some (line : List Byte) (s : σ × List Stm32UartCall) :
    ∃ reply after, lineAnswer cb.traced line s = (some reply, after) ∧ sends after.2 = sends s.2 := by
  unfold lineAnswer
  by_cases hfits : LineFits (dropCR line)
  · rw [if_pos hfits]
    have hquiet : ∀ (s' : σ × List Stm32UartCall) c, sends [c] = [] → sends s'.2 = sends s.2 →
        sends (s'.2 ++ [c]) = sends s.2 := by
      intro s' c hc h
      rw [sends_append, hc, List.append_nil, h]
    obtain ⟨⟨reply, hreply⟩, hsends⟩ := handle_replies cb.traced (P := fun s' => sends s'.2 = sends s.2)
      (fun _ s' h => hquiet s' _ rfl h) (fun s' h => hquiet s' _ rfl h) (fun s' h => hquiet s' _ rfl h)
      (dropCR line) (s := s) rfl
    exact ⟨reply, _, Prod.ext hreply rfl, hsends⟩
  · rw [if_neg hfits]
    by_cases hover : LineOverflows (dropCR line)
    · rw [if_pos hover]
      exact ⟨_, _, rfl, rfl⟩
    · rw [if_neg hover]
      exact ⟨_, _, rfl, rfl⟩

theorem sends_answerLine (line : List Byte) (s : σ × List Stm32UartCall) :
    (sends (answerLine cb.traced s line).2).length = (sends s.2).length + 1 := by
  obtain ⟨reply, after, heq, hsends⟩ := lineAnswer_some cb line s
  have hsend : (answerLine cb.traced s line).2 = after.2 ++ [.send reply] := by
    rw [answerLine, heq]
    rfl
  rw [hsend, sends_append, hsends, List.length_append]
  rfl

theorem sends_answerLines (lines : List (List Byte)) (s : σ × List Stm32UartCall) :
    (sends (lines.foldl (answerLine cb.traced) s).2).length = (sends s.2).length + lines.length := by
  induction lines generalizing s with
  | nil => rfl
  | cons line lines ih =>
    rw [List.foldl_cons, ih, sends_answerLine, List.length_cons]
    omega

/-- Whatever was fed since the initialisation: the line buffer is within its
bound; a byte that is no line feed calls nothing; a line feed sends one reply,
the one that its own line has on the board as it is, and leaves the initial
state. So the stream does to the board what its lines do. -/
theorem line_independence (bs : List Byte) (s : σ) :
    stm32UartProtocolInit ⟨some cb.setLed, some cb.getLed, some cb.uptimeMs, some cb.send⟩ =
      some (cb, Stm32Uart.initial) ∧
    let (p, w) := feedAll cb.traced Stm32Uart.initial bs (s, [])
    p.line.length ≤ 127 ∧
    (∀ b, b ≠ LF → (stm32UartProtocolFeed cb.traced p b w).2.2 = w) ∧
    (∃ reply after, lineAnswer cb.traced (pending LF bs) w = (some reply, after) ∧ sends after.2 = sends w.2 ∧
      stm32UartProtocolFeed cb.traced p LF w =
        ((cb.traced.send reply after).1, Stm32Uart.initial, (cb.traced.send reply after).2)) ∧
    w = (complete LF bs).foldl (answerLine cb.traced) (s, []) ∧ (sends w.2).length = bs.count LF := by
  refine ⟨rfl, ?_⟩
  rw [feedAll_lines cb.traced bs (s, [])]
  refine ⟨length_heldLine _, fun b hb => ?_, ?_, rfl, ?_⟩
  · rw [feed_heldLine cb.traced _ hb]
  · obtain ⟨reply, after, heq, hsends⟩ :=
      lineAnswer_some cb (pending LF bs) ((complete LF bs).foldl (answerLine cb.traced) (s, []))
    refine ⟨reply, after, heq, hsends, ?_⟩
    rw [feed_lineAnswer, heq]
  · rw [sends_answerLines, length_complete]
    exact Nat.zero_add _

end Feed

end DeviceRuntime
