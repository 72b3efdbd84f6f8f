/-
# The host reads a reply

`uartProtocolRequest` on a device that works: the flush and the write succeed,
each read gives a byte or `EAGAIN`, and the wait is over without a byte only
when no further one arrives. The clock gives any readings that do not
decrease.

The request takes one reading of the clock at its start, one for the write,
one for each read and one after the line feed. So which reading counts is
known from the place of the line feed among the reads, and `Accepted` says
when the request succeeds without the loop of the program.

Key definitions: `Clock`, `Arrivals`, `arriving`, `hearLine`, `Accepted`,
`RefusedRequest`.
Key theorems: `receive_total`, `hearLine_iff`, `request_refused`,
`request_cleared`, `host_receive_path`.
-/
import Mathlib
import DeviceRuntime.RequestAgreement

namespace DeviceRuntime

open Prog

/-! ### The device -/

/-- The readings of the clock, one after the other. -/
structure Clock where
  reading : ℕ → Timespec
  nonneg : 0 ≤ timespecMs (reading 0)
  mono : Monotone fun i => timespecMs (reading i)

namespace Clock

variable (clock : Clock)

def ms (i : ℕ) : ℤ := timespecMs (clock.reading i)

theorem ms_le {i j : ℕ} (h : i ≤ j) : clock.ms i ≤ clock.ms j := clock.mono h

theorem ms_nonneg (i : ℕ) : 0 ≤ clock.ms i := clock.nonneg.trans (clock.ms_le (Nat.zero_le i))

end Clock

/-- `reads`: what the reads give, a byte or `EAGAIN`, up to the wait in which no
further byte arrives. `timeouts`: the timeouts that were passed, each with the
last reading of the clock. -/
structure Arrivals where
  readings : ℕ
  reads : List (Option Byte)
  timeouts : List (ℤ × ℤ)

def arrivingSem (clock : Clock) (w : Arrivals) : (o : DeviceCall) → DeviceCall.Ret o → Arrivals → Prop
  | .clockGettime, r, w' => r = .ok (clock.reading w.readings) ∧ w' = { w with readings := w.readings + 1 }
  | .backendControl _ .uartFlush _, r, w' => 0 ≤ r.ret ∧ w' = w
  | .backendControl _ .uartWriteAll (.write q), r, w' =>
    0 ≤ r.ret ∧ w' = { w with timeouts := w.timeouts ++ [(q.timeoutMs, clock.ms (w.readings - 1))] }
  | .backendControl _ .uartWait (.timeout timeout), r, w' =>
    (if w.reads = [] then r.ret = 0 else 0 < r.ret) ∧
      w' = { w with timeouts := w.timeouts ++ [(timeout, clock.ms (w.readings - 1))] }
  | .backendRead _ 1, r, w' =>
    ∃ read reads, w.reads = read :: reads ∧ w' = { w with reads := reads } ∧
      match read with
      | some b => r.1.ret = 1 ∧ r.2 = [b]
      | none => r.1.ret < 0 ∧ r.1.errno = EAGAIN
  | _, _, _ => False

abbrev arriving (clock : Clock) : World DeviceCall DeviceCall.Ret Arrivals := .alone (arrivingSem clock)

/-- No timeout goes beyond the deadline. -/
def Timely (deadline : ℤ) (timeouts : List (ℤ × ℤ)) : Prop := ∀ t ∈ timeouts, t.1 ≤ deadline - t.2

theorem Timely.snoc {deadline timeout now : ℤ} {timeouts : List (ℤ × ℤ)} (h : Timely deadline timeouts)
    (hle : timeout ≤ deadline - now) : Timely deadline (timeouts ++ [(timeout, now)]) := by
  unfold Timely
  rw [List.forall_mem_append, List.forall_mem_singleton]
  exact ⟨h, hle⟩

/-! ### The line -/

/-- What a byte does to the line: the loop is over, or the line and whether
there was a carriage return. -/
def afterByte (line : List Byte) (carriageReturn : Bool) (byte : Byte) :
    Except ℕ (List Byte) ⊕ (List Byte × Bool) :=
  if byte = LF then .inl (.ok line)
  else if carriageReturn then .inl (.error EPROTO)
  else if byte = CR then .inr (line, true)
  else if byte < 0x20 ∨ byte > 0x7e then .inl (.error EPROTO)
  else if line.length ≥ UART_PROTOCOL_LINE_SIZE - 1 then .inl (.error EMSGSIZE)
  else .inr (line ++ [byte], false)

theorem acceptByte_eq (d : Device) (line : List Byte) (cr : Bool) (byte : Byte) :
    acceptByte ⟨d, line, cr⟩ byte =
      match afterByte line cr byte with
      | .inl r => .inr ⟨d, r⟩
      | .inr (line, cr) => .inl ⟨d, line, cr⟩ := by
  unfold acceptByte afterByte
  dsimp only
  split_ifs with _ hcr _ _ _
  · rfl
  · rfl
  · rfl
  · rfl
  · rfl
  · simp only [Bool.not_eq_true] at hcr
    rw [hcr]

/-- What the receive loop makes of the reads, with the number of the next
reading of the clock. -/
def hearLine (clock : Clock) (deadline : ℤ) (i : ℕ) (line : List Byte) (cr : Bool) :
    List (Option Byte) → Except ℕ (List Byte × ℕ)
  | [] => .error ETIMEDOUT
  | read :: reads =>
    if deadline ≤ clock.ms i then .error ETIMEDOUT
    else
      match read with
      | none => hearLine clock deadline (i + 1) line cr reads
      | some b =>
        match afterByte line cr b with
        | .inl r => r.map fun line => (line, i + 1)
        | .inr (line, cr) => hearLine clock deadline (i + 1) line cr reads

section Turns

variable {clock : Clock} {deadline : ℤ} {d : Device} {i : ℕ} {reads : List (Option Byte)} {timeouts : List (ℤ × ℤ)}

theorem clock_total : Prog.Total (arriving clock)
    (fun r w' => r.ret = clock.ms i ∧ w' = ⟨i + 1, reads, timeouts⟩) monotonicMs ⟨i, reads, timeouts⟩ := by
  unfold monotonicMs DeviceCall.callClock
  have hsome : ∃ r w', arrivingSem clock ⟨i, reads, timeouts⟩ .clockGettime r w' := ⟨_, _, rfl, rfl⟩
  apply Prog.Total.call hsome
  intro r w' ⟨hr, hw'⟩
  rw [hr, hw']
  exact Prog.Total.ret ⟨rfl, rfl⟩

/-- The time that is left by the next reading of the clock. -/
theorem timeLeft_total : Prog.Total (arriving clock)
    (fun r w' => w' = ⟨i + 1, reads, timeouts⟩ ∧
      if deadline ≤ clock.ms i then r = ⟨-1, ETIMEDOUT⟩ else 0 ≤ r.ret ∧ r.ret ≤ deadline - clock.ms i)
    (remainingMs deadline) ⟨i, reads, timeouts⟩ := by
  unfold remainingMs
  apply clock_total.bind
  intro now w' ⟨hnow, hw'⟩
  have hpos := clock.ms_nonneg i
  rw [hnow, if_neg (by omega)]
  by_cases hlate : deadline ≤ clock.ms i
  · rw [if_pos (by omega)]
    apply Prog.Total.ret
    rw [if_pos hlate]
    exact ⟨hw', rfl⟩
  · rw [if_neg (by omega)]
    apply Prog.Total.ret
    rw [if_neg hlate]
    refine ⟨hw', ?_⟩
    unfold INT_MAX
    dsimp only
    split_ifs
    · omega
    · omega

/-- The wait is over without a byte when no further one arrives. -/
theorem waitByte_total (hd : UartReady d) {timeout : ℤ} : Prog.Total (arriving clock)
    (fun r w' => UartReady r.device ∧ (if reads = [] then r.ret = 0 else 0 < r.ret) ∧
      w' = ⟨i, reads, timeouts ++ [(timeout, clock.ms (i - 1))]⟩)
    (deviceControl d .uartWait (.timeout timeout)) ⟨i, reads, timeouts⟩ := by
  rw [deviceControl_ready hd.ready hd.control]
  have hsome : ∃ r w',
      arrivingSem clock ⟨i, reads, timeouts⟩ (.backendControl d .uartWait (.timeout timeout)) r w' := by
    by_cases hreads : reads = []
    · exact ⟨⟨0, 0⟩, _, by rw [if_pos hreads], rfl⟩
    · exact ⟨⟨1, 0⟩, _, by rw [if_neg hreads]; decide, rfl⟩
  apply Prog.Total.call hsome
  intro r w' ⟨hr, hw'⟩
  apply Prog.Total.ret
  have hret : ¬ r.ret < 0 := by
    dsimp only at hr
    split_ifs at hr
    · omega
    · omega
  exact ⟨hd.return hret, hr, hw'⟩

/-- A read that gives no byte leaves the device as it is but for its `last_errno`. -/
theorem again_total (hd : UartReady d) : Prog.Total (arriving clock)
    (fun r w' => UartReady r.1.device ∧ r.1.ret < 0 ∧ r.1.errno = EAGAIN ∧ w' = ⟨i, reads, timeouts⟩)
    (deviceRead d true 1) ⟨i, none :: reads, timeouts⟩ := by
  rw [deviceRead_ready hd.ready hd.read (by decide)]
  have hsome : ∃ r w', arrivingSem clock ⟨i, none :: reads, timeouts⟩ (.backendRead d 1) r w' :=
    ⟨(⟨-1, EAGAIN⟩, []), _, none, reads, rfl, rfl, show (-1 : ℤ) < 0 by decide, rfl⟩
  apply Prog.Total.call hsome
  intro r w' ⟨read, reads', hsplit, hw', hr⟩
  cases hsplit
  have hsame : (deviceReturn d r.1).device = { d with lastErrno := EAGAIN } := by
    unfold deviceReturn deviceResult
    dsimp only
    rw [if_neg (not_not.mpr hr.1), hr.2, if_pos (by decide)]
  apply Prog.Total.ret
  refine ⟨?_, hr.1, hr.2, hw'⟩
  dsimp only
  rw [hsame]
  obtain ⟨hops, henabled, hopened, hstate⟩ := deviceReady_eq_none.mp hd.ready
  exact ⟨hd.uart, deviceReady_eq_none.mpr ⟨hops, henabled, hopened, hstate⟩, hd.control, hd.read⟩

theorem byte_total (hd : UartReady d) {b : Byte} : Prog.Total (arriving clock)
    (fun r w' => UartReady r.1.device ∧ r.1.ret = 1 ∧ r.2 = [b] ∧ w' = ⟨i, reads, timeouts⟩)
    (deviceRead d true 1) ⟨i, some b :: reads, timeouts⟩ := by
  rw [deviceRead_ready hd.ready hd.read (by decide)]
  have hsome : ∃ r w', arrivingSem clock ⟨i, some b :: reads, timeouts⟩ (.backendRead d 1) r w' :=
    ⟨(⟨1, 0⟩, [b]), _, some b, reads, rfl, rfl, rfl, rfl⟩
  apply Prog.Total.call hsome
  intro r w' ⟨read, reads', hsplit, hw', hr⟩
  cases hsplit
  apply Prog.Total.ret
  exact ⟨hd.return (by rw [hr.1]; decide), hr.1, hr.2, hw'⟩

/-- One turn of the receive loop. -/
theorem turn_total {line : List Byte} {cr : Bool} (hd : UartReady d) (htimely : Timely deadline timeouts) :
    Prog.Total (arriving clock)
      (fun x w' => Timely deadline w'.timeouts ∧ w'.readings = i + 1 ∧
        match reads with
        | [] => ∃ d, x = .inr ⟨d, .error ETIMEDOUT⟩
        | read :: reads =>
          if deadline ≤ clock.ms i then ∃ d, x = .inr ⟨d, .error ETIMEDOUT⟩
          else
            w'.reads = reads ∧ ∃ d, UartReady d ∧
              match read with
              | none => x = .inl ⟨d, line, cr⟩
              | some b => x = acceptByte ⟨d, line, cr⟩ b)
      (receiveByte deadline ⟨d, line, cr⟩) ⟨i, reads, timeouts⟩ := by
  unfold receiveByte
  apply timeLeft_total.bind
  intro timeout w ⟨hw, htimeout⟩
  rw [hw]
  by_cases hlate : deadline ≤ clock.ms i
  · -- the deadline has passed
    rw [if_pos hlate] at htimeout
    rw [htimeout, if_pos (show (-1 : ℤ) < 0 by decide)]
    apply Prog.Total.ret
    refine ⟨htimely, rfl, ?_⟩
    cases reads with
    | nil => exact ⟨_, rfl⟩
    | cons read reads =>
      dsimp only
      rw [if_pos hlate]
      exact ⟨_, rfl⟩
  rw [if_neg hlate] at htimeout
  rw [if_neg (by omega)]
  have hsnoc : Timely deadline (timeouts ++ [(timeout.ret, clock.ms i)]) := htimely.snoc htimeout.2
  apply (waitByte_total hd).bind
  intro ready w ⟨hready, hret, hw⟩
  rw [hw]
  cases reads with
  | nil =>
    -- no further byte arrives
    rw [if_pos rfl] at hret
    rw [hret, if_neg (by decide), if_pos rfl]
    apply Prog.Total.ret
    exact ⟨hsnoc, rfl, _, rfl⟩
  | cons read reads =>
    rw [if_neg (List.cons_ne_nil _ _)] at hret
    rw [if_neg (by omega), if_neg (by omega)]
    cases read with
    | none =>
      apply (again_total hready).bind
      intro result w ⟨hresult, hneg, herrno, hw⟩
      rw [if_pos hneg, if_pos (Or.inl herrno), hw]
      apply Prog.Total.ret
      refine ⟨hsnoc, rfl, ?_⟩
      dsimp only
      rw [if_neg hlate]
      exact ⟨rfl, _, hresult, rfl⟩
    | some b =>
      apply (byte_total hready).bind
      intro result w ⟨hresult, hone, hdata, hw⟩
      rw [hone, if_neg (by decide), if_neg (by decide), hdata, hw]
      apply Prog.Total.ret
      refine ⟨hsnoc, rfl, ?_⟩
      dsimp only
      rw [if_neg hlate]
      exact ⟨rfl, _, hresult, rfl⟩

/-- What the receive loop comes to. -/
def LoopHeard (deadline : ℤ) (heard : Except ℕ (List Byte × ℕ)) (r : Received) (w : Arrivals) : Prop :=
  Timely deadline w.timeouts ∧
    match heard with
    | .error _ => ∃ errno, r.line = .error errno
    | .ok (line, i) => r.line = .ok line ∧ w.readings = i

theorem receive_total : ∀ (reads : List (Option Byte)) {line : List Byte} {cr : Bool} {d : Device} {i : ℕ}
    {timeouts : List (ℤ × ℤ)}, UartReady d → Timely deadline timeouts →
    Prog.Total (arriving clock) (LoopHeard deadline (hearLine clock deadline i line cr reads))
      (Prog.iter (receiveByte deadline) ⟨d, line, cr⟩) ⟨i, reads, timeouts⟩ := by
  intro reads
  induction reads with
  | nil =>
    intro line cr d i timeouts hd htimely
    apply Prog.Total.loop
    apply (turn_total hd htimely).bind
    intro x w ⟨hw, _, d', hx⟩
    rw [hx]
    exact Prog.Total.ret ⟨hw, _, rfl⟩
  | cons read reads ih =>
    intro line cr d i timeouts hd htimely
    apply Prog.Total.loop
    apply (turn_total hd htimely).bind
    intro x ⟨j, left, timeouts'⟩ ⟨hw, hj, hx⟩
    dsimp only at hw hj hx
    unfold hearLine
    by_cases hlate : deadline ≤ clock.ms i
    · rw [if_pos hlate] at hx ⊢
      obtain ⟨d', hx⟩ := hx
      rw [hx]
      exact Prog.Total.ret ⟨hw, _, rfl⟩
    · rw [if_neg hlate] at hx ⊢
      obtain ⟨hleft, d', hd', hx⟩ := hx
      rw [hleft, hj]
      cases read with
      | none =>
        dsimp only at hx
        rw [hx]
        exact ih hd' hw
      | some b =>
        dsimp only at hx ⊢
        rw [hx, acceptByte_eq]
        cases afterByte line cr b with
        | inl r =>
          apply Prog.Total.ret
          cases r with
          | error errno => exact ⟨hw, _, rfl⟩
          | ok line => exact ⟨hw, rfl, rfl⟩
        | inr next => exact ih hd' hw

end Turns

/-! ### The line that is read -/

/-- The reads before the first line feed. -/
def beforeFeed (reads : List (Option Byte)) : List (Option Byte) := reads.takeWhile (· ≠ some LF)

/-- The bytes read are the rest of a line, with at most one carriage return at
its end. -/
structure Completes (cr : Bool) (before : List (Option Byte)) (rest : List Byte) : Prop where
  bytes : if cr then before.reduceOption = [] ∧ rest = []
    else before.reduceOption = rest ∨ before.reduceOption = rest ++ [CR]
  printable : ∀ b ∈ rest, printable b = true

section Completes

variable {cr : Bool} {before reads : List (Option Byte)} {rest line result : List Byte} {b : Byte}

theorem beforeFeed_LF : beforeFeed (some LF :: reads) = [] := List.takeWhile_cons_of_neg (by simp)

theorem beforeFeed_cons {read : Option Byte} (h : read ≠ some LF) :
    beforeFeed (read :: reads) = read :: beforeFeed reads := List.takeWhile_cons_of_pos (by simpa using h)

theorem completes_nil : Completes cr [] rest ↔ rest = [] := by
  constructor
  · intro ⟨hbytes, _⟩
    cases cr with
    | true => exact hbytes.2
    | false =>
      rcases hbytes with h | h
      · exact h.symm
      · simp at h
  · intro h
    rw [h]
    refine ⟨?_, by simp⟩
    split_ifs
    · exact ⟨rfl, rfl⟩
    · exact Or.inl rfl

theorem completes_none : Completes cr (none :: before) rest ↔ Completes cr before rest := by
  constructor
  · intro ⟨hbytes, hprint⟩
    rw [List.reduceOption_cons_of_none] at hbytes
    exact ⟨hbytes, hprint⟩
  · intro ⟨hbytes, hprint⟩
    refine ⟨?_, hprint⟩
    rw [List.reduceOption_cons_of_none]
    exact hbytes

theorem not_completes_after_CR : ¬ Completes true (some b :: before) rest := by
  intro ⟨hbytes, _⟩
  rw [if_pos rfl, List.reduceOption_cons_of_some] at hbytes
  cases hbytes.1

theorem completes_CR : Completes false (some CR :: before) rest ↔ Completes true before rest := by
  constructor
  · intro ⟨hbytes, hprint⟩
    rw [if_neg (by decide), List.reduceOption_cons_of_some] at hbytes
    cases rest with
    | nil =>
      rcases hbytes with h | h
      · cases h
      · rw [List.nil_append, List.cons.injEq] at h
        exact ⟨⟨h.2, rfl⟩, hprint⟩
    | cons c rest =>
      have hc : c = CR := by
        rcases hbytes with h | h
        · exact (List.cons.inj h).1.symm
        · exact (List.cons.inj h).1.symm
      have hcr := hprint c List.mem_cons_self
      rw [hc] at hcr
      exact absurd hcr (by decide)
  · intro ⟨hbytes, hprint⟩
    rw [if_pos rfl] at hbytes
    refine ⟨?_, hprint⟩
    rw [if_neg (by decide), List.reduceOption_cons_of_some, hbytes.1, hbytes.2]
    exact Or.inr rfl

theorem completes_byte (hb : b ≠ CR) : Completes false (some b :: before) rest ↔
    ∃ rest', rest = b :: rest' ∧ printable b = true ∧ Completes false before rest' := by
  constructor
  · intro ⟨hbytes, hprint⟩
    rw [if_neg (by decide), List.reduceOption_cons_of_some] at hbytes
    cases rest with
    | nil =>
      rcases hbytes with h | h
      · cases h
      · exact absurd (List.cons.inj h).1 hb
    | cons c rest' =>
      rw [List.cons_append, List.cons.injEq, List.cons.injEq] at hbytes
      have hc : b = c := by
        rcases hbytes with h | h
        · exact h.1
        · exact h.1
      refine ⟨rest', by rw [hc], ?_, ?_, fun c hc => hprint c (List.mem_cons_of_mem _ hc)⟩
      · rw [hc]
        exact hprint c List.mem_cons_self
      · rw [if_neg (by decide)]
        rcases hbytes with h | h
        · exact Or.inl h.2
        · exact Or.inr h.2
  · intro ⟨rest', hrest, hb, hbytes, hprint⟩
    rw [hrest]
    refine ⟨?_, ?_⟩
    · rw [if_neg (by decide)] at hbytes ⊢
      rw [List.reduceOption_cons_of_some, List.cons_append, List.cons.injEq, List.cons.injEq]
      rcases hbytes with h | h
      · exact Or.inl ⟨rfl, h⟩
      · exact Or.inr ⟨rfl, h⟩
    · rw [List.forall_mem_cons]
      exact ⟨hb, hprint⟩

end Completes

/-- A line is complete in time: `k` is the number of the reading that is taken
next. -/
structure InTime (clock : Clock) (deadline : ℤ) (i : ℕ) (line : List Byte) (cr : Bool) (reads : List (Option Byte))
    (result : List Byte) (k : ℕ) : Prop where
  feed : some LF ∈ reads
  complete : ∃ rest, Completes cr (beforeFeed reads) rest ∧ result = line ++ rest
  fits : result.length ≤ UART_PROTOCOL_LINE_SIZE - 1
  next : k = i + (beforeFeed reads).length + 1
  early : clock.ms (i + (beforeFeed reads).length) < deadline

section InTime

variable {clock : Clock} {deadline : ℤ} {i k : ℕ} {line result : List Byte} {cr : Bool} {reads : List (Option Byte)}

theorem inTime_early (h : InTime clock deadline i line cr reads result k) :
    ¬ deadline ≤ clock.ms i := by
  have hle := clock.ms_le (Nat.le_add_right i (beforeFeed reads).length)
  have hearly := h.early
  omega

/-- A read that is no line feed, by what it does to the line. -/
theorem inTime_cons {read : Option Byte} (hread : read ≠ some LF) {line' : List Byte} {cr' : Bool}
    (hcomplete : (∃ rest, Completes cr (read :: beforeFeed reads) rest ∧ result = line ++ rest) ↔
      ∃ rest, Completes cr' (beforeFeed reads) rest ∧ result = line' ++ rest) :
    InTime clock deadline i line cr (read :: reads) result k ↔
      InTime clock deadline (i + 1) line' cr' reads result k := by
  have hlen : i + (read :: beforeFeed reads).length = i + 1 + (beforeFeed reads).length := by
    rw [List.length_cons]
    omega
  have hmem : some LF ∈ read :: reads ↔ some LF ∈ reads := by
    rw [List.mem_cons]
    exact or_iff_right (Ne.symm hread)
  constructor
  · intro ⟨hfeed, hcomp, hfits, hnext, hearly⟩
    rw [beforeFeed_cons hread] at hcomp hnext hearly
    rw [hlen] at hnext hearly
    exact ⟨hmem.mp hfeed, hcomplete.mp hcomp, hfits, hnext, hearly⟩
  · intro ⟨hfeed, hcomp, hfits, hnext, hearly⟩
    refine ⟨hmem.mpr hfeed, ?_, hfits, ?_, ?_⟩
    · rw [beforeFeed_cons hread]
      exact hcomplete.mpr hcomp
    · rw [beforeFeed_cons hread, hlen]
      exact hnext
    · rw [beforeFeed_cons hread, hlen]
      exact hearly

theorem printable_iff {b : Byte} : printable b = true ↔ ¬ (b < 0x20 ∨ b > 0x7e) := by
  unfold printable
  rw [Bool.and_eq_true, decide_eq_true_iff, decide_eq_true_iff, not_or, UInt8.not_lt, gt_iff_lt, UInt8.not_lt]

/-- The loop gives a line exactly when one is complete in time. -/
theorem hearLine_iff : ∀ (reads : List (Option Byte)) {i : ℕ} {line : List Byte} {cr : Bool},
    line.length ≤ UART_PROTOCOL_LINE_SIZE - 1 →
    (hearLine clock deadline i line cr reads = .ok (result, k) ↔ InTime clock deadline i line cr reads result k) := by
  intro reads
  induction reads with
  | nil =>
    intro i line cr _
    constructor
    · intro h
      cases h
    · intro h
      exact absurd h.feed List.not_mem_nil
  | cons read reads ih =>
    intro i line cr hline
    unfold hearLine
    by_cases hlate : deadline ≤ clock.ms i
    · rw [if_pos hlate]
      constructor
      · intro h
        cases h
      · intro h
        exact absurd hlate (inTime_early h)
    rw [if_neg hlate]
    cases read with
    | none =>
      dsimp only
      rw [ih hline, inTime_cons (by simp)]
      simp only [completes_none]
    | some b =>
      dsimp only
      by_cases hLF : b = LF
      · -- the end of the line
        have hafter : afterByte line cr b = .inl (.ok line) := by
          unfold afterByte
          rw [if_pos hLF]
        rw [hafter, hLF]
        constructor
        · intro h
          cases h
          refine ⟨List.mem_cons_self, ⟨[], ?_, (List.append_nil _).symm⟩, hline, ?_, ?_⟩
          · rw [beforeFeed_LF, completes_nil]
          · rw [beforeFeed_LF]
            rfl
          · rw [beforeFeed_LF]
            exact not_le.mp hlate
        · intro ⟨_, ⟨rest, hcomplete, hresult⟩, _, hnext, _⟩
          rw [beforeFeed_LF, completes_nil] at hcomplete
          rw [beforeFeed_LF] at hnext
          rw [hcomplete, List.append_nil] at hresult
          rw [hresult, hnext]
          rfl
      have hread : some b ≠ some LF := fun h => hLF (Option.some.inj h)
      -- an error of the loop is one of the line
      have herror : ∀ errno, afterByte line cr b = .inl (.error errno) →
          (∀ rest, Completes cr (some b :: beforeFeed reads) rest →
            ¬ (line ++ rest).length ≤ UART_PROTOCOL_LINE_SIZE - 1) →
          ((match afterByte line cr b with
            | .inl r => r.map fun line => (line, i + 1)
            | .inr (line, cr) => hearLine clock deadline (i + 1) line cr reads) = .ok (result, k) ↔
            InTime clock deadline i line cr (some b :: reads) result k) := by
        intro errno hafter hnot
        rw [hafter]
        constructor
        · intro h
          cases h
        · intro ⟨_, ⟨rest, hcomplete, hresult⟩, hfits, _, _⟩
          rw [beforeFeed_cons hread] at hcomplete
          rw [hresult] at hfits
          exact absurd hfits (hnot rest hcomplete)
      cases cr with
      | true =>
        apply herror EPROTO
        · unfold afterByte
          rw [if_neg hLF, if_pos rfl]
        · intro rest hcomplete
          exact absurd hcomplete not_completes_after_CR
      | false =>
        by_cases hCR : b = CR
        · have hafter : afterByte line false b = .inr (line, true) := by
            unfold afterByte
            rw [if_neg hLF, if_neg (by decide), if_pos hCR]
          rw [hafter]
          dsimp only
          rw [ih hline, inTime_cons hread]
          rw [hCR]
          simp only [completes_CR]
        by_cases hprint : b < 0x20 ∨ b > 0x7e
        · apply herror EPROTO
          · unfold afterByte
            rw [if_neg hLF, if_neg (by decide), if_neg hCR, if_pos hprint]
          · intro rest hcomplete
            obtain ⟨_, _, hb, _⟩ := (completes_byte hCR).mp hcomplete
            exact absurd hprint (printable_iff.mp hb)
        by_cases hfull : line.length ≥ UART_PROTOCOL_LINE_SIZE - 1
        · apply herror EMSGSIZE
          · unfold afterByte
            rw [if_neg hLF, if_neg (by decide), if_neg hCR, if_neg hprint, if_pos hfull]
          · intro rest hcomplete hfits
            obtain ⟨rest', hrest, _, _⟩ := (completes_byte hCR).mp hcomplete
            rw [hrest, List.length_append, List.length_cons] at hfits
            omega
        have hafter : afterByte line false b = .inr (line ++ [b], false) := by
          unfold afterByte
          rw [if_neg hLF, if_neg (by decide), if_neg hCR, if_neg hprint, if_neg hfull]
        have hlonger : (line ++ [b]).length ≤ UART_PROTOCOL_LINE_SIZE - 1 := by
          rw [List.length_append, List.length_singleton]
          omega
        rw [hafter]
        dsimp only
        rw [ih hlonger]
        symm
        apply inTime_cons hread
        constructor
        · intro ⟨rest, hcomplete, hresult⟩
          obtain ⟨rest', hrest, _, hcomplete⟩ := (completes_byte hCR).mp hcomplete
          refine ⟨rest', hcomplete, ?_⟩
          rw [hresult, hrest, List.append_assoc, List.singleton_append]
        · intro ⟨rest, hcomplete, hresult⟩
          refine ⟨b :: rest, (completes_byte hCR).mpr ⟨rest, rfl, printable_iff.mpr hprint, hcomplete⟩, ?_⟩
          rw [hresult, List.append_assoc, List.singleton_append]

end InTime

/-! ### The request -/

/-- The reply is taken: the line before the first line feed is complete, the
reading of the clock after the line feed is before the deadline, and the line is
a reply to the request and fits the buffer. -/
structure Accepted (clock : Clock) (reads : List (Option Byte)) (q : UartRequest) (n size : ℕ) (timeoutMs : ℤ)
    (line : List Byte) : Prop where
  feed : some LF ∈ reads
  complete : Completes false (beforeFeed reads) line
  fits : line.length ≤ UART_PROTOCOL_LINE_SIZE - 1
  early : clock.ms ((beforeFeed reads).length + 3) < clock.ms 0 + timeoutMs
  valid : validateReply q n line = true
  room : line.length < size

/-- The requests that are rejected before `reply[0] = '\0'`. -/
def RefusedRequest (d : Device) (request : List Byte) (size : ℕ) (timeoutMs : ℤ) : Prop :=
  d.config.type ≠ .uart ∨ size = 0 ∨ timeoutMs < 0 ∨ d.config.enabled = 0 ∨ d.opened = 0 ∨
    request.length ≥ UART_PROTOCOL_LINE_SIZE ∨ parseRequest request = none

/-- A refused request makes no call and leaves the reply as it was. -/
theorem request_refused {d : Device} {request : List Byte} {size : ℕ} {timeoutMs : ℤ}
    (h : RefusedRequest d request size timeoutMs) (reply : List Byte) :
    ∃ errno, uartProtocolRequest d request reply size timeoutMs = .ret (requestFailure d errno reply) := by
  unfold uartProtocolRequest
  by_cases harguments : d.config.type ≠ .uart ∨ size = 0 ∨ timeoutMs < 0
  · rw [if_pos harguments]
    exact ⟨_, rfl⟩
  rw [if_neg harguments]
  by_cases henabled : d.config.enabled = 0
  · rw [if_pos henabled]
    exact ⟨_, rfl⟩
  rw [if_neg henabled]
  by_cases hopened : d.opened = 0
  · rw [if_pos hopened]
    exact ⟨_, rfl⟩
  rw [if_neg hopened]
  by_cases hlen : request.length ≥ UART_PROTOCOL_LINE_SIZE
  · rw [if_pos hlen]
    exact ⟨_, rfl⟩
  rw [if_neg hlen]
  have hnone : parseRequest request = none := by
    rcases h with h | h | h | h | h | h | h
    · exact absurd (Or.inl h) harguments
    · exact absurd (Or.inr (Or.inl h)) harguments
    · exact absurd (Or.inr (Or.inr h)) harguments
    · exact absurd h henabled
    · exact absurd h hopened
    · exact absurd h hlen
    · exact h
  rw [hnone]
  exact ⟨_, rfl⟩

/-- What `uart_protocol_request` does once the request is parsed. -/
theorem request_passes {d : Device} {request : List Byte} {size : ℕ} {timeoutMs : ℤ}
    (h : ¬ RefusedRequest d request size timeoutMs) : d.config.type = .uart ∧ size ≠ 0 ∧ 0 ≤ timeoutMs ∧
      d.config.enabled ≠ 0 ∧ d.opened ≠ 0 ∧ request.length < UART_PROTOCOL_LINE_SIZE ∧
      ∃ q n, parseRequest request = some (q, n) := by
  unfold RefusedRequest at h
  rw [not_or, not_or, not_or, not_or, not_or, not_or, not_not, not_lt, not_le] at h
  obtain ⟨huart, hsize, htimeout, henabled, hopened, hlen, hparse⟩ := h
  obtain ⟨⟨q, n⟩, hsome⟩ := Option.ne_none_iff_exists'.mp hparse
  exact ⟨huart, hsize, htimeout, henabled, hopened, hlen, q, n, hsome⟩

section Cleared

variable {W : Type} {M : World DeviceCall DeviceCall.Ret W}

theorem anything_safe {α : Type} (p : DeviceProg α) (w : W) : Safe M Watch.idle (fun _ _ => True) p w := by
  intro p' w' _
  cases p' with
  | ret a => exact ⟨trivial, trivial⟩
  | call o k => exact ⟨trivial, trivial⟩
  | loop body s k => trivial

/-- The request succeeded, or the reply is the empty string. -/
def ReplyCleared (r : RequestResult) : Prop := r.ret = 0 ∨ r.reply = []

theorem cleared_bind {α : Type} {p : DeviceProg α} {k : α → DeviceProg RequestResult}
    (hk : ∀ a w, Safe M Watch.idle (fun r _ => ReplyCleared r) (k a) w) (w : W) :
    Safe M Watch.idle (fun r _ => ReplyCleared r) (p.bind k) w :=
  (anything_safe p w).bind fun a w _ _ => hk a w

theorem cleared_ret {r : RequestResult} (h : ReplyCleared r) (w : W) :
    Safe M Watch.idle (fun r _ => ReplyCleared r) (.ret r) w :=
  Safe.ret (P := fun _ => True) (fun _ _ _ _ => trivial) (fun _ _ => ⟨trivial, h⟩) trivial

theorem cleared_failure {d : Device} {errno : ℕ} (w : W) :
    Safe M Watch.idle (fun r _ => ReplyCleared r) (.ret (requestFailure d errno [])) w := cleared_ret (Or.inr rfl) w

/-- Whatever the clock and the device do, a failure after `reply[0] = '\0'`
leaves the empty string. -/
theorem request_cleared {d : Device} {request : List Byte} {size : ℕ} {timeoutMs : ℤ}
    (h : ¬ RefusedRequest d request size timeoutMs) (reply : List Byte) (w : W) :
    Safe M Watch.idle (fun r _ => ReplyCleared r) (uartProtocolRequest d request reply size timeoutMs) w := by
  obtain ⟨huart, hsize, htimeout, henabled, hopened, hlen, q, n, hparse⟩ := request_passes h
  have harguments : ¬ (d.config.type ≠ .uart ∨ size = 0 ∨ timeoutMs < 0) := by
    rw [not_or, not_or]
    exact ⟨not_not.mpr huart, hsize, not_lt.mpr htimeout⟩
  unfold uartProtocolRequest
  rw [if_neg harguments, if_neg henabled, if_neg hopened, if_neg (not_le.mpr hlen), hparse]
  dsimp only
  by_cases hzero : timeoutMs = 0
  · rw [if_pos hzero]
    exact cleared_failure w
  rw [if_neg hzero]
  apply cleared_bind
  intro now w
  by_cases hnow : now.ret < 0
  · rw [if_pos hnow]
    exact cleared_failure w
  rw [if_neg hnow]
  apply cleared_bind
  intro flush w
  by_cases hflush : flush.ret < 0
  · rw [if_pos hflush]
    exact cleared_failure w
  rw [if_neg hflush]
  apply cleared_bind
  intro timeout w
  by_cases hleft : timeout.ret < 0
  · rw [if_pos hleft]
    exact cleared_failure w
  rw [if_neg hleft]
  apply cleared_bind
  intro write w
  by_cases hwrite : write.ret < 0
  · rw [if_pos hwrite]
    exact cleared_failure w
  rw [if_neg hwrite]
  apply cleared_bind
  intro received w
  cases received.line with
  | error errno => exact cleared_failure w
  | ok line =>
    apply cleared_bind
    intro left w
    by_cases hlate : left.ret < 0
    · rw [if_pos hlate]
      exact cleared_failure w
    rw [if_neg hlate]
    by_cases hinvalid : (!validateReply q n line) = true
    · rw [if_pos hinvalid]
      exact cleared_failure w
    rw [if_neg hinvalid]
    by_cases hlong : line.length ≥ size
    · rw [if_pos hlong]
      exact cleared_failure w
    rw [if_neg hlong]
    exact cleared_ret (Or.inl rfl) w

end Cleared

section Request

variable {clock : Clock} {reads : List (Option Byte)} {q : UartRequest} {n size : ℕ} {timeoutMs : ℤ}

/-- What an accepted line is for the loop. -/
theorem Accepted.inTime {line : List Byte} (h : Accepted clock reads q n size timeoutMs line) :
    InTime clock (clock.ms 0 + timeoutMs) 2 [] false reads line ((beforeFeed reads).length + 3) := by
  have hle : clock.ms (2 + (beforeFeed reads).length) ≤ clock.ms ((beforeFeed reads).length + 3) :=
    clock.ms_le (by omega)
  exact ⟨h.feed, ⟨line, h.complete, rfl⟩, h.fits, by omega, hle.trans_lt h.early⟩

/-- A reading of the clock that is too late. -/
theorem not_accepted_late {i : ℕ} (hi : i ≤ (beforeFeed reads).length + 3)
    (hlate : clock.ms 0 + timeoutMs ≤ clock.ms i) (line : List Byte) :
    ¬ Accepted clock reads q n size timeoutMs line := by
  intro h
  have hle := clock.ms_le hi
  have hearly := h.early
  omega

/-- What the request comes to. -/
structure RequestOver (clock : Clock) (reads : List (Option Byte)) (q : UartRequest) (n size : ℕ) (timeoutMs : ℤ)
    (r : RequestResult) (w : Arrivals) : Prop where
  success : r.ret = 0 ↔ ∃ line, Accepted clock reads q n size timeoutMs line
  reply : ∀ line, Accepted clock reads q n size timeoutMs line → r.reply = line
  cleared : r.ret ≠ 0 → r.reply = []
  timely : Timely (clock.ms 0 + timeoutMs) w.timeouts

theorem failure_over {d : Device} {errno : ℕ} {w : Arrivals}
    (hnot : ∀ line, ¬ Accepted clock reads q n size timeoutMs line)
    (htimely : Timely (clock.ms 0 + timeoutMs) w.timeouts) :
    Prog.Total (arriving clock) (RequestOver clock reads q n size timeoutMs)
      (.ret (requestFailure d errno [])) w := by
  apply Prog.Total.ret
  refine ⟨?_, fun line h => absurd h (hnot line), fun _ => rfl, htimely⟩
  constructor
  · intro h
    cases h
  · intro ⟨line, h⟩
    exact absurd h (hnot line)

/-- The calls for the flush and the write. -/
theorem control_total {d : Device} (hd : UartReady d) {request : DeviceControl} {argument : ControlArgument}
    {w w' : Arrivals}
    (hsem : ∀ r v, arrivingSem clock w (.backendControl d request argument) r v ↔ 0 ≤ r.ret ∧ v = w') :
    Prog.Total (arriving clock) (fun r v => UartReady r.device ∧ 0 ≤ r.ret ∧ v = w')
      (deviceControl d request argument) w := by
  rw [deviceControl_ready hd.ready hd.control]
  have hsome : ∃ r v, arrivingSem clock w (.backendControl d request argument) r v :=
    ⟨⟨0, 0⟩, w', (hsem _ _).mpr ⟨le_refl _, rfl⟩⟩
  apply Prog.Total.call hsome
  intro r v hs
  obtain ⟨hret, hv⟩ := (hsem r v).mp hs
  apply Prog.Total.ret
  exact ⟨hd.return (not_lt.mpr hret), hret, hv⟩

theorem request_receives {d : Device} (hd : UartReady d) {request : List Byte}
    (hreq : parseRequest request = some (q, n)) (hlen : request.length ≤ UART_PROTOCOL_LINE_SIZE - 1)
    (reply : List Byte) (hsize : 0 < size) (htimeout : 0 < timeoutMs) :
    Prog.Total (arriving clock) (RequestOver clock reads q n size timeoutMs)
      (uartProtocolRequest d request reply size timeoutMs) ⟨0, reads, []⟩ := by
  obtain ⟨-, henabled, hopened, -⟩ := deviceReady_eq_none.mp hd.ready
  have harguments : ¬ (d.config.type ≠ .uart ∨ size = 0 ∨ timeoutMs < 0) := by
    rw [not_or, not_or]
    exact ⟨not_not.mpr hd.uart, by omega, by omega⟩
  have hshort : ¬ request.length ≥ UART_PROTOCOL_LINE_SIZE := by
    unfold UART_PROTOCOL_LINE_SIZE at hlen ⊢
    omega
  have hempty : Timely (clock.ms 0 + timeoutMs) [] := fun t ht => absurd ht List.not_mem_nil
  unfold uartProtocolRequest
  rw [if_neg harguments, if_neg henabled, if_neg hopened, if_neg hshort, hreq]
  dsimp only
  rw [if_neg (by omega)]
  apply clock_total.bind
  intro now w ⟨hnow, hw⟩
  have hpos := clock.ms_nonneg 0
  rw [hnow, if_neg (by omega), hw]
  have hflush : ∀ r v, arrivingSem clock ⟨1, reads, []⟩ (.backendControl d .uartFlush .null) r v ↔
      0 ≤ r.ret ∧ v = ⟨1, reads, []⟩ := fun r v => Iff.rfl
  apply (control_total hd hflush).bind
  intro flush w ⟨hready, hret, hw⟩
  rw [if_neg (by omega), hw]
  apply timeLeft_total.bind
  intro timeout w ⟨hw, hleft⟩
  rw [hw]
  by_cases hlate : clock.ms 0 + timeoutMs ≤ clock.ms 1
  · rw [if_pos hlate] at hleft
    rw [hleft, if_pos (show (-1 : ℤ) < 0 by decide)]
    exact failure_over (not_accepted_late (by omega) hlate) hempty
  rw [if_neg hlate] at hleft
  rw [if_neg (by omega)]
  have hwrite : ∀ r v, arrivingSem clock ⟨2, reads, []⟩
      (.backendControl flush.device .uartWriteAll (.write ⟨request ++ [LF], timeout.ret⟩)) r v ↔
      0 ≤ r.ret ∧ v = ⟨2, reads, [(timeout.ret, clock.ms 1)]⟩ := fun r v => Iff.rfl
  apply (control_total hready hwrite).bind
  intro write w ⟨hready, hret, hw⟩
  rw [if_neg (by omega), hw]
  have htimely : Timely (clock.ms 0 + timeoutMs) [(timeout.ret, clock.ms 1)] := hempty.snoc hleft.2
  -- the reply
  apply (receive_total reads hready htimely).bind
  intro received ⟨i, left, timeouts⟩ ⟨htimely, hheard⟩
  cases hline : hearLine clock (clock.ms 0 + timeoutMs) 2 [] false reads with
  | error errno =>
    rw [hline] at hheard
    obtain ⟨errno, hreceived⟩ := hheard
    rw [hreceived]
    refine failure_over ?_ htimely
    intro line h
    rw [(hearLine_iff reads (Nat.zero_le _)).mpr h.inTime] at hline
    cases hline
  | ok heard =>
    obtain ⟨line, k⟩ := heard
    rw [hline] at hheard
    obtain ⟨hreceived, hk⟩ := hheard
    have hin := (hearLine_iff reads (Nat.zero_le _)).mp hline
    have hone : ∀ line', Accepted clock reads q n size timeoutMs line' → line' = line := by
      intro line' h
      rw [(hearLine_iff reads (Nat.zero_le _)).mpr h.inTime] at hline
      cases hline
      rfl
    have hi : i = (beforeFeed reads).length + 3 := by
      have hnext := hin.next
      dsimp only at hk
      omega
    rw [hreceived]
    dsimp only
    apply timeLeft_total.bind
    intro rest w ⟨hw, hrest⟩
    rw [hw]
    by_cases hlate : clock.ms 0 + timeoutMs ≤ clock.ms i
    · rw [if_pos hlate] at hrest
      rw [hrest, if_pos (show (-1 : ℤ) < 0 by decide)]
      exact failure_over (not_accepted_late hi.le hlate) htimely
    rw [if_neg hlate] at hrest
    rw [if_neg (by omega)]
    cases hvalid : validateReply q n line with
    | false =>
      rw [if_pos (by decide)]
      refine failure_over ?_ htimely
      intro line' h
      have htrue := h.valid
      rw [hone line' h, hvalid] at htrue
      cases htrue
    | true =>
      rw [if_neg (by decide)]
      by_cases hlong : line.length ≥ size
      · rw [if_pos hlong]
        refine failure_over ?_ htimely
        intro line' h
        have hroom := h.room
        rw [hone line' h] at hroom
        omega
      rw [if_neg hlong]
      apply Prog.Total.ret
      obtain ⟨ext, hcomplete, hresult⟩ := hin.complete
      rw [List.nil_append] at hresult
      rw [← hresult] at hcomplete
      have haccepted : Accepted clock reads q n size timeoutMs line :=
        ⟨hin.feed, hcomplete, hin.fits, by rw [← hi]; omega, hvalid, by omega⟩
      refine ⟨⟨fun _ => ⟨line, haccepted⟩, fun _ => rfl⟩, ?_, fun h => absurd rfl h, htimely⟩
      intro line' h
      exact (hone line' h).symm

end Request

/-- **The receive path of the host.** The request succeeds exactly when the
reply is accepted, and returns it. A refused request makes no call and leaves
the reply buffer as it was, and any other failure leaves the empty string there,
whatever the device does. -/
theorem host_receive_path :
    (∀ (clock : Clock) (reads : List (Option Byte)) (d : Device) (request reply : List Byte) (q : UartRequest)
        (n size : ℕ) (timeoutMs : ℤ), UartReady d → parseRequest request = some (q, n) →
      request.length ≤ UART_PROTOCOL_LINE_SIZE - 1 → 0 < size → 0 < timeoutMs →
      Prog.Total (arriving clock) (RequestOver clock reads q n size timeoutMs)
        (uartProtocolRequest d request reply size timeoutMs) ⟨0, reads, []⟩) ∧
    (∀ (d : Device) (request reply : List Byte) (size : ℕ) (timeoutMs : ℤ), RefusedRequest d request size timeoutMs →
      ∃ errno, uartProtocolRequest d request reply size timeoutMs = .ret (requestFailure d errno reply)) ∧
    (∀ (d : Device) (request reply : List Byte) (size : ℕ) (timeoutMs : ℤ),
      ¬ RefusedRequest d request size timeoutMs → ∀ {W : Type} (M : World DeviceCall DeviceCall.Ret W) (w : W),
        Safe M Watch.idle (fun r _ => ReplyCleared r) (uartProtocolRequest d request reply size timeoutMs) w) := by
  refine ⟨?_, fun d request reply size timeoutMs h => request_refused h reply,
    fun d request reply size timeoutMs h W M w => request_cleared h reply w⟩
  intro clock reads d request reply q n size timeoutMs hd hreq hlen hsize htimeout
  exact request_receives hd hreq hlen reply hsize htimeout

/-- A clock that goes on by one millisecond for each reading. -/
def tickClock : Clock where
  reading i := ⟨0, i * 1000000⟩
  nonneg := by decide
  mono := by
    intro i j hij
    unfold timespecMs
    dsimp only
    rw [Int.mul_tdiv_cancel _ (by decide), Int.mul_tdiv_cancel _ (by decide)]
    omega

/-- The reply to a ping, with a read in between that gives no byte. -/
def pongReads : List (Option Byte) :=
  [some 'P'.toUInt8, some 'O'.toUInt8, none, some 'N'.toUInt8, some 'G'.toUInt8, some CR, some LF]

theorem host_receive_pong : ∃ r w,
    Reach (arriving tickClock) (uartProtocolRequest openUart (text "PING") (text "old") 128 50, ⟨0, pongReads, []⟩)
      (.ret r, w) ∧ r.ret = 0 ∧ r.reply = text "PONG" := by
  obtain ⟨r, w, hreach, hover⟩ := (host_receive_path.1 tickClock pongReads openUart (text "PING") (text "old") .ping 0
    128 50 openUart_ready (by decide) (by decide) (by decide) (by decide)).returns
  have haccepted : Accepted tickClock pongReads .ping 0 128 50 (text "PONG") :=
    ⟨by decide, ⟨Or.inr (by decide), by decide +kernel⟩, by decide, by decide, by decide, by decide⟩
  exact ⟨r, w, hreach, hover.success.mpr ⟨text "PONG", haccepted⟩, hover.reply (text "PONG") haccepted⟩

end DeviceRuntime
