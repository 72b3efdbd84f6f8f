/-
# A buffer written as a whole

`serial_port_write_all` on a port where anything can happen: `poll` is ready,
reports an error or a hang-up, is over or interrupted, `write` takes any part
of what it is given, nothing, or fails, and the clock gives any readings that
do not decrease. Whatever comes, the port has taken the first bytes of the
buffer in order, and one deadline limits all the waiting.

An iteration begins with a reading of the clock and ends with a `write` that
is not interrupted; the second reading in it is that of `poll_fd`.

Key definitions: `PortLine`, `PortLine.hear`, `portLine`, `writeWatch`,
`WrittenAll`.
Key theorems: `pollFd_line`, `writeTurn_line`, `serialPortWriteAll_line`,
`serialPortWriteAll_prompt`, `serial_write_all`.
-/
import DeviceRuntime.Lib.Prompt
import DeviceRuntime.RequestAgreement
import DeviceRuntime.SerialPort

namespace DeviceRuntime

open Prog SerialPort

/-! ### The port -/

/-- What the port has taken, the last reading of the clock, the first one, the
one at the top of the iteration and the one `poll_fd` starts with, and whether
the time is known to be over. -/
structure PortLine where
  accepted : List Byte
  last : ℤ
  start : Option ℤ
  top : Option ℤ
  wait : Option ℤ
  timeUp : Bool
deriving DecidableEq, Repr

namespace PortLine

/-- Nothing has happened yet. -/
def fresh (last : ℤ) : PortLine := ⟨[], last, none, none, none, false⟩

/-- The clock is read. The time is over with a reading at the top of an
iteration that is not before the deadline, and with one of `poll_fd` that is
not before its own. -/
def hear (timeoutMs : ℤ) (w : PortLine) (now : ℤ) : PortLine :=
  match w.start, w.top, w.wait with
  | none, _, _ => { w with last := now, start := some now }
  | some start, none, _ => { w with last := now, top := some now, timeUp := start + timeoutMs ≤ now }
  | some _, some _, none => { w with last := now, wait := some now }
  | some start, some top, some wait =>
    { w with last := now, timeUp := wait + min (start + timeoutMs - top) INT_MAX ≤ now }

/-- `poll` is back. -/
def polled (w : PortLine) (result : ℤ) : PortLine := { w with timeUp := w.timeUp || result = 0 }

/-- The iteration ends with a write. -/
def written (w : PortLine) (bytes : List Byte) : PortLine :=
  { w with accepted := w.accepted ++ bytes, top := none, wait := none }

end PortLine

def portLineSem (timeoutMs : ℤ) (w : PortLine) : (c : SerialCall) → c.Ret → PortLine → Prop
  | .clockGettime, .ok now, w' => w.last ≤ timespecMs now ∧ w' = w.hear timeoutMs (timespecMs now)
  | .clockGettime, .error _, w' => w' = w
  | .poll _ _ _, r, w' => w' = w.polled r.1.ret
  | .write _ data, r, w' =>
    (∃ n ≤ data.length, r.ret = (n : ℤ) ∧ w' = w.written (data.take n)) ∨
      (r.ret = -1 ∧ w' = if r.errno = EINTR then w else w.written [])
  | _, _, _ => False

abbrev portLine (timeoutMs : ℤ) : World SerialCall SerialCall.Ret PortLine := .alone (portLineSem timeoutMs)

/-- What a call may be made for while there is something to write. -/
def WriteCall (port : SerialPort) (data : List Byte) (timeoutMs : ℤ) (w : PortLine) : SerialCall → Prop
  | .clockGettime => True
  | .poll fd events timeout =>
    fd = port.fd ∧ events = .pollout ∧ ∃ start top, w.start = some start ∧ w.top = some top ∧
      top < start + timeoutMs ∧ 0 < timeout ∧ timeout ≤ start + timeoutMs - top
  | .write fd chunk => fd = port.fd ∧ chunk = data.drop w.accepted.length
  | _ => False

/-- The port has taken the first bytes of the data, and the calls are made in
time. -/
def writeWatch (port : SerialPort) (data : List Byte) (timeoutMs : ℤ) : Watch SerialCall PortLine where
  always w := w.accepted <+: data
  atCall c w := w.timeUp = false ∧ w.accepted ≠ data ∧ WriteCall port data timeoutMs w c

/-- The result, and what the port has taken then. -/
structure WrittenAll (data : List Byte) (r : CallResult) (w : PortLine) : Prop where
  taken : w.accepted <+: data
  result : r.ret = 0 ∨ r.ret = -1
  whole : r.ret = 0 ↔ w.accepted = data
  timeout : w.timeUp = true → r = ⟨-1, ETIMEDOUT⟩

/-! ### The wait -/

/-- There are bytes left after `total` ones, and the deadline is not known to be
over. -/
structure Sending (data : List Byte) (start : ℤ) (total : ℕ) (w : PortLine) : Prop where
  taken : w.accepted <+: data
  count : w.accepted.length = total
  left : w.accepted ≠ data
  started : w.start = some start
  nonneg : 0 ≤ start
  past : start ≤ w.last
  time : w.timeUp = false

/-- In an iteration, with the reading at its top. -/
structure Iterating (data : List Byte) (timeoutMs start : ℤ) (total : ℕ) (top : ℤ) (w : PortLine) : Prop where
  sending : Sending data start total w
  reading : w.top = some top
  after : start ≤ top
  intime : top < start + timeoutMs
  past : top ≤ w.last

/-- `poll_fd` is waiting. -/
structure Waiting (data : List Byte) (timeoutMs start : ℤ) (total : ℕ) (top wait : ℤ) (w : PortLine) : Prop where
  iterating : Iterating data timeoutMs start total top w
  reading : w.wait = some wait
  order : top ≤ wait
  past : wait ≤ w.last

/-- What `poll_fd` returns: 0 if and only if the time is over. -/
structure PollEnded (data : List Byte) (start : ℤ) (total : ℕ) (r : CallResult) (w : PortLine) : Prop where
  taken : w.accepted <+: data
  left : w.accepted ≠ data
  timeUp : r.ret = 0 ↔ w.timeUp = true
  ready : 0 < r.ret → Sending data start total w

/-- Between two iterations, `total` bytes into the data. -/
structure Between (data : List Byte) (start : ℤ) (total : ℕ) (w : PortLine) : Prop where
  taken : w.accepted <+: data
  count : w.accepted.length = total
  started : w.start = some start
  nonneg : 0 ≤ start
  past : start ≤ w.last
  time : w.timeUp = false
  top : w.top = none
  wait : w.wait = none

section Wait

variable {port : SerialPort} {data : List Byte} {timeoutMs start top wait : ℤ} {total : ℕ} {w : PortLine}

/-- A reading of the clock. -/
theorem monotonicMs_line {α : Type} {Q : α → PortLine → Prop} {k : CallResult → SerialProg α}
    (ha : w.accepted <+: data) (hleft : w.accepted ≠ data) (hover : w.timeUp = false)
    (hfail : ∀ errno, Safe (portLine timeoutMs) (writeWatch port data timeoutMs) Q (k ⟨-1, errno⟩) w)
    (hnow : ∀ now, w.last ≤ now →
      Safe (portLine timeoutMs) (writeWatch port data timeoutMs) Q (k ⟨now, 0⟩) (w.hear timeoutMs now)) :
    Safe (portLine timeoutMs) (writeWatch port data timeoutMs) Q (SerialPort.monotonicMs.bind k) w := by
  apply Safe.call_alone
  · exact ha
  · exact ⟨hover, hleft, trivial⟩
  intro r w' hs
  cases r with
  | error errno =>
    have hw' : w' = w := hs
    rw [hw']
    exact hfail errno
  | ok now =>
    obtain ⟨hle, hw'⟩ := hs
    rw [hw']
    exact hnow _ hle

theorem Waiting.hear (h : Waiting data timeoutMs start total top wait w) (now : ℤ) : w.hear timeoutMs now =
    { w with last := now, timeUp := wait + min (start + timeoutMs - top) INT_MAX ≤ now } := by
  unfold PortLine.hear
  rw [h.iterating.sending.started, h.iterating.reading, h.reading]

/-- The call of `poll`, and what `poll_fd` makes of it. -/
theorem polled_line {remaining : ℤ} (hpos : 0 < remaining) (hlimit : remaining ≤ start + timeoutMs - top)
    (h : Waiting data timeoutMs start total top wait w) :
    Safe (portLine timeoutMs) (writeWatch port data timeoutMs)
      (Sum.elim (fun _ w => Waiting data timeoutMs start total top wait w) fun r w => PollEnded data start total r w)
      ((sysPoll port.fd .pollout (if remaining > INT_MAX then INT_MAX else remaining)).bind fun result =>
        if result.1.ret > 0 then
          if result.2.has .pollout then .ret (.inr ⟨1, 0⟩)
          else if result.2.pollnval then .ret (.inr ⟨-1, EBADF⟩)
          else if result.2.pollerr || result.2.pollhup then .ret (.inr ⟨-1, EIO⟩)
          else .ret (.inl ())
        else if result.1.ret = 0 then .ret (.inr ⟨0, 0⟩)
        else if result.1.errno ≠ EINTR then .ret (.inr ⟨-1, result.1.errno⟩)
        else .ret (.inl ())) w := by
  have hsending := h.iterating.sending
  have hmax : (0 : ℤ) < INT_MAX := by decide
  apply Safe.call_alone
  · exact hsending.taken
  · refine ⟨hsending.time, hsending.left, rfl, rfl, start, top, hsending.started, h.iterating.reading,
      h.iterating.intime, ?_, ?_⟩
    · split_ifs
      · exact hmax
      · exact hpos
    · split_ifs
      · omega
      · exact hlimit
  intro r w' hw'
  have hw' : w' = w.polled r.1.ret := hw'
  have htaken : w'.accepted <+: data := by
    rw [hw']
    exact hsending.taken
  have hleft : w'.accepted ≠ data := by
    rw [hw']
    exact hsending.left
  have hover : w'.timeUp = decide (r.1.ret = 0) := by
    rw [hw']
    unfold PortLine.polled
    rw [hsending.time, Bool.false_or]
  rw [Prog.ret_bind]
  by_cases hzero : r.1.ret = 0
  · rw [if_neg (by omega), if_pos hzero]
    refine Safe.ret_alone htaken ⟨htaken, hleft, ?_, ?_⟩
    · rw [hover, decide_eq_true_eq]
      exact iff_of_true rfl hzero
    · exact fun h => absurd h (by decide)
  · -- the time is not over, so `poll_fd` fails, is ready or waits again
    have hgoes : Waiting data timeoutMs start total top wait w' := by
      have hsame : w' = w := by
        rw [hw']
        unfold PortLine.polled
        rw [decide_eq_false hzero, Bool.or_false]
      rw [hsame]
      exact h
    have hends : ∀ r' : CallResult, r'.ret ≠ 0 → PollEnded data start total r' w' := by
      intro r' hr'
      refine ⟨htaken, hleft, ?_, fun _ => hgoes.iterating.sending⟩
      rw [hover, decide_eq_true_eq]
      exact iff_of_false hr' hzero
    split_ifs
    · exact Safe.ret_alone htaken (hends _ (by decide))
    · exact Safe.ret_alone htaken (hends _ (by decide))
    · exact Safe.ret_alone htaken (hends _ (by decide))
    · exact Safe.ret_alone htaken hgoes
    · exact Safe.ret_alone htaken (hends _ (show (-1 : ℤ) ≠ 0 by decide))
    · exact Safe.ret_alone htaken hgoes

/-- A turn of the loop of `poll_fd`. -/
theorem pollTurn_line {limit : ℤ} (hlimit : limit = min (start + timeoutMs - top) INT_MAX)
    (h : Waiting data timeoutMs start total top wait w) :
    Safe (portLine timeoutMs) (writeWatch port data timeoutMs)
      (Sum.elim (fun _ w => Waiting data timeoutMs start total top wait w) fun r w => PollEnded data start total r w)
      (pollTurn port.fd .pollout limit (wait + limit)) w := by
  have hsending := h.iterating.sending
  have hpos : limit > 0 := by
    have := h.iterating.intime
    have hmax : (0 : ℤ) < INT_MAX := by decide
    omega
  unfold pollTurn pollNow
  rw [if_pos hpos]
  apply monotonicMs_line hsending.taken hsending.left hsending.time
  · intro errno
    rw [if_pos (show (-1 : ℤ) < 0 by decide)]
    refine Safe.ret_alone hsending.taken ⟨hsending.taken, hsending.left, ?_, fun _ => hsending⟩
    rw [hsending.time]
    exact iff_of_false (show ¬ (-1 : ℤ) = 0 by decide) (by decide)
  · intro now hle
    dsimp only
    have hnonneg : ¬ now < 0 := by
      have := hsending.nonneg
      have := hsending.past
      omega
    rw [h.hear now, if_neg hnonneg, if_pos hpos, ← hlimit]
    by_cases hover : wait + limit - now ≤ 0
    · -- the deadline of `poll_fd` is over
      rw [if_pos ⟨hpos, hover⟩]
      have htime : wait + limit ≤ now := by omega
      refine Safe.ret_alone hsending.taken ⟨hsending.taken, hsending.left, ?_, fun h => absurd h (by decide)⟩
      exact iff_of_true rfl (decide_eq_true htime)
    · rw [if_neg (not_and_of_not_right _ hover), decide_eq_false (by omega)]
      have hbefore : Waiting data timeoutMs start total top wait { w with last := now, timeUp := false } := by
        have hlast := h.iterating.past
        have hwait := h.past
        have hstart := hsending.past
        refine ⟨⟨⟨hsending.taken, hsending.count, hsending.left, hsending.started, hsending.nonneg, ?_, rfl⟩,
          h.iterating.reading, h.iterating.after, h.iterating.intime, ?_⟩, h.reading, h.order, ?_⟩
        · dsimp only
          omega
        · dsimp only
          omega
        · dsimp only
          omega
      have hafter := h.past
      exact polled_line (by omega) (by omega) hbefore

/-- `poll_fd` in an iteration, with the time that is left. -/
theorem pollFd_line {limit : ℤ} (hlimit : limit = min (start + timeoutMs - top) INT_MAX)
    (h : Iterating data timeoutMs start total top w) (hwait : w.wait = none) :
    Safe (portLine timeoutMs) (writeWatch port data timeoutMs) (PollEnded data start total)
      (pollFd port.fd .pollout limit) w := by
  have hsending := h.sending
  have hpos : limit > 0 := by
    have := h.intime
    have hmax : (0 : ℤ) < INT_MAX := by decide
    omega
  unfold pollFd pollNow
  rw [if_neg (by omega), if_pos hpos]
  apply monotonicMs_line hsending.taken hsending.left hsending.time
  · intro errno
    rw [if_pos (show (-1 : ℤ) < 0 by decide)]
    refine Safe.ret_alone hsending.taken ⟨hsending.taken, hsending.left, ?_, fun _ => hsending⟩
    rw [hsending.time]
    exact iff_of_false (show ¬ (-1 : ℤ) = 0 by decide) (by decide)
  · intro now hle
    dsimp only
    have hlast := h.past
    have hstart := hsending.past
    have hnonneg : ¬ now < 0 := by
      have := hsending.nonneg
      omega
    have hhear : w.hear timeoutMs now = { w with last := now, wait := some now } := by
      unfold PortLine.hear
      rw [hsending.started, h.reading, hwait]
    have hwaiting : Waiting data timeoutMs start total top now { w with last := now, wait := some now } := by
      refine ⟨⟨⟨hsending.taken, hsending.count, hsending.left, hsending.started, hsending.nonneg, ?_, hsending.time⟩,
        h.reading, h.after, h.intime, ?_⟩, rfl, ?_, le_refl _⟩
      · dsimp only
        omega
      · dsimp only
        omega
      · omega
    rw [if_neg hnonneg, hhear]
    exact Safe.iter (I := fun _ w => Waiting data timeoutMs start total top now w) (fun _ => stable_alone _)
      (fun _ => stable_alone _) (fun _ _ h => h.iterating.sending.taken) (fun _ _ h => h.taken)
      (fun _ _ h => pollTurn_line hlimit h) hwaiting

end Wait

/-! ### The write -/

section Write

variable {port : SerialPort} {data : List Byte} {timeoutMs start : ℤ} {total : ℕ} {w : PortLine}

/-- What the port has taken after a write of the rest. -/
theorem Sending.written_prefix (h : Sending data start total w) (n : ℕ) :
    w.accepted ++ (data.drop w.accepted.length).take n <+: data := by
  obtain ⟨rest, hrest⟩ := h.taken
  rw [← hrest, List.drop_left]
  exact (List.prefix_append_right_inj _).mpr (List.take_prefix n rest)

/-- `serial_port_write` of what is left: some of it is taken, or it fails. -/
theorem serialPortWrite_line (hport : ¬ port.fd < 0) (h : Sending data start total w) :
    Safe (portLine timeoutMs) (writeWatch port data timeoutMs)
      (fun r w' => (∃ n ≤ (data.drop w.accepted.length).length, r.ret = (n : ℤ) ∧
          w' = w.written ((data.drop w.accepted.length).take n)) ∨ (r.ret = -1 ∧ w' = w.written []))
      (serialPortWrite port (data.drop w.accepted.length)) w := by
  unfold serialPortWrite
  rw [if_neg hport]
  refine Safe.iter (I := fun _ w' => w' = w) (fun _ => stable_alone _) (fun _ => stable_alone _) ?_ ?_ ?_ rfl
  · intro _ w' hw'
    rw [hw']
    exact h.taken
  · intro r w' hw'
    rcases hw' with ⟨n, -, -, hw'⟩ | ⟨-, hw'⟩
    · rw [hw']
      exact h.written_prefix n
    · rw [hw']
      have hnone := h.written_prefix 0
      rwa [List.take_zero] at hnone
  · intro _ w₁ hw₁
    rw [hw₁]
    apply Safe.call_alone
    · exact h.taken
    · exact ⟨h.time, h.left, rfl, rfl⟩
    intro r w' hs
    rw [Prog.ret_bind]
    rcases hs with ⟨n, hn, hret, hw'⟩ | ⟨hret, hw'⟩
    · have hgiven : ¬ (r.ret < 0 ∧ r.errno = EINTR) := by omega
      rw [if_neg hgiven]
      refine Safe.ret_alone ?_ (Or.inl ⟨n, hn, hret, hw'⟩)
      rw [hw']
      exact h.written_prefix n
    · by_cases hint : r.errno = EINTR
      · rw [if_pos hint] at hw'
        rw [if_pos ⟨by omega, hint⟩, hw']
        exact Safe.ret_alone h.taken rfl
      · rw [if_neg hint] at hw'
        rw [if_neg (not_and_of_not_right _ hint), hw']
        have hnone := h.written_prefix 0
        rw [List.take_zero] at hnone
        exact Safe.ret_alone hnone (Or.inr ⟨hret, rfl⟩)

/-- A failure while there are bytes left. -/
theorem WrittenAll.failed {errno : ℕ} (htaken : w.accepted <+: data) (hleft : w.accepted ≠ data)
    (htime : w.timeUp = true → errno = ETIMEDOUT) : WrittenAll data ⟨-1, errno⟩ w := by
  refine ⟨htaken, Or.inr rfl, iff_of_false (show ¬ (-1 : ℤ) = 0 by decide) hleft, fun h => ?_⟩
  rw [htime h]

/-- The next iteration begins after a write. -/
theorem Sending.between (h : Sending data start total w) {chunk : List Byte} (htaken : w.accepted ++ chunk <+: data) :
    Between data start (w.accepted.length + chunk.length) (w.written chunk) :=
  ⟨htaken, List.length_append, h.started, h.nonneg, h.past, h.time, rfl, rfl⟩

/-- An iteration of the loop. -/
theorem writeTurn_line (hport : ¬ port.fd < 0) (h : Between data start total w) :
    Safe (portLine timeoutMs) (writeWatch port data timeoutMs)
      (Sum.elim (fun total w => Between data start total w) (WrittenAll data))
      (writeTurn port data (start + timeoutMs) total) w := by
  unfold writeTurn
  by_cases hdone : total < data.length
  · rw [if_neg (not_not.mpr hdone)]
    have hleft : w.accepted ≠ data := by
      intro heq
      have hcount := h.count
      rw [heq] at hcount
      omega
    apply monotonicMs_line h.taken hleft h.time
    · intro errno
      rw [if_pos (show (-1 : ℤ) < 0 by decide)]
      refine Safe.ret_alone h.taken (WrittenAll.failed h.taken hleft fun hover => ?_)
      rw [h.time] at hover
      cases hover
    · intro now hle
      dsimp only
      have hpast := h.past
      have hnonneg : ¬ now < 0 := by
        have := h.nonneg
        omega
      have hhear : w.hear timeoutMs now =
          { w with last := now, top := some now, timeUp := start + timeoutMs ≤ now } := by
        unfold PortLine.hear
        rw [h.started, h.top]
      rw [hhear, if_neg hnonneg]
      by_cases hover : start + timeoutMs - now ≤ 0
      · rw [if_pos hover]
        exact Safe.ret_alone h.taken (WrittenAll.failed h.taken hleft fun _ => rfl)
      · rw [if_neg hover, decide_eq_false (by omega)]
        have hiterating : Iterating data timeoutMs start total now
            { w with last := now, top := some now, timeUp := false } := by
          refine ⟨⟨h.taken, h.count, hleft, h.started, h.nonneg, ?_, rfl⟩, rfl, by omega, by omega, le_refl _⟩
          dsimp only
          omega
        have hlimit : (if start + timeoutMs - now > INT_MAX then INT_MAX else start + timeoutMs - now) =
            min (start + timeoutMs - now) INT_MAX := by
          split_ifs
          · omega
          · omega
        apply (pollFd_line hlimit hiterating h.wait).bind
        intro ready w₁ hready _
        by_cases hfail : ready.ret < 0
        · rw [if_pos hfail]
          refine Safe.ret_alone hready.taken (WrittenAll.failed hready.taken hready.left fun htime => ?_)
          have hzero := hready.timeUp.mpr htime
          omega
        rw [if_neg hfail]
        by_cases hzero : ready.ret = 0
        · rw [if_pos hzero]
          exact Safe.ret_alone hready.taken (WrittenAll.failed hready.taken hready.left fun _ => rfl)
        rw [if_neg hzero]
        have hsending := hready.ready (by omega)
        have hwrite := @serialPortWrite_line port data timeoutMs start total w₁ hport hsending
        rw [hsending.count] at hwrite
        apply hwrite.bind
        intro written w₂ hwritten htaken
        rcases hwritten with ⟨n, hn, hret, hw₂⟩ | ⟨hret, hw₂⟩
        · have hlength : ((data.drop total).take n).length = n := by
            rw [List.length_take, Nat.min_eq_left hn]
          have hnext : Between data start (total + n) w₂ := by
            rw [hw₂] at htaken ⊢
            have hbetween := hsending.between htaken
            rwa [hsending.count, hlength] at hbetween
          by_cases hsome : written.ret > 0
          · have hcount : written.ret.toNat = n := by omega
            rw [if_pos hsome, hcount]
            exact Safe.ret_alone hnext.taken hnext
          · have hnone : written.ret = 0 := by omega
            have hn : n = 0 := by omega
            rw [if_neg hsome, if_pos (Or.inl hnone)]
            rw [hn] at hnext
            exact Safe.ret_alone hnext.taken hnext
        · rw [if_neg (show ¬ written.ret > 0 by omega)]
          have hnext : Between data start total w₂ := by
            rw [hw₂] at htaken ⊢
            have hbetween := hsending.between htaken
            rwa [hsending.count] at hbetween
          by_cases hagain : written.ret = 0 ∨ written.errno = EAGAIN ∨ written.errno = EWOULDBLOCK
          · rw [if_pos hagain]
            exact Safe.ret_alone hnext.taken hnext
          · rw [if_neg hagain]
            have hleft₂ : w₂.accepted ≠ data := by
              rw [hw₂]
              unfold PortLine.written
              rw [List.append_nil]
              exact hsending.left
            refine Safe.ret_alone hnext.taken (WrittenAll.failed hnext.taken hleft₂ fun htime => ?_)
            rw [hnext.time] at htime
            cases htime
  · -- everything is taken
    rw [if_pos hdone]
    have hall : w.accepted = data := by
      apply h.taken.eq_of_length
      have hle := h.taken.length_le
      have hcount := h.count
      omega
    refine Safe.ret_alone h.taken ⟨h.taken, Or.inl rfl, iff_of_true rfl hall, fun hover => ?_⟩
    rw [h.time] at hover
    cases hover

theorem serialPortWriteAll_line (hdata : data ≠ []) (last : ℤ) :
    Safe (portLine timeoutMs) (writeWatch port data timeoutMs) (WrittenAll data)
      (serialPortWriteAll port data timeoutMs) (PortLine.fresh last) := by
  have hnothing : (PortLine.fresh last).accepted <+: data := List.nil_prefix
  have hleft : (PortLine.fresh last).accepted ≠ data := Ne.symm hdata
  have hfailed : ∀ errno, WrittenAll data ⟨-1, errno⟩ (PortLine.fresh last) :=
    fun errno => WrittenAll.failed hnothing hleft fun htime => by cases htime
  unfold serialPortWriteAll
  by_cases hinvalid : port.fd < 0 ∨ timeoutMs < 0
  · rw [if_pos hinvalid]
    exact Safe.ret_alone hnothing (hfailed EINVAL)
  · rw [not_or] at hinvalid
    rw [if_neg (not_or.mpr hinvalid), if_neg (fun h => hdata (List.length_eq_zero_iff.mp h))]
    apply monotonicMs_line hnothing hleft rfl
    · intro errno
      rw [if_pos (show (-1 : ℤ) < 0 by decide)]
      exact Safe.ret_alone hnothing (hfailed errno)
    · intro now hle
      dsimp only
      by_cases hneg : now < 0
      · rw [if_pos hneg]
        exact Safe.ret_alone hnothing (WrittenAll.failed hnothing hleft fun htime => by cases htime)
      · rw [if_neg hneg]
        have hbegin : Between data now 0 ((PortLine.fresh last).hear timeoutMs now) :=
          ⟨hnothing, rfl, rfl, not_lt.mp hneg, le_refl _, rfl, rfl, rfl⟩
        exact Safe.iter (I := fun total w => Between data now total w) (fun _ => stable_alone _)
          (fun _ => stable_alone _) (fun _ _ h => h.taken) (fun _ _ h => h.taken)
          (fun _ _ h => writeTurn_line hinvalid.1 h) hbegin

end Write

/-! ### The end -/

section Prompt

variable (port : SerialPort) (data : List Byte) (timeoutMs : ℤ)

theorem monotonicMs_prompt : SerialPort.monotonicMs.Prompt := by
  intro r
  cases r with
  | error errno => trivial
  | ok now => trivial

theorem pollNow_prompt : (pollNow timeoutMs).Prompt := Prompt.ite monotonicMs_prompt trivial

/-- A turn of `poll_fd` goes round only after a `poll`. -/
theorem pollTurn_prompt (fd : ℤ) (events : PollEvent) (deadline : ℤ) :
    (pollTurn fd events timeoutMs deadline).Prompt ∧
      (pollTurn fd events timeoutMs deadline).Calls fun x => x.isRight = true := by
  unfold pollTurn
  constructor
  · refine (pollNow_prompt timeoutMs).bind fun now => Prompt.ite trivial ?_
    dsimp only
    refine Prompt.ite trivial fun result => ?_
    beta_reduce
    rw [Prog.ret_bind]
    refine Prompt.ite (Prompt.ite trivial (Prompt.ite trivial (Prompt.ite trivial trivial))) ?_
    exact Prompt.ite trivial (Prompt.ite trivial trivial)
  · have hnow : (pollNow timeoutMs).Calls fun _ => True := Calls.ite trivial trivial
    refine hnow.bind fun now _ => Calls.ite rfl ?_
    dsimp only
    exact Calls.ite rfl trivial

theorem pollFd_prompt (fd : ℤ) (events : PollEvent) : (pollFd fd events timeoutMs).Prompt := by
  unfold pollFd
  refine Prompt.ite trivial ?_
  refine (pollNow_prompt timeoutMs).bind fun now => Prompt.ite trivial ?_
  exact ⟨fun _ => pollTurn_prompt timeoutMs fd events _, fun _ => trivial⟩

theorem serialPortWrite_prompt : (serialPortWrite port data).Prompt := by
  unfold serialPortWrite
  refine Prompt.ite trivial ⟨fun _ => ⟨fun result => ?_, trivial⟩, fun _ => trivial⟩
  beta_reduce
  rw [Prog.ret_bind]
  exact Prompt.ite trivial trivial

/-- An iteration ends in another one only after a reading of the clock. -/
theorem writeTurn_prompt (deadline : ℤ) (total : ℕ) : (writeTurn port data deadline total).Prompt ∧
    (writeTurn port data deadline total).Calls fun x => x.isRight = true := by
  unfold writeTurn
  refine ⟨Prompt.ite trivial ?_, Calls.ite rfl trivial⟩
  refine monotonicMs_prompt.bind fun now => Prompt.ite trivial ?_
  dsimp only
  refine Prompt.ite trivial ?_
  refine (pollFd_prompt _ _ _).bind fun ready => Prompt.ite trivial (Prompt.ite trivial ?_)
  refine (serialPortWrite_prompt _ _).bind fun written => ?_
  exact Prompt.ite trivial (Prompt.ite trivial trivial)

theorem serialPortWriteAll_prompt : (serialPortWriteAll port data timeoutMs).Prompt := by
  unfold serialPortWriteAll
  refine Prompt.ite trivial (Prompt.ite trivial ?_)
  refine monotonicMs_prompt.bind fun now => Prompt.ite trivial ?_
  exact ⟨fun total => writeTurn_prompt port data _ total, fun _ => trivial⟩

end Prompt

/-- The port takes a prefix of the data, in time, and the function returns as
soon as everything is taken or the time is over. -/
structure WritesInTime (port : SerialPort) (data : List Byte) (timeoutMs last : ℤ) : Prop where
  safe : Safe (portLine timeoutMs) (writeWatch port data timeoutMs) (WrittenAll data)
    (serialPortWriteAll port data timeoutMs) (PortLine.fresh last)
  ends : ∀ p w, Reach (portLine timeoutMs) (serialPortWriteAll port data timeoutMs, PortLine.fresh last) (p, w) →
    w.timeUp = true ∨ w.accepted = data → Prog.Total (portLine timeoutMs) (WrittenAll data) p w

/-- The buffer is written once and within one deadline. -/
theorem serial_write_all (port : SerialPort) (data : List Byte) (timeoutMs last : ℤ) (hdata : data ≠ []) :
    WritesInTime port data timeoutMs last := by
  have hsafe := @serialPortWriteAll_line port data timeoutMs hdata last
  refine ⟨hsafe, fun p w hreach hend => ?_⟩
  have hprompt := (serialPortWriteAll_prompt port data timeoutMs).reach hreach
  refine (hsafe.reach hreach).finishes hprompt fun c hcall => ?_
  rcases hend with hover | hall
  · rw [hcall.1] at hover
    cases hover
  · exact hcall.2.1 hall

theorem serial_write_all_line : WritesInTime ⟨3⟩ (text "LED ON\n") 100 0 :=
  serial_write_all ⟨3⟩ (text "LED ON\n") 100 0 (by decide)

end DeviceRuntime
