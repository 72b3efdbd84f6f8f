/-
# Three readers of decimal numbers

`parse_unsigned` of the host and its copy in the firmware read a number with
the arithmetic of `uint32_t`, and `device_number` of `src/cmd_device.c` with
`strtoul`. On a word they accept the same and read the same number, so the
request that `device heartbeat` builds is one that `parse_request` takes.

The reader of `scanUnsignedChecked` stops where a difference, a product or a
sum would leave `uint32_t`; it never does.

Key definitions: `deviceNumber`, `deviceHeartbeat`, `scanUnsignedChecked`.
Key theorems: `scanUnsignedChecked_eq`, `deviceNumber_eq`,
`decimal_readers_agree`.
-/
import DeviceRuntime.RequestLine

namespace DeviceRuntime

/-! ### The command -/

/-- `none` is the return value -1. -/
def deviceNumber (text : List Byte) (maximum base : ℕ) : Option ℕ :=
  if text = [] ∨ text.head? = some '-'.toUInt8 ∨ text.head? = some '+'.toUInt8 then none
  else
    let number := strtoulBase base text
    if number.erange ∨ number.rest = text ∨ number.rest ≠ [] ∨ number.parsed > maximum then none else some number.parsed

/-- The request of `device <name> heartbeat <word>`, in a buffer of 64 bytes;
`none` is the usage message. -/
def deviceHeartbeat (word : List Byte) : Option (List Byte) :=
  (deviceNumber word UINT32_MAX 10).map fun number => (text "HEARTBEAT " ++ decimal number).take 63

/-! ### Arithmetic of uint32_t -/

/-- A difference, a product and a sum; `none` where they leave `uint32_t`. -/
def uint32Sub (a b : ℕ) : Option ℕ := if b ≤ a then some (a - b) else none
def uint32Mul (a b : ℕ) : Option ℕ := if a * b ≤ UINT32_MAX then some (a * b) else none
def uint32Add (a b : ℕ) : Option ℕ := if a + b ≤ UINT32_MAX then some (a + b) else none

/-- The loop of `parse_unsigned`. The outer `none` is an overflow. -/
def scanDigitsChecked : List Byte → ℕ → Option (Option ℕ)
  | [], result => some (some result)
  | p :: ps, result =>
    if p < '0'.toUInt8 ∨ p > '9'.toUInt8 then some none
    else (uint32Sub UINT32_MAX (digitOf p)).bind fun room =>
      if result > room / 10 then some none
      else (uint32Mul result 10).bind fun product => (uint32Add product (digitOf p)).bind fun sum =>
        scanDigitsChecked ps sum

def scanUnsignedChecked (text : List Byte) : Option (Option ℕ) :=
  if text = [] then some none else scanDigitsChecked text 0

theorem scanDigitsChecked_eq : ∀ (s : List Byte) (a : ℕ), a ≤ UINT32_MAX →
    scanDigitsChecked s a = some (scanDigits s a)
  | [], _, _ => rfl
  | p :: ps, a, ha => by
    unfold scanDigitsChecked scanDigits
    by_cases hp : p < '0'.toUInt8 ∨ p > '9'.toUInt8
    · rw [if_pos hp, if_pos hp]
    · have hdigit : digitOf p ≤ 9 := digitOf_le p (isdigit_iff.mpr hp)
      have hroom : digitOf p ≤ UINT32_MAX := hdigit.trans (by decide)
      have hsub : uint32Sub UINT32_MAX (digitOf p) = some (UINT32_MAX - digitOf p) := if_pos hroom
      rw [if_neg hp, if_neg hp, hsub, Option.bind_some]
      by_cases hbound : a > (UINT32_MAX - digitOf p) / 10
      · rw [if_pos hbound, if_pos hbound]
      · have hsum : a * 10 + digitOf p ≤ UINT32_MAX := by
          have htest := (Numeral.bound_test (b := 10) (a := a) (by decide) hroom).not.mp hbound
          omega
        have hmul : uint32Mul a 10 = some (a * 10) := if_pos (by omega)
        have hadd : uint32Add (a * 10) (digitOf p) = some (a * 10 + digitOf p) := if_pos hsum
        have hmod : (a * 10 + digitOf p) % 2 ^ 32 = a * 10 + digitOf p := Nat.mod_eq_of_lt (Nat.lt_succ_of_le hsum)
        rw [if_neg hbound, if_neg hbound, hmul, Option.bind_some, hadd, Option.bind_some, hmod]
        exact scanDigitsChecked_eq ps _ hsum

/-- No step of `parse_unsigned` leaves `uint32_t`. -/
theorem scanUnsignedChecked_eq (s : List Byte) : scanUnsignedChecked s = some (scanUnsigned s) := by
  unfold scanUnsignedChecked scanUnsigned
  by_cases hs : s = []
  · rw [if_pos hs, if_pos hs]
  · rw [if_neg hs, if_neg hs]
    exact scanDigitsChecked_eq s 0 (Nat.zero_le _)

/-! ### The word of the command -/

section Word

variable {word : List Byte}

/-- `strtoul` in base 10 takes a word without a sign from its first byte. -/
theorem strtolSign_word (hblank : ∀ c ∈ word, isspace c = false) (hminus : word.head? ≠ some '-'.toUInt8)
    (hplus : word.head? ≠ some '+'.toUInt8) : strtolSign word = (false, word) := by
  unfold strtolSign
  cases word with
  | nil => rfl
  | cons c rest =>
    have hc := hblank c List.mem_cons_self
    rw [List.dropWhile_cons_of_neg (by rw [hc]; decide)]
    dsimp only
    rw [if_neg fun h => hminus (by rw [h]; rfl), if_neg fun h => hplus (by rw [h]; rfl)]

/-- What a sign and a blank are not. -/
theorem head_of_digits (hall : ∀ c ∈ word, isdigit c = true) {sign : Byte} (hsign : isdigit sign = false) :
    word.head? ≠ some sign := by
  intro hhead
  have hmem := List.mem_of_head? hhead
  rw [hall sign hmem] at hsign
  cases hsign

/-- `device_number` reads a word as `parse_unsigned` does. -/
theorem deviceNumber_eq (hblank : ∀ c ∈ word, isspace c = false) :
    deviceNumber word UINT32_MAX 10 = scanUnsigned word := by
  have hbase : strtoulBase 10 word = strtoull word := if_pos rfl
  rw [scanUnsigned_eq]
  unfold deviceNumber
  rw [hbase]
  dsimp only
  by_cases hfirst : word = [] ∨ word.head? = some '-'.toUInt8 ∨ word.head? = some '+'.toUInt8
  · rw [if_pos hfirst, if_neg]
    intro ⟨hne, hall, _⟩
    rw [List.all_eq_true] at hall
    rcases hfirst with hnil | hminus | hplus
    · exact hne hnil
    · exact head_of_digits hall (by decide) hminus
    · exact head_of_digits hall (by decide) hplus
  rw [if_neg hfirst]
  rw [not_or, not_or] at hfirst
  obtain ⟨hne, hminus, hplus⟩ := hfirst
  have hsign := strtolSign_word hblank hminus hplus
  have hread : strtoull word = if word.takeWhile isdigit = [] then ⟨0, word, false⟩
      else strtoullValue false (numberOf (word.takeWhile isdigit)) (word.dropWhile isdigit) := by
    unfold strtoull
    rw [hsign]
  by_cases hall : word.all isdigit = true
  · have hdigits := List.all_eq_true.mp hall
    have htake : word.takeWhile isdigit = word := List.takeWhile_eq_self_iff.mpr hdigits
    have hdrop : word.dropWhile isdigit = [] := List.dropWhile_eq_nil_iff.mpr hdigits
    rw [hread, htake, hdrop, if_neg hne]
    unfold strtoullValue
    by_cases hbig : numberOf word > ULONG_MAX
    · -- out of the range of `unsigned long`
      have hmax : ¬ numberOf word ≤ UINT32_MAX := by
        unfold ULONG_MAX at hbig
        unfold UINT32_MAX
        omega
      rw [if_pos hbig, if_pos (Or.inl rfl), if_neg fun h => hmax h.2.2]
    · rw [if_neg hbig]
      dsimp only
      rw [if_neg Bool.false_ne_true]
      by_cases hmax : numberOf word ≤ UINT32_MAX
      · rw [if_neg, if_pos ⟨hne, hall, hmax⟩]
        intro h
        rcases h with h | h | h | h
        · cases h
        · exact hne h.symm
        · exact h rfl
        · omega
      · rw [if_pos (Or.inr (Or.inr (Or.inr (Nat.lt_of_not_le hmax)))), if_neg fun h => hmax h.2.2]
  · have hrest : (strtoull word).rest ≠ [] := by
      rw [hread]
      split_ifs
      · exact hne
      · have hdrop : word.dropWhile isdigit ≠ [] := fun hnil =>
          hall (List.all_eq_true.mpr (List.dropWhile_eq_nil_iff.mp hnil))
        unfold strtoullValue
        by_cases hbig : numberOf (word.takeWhile isdigit) > ULONG_MAX
        · rw [if_pos hbig]
          exact hdrop
        · rw [if_neg hbig]
          exact hdrop
    rw [if_pos (Or.inr (Or.inr (Or.inl hrest))), if_neg fun h => hall h.2.1]

end Word

/-- A number that the command accepts is in the request as it is read there. -/
theorem deviceHeartbeat_request {word request : List Byte} (h : deviceHeartbeat word = some request) :
    ∃ n, deviceNumber word UINT32_MAX 10 = some n ∧ parseRequest request = some (.heartbeat, n) := by
  obtain ⟨n, hn, hrequest⟩ := Option.map_eq_some_iff.mp h
  have hmax : n ≤ UINT32_MAX := by
    unfold deviceNumber at hn
    dsimp only at hn
    split_ifs at hn with hfirst hbad
    rw [not_or, not_or, not_or] at hbad
    rw [← Option.some.inj hn]
    omega
  have hlength : (text "HEARTBEAT " ++ decimal n).length ≤ 63 := by
    have hdecimal := length_decimal_le hmax
    have hprefix : (text "HEARTBEAT ").length = 10 := rfl
    rw [List.length_append]
    omega
  refine ⟨n, hn, ?_⟩
  rw [← hrequest, List.take_of_length_le hlength, parseRequest_heartbeat, scanUnsigned_decimal hmax]
  rfl

/-- The three readers accept the decimal numerals up to 2^32 - 1 and read their
values. -/
theorem decimal_readers_agree :
    (∀ (s : List Byte) (n : ℕ), UartProtocol.parseUnsigned s = some n ↔
      s ≠ [] ∧ (∀ c ∈ s, '0'.toUInt8 ≤ c ∧ c ≤ '9'.toUInt8) ∧ n = numberOf s ∧ n ≤ 2 ^ 32 - 1) ∧
    (∀ s : List Byte, scanUnsignedChecked s = some (UartProtocol.parseUnsigned s)) ∧
    (∀ s : List Byte, Stm32Uart.parseUnsigned s = UartProtocol.parseUnsigned s) ∧
    (∀ word : List Byte, word ≠ [] → (∀ c ∈ word, isspace c = false) →
      deviceNumber word UINT32_MAX 10 = UartProtocol.parseUnsigned word) ∧
    (∀ word request : List Byte, deviceHeartbeat word = some request →
      ∃ n, deviceNumber word UINT32_MAX 10 = some n ∧ parseRequest request = some (.heartbeat, n)) := by
  refine ⟨fun s n => ?_, scanUnsignedChecked_eq, fun s => rfl, fun word _ hblank => deviceNumber_eq hblank,
    fun word request => deviceHeartbeat_request⟩
  have hdigit : ∀ c : Byte, isdigit c = true ↔ '0'.toUInt8 ≤ c ∧ c ≤ '9'.toUInt8 := by
    intro c
    unfold isdigit
    rw [Bool.and_eq_true, decide_eq_true_eq, decide_eq_true_eq]
  unfold UartProtocol.parseUnsigned
  rw [scanUnsigned_eq_some]
  simp only [hdigit]
  rfl

/-- The largest number, and the request with it. -/
theorem decimal_readers_agree_max :
    deviceNumber (text "4294967295") UINT32_MAX 10 = UartProtocol.parseUnsigned (text "4294967295") ∧
      ∃ n, deviceNumber (text "4294967295") UINT32_MAX 10 = some n ∧
        parseRequest (text "HEARTBEAT 4294967295") = some (.heartbeat, n) :=
  ⟨decimal_readers_agree.2.2.2.1 (text "4294967295") (by decide) (by decide +kernel),
    decimal_readers_agree.2.2.2.2 (text "4294967295") (text "HEARTBEAT 4294967295") (by decide +kernel)⟩

end DeviceRuntime
