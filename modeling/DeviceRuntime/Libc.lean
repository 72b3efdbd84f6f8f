/-
# Bytes, strings, numbers and errno

What the program uses of the C library, in the C locale.
A string is the list of the bytes before its terminating NUL, so `strcmp` is
equality and `strlen` is `List.length`; `cstr` cuts a buffer at its first NUL.

`scanUnsigned` is the body of `parse_unsigned`, which the host and the
firmware each have a copy of; `decimal` is what `printf` writes for `%u`. The
reader takes exactly the non-empty digit strings of value below 2^32
(`scanUnsigned_eq_some`), so it reads back what the other side prints
(`scanUnsigned_decimal`). `strtoul` is the library's function for base 0; the
strings it reads to their end are the numerals of C (`strtoul_isNumber`), and
`strtol` is the one for base 10.

Key definitions: `Byte`, `text`, `cstr`, `scanUnsigned`, `decimal`, `strtoul`,
`IsNumber`, `strtol`.
Key theorems: `scanUnsigned_eq_some`, `scanUnsigned_decimal`, `strtoul_isNumber`.
-/
import Mathlib.Data.List.TakeWhile
import DeviceRuntime.Lib.Numeral
import DeviceRuntime.Lib.Prog

namespace DeviceRuntime

/-! ### errno and the codes of `error.h` -/

abbrev ENOENT : ℕ := 2
abbrev ESRCH : ℕ := 3
abbrev EINTR : ℕ := 4
abbrev EIO : ℕ := 5
abbrev EBADF : ℕ := 9
abbrev ECHILD : ℕ := 10
abbrev EAGAIN : ℕ := 11
abbrev EWOULDBLOCK : ℕ := EAGAIN
abbrev EACCES : ℕ := 13
abbrev EBUSY : ℕ := 16
abbrev EEXIST : ℕ := 17
abbrev EINVAL : ℕ := 22
abbrev ENOSPC : ℕ := 28
abbrev ENAMETOOLONG : ℕ := 36
abbrev EPROTO : ℕ := 71
abbrev EOVERFLOW : ℕ := 75
abbrev EILSEQ : ℕ := 84
abbrev EMSGSIZE : ℕ := 90
abbrev ENOTSUP : ℕ := 95
abbrev ETIMEDOUT : ℕ := 110

abbrev MiniShell_OK : ℤ := 0
abbrev MiniShell_ERR_UNKNOWN : ℤ := -1
abbrev MiniShell_ERR_MEMORY : ℤ := -2
abbrev MiniShell_ERR_FORK : ℤ := -3
abbrev MiniShell_ERR_PIPE : ℤ := -4
abbrev MiniShell_ERR_OPEN : ℤ := -6
abbrev MiniShell_ERR_PARSE : ℤ := -7
abbrev MiniShell_ERR_JOB : ℤ := -8
abbrev MiniShell_ERR_DUP2 : ℤ := -9

/-- A return value with the `errno` it comes with. -/
structure CallResult where
  ret : ℤ
  errno : ℕ
deriving DecidableEq, Repr

/-- `while (call() < 0) { if (errno == EINTR) continue; return -1; } return 0;` -/
def retry {Op : Type} {Ret : Op → Type} (call : Prog Op Ret CallResult) : Prog Op Ret ℤ :=
  .iter (fun _ => call.bind fun r =>
    if r.ret < 0 then if r.errno = EINTR then .ret (.inl ()) else .ret (.inr (-1)) else .ret (.inr 0)) ()

/-! ### Bytes and strings -/

abbrev Byte := UInt8

/-- The bytes of a string literal. -/
def text (s : String) : List Byte := s.toList.map Char.toUInt8

/-- The string in a buffer: what stands before the first NUL. -/
def cstr (buf : List Byte) : List Byte := buf.takeWhile (· ≠ 0)

def LF : Byte := '\n'.toUInt8

def CR : Byte := '\r'.toUInt8

def isspace (c : Byte) : Bool := c = ' '.toUInt8 || ('\t'.toUInt8 ≤ c && c ≤ '\r'.toUInt8)

def isdigit (c : Byte) : Bool := '0'.toUInt8 ≤ c && c ≤ '9'.toUInt8

def isalpha (c : Byte) : Bool :=
  ('A'.toUInt8 ≤ c && c ≤ 'Z'.toUInt8) || ('a'.toUInt8 ≤ c && c ≤ 'z'.toUInt8)

def isalnum (c : Byte) : Bool := isalpha c || isdigit c

/-- `strncmp (s, t, n) == 0` for a literal `t` of length `n`. -/
def strncmp (s t : List Byte) : Bool := s.take t.length = t

/-- What both line protocols pass as text: 0x20 to 0x7e. -/
def printable (c : Byte) : Bool := 0x20 ≤ c && c ≤ 0x7e

/-- A line without the CR that may stand before its line feed. -/
def dropCR (line : List Byte) : List Byte := if line.getLast? = some CR then line.dropLast else line

theorem strncmp_iff {s t : List Byte} : strncmp s t = true ↔ ∃ rest, s = t ++ rest := by
  simp only [strncmp, decide_eq_true_eq]
  constructor
  · intro h
    exact ⟨s.drop t.length, by conv_lhs => rw [← List.take_append_drop t.length s, h]⟩
  · rintro ⟨rest, rfl⟩
    exact List.take_left

/-! ### Scans -/

theorem takeWhile_stop {rest : List Byte} {q : Byte → Bool} {word : List Byte} (hword : ∀ c ∈ word, q c = true)
    (hstop : ∀ c ∈ rest.head?, q c = false) : (word ++ rest).takeWhile q = word := by
  rw [List.takeWhile_append_of_pos hword]
  cases rest with
  | nil => exact List.append_nil word
  | cons d rest => rw [List.takeWhile_cons_of_neg (by rw [hstop d rfl]; decide), List.append_nil]

theorem dropWhile_stop {rest : List Byte} {q : Byte → Bool} {word : List Byte} (hword : ∀ c ∈ word, q c = true)
    (hstop : ∀ c ∈ rest.head?, q c = false) : (word ++ rest).dropWhile q = rest := by
  rw [List.dropWhile_append_of_pos hword]
  cases rest with
  | nil => rfl
  | cons d rest => rw [List.dropWhile_cons_of_neg (by rw [hstop d rfl]; decide)]

/-- What a scan leaves begins with a byte it does not take. -/
theorem dropWhile_head {q : Byte → Bool} {p : List Byte} : ∀ c ∈ (p.dropWhile q).head?, q c = false := by
  intro c hc
  have hhead := List.head?_dropWhile_not q p
  rw [hc] at hhead
  exact hhead

/-- A string without a NUL is all of its buffer. -/
theorem cstr_line {line : List Byte} (hline : (0 : Byte) ∉ line) : cstr line = line := by
  unfold cstr
  refine List.takeWhile_eq_self_iff.mpr fun c hc => ?_
  rw [decide_eq_true_eq]
  exact fun h => hline (h ▸ hc)

/-! ### Decimal numbers -/

abbrev UINT32_MAX : ℕ := 4294967295
abbrev INT_MAX : ℤ := 2147483647

/-- The value of a digit. -/
def digitOf (c : Byte) : ℕ := c.toNat - '0'.toNat

/-- The loop of `parse_unsigned`, with the arithmetic of `uint32_t`. -/
def scanDigits : List Byte → ℕ → Option ℕ
  | [], result => some result
  | p :: ps, result =>
    if p < '0'.toUInt8 ∨ p > '9'.toUInt8 then none
    else if result > (UINT32_MAX - digitOf p) / 10 then none
    else scanDigits ps ((result * 10 + digitOf p) % 2 ^ 32)

/-- `parse_unsigned`: `none` is the return value -1. -/
def scanUnsigned (text : List Byte) : Option ℕ :=
  if text = [] then none else scanDigits text 0

/-- The number a digit string stands for. -/
def numberOf (text : List Byte) : ℕ := Numeral.value 10 (text.map digitOf) 0

/-- What `printf` writes for `%u`. -/
def decimal (n : ℕ) : List Byte := (Nat.toDigits 10 n).map Char.toUInt8

/-- What `printf` writes for `%d`. -/
def decimalInt (i : ℤ) : List Byte :=
  if i < 0 then '-'.toUInt8 :: decimal i.natAbs else decimal i.natAbs

theorem isdigit_iff {c : Byte} : isdigit c = true ↔ ¬ (c < '0'.toUInt8 ∨ c > '9'.toUInt8) := by
  simp only [isdigit, Bool.and_eq_true, decide_eq_true_eq, not_or, gt_iff_lt, UInt8.not_lt]

theorem digitOf_le (c : Byte) (h : isdigit c = true) : digitOf c ≤ 9 := by
  simp only [isdigit, Bool.and_eq_true, decide_eq_true_eq] at h
  have h9 : c.toNat ≤ 57 := UInt8.le_iff_toNat_le.mp h.2
  simp only [digitOf, show '0'.toNat = 48 from rfl]
  omega

/-- The reader without its error paths: digits only, and the bounded numeral
reader on their values. No step of it leaves `uint32_t`. -/
theorem scanDigits_eq : ∀ (s : List Byte) (a : ℕ), a ≤ UINT32_MAX →
    scanDigits s a = if s.all isdigit then Numeral.readBounded 10 UINT32_MAX (s.map digitOf) a
      else none
  | [], a, _ => by simp [scanDigits, Numeral.readBounded]
  | p :: ps, a, ha => by
    by_cases hp : isdigit p = true
    · have hd := digitOf_le p hp
      rw [scanDigits, if_neg (isdigit_iff.mp hp), List.all_cons, hp, Bool.true_and, List.map_cons,
        Numeral.readBounded]
      by_cases hb : (UINT32_MAX - digitOf p) / 10 < a
      · rw [if_pos hb, if_pos hb, ite_self]
      · have hle : a * 10 + digitOf p ≤ UINT32_MAX := by
          have := (Numeral.bound_test (b := 10) (a := a) (by omega)
            (show digitOf p ≤ UINT32_MAX by simp only [UINT32_MAX]; omega)).not.mp hb
          omega
        have hmod : (a * 10 + digitOf p) % 2 ^ 32 = a * 10 + digitOf p := by
          simp only [UINT32_MAX] at hle
          omega
        rw [if_neg hb, if_neg hb, hmod, scanDigits_eq ps _ hle]
    · have hp' : isdigit p = false := by simpa using hp
      rw [scanDigits, if_pos (by simpa only [isdigit_iff, not_not] using hp), List.all_cons, hp',
        Bool.false_and]
      rfl

theorem scanUnsigned_eq (s : List Byte) : scanUnsigned s =
    if s ≠ [] ∧ s.all isdigit = true ∧ numberOf s ≤ UINT32_MAX then some (numberOf s)
    else none := by
  by_cases hs : s = []
  · simp [scanUnsigned, hs]
  by_cases hall : s.all isdigit = true
  · have hd : ∀ d ∈ s.map digitOf, d ≤ UINT32_MAX := by
      intro d hd
      obtain ⟨c, hc, rfl⟩ := List.mem_map.mp hd
      have := digitOf_le c (List.all_eq_true.mp hall c hc)
      simp only [UINT32_MAX]
      omega
    rw [scanUnsigned, if_neg hs, scanDigits_eq s 0 (Nat.zero_le _), if_pos hall,
      Numeral.readBounded_eq (by omega) _ 0 hd (Nat.zero_le _)]
    simp only [numberOf, ne_eq, hs, not_false_eq_true, true_and]
    by_cases hv : Numeral.value 10 (s.map digitOf) 0 ≤ UINT32_MAX
    · rw [if_pos hv, if_pos ⟨hall, hv⟩]
    · rw [if_neg hv, if_neg (fun h => hv h.2)]
  · rw [scanUnsigned, if_neg hs, scanDigits_eq s 0 (Nat.zero_le _),
      if_neg hall, if_neg (fun h => hall h.2.1)]

theorem scanUnsigned_eq_some {s : List Byte} {n : ℕ} : scanUnsigned s = some n ↔
    s ≠ [] ∧ (∀ c ∈ s, isdigit c = true) ∧ n = numberOf s ∧ n ≤ UINT32_MAX := by
  rw [scanUnsigned_eq, ← List.all_eq_true]
  by_cases h : s ≠ [] ∧ s.all isdigit = true ∧ numberOf s ≤ UINT32_MAX
  · rw [if_pos h, Option.some.injEq]
    constructor
    · rintro rfl
      exact ⟨h.1, h.2.1, rfl, h.2.2⟩
    · rintro ⟨-, -, rfl, -⟩
      rfl
  · rw [if_neg h]
    constructor
    · intro h'
      cases h'
    · rintro ⟨h1, h2, rfl, h4⟩
      exact (h ⟨h1, h2, h4⟩).elim

theorem toNat_toUInt8_of_isDigit {c : Char} (h : c.isDigit = true) :
    isdigit c.toUInt8 = true ∧ digitOf c.toUInt8 = c.toNat - '0'.toNat := by
  have h1 : 48 ≤ c.toNat ∧ c.toNat ≤ 57 := by
    simp only [Char.isDigit, Bool.and_eq_true, decide_eq_true_eq] at h
    exact ⟨UInt32.le_iff_toNat_le.mp h.1, UInt32.le_iff_toNat_le.mp h.2⟩
  have h2 : c.toUInt8.toNat = c.toNat := by
    rw [Char.toUInt8, UInt32.toNat_toUInt8]
    exact Nat.mod_eq_of_lt (show c.toNat < 2 ^ 8 by omega)
  constructor
  · simp only [isdigit, Bool.and_eq_true, decide_eq_true_eq, UInt8.le_iff_toNat_le, h2]
    exact ⟨h1.1, h1.2⟩
  · rw [digitOf, h2]

theorem isdigit_of_mem_decimal {n : ℕ} : ∀ c ∈ decimal n, isdigit c = true := by
  intro c hc
  obtain ⟨d, hd, rfl⟩ := List.mem_map.mp hc
  exact (toNat_toUInt8_of_isDigit (Nat.isDigit_of_mem_toDigits (by omega) (by omega) hd)).1

theorem decimal_ne_nil (n : ℕ) : decimal n ≠ [] := by
  simp [decimal, Nat.toDigits_ne_nil]

theorem numberOf_decimal (n : ℕ) : numberOf (decimal n) = n := by
  have h : (decimal n).map digitOf = (Nat.toDigits 10 n).map fun c => c.toNat - '0'.toNat := by
    rw [decimal, List.map_map]
    exact List.map_congr_left fun c hc =>
      (toNat_toUInt8_of_isDigit (Nat.isDigit_of_mem_toDigits (by omega) (by omega) hc)).2
  rw [numberOf, h, Numeral.value_toDigits]

theorem decimal_length_le {n k : ℕ} (hk : 0 < k) (h : n < 10 ^ k) : (decimal n).length ≤ k := by
  simp only [decimal, List.length_map]
  rw [Nat.length_toDigits_le_iff (by omega) hk]
  exact h

/-- A `uint32_t` has at most ten decimal digits. -/
theorem length_decimal_le {n : ℕ} (h : n ≤ UINT32_MAX) : (decimal n).length ≤ 10 := by
  apply decimal_length_le (by decide)
  simp only [UINT32_MAX] at h
  omega

/-- What one side prints the other side reads. -/
theorem scanUnsigned_decimal {n : ℕ} (h : n ≤ UINT32_MAX) : scanUnsigned (decimal n) = some n :=
  scanUnsigned_eq_some.mpr ⟨decimal_ne_nil n, isdigit_of_mem_decimal, (numberOf_decimal n).symm, h⟩

theorem printable_of_isdigit {c : Byte} (h : isdigit c = true) : printable c = true := by
  simp only [isdigit, printable, Bool.and_eq_true, decide_eq_true_eq, UInt8.le_iff_toNat_le] at *
  have h1 : 48 ≤ c.toNat := h.1
  have h2 : c.toNat ≤ 57 := h.2
  exact ⟨show 32 ≤ c.toNat by omega, show c.toNat ≤ 126 by omega⟩

/-! ### Numbers in any base -/

abbrev ULONG_MAX : ℕ := 18446744073709551615

/-- The value of a letter or digit as a digit; 36 for any other byte. -/
def digitValue (c : Byte) : ℕ :=
  if isdigit c then c.toNat - '0'.toNat
  else if 'a'.toUInt8 ≤ c ∧ c ≤ 'z'.toUInt8 then c.toNat - 'a'.toNat + 10
  else if 'A'.toUInt8 ≤ c ∧ c ≤ 'Z'.toUInt8 then c.toNat - 'A'.toNat + 10
  else 36

def isDigitIn (base : ℕ) (c : Byte) : Bool := digitValue c < base

/-- What `strtoul` leaves: its value, `*end` and whether `errno` is `ERANGE`. -/
structure Strtoul where
  parsed : ℕ
  rest : List Byte
  erange : Bool
deriving DecidableEq, Repr

/-- The digits of `s` in `base`; `whole` is the string where there are none. -/
def strtoulDigits (base : ℕ) (s whole : List Byte) : Strtoul :=
  let digits := s.takeWhile (isDigitIn base)
  let value := Numeral.value base (digits.map digitValue) 0
  if digits = [] then ⟨0, whole, false⟩
  else if value > ULONG_MAX then ⟨ULONG_MAX, s.dropWhile (isDigitIn base), true⟩
  else ⟨value, s.dropWhile (isDigitIn base), false⟩

/-- `strtoul (s, &end, 0)` for a string that begins with no blank and no sign. -/
def strtoul (s : List Byte) : Strtoul :=
  match s with
  | z :: x :: c :: rest =>
    if z = '0'.toUInt8 ∧ (x = 'x'.toUInt8 ∨ x = 'X'.toUInt8) ∧ isDigitIn 16 c then
      strtoulDigits 16 (c :: rest) s
    else strtoulDigits (if z = '0'.toUInt8 then 8 else 10) s s
  | z :: _ => strtoulDigits (if z = '0'.toUInt8 then 8 else 10) s s
  | [] => ⟨0, [], false⟩

/-- The numerals of C without a sign: hexadecimal, octal and decimal. -/
inductive IsNumber : List Byte → ℕ → Prop
  | hex {x : Byte} {ds : List Byte} (hx : x = 'x'.toUInt8 ∨ x = 'X'.toUInt8) (hne : ds ≠ [])
      (h : ∀ c ∈ ds, isDigitIn 16 c = true) :
      IsNumber ('0'.toUInt8 :: x :: ds) (Numeral.value 16 (ds.map digitValue) 0)
  | octal {ds : List Byte} (h : ∀ c ∈ ds, isDigitIn 8 c = true) :
      IsNumber ('0'.toUInt8 :: ds) (Numeral.value 8 (('0'.toUInt8 :: ds).map digitValue) 0)
  | decimal {d : Byte} {ds : List Byte} (hd : d ≠ '0'.toUInt8) (h : ∀ c ∈ d :: ds, isDigitIn 10 c = true) :
      IsNumber (d :: ds) (Numeral.value 10 ((d :: ds).map digitValue) 0)

theorem strtoulDigits_whole {base : ℕ} {s whole : List Byte} (hne : s ≠ [])
    (h : ∀ c ∈ s, isDigitIn base c = true) (hle : Numeral.value base (s.map digitValue) 0 ≤ ULONG_MAX) :
    strtoulDigits base s whole = ⟨Numeral.value base (s.map digitValue) 0, [], false⟩ := by
  have htake : s.takeWhile (isDigitIn base) = s := List.takeWhile_eq_self_iff.mpr h
  have hdrop : s.dropWhile (isDigitIn base) = [] := List.dropWhile_eq_nil_iff.mpr h
  unfold strtoulDigits
  dsimp only
  rw [htake, if_neg hne, if_neg (by omega), hdrop]

/-- The whole string was read: it is all digits. -/
theorem strtoulDigits_rest {base : ℕ} {s whole : List Byte} (hwhole : whole ≠ [])
    (hrest : (strtoulDigits base s whole).rest = []) (herange : (strtoulDigits base s whole).erange = false) :
    s ≠ [] ∧ (∀ c ∈ s, isDigitIn base c = true) ∧
      (strtoulDigits base s whole).parsed = Numeral.value base (s.map digitValue) 0 := by
  unfold strtoulDigits at hrest herange ⊢
  dsimp only at hrest herange ⊢
  by_cases hnil : s.takeWhile (isDigitIn base) = []
  · rw [if_pos hnil] at hrest
    exact absurd hrest hwhole
  rw [if_neg hnil] at hrest herange ⊢
  by_cases hbig : Numeral.value base ((s.takeWhile (isDigitIn base)).map digitValue) 0 > ULONG_MAX
  · rw [if_pos hbig] at herange
    cases herange
  rw [if_neg hbig] at hrest ⊢
  have hall := List.dropWhile_eq_nil_iff.mp hrest
  have htake := List.takeWhile_eq_self_iff.mpr hall
  refine ⟨fun hs => hnil (by rw [hs]; rfl), hall, ?_⟩
  dsimp only
  rw [htake]

/-- Where `strtoul` starts, and in which base. -/
theorem strtoul_cases {s : List Byte} (hs : s ≠ []) :
    (∃ x ds, s = '0'.toUInt8 :: x :: ds ∧ (x = 'x'.toUInt8 ∨ x = 'X'.toUInt8) ∧
      strtoul s = strtoulDigits 16 ds s) ∨
    (∃ ds, s = '0'.toUInt8 :: ds ∧ strtoul s = strtoulDigits 8 s s ∧
      ∀ x c rest, ds = x :: c :: rest → x = 'x'.toUInt8 ∨ x = 'X'.toUInt8 → ¬ isDigitIn 16 c = true) ∨
    (∃ d ds, s = d :: ds ∧ d ≠ '0'.toUInt8 ∧ strtoul s = strtoulDigits 10 s s) := by
  cases s with
  | nil => exact absurd rfl hs
  | cons z s =>
    by_cases hz : z = '0'.toUInt8
    · subst hz
      rcases s with _ | ⟨x, _ | ⟨c, rest⟩⟩
      · exact .inr (.inl ⟨[], rfl, rfl, fun _ _ _ h => by cases h⟩)
      · exact .inr (.inl ⟨[x], rfl, rfl, fun _ _ _ h => by cases h⟩)
      · by_cases hx : (x = 'x'.toUInt8 ∨ x = 'X'.toUInt8) ∧ isDigitIn 16 c = true
        · exact .inl ⟨x, c :: rest, rfl, hx.1, by rw [strtoul, if_pos ⟨rfl, hx⟩]⟩
        · refine .inr (.inl ⟨x :: c :: rest, rfl, by rw [strtoul, if_neg fun h => hx h.2, if_pos rfl], ?_⟩)
          rintro x' c' rest' heq hx' hc'
          obtain ⟨rfl, rfl, rfl⟩ : x = x' ∧ c = c' ∧ rest = rest' := by simpa using heq
          exact hx ⟨hx', hc'⟩
    · refine .inr (.inr ⟨z, s, rfl, hz, ?_⟩)
      rcases s with _ | ⟨x, _ | ⟨c, rest⟩⟩
      · rw [strtoul, if_neg hz]
        intro _ _ _ h
        cases h
      · rw [strtoul, if_neg hz]
        intro _ _ _ h
        cases h
      · rw [strtoul, if_neg fun h => hz h.1, if_neg hz]

/-- `strtoul` reads exactly the numerals to their end. -/
theorem strtoul_isNumber {s : List Byte} {n : ℕ} (hn : n ≤ ULONG_MAX) :
    (s ≠ [] ∧ (strtoul s).rest = [] ∧ (strtoul s).erange = false ∧ (strtoul s).parsed = n) ↔ IsNumber s n := by
  constructor
  · rintro ⟨hs, hrest, herange, rfl⟩
    rcases strtoul_cases hs with ⟨x, ds, rfl, hx, heq⟩ | ⟨ds, rfl, heq, -⟩ | ⟨d, ds, rfl, hd, heq⟩
    · rw [heq] at hrest herange ⊢
      obtain ⟨hne, hall, hvalue⟩ := strtoulDigits_rest hs hrest herange
      rw [hvalue]
      exact .hex hx hne hall
    · rw [heq] at hrest herange ⊢
      obtain ⟨-, hall, hvalue⟩ := strtoulDigits_rest hs hrest herange
      rw [hvalue]
      exact .octal fun c hc => hall c (List.mem_cons_of_mem _ hc)
    · rw [heq] at hrest herange ⊢
      obtain ⟨-, hall, hvalue⟩ := strtoulDigits_rest hs hrest herange
      rw [hvalue]
      exact .decimal hd hall
  · intro h
    have hs : s ≠ [] := by cases h <;> exact List.cons_ne_nil _ _
    refine ⟨hs, ?_⟩
    cases h with
    | @hex x ds hx hne hall =>
      have heq : strtoul ('0'.toUInt8 :: x :: ds) = strtoulDigits 16 ds ('0'.toUInt8 :: x :: ds) := by
        cases ds with
        | nil => exact absurd rfl hne
        | cons c rest => rw [strtoul, if_pos ⟨rfl, hx, hall c List.mem_cons_self⟩]
      rw [heq, strtoulDigits_whole hne hall hn]
      exact ⟨rfl, rfl, rfl⟩
    | @octal ds hall =>
      have hzero : ∀ c ∈ '0'.toUInt8 :: ds, isDigitIn 8 c = true := by
        intro c hc
        rcases List.mem_cons.mp hc with rfl | hc
        · decide
        · exact hall c hc
      have heq : strtoul ('0'.toUInt8 :: ds) = strtoulDigits 8 ('0'.toUInt8 :: ds) ('0'.toUInt8 :: ds) := by
        rcases strtoul_cases hs with ⟨x, ds', hds, hx, -⟩ | ⟨ds', -, heq, -⟩ | ⟨d, ds', hds, hd, -⟩
        · -- `x` is no octal digit
          rw [List.cons.injEq] at hds
          have hdigit := hall x (by rw [hds.2]; exact List.mem_cons_self)
          rcases hx with rfl | rfl <;> exact absurd hdigit (by decide)
        · exact heq
        · rw [List.cons.injEq] at hds
          exact absurd hds.1.symm hd
      rw [heq, strtoulDigits_whole hs hzero hn]
      exact ⟨rfl, rfl, rfl⟩
    | @decimal d ds hd hall =>
      have heq : strtoul (d :: ds) = strtoulDigits 10 (d :: ds) (d :: ds) := by
        rcases strtoul_cases hs with ⟨x, ds', hds, -⟩ | ⟨ds', hds, -⟩ | ⟨_, _, -, -, heq⟩
        · rw [List.cons.injEq] at hds
          exact absurd hds.1 hd
        · rw [List.cons.injEq] at hds
          exact absurd hds.1 hd
        · exact heq
      rw [heq, strtoulDigits_whole hs hall hn]
      exact ⟨rfl, rfl, rfl⟩

theorem isdigit_of_isDigitIn {c : Byte} (h : isDigitIn 10 c = true) : isdigit c = true := by
  have hlt : digitValue c < 10 := of_decide_eq_true h
  unfold digitValue at hlt
  by_contra hd
  rw [if_neg hd] at hlt
  split_ifs at hlt <;> omega

theorem isspace_of_isdigit {c : Byte} (h : isdigit c = true) : isspace c = false := by
  simp only [isdigit, Bool.and_eq_true, decide_eq_true_eq, UInt8.le_iff_toNat_le] at h
  have h1 : '0'.toUInt8.toNat = 48 := rfl
  have h2 : '\r'.toUInt8.toNat = 13 := rfl
  have h3 : ' '.toUInt8.toNat = 32 := rfl
  by_contra hs
  simp only [isspace, Bool.not_eq_false, Bool.or_eq_true, Bool.and_eq_true, decide_eq_true_eq,
    UInt8.le_iff_toNat_le] at hs
  rcases hs with rfl | hs
  · omega
  · omega

/-- A numeral begins with a digit. -/
theorem IsNumber.head {s : List Byte} {n : ℕ} (h : IsNumber s n) : isDigitIn 10 (s.headD 0) = true := by
  have hzero : isDigitIn 10 '0'.toUInt8 = true := by decide
  cases h with
  | hex => exact hzero
  | octal => exact hzero
  | decimal _ hall => exact hall _ List.mem_cons_self

theorem IsNumber.unique {s : List Byte} {n m : ℕ} (hn : n ≤ ULONG_MAX) (hm : m ≤ ULONG_MAX)
    (h : IsNumber s n) (h' : IsNumber s m) : n = m :=
  ((strtoul_isNumber hn).mpr h).2.2.2.symm.trans ((strtoul_isNumber hm).mpr h').2.2.2

/-! ### strtol -/

abbrev LONG_MAX : ℤ := 9223372036854775807
abbrev LONG_MIN : ℤ := -9223372036854775808

/-- What `strtol` leaves: its value, `*end` and whether `errno` is `ERANGE`. -/
structure Strtol where
  number : ℤ
  rest : List Byte
  erange : Bool
deriving DecidableEq, Repr

/-- What `strtol` makes of the digits of a number. -/
def strtolValue (negative : Bool) (value : ℤ) (rest : List Byte) : Strtol :=
  if negative then if -value < LONG_MIN then ⟨LONG_MIN, rest, true⟩ else ⟨-value, rest, false⟩
  else if value > LONG_MAX then ⟨LONG_MAX, rest, true⟩ else ⟨value, rest, false⟩

/-- Whether there is a minus, and what comes after the sign. -/
def strtolSign (s : List Byte) : Bool × List Byte :=
  match s.dropWhile isspace with
  | [] => (false, [])
  | c :: t => if c = '-'.toUInt8 then (true, t) else if c = '+'.toUInt8 then (false, t) else (false, c :: t)

/-- The digits of `s`; `whole` is the string where there are none. -/
def strtolDigits (negative : Bool) (s whole : List Byte) : Strtol :=
  if s.takeWhile isdigit = [] then ⟨0, whole, false⟩
  else strtolValue negative (numberOf (s.takeWhile isdigit)) (s.dropWhile isdigit)

/-- `strtol (s, &end, 10)`. -/
def strtol (s : List Byte) : Strtol := strtolDigits (strtolSign s).1 (strtolSign s).2 s

theorem strtolSign_digit {c : Byte} {t : List Byte} (hc : isdigit c = true) :
    strtolSign (c :: t) = (false, c :: t) := by
  have hminus : c ≠ '-'.toUInt8 := by
    rintro rfl
    exact absurd hc (by decide)
  have hplus : c ≠ '+'.toUInt8 := by
    rintro rfl
    exact absurd hc (by decide)
  unfold strtolSign
  rw [List.dropWhile_cons_of_neg (by rw [isspace_of_isdigit hc]; decide)]
  dsimp only
  rw [if_neg hminus, if_neg hplus]

section Digits

variable {digits whole : List Byte}

theorem strtolDigits_cut (negative : Bool) (hne : digits ≠ []) (hall : ∀ c ∈ digits, isdigit c = true) :
    strtolDigits negative digits whole = strtolValue negative (numberOf digits) [] := by
  have htake : digits.takeWhile isdigit = digits := List.takeWhile_eq_self_iff.mpr hall
  have hdrop : digits.dropWhile isdigit = [] := List.dropWhile_eq_nil_iff.mpr hall
  unfold strtolDigits
  rw [htake, hdrop, if_neg hne]

theorem strtolDigits_all (hne : digits ≠ []) (hall : ∀ c ∈ digits, isdigit c = true)
    (hmax : (numberOf digits : ℤ) ≤ LONG_MAX) : strtolDigits false digits whole = ⟨numberOf digits, [], false⟩ := by
  rw [strtolDigits_cut false hne hall]
  unfold strtolValue
  rw [if_neg (by decide), if_neg (Int.not_lt.mpr hmax)]

theorem strtolDigits_minus (hne : digits ≠ []) (hall : ∀ c ∈ digits, isdigit c = true)
    (hmin : LONG_MIN ≤ -(numberOf digits : ℤ)) :
    strtolDigits true digits whole = ⟨-(numberOf digits : ℤ), [], false⟩ := by
  rw [strtolDigits_cut true hne hall]
  unfold strtolValue
  rw [if_pos rfl, if_neg (Int.not_lt.mpr hmin)]

end Digits

/-- `strtol` reads back what `printf` writes for `%ld`. -/
theorem strtol_decimalInt {i : ℤ} (hmin : LONG_MIN ≤ i) (hmax : i ≤ LONG_MAX) :
    strtol (decimalInt i) = ⟨i, [], false⟩ := by
  have hne := decimal_ne_nil i.natAbs
  have hall : ∀ c ∈ decimal i.natAbs, isdigit c = true := isdigit_of_mem_decimal
  have hnumber := numberOf_decimal i.natAbs
  unfold strtol decimalInt
  by_cases hi : i < 0
  · have hsign : strtolSign ('-'.toUInt8 :: decimal i.natAbs) = (true, decimal i.natAbs) := rfl
    rw [if_pos hi, hsign, strtolDigits_minus hne hall (by rw [hnumber]; omega), hnumber]
    congr 1
    omega
  · rw [if_neg hi]
    have hsign : strtolSign (decimal i.natAbs) = (false, decimal i.natAbs) := by
      obtain ⟨c, ds, hcons⟩ := List.exists_cons_of_ne_nil hne
      rw [hcons]
      exact strtolSign_digit (hall c (by rw [hcons]; exact List.mem_cons_self))
    rw [hsign, strtolDigits_all hne hall (by rw [hnumber]; omega), hnumber]
    congr 1
    omega

theorem length_decimalInt_le {i : ℤ} (hmin : LONG_MIN ≤ i) (hmax : i ≤ LONG_MAX) : (decimalInt i).length ≤ 20 := by
  have hlen : (decimal i.natAbs).length ≤ 19 := by
    apply decimal_length_le (by decide)
    unfold LONG_MIN at hmin
    unfold LONG_MAX at hmax
    omega
  unfold decimalInt
  by_cases hi : i < 0
  · rw [if_pos hi, List.length_cons]
    omega
  · rw [if_neg hi]
    omega

/-- What `strtoull` makes of the digits of a number: a minus wraps it. -/
def strtoullValue (negative : Bool) (value : ℕ) (rest : List Byte) : Strtoul :=
  if value > ULONG_MAX then ⟨ULONG_MAX, rest, true⟩
  else ⟨if negative then (ULONG_MAX + 1 - value) % (ULONG_MAX + 1) else value, rest, false⟩

/-- `strtoull (s, &end, 10)`. -/
def strtoull (s : List Byte) : Strtoul :=
  let digits := (strtolSign s).2.takeWhile isdigit
  if digits = [] then ⟨0, s, false⟩
  else strtoullValue (strtolSign s).1 (numberOf digits) ((strtolSign s).2.dropWhile isdigit)

/-- `strtoul (s, &end, base)` for the bases 0 and 10, with blanks and a sign
before the digits. `unsigned long` has 64 bits. -/
def strtoulBase (base : ℕ) (s : List Byte) : Strtoul :=
  if base = 10 then strtoull s
  else
    let number := strtoul (strtolSign s).2
    if number.rest.length = (strtolSign s).2.length then ⟨0, s, false⟩
    else if number.erange then number
    else { number with
      parsed := if (strtolSign s).1 then (ULONG_MAX + 1 - number.parsed) % (ULONG_MAX + 1) else number.parsed }

end DeviceRuntime
