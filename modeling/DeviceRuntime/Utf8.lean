/-
# UTF-8

`utf8_next` of `src/oled.c` reads the text byte by byte. As a program over its
reads it is run on a string with a NUL after it, and no read goes past the NUL.
What it returns is what `utf8Next` says of the string.

The encoder is `String.utf8EncodeChar`: the characters are the scalar values,
and each has one encoding.

Key definitions: `utf8NextText`, `nulTerminated`, `Utf8Exact`, `utf8Codes`.
Key theorems: `utf8Next_char`, `utf8Next_ok`, `utf8NextText_total`,
`utf8Codes_iff`, `utf8_decoding`.
-/
import Mathlib.Data.List.GetD
import DeviceRuntime.Lib.Safe
import DeviceRuntime.Oled

namespace DeviceRuntime

/-! ### The reads -/

/-- `s[i]`. -/
inductive TextCall
  | byte (i : ℕ)

abbrev TextCall.Ret : TextCall → Type
  | .byte _ => Byte

abbrev TextProg := Prog TextCall TextCall.Ret

def byteAt (i : ℕ) : TextProg Byte := .call (.byte i) .ret

/-- What is returned, with `errno`, the code point if there is one, and how far
the pointer has moved. -/
structure Utf8Result where
  ret : ℤ
  errno : ℕ
  codepoint : Option ℕ
  moved : ℕ
deriving DecidableEq, Repr

def utf8Failure : Utf8Result := ⟨-1, EILSEQ, none, 0⟩

/-- `utf8_next`, with its reads in the order in which `||` makes them. -/
def utf8NextText : TextProg Utf8Result := do
  let s0 ← byteAt 0
  if s0 = 0 then return ⟨0, 0, none, 0⟩
  if s0 < 0x80 then return ⟨1, 0, some s0.toNat, 1⟩
  if s0 &&& 0xE0 = 0xC0 then
    let s1 ← byteAt 1
    if s1 = 0 ∨ s1 &&& 0xC0 ≠ 0x80 then return utf8Failure
    let cp := (s0 &&& 0x1F).toNat <<< 6 ||| tailBits s1
    if cp < 0x80 then return utf8Failure
    return ⟨1, 0, some cp, 2⟩
  if s0 &&& 0xF0 = 0xE0 then
    let s1 ← byteAt 1
    if s1 = 0 then return utf8Failure
    let s2 ← byteAt 2
    if s2 = 0 ∨ s1 &&& 0xC0 ≠ 0x80 ∨ s2 &&& 0xC0 ≠ 0x80 then return utf8Failure
    let cp := (s0 &&& 0x0F).toNat <<< 12 ||| tailBits s1 <<< 6 ||| tailBits s2
    if cp < 0x800 ∨ (cp ≥ 0xD800 ∧ cp ≤ 0xDFFF) then return utf8Failure
    return ⟨1, 0, some cp, 3⟩
  if s0 &&& 0xF8 = 0xF0 then
    let s1 ← byteAt 1
    if s1 = 0 then return utf8Failure
    let s2 ← byteAt 2
    if s2 = 0 then return utf8Failure
    let s3 ← byteAt 3
    if s3 = 0 ∨ s1 &&& 0xC0 ≠ 0x80 ∨ s2 &&& 0xC0 ≠ 0x80 ∨ s3 &&& 0xC0 ≠ 0x80 then return utf8Failure
    let cp := (s0 &&& 0x07).toNat <<< 18 ||| tailBits s1 <<< 12 ||| tailBits s2 <<< 6 ||| tailBits s3
    if cp < 0x10000 ∨ cp > 0x10FFFF then return utf8Failure
    return ⟨1, 0, some cp, 4⟩
  return utf8Failure

/-- A string with a NUL after it; there is nothing to read after that. -/
def textSem (s : List Byte) (_ : Unit) : (o : TextCall) → o.Ret → Unit → Prop
  | .byte i, r, _ => i ≤ s.length ∧ r = s.getD i 0

open Prog

abbrev nulTerminated (s : List Byte) : World TextCall TextCall.Ret Unit := World.alone (textSem s)

/-! ### UTF-8 -/

section Utf8

/-- The first byte of a character of two, three and four bytes, and the others. -/
theorem lead_two : ∀ n < 32, UInt8.ofNat (n + 0xC0) ≠ 0 ∧ ¬ UInt8.ofNat (n + 0xC0) < 0x80 ∧
    UInt8.ofNat (n + 0xC0) &&& 0xE0 = 0xC0 ∧ (UInt8.ofNat (n + 0xC0) &&& 0x1F).toNat = n := by decide

theorem lead_three : ∀ n < 16, UInt8.ofNat (n + 0xE0) ≠ 0 ∧ ¬ UInt8.ofNat (n + 0xE0) < 0x80 ∧
    ¬ UInt8.ofNat (n + 0xE0) &&& 0xE0 = 0xC0 ∧ UInt8.ofNat (n + 0xE0) &&& 0xF0 = 0xE0 ∧
    (UInt8.ofNat (n + 0xE0) &&& 0x0F).toNat = n := by decide

theorem lead_four : ∀ n < 8, UInt8.ofNat (n + 0xF0) ≠ 0 ∧ ¬ UInt8.ofNat (n + 0xF0) < 0x80 ∧
    ¬ UInt8.ofNat (n + 0xF0) &&& 0xE0 = 0xC0 ∧ ¬ UInt8.ofNat (n + 0xF0) &&& 0xF0 = 0xE0 ∧
    UInt8.ofNat (n + 0xF0) &&& 0xF8 = 0xF0 ∧ (UInt8.ofNat (n + 0xF0) &&& 0x07).toNat = n := by decide

theorem tail_byte : ∀ n < 64, UInt8.ofNat (n + 0x80) ≠ 0 ∧ UInt8.ofNat (n + 0x80) &&& 0xC0 = 0x80 ∧
    tailBits (UInt8.ofNat (n + 0x80)) = n := by decide

/-- Six more bits. -/
theorem or_shift {a t k : ℕ} (ht : t < 64) : a <<< (k + 6) ||| t <<< k = (a * 64 + t) <<< k := by
  have hlt : t <<< k < 2 ^ (k + 6) := by
    rw [Nat.shiftLeft_eq, Nat.pow_add, Nat.mul_comm]
    exact Nat.mul_lt_mul_of_pos_left ht (Nat.two_pow_pos k)
  rw [← Nat.shiftLeft_add_eq_or_of_lt hlt, Nat.shiftLeft_eq, Nat.shiftLeft_eq, Nat.shiftLeft_eq, Nat.pow_add]
  ring

theorem or_last {a t : ℕ} (ht : t < 64) : a <<< 6 ||| t = a * 64 + t := by
  have h := or_shift (a := a) (k := 0) ht
  rwa [Nat.shiftLeft_zero, Nat.shiftLeft_zero] at h

variable {c : Char} {rest : List Byte}

/-- A character is read back. -/
theorem utf8Next_char (hc : c ≠ '\x00') : utf8Next (String.utf8EncodeChar c ++ rest) = .ok (some (c.toNat, rest)) := by
  have hvalid : c.val.toNat < 0xD800 ∨ (0xDFFF < c.val.toNat ∧ c.val.toNat < 0x110000) := c.valid
  have hpos : c.val.toNat ≠ 0 := by
    intro hzero
    apply hc
    apply Char.ext
    exact UInt32.toNat_inj.mp hzero
  show _ = Except.ok (some (c.val.toNat, rest))
  unfold String.utf8EncodeChar
  dsimp only
  generalize c.val.toNat = v at *
  unfold utf8Next
  by_cases h1 : v ≤ 0x7f
  · have hnat : (UInt8.ofNat v).toNat = v := UInt8.toNat_ofNat_of_lt (show v < 256 by omega)
    have hne : UInt8.ofNat v ≠ 0 := by
      intro hzero
      rw [hzero] at hnat
      exact hpos hnat.symm
    have hlt : UInt8.ofNat v < 0x80 := by
      rw [UInt8.lt_iff_toNat_lt, hnat]
      exact Nat.lt_succ_of_le h1
    rw [if_pos h1]
    simp only [List.cons_append, List.nil_append, List.getD_cons_zero, List.drop_succ_cons, List.drop_zero]
    rw [if_neg hne, if_pos hlt, hnat]
  rw [if_neg h1]
  obtain ⟨hne1, htail1, hbits1⟩ := tail_byte (v % 0x40) (by omega)
  by_cases h2 : v ≤ 0x7ff
  · obtain ⟨hne, hlt, hlead, hbits⟩ := lead_two (v / 64 % 0x20) (by omega)
    have hcp : (v / 64 % 0x20) <<< 6 ||| v % 0x40 = v := by
      rw [or_last (by omega)]
      omega
    rw [if_pos h2]
    simp only [List.cons_append, List.nil_append, List.getD_cons_zero, List.getD_cons_succ, List.drop_succ_cons,
      List.drop_zero]
    rw [if_neg hne, if_neg hlt, if_pos hlead, if_neg (not_or.mpr ⟨hne1, not_not.mpr htail1⟩), hbits, hbits1, hcp,
      if_neg (by omega)]
  rw [if_neg h2]
  obtain ⟨hne2, htail2, hbits2⟩ := tail_byte (v / 64 % 0x40) (by omega)
  by_cases h3 : v ≤ 0xffff
  · obtain ⟨hne, hlt, hnot, hlead, hbits⟩ := lead_three (v / 4096 % 0x10) (by omega)
    have hcp : (v / 4096 % 0x10) <<< 12 ||| (v / 64 % 0x40) <<< 6 ||| v % 0x40 = v := by
      rw [@or_shift _ _ 6 (by omega), or_last (by omega)]
      omega
    have htails : ¬ (UInt8.ofNat (v / 64 % 0x40 + 0x80) = 0 ∨ UInt8.ofNat (v % 0x40 + 0x80) = 0 ∨
        UInt8.ofNat (v / 64 % 0x40 + 0x80) &&& 0xC0 ≠ 0x80 ∨ UInt8.ofNat (v % 0x40 + 0x80) &&& 0xC0 ≠ 0x80) := by
      rw [not_or, not_or, not_or]
      exact ⟨hne2, hne1, not_not.mpr htail2, not_not.mpr htail1⟩
    rw [if_pos h3]
    simp only [List.cons_append, List.nil_append, List.getD_cons_zero, List.getD_cons_succ, List.drop_succ_cons,
      List.drop_zero]
    rw [if_neg hne, if_neg hlt, if_neg hnot, if_pos hlead, if_neg htails, hbits, hbits1, hbits2, hcp,
      if_neg (by omega)]
  rw [if_neg h3]
  obtain ⟨hne3, htail3, hbits3⟩ := tail_byte (v / 4096 % 0x40) (by omega)
  obtain ⟨hne, hlt, hnot, hnot', hlead, hbits⟩ := lead_four (v / 262144 % 0x08) (by omega)
  have hcp : (v / 262144 % 0x08) <<< 18 ||| (v / 4096 % 0x40) <<< 12 ||| (v / 64 % 0x40) <<< 6 ||| v % 0x40 = v := by
    rw [@or_shift _ _ 12 (by omega), @or_shift _ _ 6 (by omega), or_last (by omega)]
    omega
  have htails : ¬ (UInt8.ofNat (v / 4096 % 0x40 + 0x80) = 0 ∨ UInt8.ofNat (v / 64 % 0x40 + 0x80) = 0 ∨
      UInt8.ofNat (v % 0x40 + 0x80) = 0 ∨ UInt8.ofNat (v / 4096 % 0x40 + 0x80) &&& 0xC0 ≠ 0x80 ∨
      UInt8.ofNat (v / 64 % 0x40 + 0x80) &&& 0xC0 ≠ 0x80 ∨ UInt8.ofNat (v % 0x40 + 0x80) &&& 0xC0 ≠ 0x80) := by
    rw [not_or, not_or, not_or, not_or, not_or]
    exact ⟨hne3, hne2, hne1, not_not.mpr htail3, not_not.mpr htail2, not_not.mpr htail1⟩
  simp only [List.cons_append, List.nil_append, List.getD_cons_zero, List.getD_cons_succ, List.drop_succ_cons,
    List.drop_zero]
  rw [if_neg hne, if_neg hlt, if_neg hnot, if_neg hnot', if_pos hlead, if_neg htails, hbits, hbits1, hbits2, hbits3,
    hcp, if_neg (by omega)]

/-- A byte that is not NUL begins what is left there. -/
theorem drop_of_getD {s : List Byte} {i : ℕ} (h : s.getD i 0 ≠ 0) :
    i < s.length ∧ s.drop i = s.getD i 0 :: s.drop (i + 1) := by
  have hi : i < s.length := by
    by_contra hge
    exact h (List.getD_eq_default s 0 (by omega))
  refine ⟨hi, ?_⟩
  rw [List.getD_eq_getElem s 0 hi]
  exact List.drop_eq_getElem_cons hi

theorem byte_induction {P : Byte → Prop} (h : ∀ n < 256, P (UInt8.ofNat n)) (b : Byte) : P b := by
  have hb := h b.toNat b.toNat_lt
  rwa [UInt8.ofNat_toNat] at hb

theorem lead_one_eq : ∀ b : Byte, b < 0x80 → b.toNat < 128 ∧ b = UInt8.ofNat b.toNat := by
  apply byte_induction
  decide +kernel

theorem lead_two_eq : ∀ b : Byte, b &&& 0xE0 = 0xC0 →
    (b &&& 0x1F).toNat < 32 ∧ b = UInt8.ofNat ((b &&& 0x1F).toNat + 0xC0) := by
  apply byte_induction
  decide +kernel

theorem lead_three_eq : ∀ b : Byte, b &&& 0xF0 = 0xE0 →
    (b &&& 0x0F).toNat < 16 ∧ b = UInt8.ofNat ((b &&& 0x0F).toNat + 0xE0) := by
  apply byte_induction
  decide +kernel

theorem lead_four_eq : ∀ b : Byte, b &&& 0xF8 = 0xF0 →
    (b &&& 0x07).toNat < 8 ∧ b = UInt8.ofNat ((b &&& 0x07).toNat + 0xF0) := by
  apply byte_induction
  decide +kernel

theorem tail_byte_eq : ∀ b : Byte, b &&& 0xC0 = 0x80 → tailBits b < 64 ∧ b = UInt8.ofNat (tailBits b + 0x80) := by
  apply byte_induction
  decide +kernel

/-- A scalar value is a character. -/
theorem exists_char {v : ℕ} (hne : v ≠ 0) (hvalid : v < 0xD800 ∨ (0xDFFF < v ∧ v < 0x110000)) :
    ∃ c : Char, c ≠ '\x00' ∧ c.val.toNat = v := by
  have hlt : v < 2 ^ 32 := by omega
  have hval : (UInt32.ofNat v).toNat = v := UInt32.toNat_ofNat_of_lt' hlt
  have hchar : (UInt32.ofNat v).isValidChar := by
    unfold UInt32.isValidChar
    rw [hval]
    exact hvalid
  refine ⟨⟨UInt32.ofNat v, hchar⟩, ?_, hval⟩
  intro hnul
  have hzero : UInt32.ofNat v = 0 := congrArg Char.val hnul
  rw [hzero] at hval
  exact hne hval.symm

/-! The encoding of the four lengths, from the bits. -/

theorem encode_one {c : Char} {v : ℕ} (hval : c.val.toNat = v) (hlt : v < 128) :
    String.utf8EncodeChar c = [UInt8.ofNat v] := by
  unfold String.utf8EncodeChar
  dsimp only
  rw [hval, if_pos (by omega)]

theorem encode_two {c : Char} {a t : ℕ} (hval : c.val.toNat = a * 64 + t) (ha : a < 32) (ht : t < 64)
    (hlow : 0x80 ≤ a * 64 + t) : String.utf8EncodeChar c = [UInt8.ofNat (a + 0xC0), UInt8.ofNat (t + 0x80)] := by
  have ha' : (a * 64 + t) / 64 % 0x20 = a := by omega
  have ht' : (a * 64 + t) % 0x40 = t := by omega
  unfold String.utf8EncodeChar
  dsimp only
  rw [hval, if_neg (by omega), if_pos (by omega), ha', ht']

theorem encode_three {c : Char} {a t u : ℕ} (hval : c.val.toNat = (a * 64 + t) * 64 + u) (ha : a < 16) (ht : t < 64)
    (hu : u < 64) (hlow : 0x800 ≤ (a * 64 + t) * 64 + u) :
    String.utf8EncodeChar c = [UInt8.ofNat (a + 0xE0), UInt8.ofNat (t + 0x80), UInt8.ofNat (u + 0x80)] := by
  have ha' : ((a * 64 + t) * 64 + u) / 4096 % 0x10 = a := by omega
  have ht' : ((a * 64 + t) * 64 + u) / 64 % 0x40 = t := by omega
  have hu' : ((a * 64 + t) * 64 + u) % 0x40 = u := by omega
  unfold String.utf8EncodeChar
  dsimp only
  rw [hval, if_neg (by omega), if_neg (by omega), if_pos (by omega), ha', ht', hu']

theorem encode_four {c : Char} {a t u w : ℕ} (hval : c.val.toNat = ((a * 64 + t) * 64 + u) * 64 + w) (ha : a < 8)
    (ht : t < 64) (hu : u < 64) (hw : w < 64) (hlow : 0x10000 ≤ ((a * 64 + t) * 64 + u) * 64 + w) :
    String.utf8EncodeChar c =
      [UInt8.ofNat (a + 0xF0), UInt8.ofNat (t + 0x80), UInt8.ofNat (u + 0x80), UInt8.ofNat (w + 0x80)] := by
  have ha' : (((a * 64 + t) * 64 + u) * 64 + w) / 262144 % 0x08 = a := by omega
  have ht' : (((a * 64 + t) * 64 + u) * 64 + w) / 4096 % 0x40 = t := by omega
  have hu' : (((a * 64 + t) * 64 + u) * 64 + w) / 64 % 0x40 = u := by omega
  have hw' : (((a * 64 + t) * 64 + u) * 64 + w) % 0x40 = w := by omega
  unfold String.utf8EncodeChar
  dsimp only
  rw [hval, if_neg (by omega), if_neg (by omega), if_neg (by omega), ha', ht', hu', hw']

/-- What is read is the encoding of a character. -/
theorem utf8Next_ok {s : List Byte} {cp : ℕ} (h : utf8Next s = .ok (some (cp, rest))) :
    ∃ c : Char, c ≠ '\x00' ∧ cp = c.toNat ∧ s = String.utf8EncodeChar c ++ rest := by
  have hencode : ∀ c : Char, c.val.toNat = cp → cp = c.toNat := fun c hc => hc.symm
  unfold utf8Next at h
  dsimp only at h
  by_cases h0 : s.getD 0 0 = 0
  · rw [if_pos h0] at h
    cases h
  obtain ⟨-, hs0⟩ := drop_of_getD h0
  rw [List.drop_zero] at hs0
  rw [if_neg h0] at h
  by_cases h1 : s.getD 0 0 < 0x80
  · rw [if_pos h1] at h
    obtain ⟨rfl, rfl⟩ := Prod.mk.inj (Option.some.inj (Except.ok.inj h))
    obtain ⟨hlead, hbyte⟩ := lead_one_eq _ h1
    have hne : (s.getD 0 0).toNat ≠ 0 := fun hzero => h0 (UInt8.toNat_inj.mp hzero)
    obtain ⟨c, hc, hval⟩ := exists_char hne (Or.inl (by omega))
    refine ⟨c, hc, hencode c hval, ?_⟩
    rw [encode_one hval hlead, ← hbyte]
    exact hs0
  rw [if_neg h1] at h
  by_cases h2 : s.getD 0 0 &&& 0xE0 = 0xC0
  · rw [if_pos h2] at h
    split_ifs at h with htails hlow
    rw [not_or, not_not] at htails
    obtain ⟨-, hs1⟩ := drop_of_getD htails.1
    obtain ⟨hlead, hbyte0⟩ := lead_two_eq _ h2
    obtain ⟨ht1, hbyte1⟩ := tail_byte_eq _ htails.2
    rw [or_last ht1] at h hlow
    obtain ⟨hcp, rfl⟩ := Prod.mk.inj (Option.some.inj (Except.ok.inj h))
    obtain ⟨c, hc, hval⟩ := exists_char (v := cp) (by omega) (by omega)
    refine ⟨c, hc, hencode c hval, ?_⟩
    rw [encode_two (hval.trans hcp.symm) hlead ht1 (by omega), ← hbyte0, ← hbyte1]
    rwa [hs1] at hs0
  rw [if_neg h2] at h
  by_cases h3 : s.getD 0 0 &&& 0xF0 = 0xE0
  · rw [if_pos h3] at h
    split_ifs at h with htails hrange
    rw [not_or, not_or, not_or, not_not, not_not] at htails
    obtain ⟨-, hs1⟩ := drop_of_getD htails.1
    obtain ⟨-, hs2⟩ := drop_of_getD htails.2.1
    obtain ⟨hlead, hbyte0⟩ := lead_three_eq _ h3
    obtain ⟨ht1, hbyte1⟩ := tail_byte_eq _ htails.2.2.1
    obtain ⟨ht2, hbyte2⟩ := tail_byte_eq _ htails.2.2.2
    rw [@or_shift _ _ 6 ht1, or_last ht2] at h hrange
    obtain ⟨hcp, rfl⟩ := Prod.mk.inj (Option.some.inj (Except.ok.inj h))
    obtain ⟨c, hc, hval⟩ := exists_char (v := cp) (by omega) (by omega)
    refine ⟨c, hc, hencode c hval, ?_⟩
    rw [encode_three (hval.trans hcp.symm) hlead ht1 ht2 (by omega), ← hbyte0, ← hbyte1, ← hbyte2]
    rwa [hs1, hs2] at hs0
  rw [if_neg h3] at h
  by_cases h4 : s.getD 0 0 &&& 0xF8 = 0xF0
  · rw [if_pos h4] at h
    split_ifs at h with htails hrange
    rw [not_or, not_or, not_or, not_or, not_or, not_not, not_not, not_not] at htails
    obtain ⟨hne1, hne2, hne3, htail1, htail2, htail3⟩ := htails
    obtain ⟨-, hs1⟩ := drop_of_getD hne1
    obtain ⟨-, hs2⟩ := drop_of_getD hne2
    obtain ⟨-, hs3⟩ := drop_of_getD hne3
    obtain ⟨hlead, hbyte0⟩ := lead_four_eq _ h4
    obtain ⟨ht1, hbyte1⟩ := tail_byte_eq _ htail1
    obtain ⟨ht2, hbyte2⟩ := tail_byte_eq _ htail2
    obtain ⟨ht3, hbyte3⟩ := tail_byte_eq _ htail3
    rw [@or_shift _ _ 12 ht1, @or_shift _ _ 6 ht2, or_last ht3] at h hrange
    obtain ⟨hcp, rfl⟩ := Prod.mk.inj (Option.some.inj (Except.ok.inj h))
    obtain ⟨c, hc, hval⟩ := exists_char (v := cp) (by omega) (by omega)
    refine ⟨c, hc, hencode c hval, ?_⟩
    rw [encode_four (hval.trans hcp.symm) hlead ht1 ht2 ht3 (by omega), ← hbyte0, ← hbyte1, ← hbyte2, ← hbyte3]
    rwa [hs1, hs2, hs3] at hs0
  rw [if_neg h4] at h
  cases h

end Utf8

/-! ### The program -/

/-- What `utf8_next` returns for what is next in `s`. -/
def utf8Returned (s : List Byte) : Except ℕ (Option (ℕ × List Byte)) → Utf8Result
  | .error errno => ⟨-1, errno, none, 0⟩
  | .ok none => ⟨0, 0, none, 0⟩
  | .ok (some (cp, rest)) => ⟨1, 0, some cp, s.length - rest.length⟩

section Reads

variable {α : Type} {s : List Byte}

/-- What comes after a read up to the NUL. -/
theorem byteAt_total {i : ℕ} {k : Byte → TextProg α} {Q : α → Unit → Prop} (hi : i ≤ s.length)
    (h : Prog.Total (nulTerminated s) Q (k (s.getD i 0)) ()) : Prog.Total (nulTerminated s) Q ((byteAt i).bind k) () := by
  have hsome : ∃ r w', textSem s () (.byte i) r w' := ⟨s.getD i 0, (), hi, rfl⟩
  apply Prog.Total.call hsome
  intro r w' ⟨_, hr⟩
  rw [hr]
  exact h

/-- The length of what was read. -/
theorem moved_eq {n : ℕ} (hn : n ≤ s.length) : n = s.length - (s.drop n).length := by
  rw [List.length_drop]
  omega

theorem returned_ok {cp n : ℕ} (hn : n ≤ s.length) :
    Prog.Total (nulTerminated s) (fun r _ => r = utf8Returned s (.ok (some (cp, s.drop n))))
      (.ret ⟨1, 0, some cp, n⟩) () := by
  apply Prog.Total.ret
  unfold utf8Returned
  dsimp only
  rw [← moved_eq hn]

theorem returned_error :
    Prog.Total (nulTerminated s) (fun r _ => r = utf8Returned s (.error EILSEQ)) (.ret utf8Failure) () :=
  Prog.Total.ret rfl

/-- No read goes past the NUL: a byte is read only after one that is not NUL. -/
theorem utf8NextText_total (s : List Byte) :
    Prog.Total (nulTerminated s) (fun r _ => r = utf8Returned s (utf8Next s)) utf8NextText () := by
  unfold utf8NextText utf8Next
  dsimp only
  apply byteAt_total (Nat.zero_le _)
  by_cases h0 : s.getD 0 0 = 0
  · rw [if_pos h0, if_pos h0]
    exact Prog.Total.ret rfl
  obtain ⟨hlen0, -⟩ := drop_of_getD h0
  rw [if_neg h0, if_neg h0]
  by_cases h1 : s.getD 0 0 < 0x80
  · rw [if_pos h1, if_pos h1]
    exact returned_ok hlen0
  rw [if_neg h1, if_neg h1]
  by_cases h2 : s.getD 0 0 &&& 0xE0 = 0xC0
  · rw [if_pos h2, if_pos h2]
    apply byteAt_total hlen0
    by_cases htails : s.getD 1 0 = 0 ∨ s.getD 1 0 &&& 0xC0 ≠ 0x80
    · rw [if_pos htails, if_pos htails]
      exact returned_error
    rw [if_neg htails, if_neg htails]
    obtain ⟨hlen1, -⟩ := drop_of_getD (not_or.mp htails).1
    split_ifs
    · exact returned_error
    · exact returned_ok hlen1
  rw [if_neg h2, if_neg h2]
  by_cases h3 : s.getD 0 0 &&& 0xF0 = 0xE0
  · rw [if_pos h3, if_pos h3]
    apply byteAt_total hlen0
    by_cases hn1 : s.getD 1 0 = 0
    · rw [if_pos hn1, if_pos (Or.inl hn1)]
      exact returned_error
    obtain ⟨hlen1, -⟩ := drop_of_getD hn1
    rw [if_neg hn1]
    apply byteAt_total hlen1
    by_cases htails : s.getD 2 0 = 0 ∨ s.getD 1 0 &&& 0xC0 ≠ 0x80 ∨ s.getD 2 0 &&& 0xC0 ≠ 0x80
    · rw [if_pos htails, if_pos (Or.inr htails)]
      exact returned_error
    rw [if_neg htails, if_neg (not_or.mpr ⟨hn1, htails⟩)]
    obtain ⟨hlen2, -⟩ := drop_of_getD (not_or.mp htails).1
    split_ifs
    · exact returned_error
    · exact returned_ok hlen2
  rw [if_neg h3, if_neg h3]
  by_cases h4 : s.getD 0 0 &&& 0xF8 = 0xF0
  · rw [if_pos h4, if_pos h4]
    apply byteAt_total hlen0
    by_cases hn1 : s.getD 1 0 = 0
    · rw [if_pos hn1, if_pos (Or.inl hn1)]
      exact returned_error
    obtain ⟨hlen1, -⟩ := drop_of_getD hn1
    rw [if_neg hn1]
    apply byteAt_total hlen1
    by_cases hn2 : s.getD 2 0 = 0
    · rw [if_pos hn2, if_pos (Or.inr (Or.inl hn2))]
      exact returned_error
    obtain ⟨hlen2, -⟩ := drop_of_getD hn2
    rw [if_neg hn2]
    apply byteAt_total hlen2
    by_cases htails : s.getD 3 0 = 0 ∨ s.getD 1 0 &&& 0xC0 ≠ 0x80 ∨ s.getD 2 0 &&& 0xC0 ≠ 0x80 ∨
        s.getD 3 0 &&& 0xC0 ≠ 0x80
    · rw [if_pos htails, if_pos (Or.inr (Or.inr htails))]
      exact returned_error
    rw [if_neg htails, if_neg (not_or.mpr ⟨hn1, not_or.mpr ⟨hn2, htails⟩⟩)]
    obtain ⟨hlen3, -⟩ := drop_of_getD (not_or.mp htails).1
    split_ifs
    · exact returned_error
    · exact returned_ok hlen3
  rw [if_neg h4, if_neg h4]
  exact returned_error

end Reads

/-! ### Whole texts -/

/-- The code points of a text, if all of it is accepted. -/
def utf8Codes (s : List Byte) : Option (List ℕ) :=
  match _h : utf8Next s with
  | .error _ => none
  | .ok none => some []
  | .ok (some (codepoint, rest)) => (utf8Codes rest).map fun codes => codepoint :: codes
termination_by s.length
decreasing_by exact utf8Next_shorter _h

/-- There is nothing next only at the end. -/
theorem utf8Next_none {s : List Byte} (hs : 0 ∉ s) (h : utf8Next s = .ok none) : s = [] := by
  by_contra hne
  obtain ⟨b, rest, rfl⟩ := List.exists_cons_of_ne_nil hne
  have hb : b ≠ 0 := fun hzero => hs (hzero ▸ List.mem_cons_self)
  unfold utf8Next at h
  dsimp only at h
  rw [List.getD_cons_zero, if_neg hb] at h
  split_ifs at h
  all_goals cases h

theorem utf8Codes_chars : ∀ chars : List Char, '\x00' ∉ chars →
    utf8Codes (chars.flatMap String.utf8EncodeChar) = some (chars.map Char.toNat)
  | [], _ => by
    rw [List.flatMap_nil, utf8Codes]
    simp [utf8Next]
  | c :: chars, hchars => by
    rw [List.mem_cons, not_or] at hchars
    have hnext := @utf8Next_char c (chars.flatMap String.utf8EncodeChar) (Ne.symm hchars.1)
    have ih := utf8Codes_chars chars hchars.2
    rw [List.flatMap_cons, utf8Codes]
    split
    · rename_i h
      rw [hnext] at h
      cases h
    · rename_i h
      rw [hnext] at h
      cases h
    · rename_i h
      rw [hnext] at h
      cases h
      rw [ih]
      rfl

theorem chars_of_utf8Codes {s : List Byte} {codes : List ℕ} (hs : 0 ∉ s) (h : utf8Codes s = some codes) :
    ∃ chars : List Char, '\x00' ∉ chars ∧ s = chars.flatMap String.utf8EncodeChar ∧ codes = chars.map Char.toNat := by
  induction s using utf8Codes.induct generalizing codes with
  | case1 s errno hnext =>
    rw [utf8Codes] at h
    split at h
    · cases h
    · rename_i hnext'
      rw [hnext] at hnext'
      cases hnext'
    · rename_i hnext'
      rw [hnext] at hnext'
      cases hnext'
  | case2 s hnext =>
    have hnil := utf8Next_none hs hnext
    subst hnil
    rw [utf8Codes] at h
    simp only [utf8Next, List.getD_nil] at h
    refine ⟨[], List.not_mem_nil, rfl, ?_⟩
    exact (Option.some.inj h).symm
  | case3 s cp rest hnext ih =>
    obtain ⟨c, hc, rfl, rfl⟩ := utf8Next_ok hnext
    rw [utf8Codes] at h
    split at h
    · cases h
    · rename_i hnext'
      rw [hnext] at hnext'
      cases hnext'
    · rename_i hnext'
      rw [hnext] at hnext'
      cases hnext'
      obtain ⟨codes', hcodes', rfl⟩ := Option.map_eq_some_iff.mp h
      obtain ⟨chars, hchars, hrest, rfl⟩ := ih (fun hmem => hs (List.mem_append_right _ hmem)) hcodes'
      refine ⟨c :: chars, ?_, ?_, rfl⟩
      · rw [List.mem_cons, not_or]
        exact ⟨Ne.symm hc, hchars⟩
      · rw [List.flatMap_cons, ← hrest]

/-! ### Decoding -/

/-- `s` begins with the encoding of a scalar value that is not NUL. -/
def BeginsWith (s : List Byte) (c : Char) : Prop := c ≠ '\x00' ∧ ∃ rest, s = String.utf8EncodeChar c ++ rest

/-- The result is 1 if the string begins with an encoding, which is then read,
and otherwise nothing is. -/
structure Utf8Exact (s : List Byte) (r : Utf8Result) : Prop where
  accepted : r.ret = 1 ↔ ∃ c, BeginsWith s c
  scalar : ∀ c, BeginsWith s c → r = ⟨1, 0, some c.toNat, (String.utf8EncodeChar c).length⟩
  refused : r.ret ≠ 1 → r = utf8Failure

theorem utf8Returned_exact {s : List Byte} (hs : 0 ∉ s) (hne : s ≠ []) : Utf8Exact s (utf8Returned s (utf8Next s)) := by
  have hscalar : ∀ c, BeginsWith s c →
      utf8Returned s (utf8Next s) = ⟨1, 0, some c.toNat, (String.utf8EncodeChar c).length⟩ := by
    rintro c ⟨hc, rest, rfl⟩
    rw [utf8Next_char hc]
    unfold utf8Returned
    dsimp only
    rw [List.length_append, Nat.add_sub_cancel]
  cases hnext : utf8Next s with
  | error errno =>
    have herrno : errno = EILSEQ := by
      unfold utf8Next at hnext
      dsimp only at hnext
      split_ifs at hnext
      all_goals exact (Except.error.inj hnext).symm
    rw [hnext] at hscalar
    rw [herrno] at hscalar ⊢
    refine ⟨⟨fun h => ?_, fun ⟨c, hc⟩ => ?_⟩, hscalar, fun _ => rfl⟩
    · cases h
    · exact congrArg Utf8Result.ret (hscalar c hc)
  | ok next =>
    cases next with
    | none => exact absurd (utf8Next_none hs hnext) hne
    | some p =>
      obtain ⟨c, hc, -, hsplit⟩ := utf8Next_ok hnext
      rw [hnext] at hscalar
      exact ⟨⟨fun _ => ⟨c, hc, p.2, hsplit⟩, fun _ => rfl⟩, hscalar, fun h => absurd rfl h⟩

/-- UTF-8 is decoded exactly, within the string and its NUL; and a whole text
is accepted if it is encoded characters, which determine it. -/
theorem utf8_decoding :
    (∀ s : List Byte, s ≠ [] → 0 ∉ s →
      Prog.Total (nulTerminated s) (fun r _ => Utf8Exact s r ∧ r = utf8Returned s (utf8Next s)) utf8NextText ()) ∧
    (∀ (s : List Byte) (codes : List ℕ), 0 ∉ s → (utf8Codes s = some codes ↔
      ∃ chars : List Char, '\x00' ∉ chars ∧ s = chars.flatMap String.utf8EncodeChar ∧ codes = chars.map Char.toNat)) ∧
    (∀ s s' : List Byte, 0 ∉ s → 0 ∉ s' → utf8Codes s ≠ none → utf8Codes s = utf8Codes s' → s = s') := by
  refine ⟨fun s hne hs => ?_, fun s codes hs => ⟨chars_of_utf8Codes hs, ?_⟩, fun s s' hs hs' hsome heq => ?_⟩
  · apply (utf8NextText_total s).mono
    intro r _ hr
    rw [hr]
    exact ⟨utf8Returned_exact hs hne, rfl⟩
  · rintro ⟨chars, hchars, rfl, rfl⟩
    exact utf8Codes_chars chars hchars
  · obtain ⟨codes, hcodes⟩ := Option.ne_none_iff_exists'.mp hsome
    obtain ⟨chars, -, rfl, hcodes₁⟩ := chars_of_utf8Codes hs hcodes
    obtain ⟨chars', -, rfl, hcodes₂⟩ := chars_of_utf8Codes hs' (heq.symm.trans hcodes)
    have hsame : chars = chars' := by
      apply List.map_injective_iff.mpr (fun c c' h => Char.toNat_inj.mp h)
      exact hcodes₁.symm.trans hcodes₂
    rw [hsame]

/-- A character of three bytes with another text after it, and two texts. -/
theorem utf8_decoding_three :
    Prog.Total (nulTerminated [0xE6, 0xB8, 0xA9, 0x21])
      (fun r _ => Utf8Exact [0xE6, 0xB8, 0xA9, 0x21] r ∧
        r = utf8Returned [0xE6, 0xB8, 0xA9, 0x21] (utf8Next [0xE6, 0xB8, 0xA9, 0x21])) utf8NextText () ∧
      (utf8Codes [0x21] = some [0x21] ↔ ∃ chars : List Char, '\x00' ∉ chars ∧
        [0x21] = chars.flatMap String.utf8EncodeChar ∧ [0x21] = chars.map Char.toNat) ∧
      ([0x21] : List Byte) = [0x21] :=
  ⟨utf8_decoding.1 [0xE6, 0xB8, 0xA9, 0x21] (by decide) (by decide), utf8_decoding.2.1 [0x21] [0x21] (by decide),
    utf8_decoding.2.2 [0x21] [0x21] (by decide) (by decide) (by rw [utf8Codes]; simp [utf8Next, utf8Codes]) rfl⟩

end DeviceRuntime
