/-
# Numerals read digit by digit

The value of a list of digits, most significant first, and the reader that
stops before its accumulator would pass a bound. The reader tests
`(max - d) / b < a` before it computes `a * b + d`, so with a bound that
every single digit fits, it reads exactly the numerals of value at most
`max` (`readBounded_eq`).

Key definitions: `Numeral.value`, `Numeral.readBounded`.
Key theorems: `Numeral.readBounded_eq`, `Numeral.value_toDigits`.
-/
import Mathlib.Data.List.Basic
import Mathlib.Data.Nat.Digits.Defs

namespace Numeral

/-- `a` followed by the digits `ds` in base `b`. -/
def value (b : ℕ) (ds : List ℕ) (a : ℕ) : ℕ := ds.foldl (fun a d => a * b + d) a

@[simp] theorem value_nil (b a : ℕ) : value b [] a = a := rfl

@[simp] theorem value_cons (b d : ℕ) (ds : List ℕ) (a : ℕ) :
    value b (d :: ds) a = value b ds (a * b + d) := rfl

/-- More digits never make the value smaller. -/
theorem le_value {b : ℕ} (hb : 0 < b) : ∀ (ds : List ℕ) (a : ℕ), a ≤ value b ds a
  | [], a => Nat.le_refl a
  | d :: ds, a => by
    have h1 := le_value hb ds (a * b + d)
    have h2 : a * 1 ≤ a * b := Nat.mul_le_mul_left a hb
    simp only [value_cons]
    omega

/-- The reader: it gives up before the accumulator would pass `max`. -/
def readBounded (b max : ℕ) : List ℕ → ℕ → Option ℕ
  | [], a => some a
  | d :: ds, a => if (max - d) / b < a then none else readBounded b max ds (a * b + d)

/-- The test the reader makes is the comparison it stands for. -/
theorem bound_test {b max d a : ℕ} (hb : 0 < b) (hd : d ≤ max) :
    (max - d) / b < a ↔ max < a * b + d := by
  rw [Nat.div_lt_iff_lt_mul hb]
  omega

theorem readBounded_eq {b max : ℕ} (hb : 0 < b) : ∀ (ds : List ℕ) (a : ℕ), (∀ d ∈ ds, d ≤ max) →
    a ≤ max → readBounded b max ds a = if value b ds a ≤ max then some (value b ds a) else none
  | [], a, _, ha => by rw [value_nil, readBounded, if_pos ha]
  | d :: ds, a, hds, ha => by
    have hd : d ≤ max := hds d List.mem_cons_self
    have hds' : ∀ d ∈ ds, d ≤ max := fun x hx => hds x (List.mem_cons_of_mem _ hx)
    rw [value_cons, readBounded]
    by_cases h : max < a * b + d
    · have hle := le_value hb ds (a * b + d)
      rw [if_pos ((bound_test hb hd).mpr h), if_neg (by omega)]
    · rw [if_neg (mt (bound_test hb hd).mp h), readBounded_eq hb ds _ hds' (by omega)]

/-- The digits the standard library prints. -/
theorem value_toDigits (n : ℕ) :
    value 10 ((Nat.toDigits 10 n).map fun c => c.toNat - '0'.toNat) 0 = n := by
  have h := Nat.ofDigitChars_ten_toDigits (n := n)
  rw [Nat.ofDigitChars_eq_foldl] at h
  rw [value, List.foldl_map]
  simpa only [Nat.mul_comm] using h

end Numeral
