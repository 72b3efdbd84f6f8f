/-
# Selection from a list

A list sorted by a key is the same for every order of its entries if their
keys are different, and its first entry with a property is the one with the
least key. A pass that keeps the entry with the greatest value so far ends
with the greatest of all.

Key definitions: `sortBy`, `keepGreater`, `greatest`.
Key theorems: `sortBy_perm`, `sortBy_eq_of_perm`, `find?_sortBy`,
`greatest_eq_none`, `le_greatest`.
-/
import Mathlib.Data.List.Induction
import Mathlib.Data.List.Sort
import Mathlib.Order.Defs.LinearOrder

namespace Selection

variable {α κ : Type}

section Sorting

variable [LE κ] [DecidableLE κ] {key : α → κ} {l l' : List α}

/-- The entries by ascending keys. -/
def sortBy (key : α → κ) (l : List α) : List α := l.insertionSort fun a b => key a ≤ key b

theorem sortBy_perm : (sortBy key l).Perm l := List.perm_insertionSort _ l

theorem mem_sortBy {a : α} : a ∈ sortBy key l ↔ a ∈ l := sortBy_perm.mem_iff

theorem find?_sortBy_eq_none {p : α → Bool} : (sortBy key l).find? p = none ↔ ∀ a ∈ l, ¬ p a = true := by
  rw [List.find?_eq_none]
  constructor
  · intro h a ha
    exact h a (mem_sortBy.mpr ha)
  · intro h a ha
    exact h a (mem_sortBy.mp ha)

variable [Std.IsLinearOrder κ]

theorem sortBy_sorted : (sortBy key l).Pairwise fun a b => key a ≤ key b := by
  have htotal : Std.Total fun a b => key a ≤ key b := ⟨fun a b => Std.Total.total (key a) (key b)⟩
  have htrans : IsTrans α fun a b => key a ≤ key b := ⟨fun a b c => Trans.trans⟩
  exact List.pairwise_insertionSort _ l

/-- The order of the entries makes no difference. -/
theorem sortBy_eq_of_perm (hperm : l.Perm l') (hkey : ∀ a ∈ l, ∀ b ∈ l, key a = key b → a = b) :
    sortBy key l = sortBy key l' := by
  apply List.Perm.eq_of_pairwise _ sortBy_sorted sortBy_sorted
  · exact sortBy_perm.trans (hperm.trans sortBy_perm.symm)
  · intro a b ha hb hab hba
    apply hkey a (mem_sortBy.mp ha) b (hperm.mem_iff.mpr (mem_sortBy.mp hb))
    exact Std.Antisymm.antisymm _ _ hab hba

/-- The first entry with a property has the least key. -/
theorem find?_sortBy {p : α → Bool} {a : α} (h : (sortBy key l).find? p = some a) :
    a ∈ l ∧ p a = true ∧ ∀ b ∈ l, p b = true → key a ≤ key b := by
  obtain ⟨ha, before, after, hsplit, hbefore⟩ := List.find?_eq_some_iff_append.mp h
  have hmem : a ∈ sortBy key l := List.mem_of_find?_eq_some h
  refine ⟨mem_sortBy.mp hmem, ha, ?_⟩
  intro b hb hpb
  have hsorted : (sortBy key l).Pairwise _ := sortBy_sorted
  rw [hsplit] at hsorted
  have hb : b ∈ sortBy key l := mem_sortBy.mpr hb
  rw [hsplit, List.mem_append, List.mem_cons] at hb
  rcases hb with hb | rfl | hb
  · have hnot := hbefore b hb
    rw [hpb] at hnot
    cases hnot
  · exact Std.Refl.refl _
  · exact (List.pairwise_cons.mp (List.pairwise_append.mp hsorted).2.1).1 b hb

end Sorting

section Greatest

variable [LinearOrder κ] {has : α → Bool} {value : α → κ} {l : List α}

/-- The entry that is kept when `a` comes after it. -/
def keepGreater (has : α → Bool) (value : α → κ) (kept : Option α) (a : α) : Option α :=
  if !has a then kept
  else
    match kept with
    | none => some a
    | some best => if value a > value best then some a else some best

/-- The first of the entries with the greatest value. -/
def greatest (has : α → Bool) (value : α → κ) (l : List α) : Option α := l.foldl (keepGreater has value) none

theorem greatest_append (a : α) :
    greatest has value (l ++ [a]) = keepGreater has value (greatest has value l) a := by
  unfold greatest
  rw [List.foldl_append, List.foldl_cons, List.foldl_nil]

theorem greatest_eq_none : greatest has value l = none ↔ ∀ a ∈ l, has a = false := by
  induction l using List.reverseRecOn with
  | nil =>
    constructor
    · intro _ a ha
      cases ha
    · exact fun _ => rfl
  | append_singleton l b ih =>
    rw [greatest_append, List.forall_mem_append, List.forall_mem_singleton, ← ih]
    unfold keepGreater
    cases hb : has b with
    | false => simp
    | true =>
      cases greatest has value l with
      | none => simp
      | some best =>
        simp only [Bool.not_true, Bool.false_eq_true, if_false]
        split_ifs
        · simp
        · simp

/-- The entry that is left has a value, and no value is greater. -/
theorem le_greatest {best : α} (h : greatest has value l = some best) :
    best ∈ l ∧ has best = true ∧ ∀ a ∈ l, has a = true → value a ≤ value best := by
  induction l using List.reverseRecOn generalizing best with
  | nil => cases h
  | append_singleton l b ih =>
    rw [greatest_append] at h
    unfold keepGreater at h
    cases hb : has b with
    | false =>
      rw [hb] at h
      obtain ⟨hmem, hbest, hle⟩ := ih h
      refine ⟨List.mem_append_left _ hmem, hbest, ?_⟩
      rw [List.forall_mem_append, List.forall_mem_singleton]
      exact ⟨hle, fun hcontra => by rw [hb] at hcontra; cases hcontra⟩
    | true =>
      rw [hb] at h
      cases hkept : greatest has value l with
      | none =>
        rw [hkept] at h
        cases h
        refine ⟨by simp, hb, ?_⟩
        rw [List.forall_mem_append, List.forall_mem_singleton]
        refine ⟨?_, fun _ => le_refl _⟩
        intro a ha hhas
        rw [greatest_eq_none.mp hkept a ha] at hhas
        cases hhas
      | some kept =>
        rw [hkept] at h
        obtain ⟨hmem, hbest, hle⟩ := ih hkept
        simp only [Bool.not_true, Bool.false_eq_true, if_false] at h
        rw [List.forall_mem_append, List.forall_mem_singleton]
        by_cases hgt : value b > value kept
        · rw [if_pos hgt] at h
          cases h
          exact ⟨by simp, hb, fun a ha hhas => (hle a ha hhas).trans hgt.le, fun _ => le_refl _⟩
        · rw [if_neg hgt] at h
          cases h
          exact ⟨List.mem_append_left _ hmem, hbest, hle, fun _ => not_lt.mp hgt⟩

end Greatest

end Selection
