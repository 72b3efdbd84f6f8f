/-
# Lines of a stream

A separator cuts a list into the lines that it ends, `complete`, and what
stands after the last separator, `pending`. Both are `List.splitOn`, seen from
the end of the list, where a stream grows: one more element makes the pending
line longer (`complete_snoc`, `pending_snoc`), a separator completes it
(`complete_separator`, `pending_separator`).

`foldl_lines` is the rule for a reader that starts afresh at every separator:
if its state is a function of the pending line, then reading a stream does to
the world what the complete lines do, one after the other.

Key definitions: `complete`, `pending`.
Key theorems: `split_append`, `complete_snoc`, `pending_snoc`, `foldl_lines`.
-/
import Mathlib.Data.List.Induction

namespace Lines

variable {α : Type*} [DecidableEq α] (sep : α)

/-- The lines that a separator ends. -/
def complete (xs : List α) : List (List α) := (xs.splitOn sep).dropLast

/-- What stands after the last separator. -/
def pending (xs : List α) : List α := (xs.splitOn sep).getLastD []

variable {sep} {xs ys : List α}

theorem splitOn_eq (sep : α) (xs : List α) : xs.splitOn sep = complete sep xs ++ [pending sep xs] := by
  have hne : xs.splitOn sep ≠ [] := List.splitOn_ne_nil sep xs
  have hlast : pending sep xs = (xs.splitOn sep).getLast hne := by
    simp [pending, List.getLastD_eq_getLast?, List.getLast?_eq_some_getLast hne]
  rw [complete, hlast, List.dropLast_concat_getLast hne]

theorem complete_of_not_mem (h : sep ∉ xs) : complete sep xs = [] := by
  simp [complete, List.splitOn_eq_singleton h]

theorem pending_of_not_mem (h : sep ∉ xs) : pending sep xs = xs := by
  simp [pending, List.splitOn_eq_singleton h]

@[simp]
theorem complete_nil : complete sep ([] : List α) = [] := complete_of_not_mem List.not_mem_nil

@[simp]
theorem pending_nil : pending sep ([] : List α) = [] := pending_of_not_mem List.not_mem_nil

/-- A separator completes the line before it. -/
theorem split_append (sep : α) (xs ys : List α) :
    complete sep (xs ++ sep :: ys) = complete sep xs ++ pending sep xs :: complete sep ys ∧
      pending sep (xs ++ sep :: ys) = pending sep ys := by
  have h := splitOn_eq sep (xs ++ sep :: ys)
  have hsplit : (xs ++ sep :: ys).splitOn sep =
      (complete sep xs ++ pending sep xs :: complete sep ys) ++ [pending sep ys] := by
    rw [List.splitOn_append_cons_self, splitOn_eq sep xs, splitOn_eq sep ys]
    simp
  rw [hsplit] at h
  have hparts := List.append_inj' h rfl
  have hpending : pending sep ys = pending sep (xs ++ sep :: ys) := by simpa using hparts.2
  exact ⟨hparts.1.symm, hpending.symm⟩

theorem complete_separator (xs : List α) : complete sep (xs ++ [sep]) = complete sep xs ++ [pending sep xs] := by
  have h := (split_append sep xs []).1
  rw [complete_nil] at h
  exact h

theorem pending_separator (xs : List α) : pending sep (xs ++ [sep]) = [] := by
  have h := (split_append sep xs []).2
  rw [pending_nil] at h
  exact h

/-- A list without a separator, or what stands before and after the last one. -/
theorem exists_last (sep : α) (xs : List α) : sep ∉ xs ∨ ∃ as bs, xs = as ++ sep :: bs ∧ sep ∉ bs := by
  by_cases h : sep ∈ xs
  · have hrev : sep ∈ xs.reverse := List.mem_reverse.mpr h
    obtain ⟨as, bs, heq, hnot⟩ := List.eq_append_cons_of_mem hrev
    refine .inr ⟨bs.reverse, as.reverse, ?_, fun hmem => hnot (List.mem_reverse.mp hmem)⟩
    have hxs := congrArg List.reverse heq
    simpa using hxs
  · exact .inl h

/-- One more element of the pending line. -/
theorem split_snoc {x : α} (hx : x ≠ sep) (xs : List α) :
    complete sep (xs ++ [x]) = complete sep xs ∧ pending sep (xs ++ [x]) = pending sep xs ++ [x] := by
  have hsnoc : ∀ l : List α, sep ∉ l → sep ∉ l ++ [x] := by
    intro l hl hmem
    rcases List.mem_append.mp hmem with hmem | hmem
    · exact hl hmem
    · exact hx (List.mem_singleton.mp hmem).symm
  rcases exists_last sep xs with hnot | ⟨as, bs, rfl, hnot⟩
  · rw [complete_of_not_mem hnot, pending_of_not_mem hnot]
    exact ⟨complete_of_not_mem (hsnoc xs hnot), pending_of_not_mem (hsnoc xs hnot)⟩
  · have hbefore := split_append sep as bs
    have hafter := split_append sep as (bs ++ [x])
    rw [complete_of_not_mem hnot, pending_of_not_mem hnot] at hbefore
    rw [complete_of_not_mem (hsnoc bs hnot), pending_of_not_mem (hsnoc bs hnot)] at hafter
    rw [List.append_assoc, List.cons_append, hafter.1, hafter.2, hbefore.1, hbefore.2]
    exact ⟨rfl, rfl⟩

theorem complete_snoc {x : α} (hx : x ≠ sep) (xs : List α) : complete sep (xs ++ [x]) = complete sep xs :=
  (split_snoc hx xs).1

theorem pending_snoc {x : α} (hx : x ≠ sep) (xs : List α) : pending sep (xs ++ [x]) = pending sep xs ++ [x] :=
  (split_snoc hx xs).2

/-- There is one complete line for each separator. -/
theorem length_complete (sep : α) (xs : List α) : (complete sep xs).length = xs.count sep := by
  induction xs using List.reverseRec with
  | nil => simp
  | append_singleton xs x ih =>
    by_cases hx : x = sep
    · subst hx
      rw [complete_separator, List.length_append, List.count_append, ih]
      simp
    · rw [complete_snoc hx, List.count_append, ih]
      simp [hx]

/-- A reader that starts afresh at every separator: between two separators it
changes only its own state, which `hold` computes from the pending line. -/
theorem foldl_lines {S W : Type*} {step : S × W → α → S × W} {hold : List α → S} {close : W → List α → W}
    (hinside : ∀ l w x, x ≠ sep → step (hold l, w) x = (hold (l ++ [x]), w))
    (hend : ∀ l w, step (hold l, w) sep = (hold [], close w l)) (xs : List α) (w : W) :
    xs.foldl step (hold [], w) = (hold (pending sep xs), (complete sep xs).foldl close w) := by
  induction xs using List.reverseRec with
  | nil => simp
  | append_singleton xs x ih =>
    rw [List.foldl_append, ih]
    by_cases hx : x = sep
    · subst hx
      rw [complete_separator, pending_separator, List.foldl_append]
      exact hend _ _
    · rw [complete_snoc hx, pending_snoc hx]
      exact hinside _ _ _ hx

end Lines
