/-
# Arrays with checked indices

An array of a fixed size whose first entries are in use. Reads and writes give
`none` when the index is not below the size. The entries in use are a prefix of
the array (`xs <+: v.toList`); a write just after them makes it longer by one.

Key definitions: `readAt`, `writeAt`, `writeFrom`, `readFirst`.
Key theorems: `readAt_prefix`, `writeAt_prefix`, `writeFrom_prefix`,
`readFirst_leading`.
-/
import Mathlib.Data.List.Induction
import Mathlib.Data.Nat.Notation
import Mathlib.Data.Vector.Defs

namespace Slots

variable {α : Type} {n : ℕ}

def readAt (v : Vector α n) (i : ℕ) : Option α := v[i]?

def writeAt (v : Vector α n) (i : ℕ) (a : α) : Option (Vector α n) := if h : i < n then some (v.set i a h) else none

/-- The entries one after the other, from `i` on. -/
def writeFrom (v : Vector α n) (i : ℕ) : List α → Option (Vector α n)
  | [] => some v
  | a :: as => (writeAt v i a).bind fun v => writeFrom v (i + 1) as

/-- The first `count` entries. -/
def readFirst (v : Vector α n) (count : ℕ) : Option (List α) := (List.range count).mapM (readAt v)

variable {v : Vector α n} {xs : List α}

theorem prefix_length (h : xs <+: v.toList) : xs.length ≤ n := by
  have hle := h.length_le
  rwa [Vector.length_toList] at hle

theorem readAt_prefix (h : xs <+: v.toList) {i : ℕ} {x : α} (hx : xs[i]? = some x) : readAt v i = some x := by
  obtain ⟨rest, hrest⟩ := h
  obtain ⟨hi, -⟩ := List.getElem?_eq_some_iff.mp hx
  unfold readAt
  rw [← Vector.getElem?_toList, ← hrest, List.getElem?_append_left hi]
  exact hx

theorem writeAt_prefix (h : xs <+: v.toList) (hlt : xs.length < n) (a : α) :
    ∃ v', writeAt v xs.length a = some v' ∧ xs ++ [a] <+: v'.toList := by
  refine ⟨v.set xs.length a hlt, dif_pos hlt, ?_⟩
  obtain ⟨rest, hrest⟩ := h
  have hlen : v.toList.length = n := Vector.length_toList
  rw [Vector.toList_set, ← hrest]
  cases rest with
  | nil =>
    rw [List.append_nil] at hrest
    rw [← hrest] at hlen
    omega
  | cons b rest =>
    rw [List.set_append_right _ _ (Nat.le_refl _), Nat.sub_self, List.set_cons_zero]
    exact ⟨rest, by rw [List.append_assoc, List.singleton_append]⟩

theorem writeFrom_prefix : ∀ (as : List α) {v : Vector α n} {xs : List α}, xs <+: v.toList →
    xs.length + as.length ≤ n → ∃ v', writeFrom v xs.length as = some v' ∧ xs ++ as <+: v'.toList
  | [], v, xs, h, _ => ⟨v, rfl, by rwa [List.append_nil]⟩
  | a :: as, v, xs, h, hlen => by
    rw [List.length_cons] at hlen
    obtain ⟨v₁, hwrite, hprefix⟩ := writeAt_prefix h (by omega) a
    have hone : (xs ++ [a]).length = xs.length + 1 := by rw [List.length_append, List.length_singleton]
    obtain ⟨v₂, hrest, hprefix₂⟩ := writeFrom_prefix as hprefix (by omega)
    refine ⟨v₂, ?_, ?_⟩
    · unfold writeFrom
      rw [hwrite, Option.bind_some, ← hone]
      exact hrest
    · rwa [List.append_assoc, List.singleton_append] at hprefix₂

theorem readFirst_leading (h : xs <+: v.toList) : readFirst v xs.length = some xs := by
  unfold readFirst
  have hall : ∀ ys : List α, ys <+: xs → (List.range ys.length).mapM (readAt v) = some ys := by
    intro ys
    induction ys using List.reverseRecOn with
    | nil => exact fun _ => rfl
    | append_singleton ys y ih =>
      intro hys
      have hy : readAt v ys.length = some y :=
        readAt_prefix (hys.trans h) (by rw [List.getElem?_append_right (Nat.le_refl _), Nat.sub_self]; rfl)
      have hinit := ih ((List.prefix_append ys [y]).trans hys)
      rw [List.length_append, List.length_singleton, List.range_succ, List.mapM_append, hinit]
      simp [hy]
  exact hall xs List.prefix_rfl

end Slots
