/-
# Resources that are taken and given back

A table says which keys have a resource, and which one. `Holds base now l` is
the claim of somebody who started from the table `base` and now holds the
resources of `l`: each was taken at a key that was free, and nothing else
differs from `base`. There are rules for taking one more, for changing one and
for giving one back; who holds nothing has left the table as it was
(`Holds.returned`).

`Placed` is the same claim for the nodes of a linked list.

Key definitions: `Table`, `Holds`, `Placed`.
Key theorems: `Holds.take`, `Holds.give`, `Holds.returned`, `Placed.append`,
`Placed.change`, `Placed.release`.
-/
import Mathlib.Data.List.Perm.Basic
import DeviceRuntime.Lib.LinkedList

namespace Resources

variable {κ α : Type} [DecidableEq κ]

abbrev Table (κ α : Type) := κ → Option α

def keys (l : List (κ × α)) : List κ := l.map Prod.fst

/-- Whoever found `base` and holds `l` has left `now`. -/
structure Holds (base now : Table κ α) (l : List (κ × α)) : Prop where
  free : ∀ a ∈ keys l, base a = none
  held : ∀ p ∈ l, now p.1 = some p.2
  others : ∀ a, a ∉ keys l → now a = base a
  nodup : (keys l).Nodup

section Holds

omit [DecidableEq κ] in
theorem mem_keys {l : List (κ × α)} {p : κ × α} (h : p ∈ l) : p.1 ∈ keys l := List.mem_map_of_mem h

variable {base now : Table κ α} {l l' : List (κ × α)} {a : κ} {x y : α}

omit [DecidableEq κ] in
theorem Holds.nothing (base : Table κ α) : Holds base base [] :=
  ⟨fun _ h => absurd h List.not_mem_nil, fun _ h => absurd h List.not_mem_nil, fun _ _ => rfl, List.nodup_nil⟩

omit [DecidableEq κ] in
/-- Everything was given back. -/
theorem Holds.returned (h : Holds base now []) : now = base := funext fun a => h.others a List.not_mem_nil

omit [DecidableEq κ] in
theorem Holds.perm (h : Holds base now l) (hp : l.Perm l') : Holds base now l' := by
  have hkeys : (keys l).Perm (keys l') := hp.map _
  refine ⟨?_, ?_, ?_, hkeys.nodup_iff.mp h.nodup⟩
  · exact fun a ha => h.free a (hkeys.mem_iff.mpr ha)
  · exact fun p hp' => h.held p (hp.mem_iff.mpr hp')
  · exact fun a ha => h.others a fun hmem => ha (hkeys.mem_iff.mp hmem)

omit [DecidableEq κ] in
/-- What is free now is not held, and was free before. -/
theorem Holds.unused (h : Holds base now l) (ha : now a = none) : a ∉ keys l ∧ base a = none := by
  have hnot : a ∉ keys l := by
    intro hmem
    obtain ⟨p, hp, rfl⟩ := List.mem_map.mp hmem
    rw [h.held p hp] at ha
    exact absurd ha (Option.some_ne_none _)
  exact ⟨hnot, (h.others a hnot).symm.trans ha⟩

theorem Holds.take (h : Holds base now l) (ha : now a = none) :
    Holds base (Function.update now a (some x)) ((a, x) :: l) := by
  obtain ⟨hnot, hbase⟩ := h.unused ha
  refine ⟨?_, ?_, ?_, List.nodup_cons.mpr ⟨hnot, h.nodup⟩⟩
  · intro b hb
    rcases List.mem_cons.mp hb with rfl | hb
    · exact hbase
    · exact h.free b hb
  · intro p hp
    rcases List.mem_cons.mp hp with rfl | hp
    · exact Function.update_self ..
    · have hne : p.1 ≠ a := fun hpa => hnot (hpa ▸ mem_keys hp)
      rw [Function.update_of_ne hne]
      exact h.held p hp
  · intro b hb
    have hne : b ≠ a := fun hba => hb (hba ▸ List.mem_cons_self)
    rw [Function.update_of_ne hne]
    exact h.others b fun hmem => hb (List.mem_cons_of_mem _ hmem)

theorem Holds.give (h : Holds base now ((a, x) :: l)) : Holds base (Function.update now a none) l := by
  have hkeys : (a :: keys l).Nodup := h.nodup
  obtain ⟨hnot, hnodup⟩ := List.nodup_cons.mp hkeys
  refine ⟨fun b hb => h.free b (List.mem_cons_of_mem _ hb), ?_, ?_, hnodup⟩
  · intro p hp
    have hne : p.1 ≠ a := fun hpa => hnot (hpa ▸ mem_keys hp)
    rw [Function.update_of_ne hne]
    exact h.held p (List.mem_cons_of_mem _ hp)
  · intro b hb
    by_cases hba : b = a
    · rw [hba, Function.update_self]
      exact (h.free a List.mem_cons_self).symm
    · rw [Function.update_of_ne hba]
      refine h.others b fun hmem => ?_
      rcases List.mem_cons.mp hmem with heq | hmem
      · exact hba heq
      · exact hb hmem

end Holds

/-! ### Linked lists -/

open LinkedList

/-- Whoever found the memory `base` has put the list `l` into it. -/
structure Placed (base mem : Memory α) (l : List (ℕ × α)) : Prop where
  chain : Chain mem l
  free : ∀ a ∈ addrs l, base a = none
  others : ∀ a, a ∉ addrs l → mem a = base a

section Placed

variable {base mem : Memory α} {l r : List (ℕ × α)} {a b : ℕ} {x y : α} {node : Node α}

theorem Placed.nothing (base : Memory α) : Placed base base [] :=
  ⟨trivial, fun _ h => absurd h List.not_mem_nil, fun _ _ => rfl⟩

theorem Placed.returned (h : Placed base mem []) : mem = base := funext fun a => h.others a List.not_mem_nil

/-- A node that is not in the list. -/
theorem Placed.unused (h : Placed base mem l) (ha : mem a = none) : a ∉ addrs l ∧ base a = none := by
  have hnot : a ∉ addrs l := fun hmem => h.chain.allocated hmem ha
  exact ⟨hnot, (h.others a hnot).symm.trans ha⟩

theorem Placed.one (ha : base a = none) : Placed base (base.write a ⟨x, none⟩) [(a, x)] := by
  refine ⟨⟨write_self .., trivial⟩, ?_, ?_⟩
  · intro b hb
    obtain rfl := List.mem_singleton.mp hb
    exact ha
  · exact fun b hb => write_of_ne _ _ fun hba => hb (hba ▸ List.mem_singleton_self _)

/-- A node gets another value. -/
theorem Placed.change (h : Placed base mem (l ++ (a, x) :: r)) :
    Placed base (mem.write a ⟨y, first r⟩) (l ++ (a, y) :: r) := by
  have hkeys : addrs (l ++ (a, y) :: r) = addrs (l ++ (a, x) :: r) := by simp
  have hnot := (List.nodup_cons.mp h.chain.right.nodup).1
  refine ⟨h.chain.relink h.chain.right.2 hnot, ?_, ?_⟩
  · rw [hkeys]
    exact h.free
  · intro b hb
    rw [hkeys] at hb
    have hne : b ≠ a := by
      rintro rfl
      apply hb
      simp
    rw [write_of_ne _ _ hne]
    exact h.others b hb

/-- A new node is put at the end. -/
theorem Placed.append (h : Placed base mem (l ++ [(a, x)])) (hb : mem b = none) :
    Placed base ((mem.write b ⟨y, none⟩).write a ⟨x, some b⟩) (l ++ [(a, x), (b, y)]) := by
  obtain ⟨hnot, hbase⟩ := h.unused hb
  have hkeys : addrs (l ++ [(a, x), (b, y)]) = addrs (l ++ [(a, x)]) ++ [b] := by simp [addrs]
  have hchain : Chain (mem.write b ⟨y, none⟩) (l ++ [(a, x)]) :=
    h.chain.congr fun c hc => write_of_ne _ _ fun hcb => hnot (hcb ▸ hc)
  have hne : a ≠ b := by
    rintro rfl
    apply hnot
    simp
  have hlast : Chain (mem.write b ⟨y, none⟩) [(b, y)] := ⟨write_self .., trivial⟩
  refine ⟨hchain.relink hlast ?_, ?_, ?_⟩
  · simpa [addrs] using hne
  · intro c hc
    rw [hkeys] at hc
    rcases List.mem_append.mp hc with hc | hc
    · exact h.free c hc
    · rw [List.mem_singleton.mp hc]
      exact hbase
  · intro c hc
    rw [hkeys, List.mem_append, not_or, List.mem_singleton] at hc
    have hca : c ≠ a := by
      rintro rfl
      apply hc.1
      simp
    rw [write_of_ne _ _ hca, write_of_ne _ _ hc.2]
    exact h.others c hc.1

/-- The first node is given back. -/
theorem Placed.release (h : Placed base mem ((a, x) :: l)) : Placed base (mem.free a) l := by
  have hnot := (List.nodup_cons.mp h.chain.nodup).1
  refine ⟨h.chain.2.congr fun b hb => free_of_ne _ fun hba => hnot (hba ▸ hb), ?_, ?_⟩
  · exact fun b hb => h.free b (List.mem_cons_of_mem _ hb)
  · intro b hb
    by_cases hba : b = a
    · rw [hba, free_self]
      exact (h.free a List.mem_cons_self).symm
    · rw [free_of_ne _ hba]
      refine h.others b fun hmem => ?_
      rcases List.mem_cons.mp hmem with heq | hmem
      · exact hba heq
      · exact hb hmem

end Placed

end Resources
