/-
# Linked lists in memory

A node has a value and a pointer to the next node; `none` is the null pointer.
`Chain` says that the nodes of a list lie in the memory one after the other,
and that the last one points nowhere. So the list is known from its first
address (`Chain.unique`) and has no address twice (`Chain.nodup`).

A write to one node changes what comes after it: `Chain.relink` is the rule
for a changed value, for a node that is taken out and for one that is put at
the end.

Key definitions: `Node`, `Memory`, `first`, `Chain`.
Key theorems: `Chain.node`, `Chain.congr`, `Chain.unique`, `Chain.nodup`,
`Chain.relink`.
-/
import Mathlib.Data.List.Nodup
import Mathlib.Logic.Function.Basic

namespace LinkedList

structure Node (α : Type) where
  val : α
  next : Option ℕ

/-- The nodes that are allocated. -/
abbrev Memory (α : Type) := ℕ → Option (Node α)

variable {α : Type}

def Memory.write (mem : Memory α) (a : ℕ) (node : Node α) : Memory α := Function.update mem a (some node)

def Memory.free (mem : Memory α) (a : ℕ) : Memory α := Function.update mem a none

def addrs (l : List (ℕ × α)) : List ℕ := l.map Prod.fst

def vals (l : List (ℕ × α)) : List α := l.map Prod.snd

/-- The pointer to the first node. -/
def first : List (ℕ × α) → Option ℕ
  | [] => none
  | (a, _) :: _ => some a

/-- The nodes with these addresses and values, each pointing to the next. -/
def Chain (mem : Memory α) : List (ℕ × α) → Prop
  | [] => True
  | (a, x) :: l => mem a = some ⟨x, first l⟩ ∧ Chain mem l

variable {mem mem' : Memory α} {l l' l₁ l₂ : List (ℕ × α)} {a b : ℕ} {x y : α}

@[simp] theorem write_self (mem : Memory α) (a : ℕ) (node : Node α) : mem.write a node a = some node :=
  Function.update_self ..

theorem write_of_ne (mem : Memory α) {a b : ℕ} (node : Node α) (h : b ≠ a) : mem.write a node b = mem b :=
  Function.update_of_ne h ..

@[simp] theorem free_self (mem : Memory α) (a : ℕ) : mem.free a a = none := Function.update_self ..

theorem free_of_ne (mem : Memory α) {a b : ℕ} (h : b ≠ a) : mem.free a b = mem b := Function.update_of_ne h ..

@[simp] theorem addrs_append (l₁ l₂ : List (ℕ × α)) : addrs (l₁ ++ l₂) = addrs l₁ ++ addrs l₂ := List.map_append

@[simp] theorem addrs_cons (a : ℕ) (x : α) (l : List (ℕ × α)) : addrs ((a, x) :: l) = a :: addrs l := rfl

@[simp] theorem vals_append (l₁ l₂ : List (ℕ × α)) : vals (l₁ ++ l₂) = vals l₁ ++ vals l₂ := List.map_append

@[simp] theorem vals_cons (a : ℕ) (x : α) (l : List (ℕ × α)) : vals ((a, x) :: l) = x :: vals l := rfl

/-- What comes after a node does not matter for the first one. -/
theorem first_append_cons (l₁ : List (ℕ × α)) (r r' : List (ℕ × α)) :
    first (l₁ ++ (b, x) :: r) = first (l₁ ++ (b, y) :: r') := by
  cases l₁ with
  | nil => rfl
  | cons node l₁ => rfl

theorem Chain.right : ∀ {l₁ : List (ℕ × α)}, Chain mem (l₁ ++ l₂) → Chain mem l₂
  | [], h => h
  | _ :: _, h => Chain.right h.2

theorem Chain.node (h : Chain mem (l₁ ++ (a, x) :: l₂)) : mem a = some ⟨x, first l₂⟩ := h.right.1

/-- Only the nodes of the list are read. -/
theorem Chain.congr : ∀ {l : List (ℕ × α)}, Chain mem l → (∀ a ∈ addrs l, mem' a = mem a) → Chain mem' l
  | [], _, _ => trivial
  | (a, x) :: l, h, hsame => by
    refine ⟨?_, h.2.congr fun b hb => hsame b (List.mem_cons_of_mem _ hb)⟩
    rw [hsame a List.mem_cons_self]
    exact h.1

theorem Chain.allocated (h : Chain mem l) (ha : a ∈ addrs l) : mem a ≠ none := by
  obtain ⟨⟨b, x⟩, hmem, rfl⟩ := List.mem_map.mp ha
  obtain ⟨l₁, l₂, rfl⟩ := List.append_of_mem hmem
  rw [h.node]
  exact Option.some_ne_none _

/-- A list is known from its first address. -/
theorem Chain.unique : ∀ {l l' : List (ℕ × α)}, Chain mem l → Chain mem l' → first l = first l' → l = l'
  | [], [], _, _, _ => rfl
  | [], _ :: _, _, _, hfirst => absurd hfirst.symm (Option.some_ne_none _)
  | _ :: _, [], _, _, hfirst => absurd hfirst (Option.some_ne_none _)
  | (a, x) :: l, (b, y) :: l', h, h', hfirst => by
    have hab : a = b := Option.some.inj hfirst
    have hnode : some (Node.mk x (first l)) = some ⟨y, first l'⟩ := by
      rw [← h.1, hab]
      exact h'.1
    have hfields := Node.mk.inj (Option.some.inj hnode)
    rw [hab, hfields.1, h.2.unique h'.2 hfields.2]

theorem Chain.nodup : ∀ {l : List (ℕ × α)}, Chain mem l → (addrs l).Nodup
  | [], _ => List.nodup_nil
  | (a, x) :: l, h => by
    refine List.nodup_cons.mpr ⟨?_, h.2.nodup⟩
    intro ha
    -- the list from the second time on would be the whole list
    obtain ⟨⟨b, y⟩, hmem, hb⟩ := List.mem_map.mp ha
    obtain ⟨l₁, l₂, hl⟩ := List.append_of_mem hmem
    have hright : Chain mem ((b, y) :: l₂) := by
      have hright := h.2
      rw [hl] at hright
      exact hright.right
    have hfirst : first ((b, y) :: l₂) = first ((a, x) :: l) := congrArg some hb
    have hlength := congrArg List.length (hright.unique h hfirst)
    rw [hl, List.length_cons, List.length_cons, List.length_append, List.length_cons] at hlength
    omega

/-- A node gets another value and another list after it. -/
theorem Chain.relink {r r' : List (ℕ × α)} : ∀ {l : List (ℕ × α)}, Chain mem (l ++ (b, x) :: r) →
    Chain mem r' → b ∉ addrs r' → Chain (mem.write b ⟨y, first r'⟩) (l ++ (b, y) :: r')
  | [], _, hr, hb => by
    refine ⟨write_self .., hr.congr fun a ha => write_of_ne _ _ ?_⟩
    exact fun hab => hb (hab ▸ ha)
  | (a, z) :: l, h, hr, hb => by
    have hmem : b ∈ addrs (l ++ (b, x) :: r) := by simp
    have hne : a ≠ b := by
      intro hab
      have hnot : a ∉ addrs (l ++ (b, x) :: r) := (List.nodup_cons.mp h.nodup).1
      rw [hab] at hnot
      exact hnot hmem
    have hnode : mem a = some ⟨z, first (l ++ (b, x) :: r)⟩ := h.1
    rw [first_append_cons l r r'] at hnode
    exact ⟨(write_of_ne _ _ hne).trans hnode, h.2.relink hr hb⟩

end LinkedList
