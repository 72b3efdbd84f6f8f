/-
# One run, computed

A `Script` gives one result and one next state for each call. A program that
is run by a script makes a list of calls that can be computed, and so can what
it returns. When the script does only what the world allows, whatever is
watched in the world holds of what was computed. One run that goes wrong is
therefore shown by evaluation.

Key definitions: `Script`, `trace`, `outcome`.
Key theorems: `Safe.trace`, `Safe.outcome`.
-/
import Mathlib.Data.Nat.Notation
import DeviceRuntime.Lib.Safe

universe u

namespace Prog

variable {Op : Type} {Ret : Op → Type} {W : Type u} {α : Type}

/-- What each call returns in each state, and the state after it. -/
abbrev Script (Op : Type) (Ret : Op → Type) (W : Type u) := W → (o : Op) → Ret o × W

/-- The calls of the first `n` steps, with the states they are made in. -/
def trace (script : Script Op Ret W) : ℕ → Prog Op Ret α → W → List (Op × W)
  | 0, _, _ => []
  | _ + 1, .ret _, _ => []
  | n + 1, .call o k, w => (o, w) :: trace script n (k (script w o).1) (script w o).2
  | n + 1, .loop body s k, w => trace script n (unroll body s k) w

/-- What the program returns within `n` steps, and the state it leaves. -/
def outcome (script : Script Op Ret W) : ℕ → Prog Op Ret α → W → Option (α × W)
  | 0, _, _ => none
  | _ + 1, .ret a, w => some (a, w)
  | n + 1, .call o k, w => outcome script n (k (script w o).1) (script w o).2
  | n + 1, .loop body s k, w => outcome script n (unroll body s k) w

section Allowed

variable {M : World Op Ret W} {C : Watch Op W} {Q : α → W → Prop} {script : Script Op Ret W}

/-- The script does only what the world allows. -/
def Script.Allowed (script : Script Op Ret W) (M : World Op Ret W) : Prop :=
  ∀ w o, M.sem w o (script w o).1 (script w o).2

theorem Safe.trace (hscript : script.Allowed M) : ∀ (n : ℕ) {p : Prog Op Ret α} {w : W}, Safe M C Q p w →
    ∀ x ∈ Prog.trace script n p w, C.always x.2 ∧ C.atCall x.1 x.2
  | 0, _, _, _, x, hx => absurd hx List.not_mem_nil
  | _ + 1, .ret _, _, _, x, hx => absurd hx List.not_mem_nil
  | n + 1, .call o k, w, h, x, hx => by
    rcases List.mem_cons.mp hx with rfl | hx
    · exact h.good
    · exact Safe.trace hscript n (h.afterCall _ (hscript w o)) x hx
  | n + 1, .loop _ _ _, _, h, x, hx => Safe.trace hscript n h.afterLoop x hx

theorem Safe.outcome (hscript : script.Allowed M) : ∀ (n : ℕ) {p : Prog Op Ret α} {w : W}, Safe M C Q p w →
    ∀ {a : α} {v : W}, Prog.outcome script n p w = some (a, v) → Q a v
  | 0, _, _, _, _, _, hrun => by cases hrun
  | _ + 1, .ret _, _, h, _, _, hrun => by
    obtain ⟨rfl, rfl⟩ := Prod.mk.inj (Option.some.inj hrun)
    exact h.good.2
  | n + 1, .call o _, w, h, _, _, hrun => Safe.outcome hscript n (h.afterCall _ (hscript w o)) hrun
  | n + 1, .loop _ _ _, _, h, _, _, hrun => Safe.outcome hscript n h.afterLoop hrun

/-- A call of the run that passes a test. -/
theorem Safe.traced (hscript : script.Allowed M) {p : Prog Op Ret α} {w : W} (h : Safe M C Q p w) (n : ℕ)
    (test : Op × W → Bool) (htest : (Prog.trace script n p w).any test = true) :
    ∃ x, test x = true ∧ C.always x.2 ∧ C.atCall x.1 x.2 := by
  obtain ⟨x, hx, hpass⟩ := List.any_eq_true.mp htest
  exact ⟨x, hpass, Safe.trace hscript n h x hx⟩

end Allowed

end Prog
