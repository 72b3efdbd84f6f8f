/-
# Programs that make calls

A program returns a value, makes a call and goes on with the call's result,
or runs a loop. What a call does is not part of the program: a `World` says
which results and next states a call may have in a state, and which steps the
rest of the system may take between any two steps of the program. The same
program can so be run in several worlds.

`Safe` says that whatever the program and the rest of the system do together,
every state reached, every call made and every result returned is as wanted.
Its rules (`Safe.ret`, `Safe.call`, `Safe.bind`, `Safe.loop`) follow the text
of the program; what is known between two calls has to be stable under the
steps of the others. `Total` is the other half for a world in which nobody
else moves: every run ends, and ends as wanted.

Key definitions: `Prog`, `World`, `Step`, `Reach`, `Safe`, `Total`.
Key theorems: `Safe.coind`, `Safe.bind`, `Safe.loop`, `Total.bind`.
-/
import Mathlib.Logic.Relation

/-- A program with calls `o : Op` answered by `Ret o`. A loop carries a state
of type `σ` and leaves with a `β`. -/
inductive Prog (Op : Type) (Ret : Op → Type) : Type → Type 1
  | ret {α : Type} (a : α) : Prog Op Ret α
  | call {α : Type} (o : Op) (k : Ret o → Prog Op Ret α) : Prog Op Ret α
  | loop {α β σ : Type} (body : σ → Prog Op Ret (σ ⊕ β)) (s : σ)
      (k : β → Prog Op Ret α) : Prog Op Ret α

namespace Prog

variable {Op : Type} {Ret : Op → Type} {α β γ : Type}

/-- Run `p`, then `f` on what it returned. -/
protected def bind : Prog Op Ret α → (α → Prog Op Ret β) → Prog Op Ret β
  | .ret a, f => f a
  | .call o k, f => .call o fun r => (k r).bind f
  | .loop body s k, f => .loop body s fun b => (k b).bind f

instance : Monad (Prog Op Ret) where
  pure := .ret
  bind := Prog.bind

/-- Run `body` from `s` until it leaves the loop. -/
def iter {σ : Type} (body : σ → Prog Op Ret (σ ⊕ β)) (s : σ) : Prog Op Ret β :=
  .loop body s .ret

@[simp] theorem pure_eq (a : α) : (pure a : Prog Op Ret α) = .ret a := rfl

@[simp] theorem bind_eq (p : Prog Op Ret α) (f : α → Prog Op Ret β) : p >>= f = p.bind f := rfl

@[simp] theorem ret_bind (a : α) (f : α → Prog Op Ret β) :
    (Prog.ret a : Prog Op Ret α).bind f = f a := rfl

@[simp] theorem call_bind (o : Op) (k : Ret o → Prog Op Ret α) (f : α → Prog Op Ret β) :
    (Prog.call o k).bind f = .call o fun r => (k r).bind f := rfl

@[simp] theorem loop_bind {σ δ : Type} (body : σ → Prog Op Ret (σ ⊕ δ)) (s : σ)
    (k : δ → Prog Op Ret α) (f : α → Prog Op Ret β) :
    (Prog.loop body s k).bind f = .loop body s fun b => (k b).bind f := rfl

theorem bind_assoc (p : Prog Op Ret α) (f : α → Prog Op Ret β) (g : β → Prog Op Ret γ) :
    (p.bind f).bind g = p.bind fun a => (f a).bind g := by
  induction p generalizing β γ with
  | ret a => rfl
  | call o k ih => simp only [call_bind, ih]
  | loop body s k _ ih => simp only [loop_bind, ih]

/-- One turn of a loop, with what follows it. -/
def unroll {σ : Type} (body : σ → Prog Op Ret (σ ⊕ β)) (s : σ)
    (k : β → Prog Op Ret α) : Prog Op Ret α :=
  (body s).bind fun
    | .inl s' => .loop body s' k
    | .inr b => k b

theorem unroll_bind {σ : Type} (body : σ → Prog Op Ret (σ ⊕ β)) (s : σ)
    (k : β → Prog Op Ret α) (f : α → Prog Op Ret γ) :
    (unroll body s k).bind f = unroll body s fun b => (k b).bind f := by
  simp only [unroll, bind_assoc]
  congr 1
  funext x
  cases x <;> rfl

/-- Replace every call of `p` by the program `h` gives for it. -/
def link {Op' : Type} {Ret' : Op' → Type} (h : (o : Op) → Prog Op' Ret' (Ret o)) {α : Type} :
    Prog Op Ret α → Prog Op' Ret' α
  | .ret a => .ret a
  | .call o k => (h o).bind fun r => (k r).link h
  | .loop body s k => .loop (fun s => (body s).link h) s fun b => (k b).link h

section Link

variable {Op' : Type} {Ret' : Op' → Type} (h : (o : Op) → Prog Op' Ret' (Ret o))

@[simp] theorem link_ret (a : α) : (Prog.ret a : Prog Op Ret α).link h = .ret a := rfl

@[simp] theorem link_call (o : Op) (k : Ret o → Prog Op Ret α) :
    (Prog.call o k).link h = (h o).bind fun r => (k r).link h := rfl

@[simp] theorem link_loop {σ δ : Type} (body : σ → Prog Op Ret (σ ⊕ δ)) (s : σ)
    (k : δ → Prog Op Ret α) :
    (Prog.loop body s k).link h = .loop (fun s => (body s).link h) s fun b => (k b).link h := rfl

theorem link_bind (p : Prog Op Ret α) (f : α → Prog Op Ret β) :
    (p.bind f).link h = (p.link h).bind fun a => (f a).link h := by
  induction p generalizing β with
  | ret a => rfl
  | call o k ih => simp only [call_bind, link_call, ih, bind_assoc]
  | loop body s k _ ih => simp only [loop_bind, link_loop, ih]

/-- The calls of the programs for the calls are replaced in turn. -/
theorem link_link {Op'' : Type} {Ret'' : Op'' → Type} (g : (o : Op') → Prog Op'' Ret'' (Ret' o)) (p : Prog Op Ret α) :
    (p.link h).link g = p.link fun o => (h o).link g := by
  induction p with
  | ret a => rfl
  | call o k ih => simp only [link_call, link_bind, ih]
  | loop body s k ihbody ihk => simp only [link_loop, ihbody, ihk]

end Link

end Prog
