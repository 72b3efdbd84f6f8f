/-
# Programs that do not idle

A loop may go round without a call, and then nothing that is said of calls and
results keeps it from going round for ever. In a prompt program every turn of
a loop makes a call before it asks for another one. Such a program always
comes to a call or to its end, so where no call is allowed any more it
returns.

Key definitions: `Calls`, `Prompt`, `Settles`.
Key theorems: `Prompt.reach`, `Prompt.settles`, `Safe.finishes`.
-/
import DeviceRuntime.Lib.Safe

universe u

namespace Prog

variable {Op : Type} {Ret : Op → Type} {W : Type u} {α β : Type}

/-- The program makes a call, or what it returns is in `P`. -/
def Calls : {α : Type} → (α → Prop) → Prog Op Ret α → Prop
  | _, P, .ret a => P a
  | _, _, .call _ _ => True
  | _, P, .loop _ _ k => ∀ b, (k b).Calls P

/-- No loop of the program asks for another turn without a call. -/
def Prompt : {α : Type} → Prog Op Ret α → Prop
  | _, .ret _ => True
  | _, .call _ k => ∀ r, (k r).Prompt
  | _, .loop body _ k => (∀ s, (body s).Prompt ∧ (body s).Calls fun x => x.isRight = true) ∧ ∀ b, (k b).Prompt

/-- The program comes to a call or to its end. -/
inductive Settles : Prog Op Ret α → Prop
  | ret (a : α) : Settles (.ret a)
  | call (o : Op) (k : Ret o → Prog Op Ret α) : Settles (.call o k)
  | loop {σ β : Type} {body : σ → Prog Op Ret (σ ⊕ β)} {s : σ} {k : β → Prog Op Ret α}
      (h : Settles (unroll body s k)) : Settles (.loop body s k)

theorem Calls.ite {P : α → Prop} {c : Prop} [Decidable c] {p q : Prog Op Ret α} (hp : p.Calls P) (hq : q.Calls P) :
    (if c then p else q).Calls P := by
  by_cases h : c
  · rwa [if_pos h]
  · rwa [if_neg h]

theorem Prompt.ite {c : Prop} [Decidable c] {p q : Prog Op Ret α} (hp : p.Prompt) (hq : q.Prompt) :
    (if c then p else q).Prompt := by
  by_cases h : c
  · rwa [if_pos h]
  · rwa [if_neg h]

theorem Calls.bind {P : α → Prop} {R : β → Prop} {f : β → Prog Op Ret α} {p : Prog Op Ret β} (hp : p.Calls R)
    (hf : ∀ b, R b → (f b).Calls P) : (p.bind f).Calls P := by
  induction p generalizing α with
  | ret b => exact hf b hp
  | call o k ih => trivial
  | loop body s k _ ih => exact fun b => ih b (hp b) hf

theorem Prompt.bind {f : β → Prog Op Ret α} {p : Prog Op Ret β} (hp : p.Prompt) (hf : ∀ b, (f b).Prompt) :
    (p.bind f).Prompt := by
  induction p generalizing α with
  | ret b => exact hf b
  | call o k ih => exact fun r => ih r (hp r) hf
  | loop body s k _ ih => exact ⟨hp.1, fun b => ih b (hp.2 b) hf⟩

theorem Prompt.unroll {σ : Type} {body : σ → Prog Op Ret (σ ⊕ β)} {s : σ} {k : β → Prog Op Ret α}
    (h : (Prog.loop body s k).Prompt) : (Prog.unroll body s k).Prompt := by
  refine (h.1 s).1.bind fun x => ?_
  cases x with
  | inl s' => exact h
  | inr b => exact h.2 b

/-- A run of a prompt program is prompt. -/
theorem Prompt.reach {M : World Op Ret W} {p p' : Prog Op Ret α} {w w' : W} (h : p.Prompt)
    (hr : Reach M (p, w) (p', w')) : p'.Prompt := by
  suffices hall : ∀ c, Reach M (p, w) c → c.1.Prompt from hall _ hr
  intro c hc
  induction hc with
  | refl => exact h
  | @tail c c' _ hs ih =>
    obtain ⟨q, v⟩ := c
    obtain ⟨q', v'⟩ := c'
    rcases hs with hs | ⟨hqq, -⟩
    · cases q with
      | ret a => exact hs.elim
      | call o k =>
        obtain ⟨r, -, hq⟩ := hs
        have hq : q' = k r := hq
        rw [hq]
        exact ih r
      | loop body s k =>
        have hq : q' = Prog.unroll body s k := hs.1
        rw [hq]
        exact Prompt.unroll ih
    · have hqq : q' = q := hqq
      rw [hqq]
      exact ih

/-- What comes after the calls settles it. -/
theorem Prompt.settles_bind {p : Prog Op Ret β} : ∀ {α : Type} {P : β → Prop} {f : β → Prog Op Ret α}, p.Prompt →
    p.Calls P → (∀ b, P b → Settles (f b)) → Settles (p.bind f) := by
  induction p with
  | ret b => exact fun _ hcalls hf => hf b hcalls
  | call o k _ => exact fun _ _ _ => .call _ _
  | loop body s k ihbody ih =>
    intro α P f hp hcalls hf
    refine .loop ?_
    refine ihbody s (hp.1 s).1 (hp.1 s).2 fun x hx => ?_
    cases x with
    | inl s' => cases hx
    | inr b => exact ih b (hp.2 b) (hcalls b) hf

theorem Prompt.settles {p : Prog Op Ret α} (h : p.Prompt) : Settles p := by
  induction p with
  | ret a => exact .ret a
  | call o k _ => exact .call o k
  | loop body s k _ ih =>
    refine .loop ((h.1 s).1.settles_bind (h.1 s).2 fun x hx => ?_)
    cases x with
    | inl s' => cases hx
    | inr b => exact ih b (h.2 b)

/-- Where no call is allowed, the program returns. -/
theorem Safe.finishes {M : World Op Ret W} {C : Watch Op W} {Q : α → W → Prop} {p : Prog Op Ret α} {w : W}
    (h : Safe M C Q p w) (hp : p.Prompt) (hcall : ∀ o, ¬ C.atCall o w) : Total M Q p w := by
  have hsettles := hp.settles
  clear hp
  induction hsettles with
  | ret a => exact .ret h.good.2
  | call o k => exact absurd h.good.2 (hcall o)
  | loop _ ih => exact .loop (ih h.afterLoop)

end Prog
