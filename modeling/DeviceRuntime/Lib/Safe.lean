/-
# Programs in a world

A `World` says what the calls of a program do and what the rest of the system
does in between. `Safe` is the partial correctness of a program with others
moving between its steps, `Total` the total correctness of one that runs
alone.

The rules of `Safe` follow the program text. Between two calls the others may
move any number of times, so what is known there is a `Stable` assertion. A
`Watch` is what has to hold of every state of the run (`always`) and of every
state in which a call is made (`atCall`).

Key definitions: `World`, `Step`, `Reach`, `Watch`, `Safe`, `Only`, `Total`.
Key theorems: `Safe.coind`, `Safe.bind`, `Safe.loop`, `Safe.invariant`,
`Safe.project`, `Safe.link`, `Safe.embed`, `Only.safe`, `Total.bind`,
`Total.simulate`.
-/
import DeviceRuntime.Lib.Prog

universe u v

/-- `sem w o r w'`: in state `w` the call `o` can return `r` and leave `w'`.
`env w w'`: the rest of the system can take `w` to `w'` by itself. -/
structure World (Op : Type) (Ret : Op → Type) (W : Type u) where
  sem : W → (o : Op) → Ret o → W → Prop
  env : W → W → Prop

variable {Op : Type} {Ret : Op → Type} {W : Type u} {α β γ : Type}

namespace Prog

/-- The steps of the program itself. -/
def Next (M : World Op Ret W) : Prog Op Ret α → W → Prog Op Ret α → W → Prop
  | .ret _, _, _, _ => False
  | .call o k, w, p', w' => ∃ r, M.sem w o r w' ∧ p' = k r
  | .loop body s k, w, p', w' => p' = unroll body s k ∧ w' = w

/-- A step of the program or of the rest of the system. -/
def Step (M : World Op Ret W) (c c' : Prog Op Ret α × W) : Prop :=
  Next M c.1 c.2 c'.1 c'.2 ∨ (c'.1 = c.1 ∧ M.env c.2 c'.2)

/-- What a run can come to. -/
def Reach (M : World Op Ret W) : Prog Op Ret α × W → Prog Op Ret α × W → Prop :=
  Relation.ReflTransGen (Step M)

/-- What a call can do when the others move before and after it. -/
def Happens (M : World Op Ret W) (w : W) (o : Op) (r : Ret o) (w' : W) : Prop :=
  ∃ w₁ w₂, Relation.ReflTransGen M.env w w₁ ∧ M.sem w₁ o r w₂ ∧ Relation.ReflTransGen M.env w₂ w'

/-- `P` survives the steps of the others. -/
def Stable (M : World Op Ret W) (P : W → Prop) : Prop := ∀ w w', M.env w w' → P w → P w'

/-- What is watched during a run: every state, and every call with the state
it is made in. -/
structure Watch (Op : Type) (W : Type u) where
  always : W → Prop
  atCall : Op → W → Prop

/-- Nothing is watched. -/
def Watch.idle : Watch Op W := ⟨fun _ => True, fun _ _ => True⟩

/-- The obligations at one configuration. -/
def Good (C : Watch Op W) (Q : α → W → Prop) : Prog Op Ret α → W → Prop
  | .ret a, w => C.always w ∧ Q a w
  | .call o _, w => C.always w ∧ C.atCall o w
  | .loop _ _ _, w => C.always w

/-- Every configuration of every run is good. -/
def Safe (M : World Op Ret W) (C : Watch Op W) (Q : α → W → Prop)
    (p : Prog Op Ret α) (w : W) : Prop :=
  ∀ p' w', Reach M (p, w) (p', w') → Good C Q p' w'

section Safe

variable {M : World Op Ret W} {C : Watch Op W} {Q : α → W → Prop}

theorem Good.always {p : Prog Op Ret α} {w : W} (h : Good C Q p w) : C.always w := by
  cases p with
  | ret a => exact h.1
  | call o k => exact h.1
  | loop body s k => exact h

/-- A set of good configurations closed under steps is safe. -/
theorem Safe.coind (X : Prog Op Ret α → W → Prop) (hgood : ∀ p w, X p w → Good C Q p w)
    (hstep : ∀ p w p' w', X p w → Step M (p, w) (p', w') → X p' w') {p : Prog Op Ret α} {w : W}
    (h : X p w) : Safe M C Q p w := by
  intro p' w' hr
  suffices hX : ∀ c, Reach M (p, w) c → X c.1 c.2 from hgood _ _ (hX _ hr)
  intro c hc
  induction hc with
  | refl => exact h
  | tail _ hs ih => exact hstep _ _ _ _ ih hs

theorem Safe.good {p : Prog Op Ret α} {w : W} (h : Safe M C Q p w) : Good C Q p w :=
  h p w .refl

theorem Safe.step {p p' : Prog Op Ret α} {w w' : W} (h : Safe M C Q p w)
    (hs : Step M (p, w) (p', w')) : Safe M C Q p' w' :=
  fun _ _ hr => h _ _ (.head hs hr)

/-- One of the possible results of a call. -/
theorem Safe.afterCall {o : Op} {k : Ret o → Prog Op Ret α} {w w' : W} (r : Ret o) (hs : M.sem w o r w')
    (h : Safe M C Q (.call o k) w) : Safe M C Q (k r) w' := h.step (.inl ⟨r, hs, rfl⟩)

/-- One more turn of a loop. -/
theorem Safe.afterLoop {σ : Type} {body : σ → Prog Op Ret (σ ⊕ β)} {s : σ} {k : β → Prog Op Ret α} {w : W}
    (h : Safe M C Q (.loop body s k) w) : Safe M C Q (unroll body s k) w := h.step (.inl ⟨rfl, rfl⟩)

theorem Safe.env {p : Prog Op Ret α} {w w' : W} (h : Safe M C Q p w) (he : M.env w w') :
    Safe M C Q p w' := h.step (.inr ⟨rfl, he⟩)

theorem Safe.envs {p : Prog Op Ret α} {w w' : W} (h : Safe M C Q p w) (he : Relation.ReflTransGen M.env w w') :
    Safe M C Q p w' := by
  induction he with
  | refl => exact h
  | tail _ he ih => exact ih.env he

theorem Safe.mono {C' : Watch Op W} {Q' : α → W → Prop} {p : Prog Op Ret α} {w : W}
    (h : Safe M C Q p w) (ha : ∀ w, C.always w → C'.always w)
    (hc : ∀ o w, C.atCall o w → C'.atCall o w)
    (hq : ∀ a w, C.always w → Q a w → Q' a w) : Safe M C' Q' p w := by
  intro p' w' hr
  have hg := h p' w' hr
  cases p' with
  | ret a => exact ⟨ha _ hg.1, hq _ _ hg.1 hg.2⟩
  | call o k => exact ⟨ha _ hg.1, hc _ _ hg.2⟩
  | loop body s k => exact ha _ hg

/-- What always holds, holds at a call. -/
theorem Safe.atCalls {p : Prog Op Ret α} {w : W} (h : Safe M C Q p w) :
    Safe M ⟨C.always, fun o w => C.always w ∧ C.atCall o w⟩ Q p w := by
  intro p' w' hr
  have hg := h p' w' hr
  cases p' with
  | ret a => exact hg
  | call o k => exact ⟨hg.1, hg⟩
  | loop body s k => exact hg

/-- Only what is returned is weakened. -/
theorem Safe.weaken {Q' : α → W → Prop} {p : Prog Op Ret α} {w : W} (h : Safe M C Q p w)
    (hq : ∀ a w, C.always w → Q a w → Q' a w) : Safe M C Q' p w :=
  h.mono (fun _ h => h) (fun _ _ h => h) hq

/-- Two things that are watched at once. -/
theorem Safe.and {C' : Watch Op W} {Q' : α → W → Prop} {p : Prog Op Ret α} {w : W} (h : Safe M C Q p w)
    (h' : Safe M C' Q' p w) :
    Safe M ⟨fun w => C.always w ∧ C'.always w, fun o w => C.atCall o w ∧ C'.atCall o w⟩
      (fun a w => Q a w ∧ Q' a w) p w := by
  intro p' w' hr
  have hg := h p' w' hr
  have hg' := h' p' w' hr
  cases p' with
  | ret a => exact ⟨⟨hg.1, hg'.1⟩, hg.2, hg'.2⟩
  | call o k => exact ⟨⟨hg.1, hg'.1⟩, hg.2, hg'.2⟩
  | loop body s k => exact ⟨hg, hg'⟩

theorem Safe.ret {P : W → Prop} {a : α} {w : W} (hP : Stable M P)
    (hgood : ∀ w, P w → C.always w ∧ Q a w) (h : P w) : Safe M C Q (.ret a) w := by
  refine Safe.coind (fun p w => p = .ret a ∧ P w) ?_ ?_ ⟨rfl, h⟩
  · rintro p w ⟨rfl, hp⟩
    exact hgood w hp
  · rintro p w p' w' ⟨rfl, hp⟩ (hs | ⟨hpp, he⟩)
    · exact hs.elim
    · exact ⟨hpp, hP _ _ he hp⟩

/-- A call made with a stable assertion `P` in hand. -/
theorem Safe.call {P : W → Prop} {o : Op} {k : Ret o → Prog Op Ret α} {w : W} (hP : Stable M P)
    (hgood : ∀ w, P w → C.always w ∧ C.atCall o w)
    (hk : ∀ w r w', P w → M.sem w o r w' → Safe M C Q (k r) w') (h : P w) :
    Safe M C Q (.call o k) w := by
  refine Safe.coind (fun p w => (p = .call o k ∧ P w) ∨ Safe M C Q p w) ?_ ?_ (.inl ⟨rfl, h⟩)
  · rintro p w (⟨rfl, hp⟩ | hp)
    · exact hgood w hp
    · exact hp.good
  · rintro p w p' w' (⟨rfl, hp⟩ | hp) hs
    · rcases hs with ⟨r, hsem, hp'⟩ | ⟨hpp, he⟩
      · right
        have hp' : p' = k r := hp'
        rw [hp']
        exact hk w r w' hp hsem
      · exact .inl ⟨hpp, hP _ _ he hp⟩
    · exact .inr (hp.step hs)

theorem Safe.bind {R : β → W → Prop} {p : Prog Op Ret β} {f : β → Prog Op Ret α} {w : W}
    (h : Safe M C R p w) (hf : ∀ b w, R b w → C.always w → Safe M C Q (f b) w) :
    Safe M C Q (p.bind f) w := by
  refine Safe.coind
    (fun q w => (∃ p : Prog Op Ret β, q = p.bind f ∧ Safe M C R p w) ∨ Safe M C Q q w) ?_ ?_
    (.inl ⟨p, rfl, h⟩)
  · rintro q w (⟨p, rfl, hp⟩ | hq)
    · cases p with
      | ret b => exact (hf b w hp.good.2 hp.good.1).good
      | call o k => exact hp.good
      | loop body s k => exact hp.good
    · exact hq.good
  · rintro q w q' w' (⟨p, rfl, hp⟩ | hq) hs
    · rcases hs with hs | ⟨hqq, he⟩
      · cases p with
        | ret b =>
          right
          exact (hf b w hp.good.2 hp.good.1).step (.inl hs)
        | call o k =>
          obtain ⟨r, hsem, hq'⟩ := hs
          left
          exact ⟨k r, hq', hp.step (.inl ⟨r, hsem, rfl⟩)⟩
        | loop body s k =>
          obtain ⟨hq', hw⟩ := hs
          left
          refine ⟨unroll body s k, ?_, hp.step (.inl ⟨rfl, hw⟩)⟩
          rw [unroll_bind]
          exact hq'
      · left
        exact ⟨p, hqq, hp.env he⟩
    · exact .inr (hq.step hs)

/-- What is returned, turned into another result. -/
theorem Safe.map {R : β → W → Prop} {p : Prog Op Ret β} {g : β → α} {w : W} (h : Safe M C R p w)
    (hq : ∀ b w, R b w → Q (g b) w) : Safe M C Q (p.bind fun b => .ret (g b)) w := by
  refine Safe.coind
    (fun q w => ∃ p : Prog Op Ret β, q = (p.bind fun b => .ret (g b)) ∧ Safe M C R p w) ?_ ?_ ⟨p, rfl, h⟩
  · rintro q w ⟨p, rfl, hp⟩
    cases p with
    | ret b => exact ⟨hp.good.1, hq b w hp.good.2⟩
    | call o k => exact hp.good
    | loop body s k => exact hp.good
  · rintro q w q' w' ⟨p, rfl, hp⟩ (hs | ⟨hqq, he⟩)
    · cases p with
      | ret b => exact hs.elim
      | call o k =>
        obtain ⟨r, hsem, hq'⟩ := hs
        exact ⟨k r, hq', hp.step (.inl ⟨r, hsem, rfl⟩)⟩
      | loop body s k =>
        obtain ⟨hq', hw⟩ := hs
        refine ⟨unroll body s k, ?_, hp.step (.inl ⟨rfl, hw⟩)⟩
        rw [unroll_bind]
        exact hq'
    · exact ⟨p, hqq, hp.env he⟩

/-- A loop with the invariant `I`: a turn of the body started in it comes
back to it or leaves the loop for a safe rest. -/
theorem Safe.loop {σ : Type} {I : σ → W → Prop} {body : σ → Prog Op Ret (σ ⊕ β)}
    {k : β → Prog Op Ret α} {s : σ} {w : W} (hI : ∀ s, Stable M (I s))
    (halways : ∀ s w, I s w → C.always w)
    (hbody : ∀ s w, I s w →
      Safe M C (fun x w => match x with
        | .inl s' => I s' w
        | .inr b => Safe M C Q (k b) w) (body s) w)
    (h : I s w) : Safe M C Q (.loop body s k) w := by
  let turn : σ ⊕ β → Prog Op Ret α := fun
    | .inl s' => .loop body s' k
    | .inr b => k b
  let done : σ ⊕ β → W → Prop := fun x w => match x with
    | .inl s' => I s' w
    | .inr b => Safe M C Q (k b) w
  refine Safe.coind (fun q w => (∃ s, q = .loop body s k ∧ I s w) ∨
    (∃ p : Prog Op Ret (σ ⊕ β), q = p.bind turn ∧ Safe M C done p w) ∨ Safe M C Q q w) ?_ ?_
    (.inl ⟨s, rfl, h⟩)
  · rintro q w (⟨s, rfl, hs⟩ | ⟨p, rfl, hp⟩ | hq)
    · exact halways s w hs
    · cases p with
      | ret x =>
        cases x with
        | inl s' => exact hp.good.1
        | inr b => exact (show Safe M C Q (k b) w from hp.good.2).good
      | call o k => exact hp.good
      | loop body s k => exact hp.good
    · exact hq.good
  · rintro q w q' w' (⟨s, rfl, hs⟩ | ⟨p, rfl, hp⟩ | hq) hstep
    · rcases hstep with ⟨hq', hw⟩ | ⟨hqq, he⟩
      · right; left
        have hw : w' = w := hw
        subst hw
        exact ⟨body s, hq', hbody s _ hs⟩
      · exact .inl ⟨s, hqq, hI s _ _ he hs⟩
    · rcases hstep with hstep | ⟨hqq, he⟩
      · cases p with
        | ret x =>
          cases x with
          | inl s' =>
            obtain ⟨hq', hw⟩ := hstep
            right; left
            have hw : w' = w := hw
            subst hw
            exact ⟨body s', hq', hbody s' _ hp.good.2⟩
          | inr b =>
            right; right
            exact (show Safe M C Q (k b) w from hp.good.2).step (.inl hstep)
        | call o k =>
          obtain ⟨r, hsem, hq'⟩ := hstep
          right; left
          exact ⟨k r, hq', hp.step (.inl ⟨r, hsem, rfl⟩)⟩
        | loop body s k =>
          obtain ⟨hq', hw⟩ := hstep
          right; left
          refine ⟨unroll body s k, ?_, hp.step (.inl ⟨rfl, hw⟩)⟩
          rw [unroll_bind]
          exact hq'
      · right; left
        exact ⟨p, hqq, hp.env he⟩
    · exact .inr (.inr (hq.step hstep))

/-! ### Runs -/

theorem Safe.reach {p p' : Prog Op Ret α} {w w' : W} (h : Safe M C Q p w) (hr : Reach M (p, w) (p', w')) :
    Safe M C Q p' w' := fun _ _ hr' => h _ _ (hr.trans hr')

/-- A run that begins with a call. -/
theorem Reach.call {o : Op} {k : Ret o → Prog Op Ret α} {w v : W} {c : Prog Op Ret α × W} (r : Ret o)
    (hs : M.sem w o r v) (h : Reach M (k r, v) c) : Reach M (.call o k, w) c :=
  .head (.inl ⟨r, hs, rfl⟩) h

theorem Reach.bind {p p' : Prog Op Ret β} {w w' : W} (h : Reach M (p, w) (p', w')) (f : β → Prog Op Ret α) :
    Reach M (p.bind f, w) (p'.bind f, w') := by
  refine h.lift (fun c : Prog Op Ret β × W => (c.1.bind f, c.2)) ?_
  rintro ⟨p, w⟩ ⟨p', w'⟩ (hs | ⟨hpp, he⟩)
  · refine .inl ?_
    cases p with
    | ret b => exact hs.elim
    | call o k =>
      obtain ⟨r, hsem, hp⟩ := hs
      exact ⟨r, hsem, congrArg (·.bind f) hp⟩
    | loop body s k =>
      obtain ⟨hp, hw⟩ := hs
      have hp : p' = unroll body s k := hp
      exact ⟨by rw [hp]; exact unroll_bind body s k f, hw⟩
  · exact .inr ⟨congrArg (·.bind f) hpp, he⟩

/-- A turn of a loop. -/
theorem Reach.turn {σ : Type} {body : σ → Prog Op Ret (σ ⊕ β)} {s : σ} {k : β → Prog Op Ret α}
    {p : Prog Op Ret (σ ⊕ β)} {w w' : W} (h : Reach M (body s, w) (p, w')) :
    Reach M (.loop body s k, w) (p.bind fun
      | .inl s' => .loop body s' k
      | .inr b => k b, w') := by
  have hfirst : Step M (.loop body s k, w) (unroll body s k, w) := .inl ⟨rfl, rfl⟩
  exact (Reach.bind h _).head hfirst

theorem Reach.again {σ : Type} {body : σ → Prog Op Ret (σ ⊕ β)} {s r : σ} {k : β → Prog Op Ret α} {w v : W}
    (h : Reach M (body s, w) (.ret (.inl r), v)) : Reach M (.loop body s k, w) (.loop body r k, v) :=
  Reach.turn h

theorem Reach.leave {σ : Type} {body : σ → Prog Op Ret (σ ⊕ β)} {s : σ} {b : β} {k : β → Prog Op Ret α} {w v : W}
    (h : Reach M (body s, w) (.ret (.inr b), v)) : Reach M (.loop body s k, w) (k b, v) :=
  Reach.turn h

/-- A loop with nothing after it. -/
theorem Safe.iter {σ : Type} {I : σ → W → Prop} {body : σ → Prog Op Ret (σ ⊕ α)} {s : σ} {w : W}
    (hI : ∀ s, Stable M (I s)) (hQ : ∀ a, Stable M (Q a)) (halways : ∀ s w, I s w → C.always w)
    (hqalways : ∀ a w, Q a w → C.always w) (hbody : ∀ s w, I s w → Safe M C (Sum.elim I Q) (body s) w)
    (h : I s w) : Safe M C Q (.iter body s) w := by
  refine Safe.loop hI halways (fun s w hs => ?_) h
  refine (hbody s w hs).weaken fun x w _ hx => ?_
  cases x with
  | inl s' => exact hx
  | inr a => exact Safe.ret (hQ a) (fun w hw => ⟨hqalways a w hw, hw⟩) hx

/-- A fold, with what holds between its turns. -/
theorem Safe.foldlM {δ σ : Type} {I : σ → W → Prop} {f : σ → δ → Prog Op Ret σ} (hI : ∀ s, Stable M (I s))
    (halways : ∀ s w, I s w → C.always w)
    (hf : ∀ s d w, I s w → Safe M C I (f s d) w) : ∀ (ds : List δ) {s : σ} {w : W}, I s w →
    Safe M C I (ds.foldlM f s) w
  | [], s, _, h => Safe.ret (hI s) (fun w hw => ⟨halways s w hw, hw⟩) h
  | d :: ds, s, w, h => by
    rw [List.foldlM_cons]
    exact (hf s d w h).bind fun s' w' hs' _ => Safe.foldlM hI halways hf ds hs'

/-- The program makes no calls but those of `A`. -/
def Only (A : Op → Prop) : {α : Type} → Prog Op Ret α → Prop
  | _, .ret _ => True
  | _, .call o k => A o ∧ ∀ r, (k r).Only A
  | _, .loop body _ k => (∀ s, (body s).Only A) ∧ ∀ b, (k b).Only A

theorem Only.bind {A : Op → Prop} {p : Prog Op Ret β} {f : β → Prog Op Ret α} (hp : p.Only A)
    (hf : ∀ b, (f b).Only A) : (p.bind f).Only A := by
  induction p generalizing α with
  | ret b => exact hf b
  | call o k ih => exact ⟨hp.1, fun r => ih r (hp.2 r) hf⟩
  | loop body s k _ ih => exact ⟨hp.1, fun b => ih b (hp.2 b) hf⟩

theorem Only.mono {A B : Op → Prop} (hAB : ∀ o, A o → B o) {p : Prog Op Ret α} (hp : p.Only A) : p.Only B := by
  induction p with
  | ret a => trivial
  | call o k ih => exact ⟨hAB o hp.1, fun r => ih r (hp.2 r)⟩
  | loop body s k ihbody ihk => exact ⟨fun s => ihbody s (hp.1 s), fun b => ihk b (hp.2 b)⟩

theorem Only.link {Op' : Type} {Ret' : Op' → Type} {A : Op' → Prop} {h : (o : Op) → Prog Op' Ret' (Ret o)}
    (hh : ∀ o, (h o).Only A) (p : Prog Op Ret α) : (p.link h).Only A := by
  induction p with
  | ret a => trivial
  | call o k ih => exact (hh o).bind ih
  | loop body s k ihbody ihk => exact ⟨ihbody, ihk⟩

theorem Only.linked {Op' : Type} {Ret' : Op' → Type} {A : Op → Prop} {B : Op' → Prop}
    {h : (o : Op) → Prog Op' Ret' (Ret o)} (hh : ∀ o, A o → (h o).Only B) {p : Prog Op Ret α} (hp : p.Only A) :
    (p.link h).Only B := by
  induction p with
  | ret a => trivial
  | call o k ih => exact (hh o hp.1).bind fun r => ih r (hp.2 r)
  | loop body s k ihbody ihk => exact ⟨fun s => ihbody s (hp.1 s), fun b => ihk b (hp.2 b)⟩

theorem Only.foldlM {δ σ : Type} {A : Op → Prop} {f : σ → δ → Prog Op Ret σ} (hf : ∀ s d, (f s d).Only A) :
    ∀ (ds : List δ) (s : σ), (ds.foldlM f s).Only A
  | [], _ => trivial
  | d :: ds, s => by
    rw [List.foldlM_cons]
    exact (hf s d).bind fun s => Only.foldlM hf ds s

/-- What the calls of `A` and the others leave true stays true. -/
theorem Only.safe {A : Op → Prop} {P : W → Prop} (hP : Stable M P) (halways : ∀ w, P w → C.always w)
    (hcall : ∀ o w, A o → P w → C.atCall o w) (hsem : ∀ o w r w', A o → P w → M.sem w o r w' → P w')
    {p : Prog Op Ret α} {w : W} (hp : p.Only A) (h : P w) : Safe M C (fun _ w => P w) p w := by
  induction p generalizing w with
  | ret a => exact Safe.ret hP (fun w hw => ⟨halways w hw, hw⟩) h
  | call o k ih =>
    exact Safe.call hP (fun w hw => ⟨halways w hw, hcall o w hp.1 hw⟩)
      (fun w r w' hw hs => ih r (hp.2 r) (hsem o w r w' hp.1 hw hs)) h
  | loop body s k ihbody ihk =>
    refine Safe.loop (I := fun _ w => P w) (fun _ => hP) (fun _ w hw => halways w hw) (fun s w hw => ?_) h
    refine (ihbody s (hp.1 s) hw).weaken fun x w _ hw => ?_
    cases x with
    | inl s' => exact hw
    | inr b => exact ihk b (hp.2 b) hw

/-- What every call and every step of the others keeps is kept. -/
theorem Safe.invariant {I : W → Prop} (henv : ∀ w w', C.always w → I w → M.env w w' → I w')
    (hsem : ∀ w o r w', C.always w → C.atCall o w → I w → M.sem w o r w' → I w') {p : Prog Op Ret α} {w : W}
    (h : Safe M C Q p w) (hI : I w) : Safe M ⟨fun w => C.always w ∧ I w, C.atCall⟩ Q p w := by
  refine Safe.coind (fun p w => Safe M C Q p w ∧ I w) ?_ ?_ ⟨h, hI⟩
  · rintro p w ⟨hp, hi⟩
    cases p with
    | ret a => exact ⟨⟨hp.good.1, hi⟩, hp.good.2⟩
    | call o k => exact ⟨⟨hp.good.1, hi⟩, hp.good.2⟩
    | loop body s k => exact ⟨hp.good, hi⟩
  · rintro p w p' w' ⟨hp, hi⟩ hs
    refine ⟨hp.step hs, ?_⟩
    rcases hs with hs | ⟨-, he⟩
    · cases p with
      | ret a => exact hs.elim
      | call o k =>
        obtain ⟨r, hr, -⟩ := hs
        exact hsem w o r w' hp.good.1 hp.good.2 hi hr
      | loop body s k =>
        obtain ⟨-, hw⟩ := hs
        rwa [show w' = w from hw]
    · exact henv w w' hp.good.always hi he

section Project

variable {V : Type v} {N : World Op Ret V} {D : Watch Op V} {R : α → V → Prop}

/-- A program that is safe where only the part `π` of the state is looked at. -/
theorem Safe.project (π : W → V) (henv : ∀ w w', M.env w w' → π w' = π w ∨ N.env (π w) (π w'))
    (hsem : ∀ w o r w', M.sem w o r w' → N.sem (π w) o r (π w')) {p : Prog Op Ret α} {w : W}
    (h : Safe N D R p (π w)) :
    Safe M ⟨fun w => D.always (π w), fun o w => D.atCall o (π w)⟩ (fun a w => R a (π w)) p w := by
  refine Safe.coind (fun p w => Safe N D R p (π w)) ?_ ?_ h
  · intro p w hp
    cases p with
    | ret a => exact hp.good
    | call o k => exact hp.good
    | loop body s k => exact hp.good
  · rintro p w p' w' hp (hs | ⟨hpp, he⟩)
    · refine hp.step (.inl ?_)
      cases p with
      | ret a => exact hs.elim
      | call o k =>
        obtain ⟨r, hr, hp'⟩ := hs
        exact ⟨r, hsem _ _ _ _ hr, hp'⟩
      | loop body s k =>
        obtain ⟨hp', hw⟩ := hs
        exact ⟨hp', congrArg π hw⟩
    · have hpp : p' = p := hpp
      subst hpp
      rcases henv w w' he with he | he
      · rwa [he]
      · exact hp.env he

end Project

section Link

variable {Op' : Type} {Ret' : Op' → Type} {M' : World Op' Ret' W} {C' : Watch Op' W}
  {h : (o : Op) → Prog Op' Ret' (Ret o)}

/-- A linked program between the calls of the program, or inside one. -/
inductive Linked (M : World Op Ret W) (M' : World Op' Ret' W) (C : Watch Op W) (C' : Watch Op' W)
    (Q : α → W → Prop) (h : (o : Op) → Prog Op' Ret' (Ret o)) : Prog Op' Ret' α → W → Prop
  | outside {p : Prog Op Ret α} {w : W} (hp : Safe M C Q p w) : Linked M M' C C' Q h (p.link h) w
  | inside {o : Op} {k : Ret o → Prog Op Ret α} {q : Prog Op' Ret' (Ret o)} {w : W}
      (hq : Safe M' C' (fun r w' => Safe M C Q (k r) w') q w) :
      Linked M M' C C' Q h (q.bind fun r => (k r).link h) w

/-- A good configuration with its steps in `Linked`. -/
def LinkedStep (M : World Op Ret W) (M' : World Op' Ret' W) (C : Watch Op W) (C' : Watch Op' W)
    (Q : α → W → Prop) (h : (o : Op) → Prog Op' Ret' (Ret o)) (q : Prog Op' Ret' α) (w : W) : Prop :=
  Good C' Q q w ∧ ∀ q' w', Step M' (q, w) (q', w') → Linked M M' C C' Q h q' w'

theorem LinkedStep.inside {o : Op} {k : Ret o → Prog Op Ret α} {q : Prog Op' Ret' (Ret o)} {w : W}
    (hk : ∀ r w, Safe M C Q (k r) w → LinkedStep M M' C C' Q h ((k r).link h) w)
    (hq : Safe M' C' (fun r w' => Safe M C Q (k r) w') q w) :
    LinkedStep M M' C C' Q h (q.bind fun r => (k r).link h) w := by
  cases q with
  | ret r => exact hk r w hq.good.2
  | call o' k' =>
    refine ⟨hq.good, ?_⟩
    rintro q' w' (⟨r, hsem, rfl⟩ | ⟨rfl, he⟩)
    · exact .inside (hq.step (.inl ⟨r, hsem, rfl⟩))
    · exact Linked.inside (q := .call o' k') (hq.env he)
  | loop body s k' =>
    refine ⟨hq.good, ?_⟩
    rintro q' w' (⟨rfl, hw⟩ | ⟨rfl, he⟩)
    · rw [← unroll_bind]
      exact .inside (hq.step (.inl ⟨rfl, hw⟩))
    · exact Linked.inside (q := .loop body s k') (hq.env he)

theorem LinkedStep.outside (henv : ∀ w w', M'.env w w' → M.env w w') (ha : ∀ w, C.always w → C'.always w)
    (hh : ∀ o w, (∀ w', Relation.ReflTransGen M.env w w' → C.always w' ∧ C.atCall o w') →
      (∀ r w', Happens M w o r w' → C.always w') → Safe M' C' (Happens M w o) (h o) w)
    (p : Prog Op Ret α) : ∀ (Q : α → W → Prop) (w : W), Safe M C Q p w →
      LinkedStep M M' C C' Q h (p.link h) w := by
  induction p with
  | ret a =>
    refine fun Q w hp => ⟨⟨ha _ hp.good.1, hp.good.2⟩, ?_⟩
    rintro q' w' (hs | ⟨rfl, he⟩)
    · exact hs.elim
    · exact Linked.outside (p := .ret a) (hp.env (henv _ _ he))
  | call o k ih =>
    refine fun Q w hp => LinkedStep.inside (fun r w hr => ih r Q w hr) ?_
    have hafter : ∀ r w', Happens M w o r w' → Safe M C Q (k r) w' := by
      rintro r w' ⟨w₁, w₂, he₁, hs, he₂⟩
      exact ((hp.envs he₁).step (.inl ⟨r, hs, rfl⟩)).envs he₂
    have hq := hh o w (fun w' he => (hp.envs he).good) fun r w' hs => (hafter r w' hs).good.always
    exact hq.weaken fun r w' _ hs => hafter r w' hs
  | loop body s k _ _ =>
    refine fun Q w hp => ⟨ha _ hp.good, ?_⟩
    rintro q' w' (⟨hq, hw⟩ | ⟨rfl, he⟩)
    · have hlink : q' = (unroll body s k).link h := by
        refine Eq.trans hq ?_
        rw [unroll, unroll, link_bind]
        congr 1
        funext x
        cases x <;> rfl
      rw [hlink]
      exact .outside (hp.step (.inl ⟨rfl, hw⟩))
    · exact Linked.outside (p := .loop body s k) (hp.env (henv _ _ he))

/-- The call of another signature that does what `o` does. -/
theorem Safe.happens (M' : World Op' Ret' W) {o : Op} (o' : Op') (g : Ret' o' → Ret o)
    (henv : ∀ w w', M'.env w w' → M.env w w')
    (hsem : ∀ w r w', M'.sem w o' r w' → M.sem w o (g r) w') {w : W}
    (hbefore : ∀ w', Relation.ReflTransGen M.env w w' → C'.always w' ∧ C'.atCall o' w')
    (hafter : ∀ r w', Happens M w o r w' → C'.always w') :
    Safe M' C' (Happens M w o) (.call o' fun r => .ret (g r)) w := by
  refine Safe.call (P := Relation.ReflTransGen M.env w) (fun _ _ he h => h.tail (henv _ _ he)) hbefore ?_ .refl
  intro w₁ r w₂ h₁ hs
  refine Safe.ret (P := Relation.ReflTransGen M.env w₂) (fun _ _ he h => h.tail (henv _ _ he)) ?_ .refl
  intro w' h₂
  have hall : Happens M w o (g r) w' := ⟨w₁, w₂, h₁, hsem _ _ _ hs, h₂⟩
  exact ⟨hafter _ _ hall, hall⟩

/-- A safe program in a larger one, where every call is replaced by a program
that is safe and does what the call does. -/
theorem Safe.link (henv : ∀ w w', M'.env w w' → M.env w w') (ha : ∀ w, C.always w → C'.always w)
    (hh : ∀ o w, (∀ w', Relation.ReflTransGen M.env w w' → C.always w' ∧ C.atCall o w') →
      (∀ r w', Happens M w o r w' → C.always w') → Safe M' C' (Happens M w o) (h o) w)
    {p : Prog Op Ret α} {w : W} (hp : Safe M C Q p w) : Safe M' C' Q (p.link h) w := by
  have hall : ∀ q w, Linked M M' C C' Q h q w → LinkedStep M M' C C' Q h q w := by
    intro q w hq
    cases hq with
    | outside hp => exact LinkedStep.outside henv ha hh _ Q w hp
    | inside hq => exact LinkedStep.inside (fun r w hr => LinkedStep.outside henv ha hh _ Q w hr) hq
  exact Safe.coind (Linked M M' C C' Q h) (fun q w hq => (hall q w hq).1)
    (fun q w q' w' hq hs => (hall q w hq).2 q' w' hs) (.outside hp)

/-- A safe program whose calls are named otherwise. -/
theorem Safe.embed (f : Op → Op') (g : (o : Op) → Ret' (f o) → Ret o) (henv : ∀ w w', M'.env w w' → M.env w w')
    (hsem : ∀ o w r w', M'.sem w (f o) r w' → M.sem w o (g o r) w') (ha : ∀ w, C.always w → C'.always w)
    (hc : ∀ o w, C.atCall o w → C'.atCall (f o) w) {p : Prog Op Ret α} {w : W} (hp : Safe M C Q p w) :
    Safe M' C' Q (p.link fun o => .call (f o) fun r => .ret (g o r)) w := by
  refine Safe.link henv ha (fun o w hbefore hafter => ?_) hp
  refine Safe.happens M' (f o) (g o) henv (fun w r w' => hsem o w r w') (fun w' he => ?_) fun r w' hs => ?_
  · obtain ⟨halways, hcall⟩ := hbefore w' he
    exact ⟨ha w' halways, hc o w' hcall⟩
  · exact ha w' (hafter r w' hs)

end Link

end Safe

/-! ### Nobody else moves -/

/-- The world whose calls are those of `sem` and in which only the program
moves. -/
def World.alone (sem : W → (o : Op) → Ret o → W → Prop) : World Op Ret W := ⟨sem, fun _ _ => False⟩

section Alone

variable {sem : W → (o : Op) → Ret o → W → Prop} {C : Watch Op W} {Q : α → W → Prop}

theorem stable_alone (P : W → Prop) : Stable (World.alone sem) P := fun _ _ h => h.elim

theorem Safe.ret_alone {a : α} {w : W} (ha : C.always w) (hq : Q a w) :
    Safe (World.alone sem) C Q (.ret a) w :=
  Safe.ret (P := fun w' => w' = w) (stable_alone _) (by rintro _ rfl; exact ⟨ha, hq⟩) rfl

theorem Safe.call_alone {o : Op} {k : Ret o → Prog Op Ret α} {w : W} (ha : C.always w)
    (hc : C.atCall o w) (hk : ∀ r w', sem w o r w' → Safe (World.alone sem) C Q (k r) w') :
    Safe (World.alone sem) C Q (.call o k) w :=
  Safe.call (P := fun w' => w' = w) (stable_alone _) (by rintro _ rfl; exact ⟨ha, hc⟩)
    (by rintro _ r w' rfl hs; exact hk r w' hs) rfl

theorem Safe.loop_alone {σ : Type} {body : σ → Prog Op Ret (σ ⊕ β)} {s : σ} {k : β → Prog Op Ret α} {w : W}
    (ha : C.always w) (h : Safe (World.alone sem) C Q (unroll body s k) w) :
    Safe (World.alone sem) C Q (.loop body s k) w := by
  refine Safe.coind (fun p w' => (p = .loop body s k ∧ w' = w) ∨ Safe (World.alone sem) C Q p w') ?_ ?_ (.inl ⟨rfl, rfl⟩)
  · rintro p w' (⟨rfl, rfl⟩ | hp)
    · exact ha
    · exact hp.good
  · rintro p w' p' w'' (⟨rfl, rfl⟩ | hp) hs
    · rcases hs with ⟨hp', hw⟩ | ⟨-, he⟩
      · have hp' : p' = unroll body s k := hp'
        have hw : w'' = w' := hw
        rw [hp', hw]
        exact .inr h
      · exact he.elim
    · exact .inr (hp.step hs)

end Alone

/-- Every run of `p` from `w` ends, never gets stuck, and ends with a result
and a state as `Q` wants them. -/
inductive Total (M : World Op Ret W) (Q : α → W → Prop) : Prog Op Ret α → W → Prop
  | ret {a : α} {w : W} (h : Q a w) : Total M Q (.ret a) w
  | call {o : Op} {k : Ret o → Prog Op Ret α} {w : W} (hr : ∃ r w', M.sem w o r w')
      (hk : ∀ r w', M.sem w o r w' → Total M Q (k r) w') : Total M Q (.call o k) w
  | loop {β σ : Type} {body : σ → Prog Op Ret (σ ⊕ β)} {s : σ} {k : β → Prog Op Ret α} {w : W}
      (h : Total M Q (unroll body s k) w) : Total M Q (.loop body s k) w

section Total

variable {M : World Op Ret W} {Q : α → W → Prop}

theorem Total.mono {Q' : α → W → Prop} {p : Prog Op Ret α} {w : W} (h : Total M Q p w)
    (hq : ∀ a w, Q a w → Q' a w) : Total M Q' p w := by
  induction h with
  | ret h => exact .ret (hq _ _ h)
  | call hr _ ih => exact .call hr ih
  | loop _ ih => exact .loop ih

theorem Total.bind {R : β → W → Prop} {p : Prog Op Ret β} {f : β → Prog Op Ret α} {w : W}
    (h : Total M R p w) (hf : ∀ b w, R b w → Total M Q (f b) w) : Total M Q (p.bind f) w := by
  induction h with
  | ret h => exact hf _ _ h
  | call hr _ ih => exact .call hr ih
  | loop _ ih =>
    refine .loop ?_
    rwa [unroll_bind] at ih

/-- A total program keeps what it promises in every run. -/
theorem Total.safe (halone : ∀ w w', ¬ M.env w w') {p : Prog Op Ret α} {w : W}
    (h : Total M Q p w) : Safe M ⟨fun _ => True, fun _ _ => True⟩ Q p w := by
  refine Safe.coind (fun p w => Total M Q p w) ?_ ?_ h
  · intro p w h
    cases h with
    | ret h => exact ⟨trivial, h⟩
    | call hr hk => exact ⟨trivial, trivial⟩
    | loop h => exact trivial
  · rintro p w p' w' h (hs | ⟨-, he⟩)
    · cases h with
      | ret h => exact hs.elim
      | call hr hk =>
        obtain ⟨r, hsem, hp⟩ := hs
        simp only at hp hsem
        rw [hp]
        exact hk r w' hsem
      | loop h =>
        obtain ⟨hp, hw⟩ := hs
        simp only at hp hw
        rw [hp, hw]
        exact h
    · exact (halone _ _ he).elim

/-- A total program has a run that returns. -/
theorem Total.returns {p : Prog Op Ret α} {w : W} (h : Total M Q p w) :
    ∃ a w', Reach M (p, w) (.ret a, w') ∧ Q a w' := by
  induction h with
  | ret h => exact ⟨_, _, .refl, h⟩
  | call hr _ ih =>
    obtain ⟨r, w', hs⟩ := hr
    obtain ⟨a, w'', hreach, hq⟩ := ih r w' hs
    exact ⟨a, w'', .head (.inl ⟨r, hs, rfl⟩) hreach, hq⟩
  | loop _ ih =>
    obtain ⟨a, w'', hreach, hq⟩ := ih
    exact ⟨a, w'', Relation.ReflTransGen.head (b := (unroll _ _ _, _)) (.inl ⟨rfl, rfl⟩) hreach, hq⟩

/-- What every result says of `P` decides it. -/
theorem Total.decides (halone : ∀ w w', ¬ M.env w w') {P : α → W → Prop} {D : Prop} {p : Prog Op Ret α} {w : W}
    (h : Total M Q p w) (hQ : ∀ a w, Q a w → (P a w ↔ D)) : Total M P p w ↔ D := by
  constructor
  · intro hP
    obtain ⟨a, w', hreach, ha⟩ := h.returns
    exact (hQ a w' ha).mp (hP.safe halone _ _ hreach).2
  · intro hD
    exact h.mono fun a w' ha => (hQ a w' ha).mpr hD

/-- A program runs in a second world as it does in the first. -/
theorem Total.simulate {V : Type} {N : World Op Ret V} {R : W → V → Prop}
    (hsome : ∀ w v o r w', R w v → M.sem w o r w' → ∃ r v', N.sem v o r v')
    (hback : ∀ w v o s u r v', R w v → M.sem w o s u → N.sem v o r v' → ∃ w', M.sem w o r w' ∧ R w' v')
    {p : Prog Op Ret α} {w : W} (h : Total M Q p w) :
    ∀ {v : V}, R w v → Total N (fun a v => ∃ w, R w v ∧ Q a w) p v := by
  induction h with
  | ret h => exact fun hv => .ret ⟨_, hv, h⟩
  | call hr _ ih =>
    intro v hv
    obtain ⟨s, u, hs⟩ := hr
    refine .call (hsome _ _ _ _ _ hv hs) fun r v' hs' => ?_
    obtain ⟨w', hr', hv'⟩ := hback _ _ _ _ _ _ _ hv hs hs'
    exact ih r w' hr' hv'
  | loop _ ih => exact fun hv => .loop (ih hv)

end Total

end Prog
