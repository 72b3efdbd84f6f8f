/-
# The startup gate

No child runs its command before its job is in the job table and has the
terminal it is to have. The gate is a pipe that every child inherits; the
parent writes one byte for each child, and a child goes on with the byte it has
read.

The bytes in the pipe and the bytes the children have taken are together those
that the parent has written (`GateBytes`), whatever the order of the steps and
whoever dies. The parent writes none before the job is ready and none after a
failure (`LogOk`), and a child takes one at most, so that once all are written
one is left for everyone who waits.

Key definitions: `Started`, `GateBytes`, `PastGate`, `Released`, `GateHolds`,
`WaitsForeground`.
Key theorems: `executor_started`, `executor_gate`,
`startupGateRelease_bytes`, `startup_gate`.
-/
import Mathlib.Algebra.Order.BigOperators.Group.List
import DeviceRuntime.StartupChild

universe v

namespace DeviceRuntime

open Prog

/-! ### The children of the log -/

/-- The children are those that were forked, in this order, and each is safe by
itself. -/
structure Started (A : SignalRule) (C : ℕ → Watch ChildCall ChildView) (w : ExecWorld) : Prop where
  children : Children A C w
  pids : w.children.map ChildProc.pid = forkedPids w.parent.log

section Started

variable {A : SignalRule} {B : ArrivalRule} {C : ℕ → Watch ChildCall ChildView} {w w' : ExecWorld}

theorem StartStep.parent (h : StartStep B w w') : w'.parent = w.parent := by
  cases h <;> rfl

/-- A member of the list is replaced by one that looks the same. -/
theorem map_set_same {α : Type v} {β : Type} {f : α → β} : ∀ {l : List α} {i : ℕ} {a b : α},
    l[i]? = some a → f b = f a → (l.set i b).map f = l.map f
  | [], _, _, _, h, _ => by simp at h
  | x :: xs, 0, a, b, h, hf => by
    obtain rfl : x = a := by simpa using h
    simp [hf]
  | x :: xs, i + 1, a, b, h, hf => by
    have hi : xs[i]? = some a := by simpa using h
    simp [map_set_same hi hf]

theorem sum_map_set {α : Type v} (f : α → ℕ) : ∀ {l : List α} {i : ℕ} {a : α} (b : α), l[i]? = some a →
    ((l.set i b).map f).sum + f a = (l.map f).sum + f b
  | [], _, _, _, h => by simp at h
  | x :: xs, 0, a, b, h => by
    obtain rfl : x = a := by simpa using h
    simp
    omega
  | x :: xs, i + 1, a, b, h => by
    have hi : xs[i]? = some a := by simpa using h
    have ih := sum_map_set f b hi
    simp only [List.set_cons_succ, List.map_cons, List.sum_cons]
    omega

/-- What a step of the children is: one of them is replaced. -/
theorem StartStep.replaced (h : StartStep B w w') : ∃ i c c', w.children[i]? = some c ∧
    w'.children = w.children.set i c' ∧ c'.pid = c.pid := by
  cases h with
  | @run i c prog s hc => exact ⟨i, c, _, hc, rfl, rfl⟩
  | @exit i c hc => exact ⟨i, c, _, hc, rfl, rfl⟩
  | @signal i c sig hc => exact ⟨i, c, _, hc, rfl, rfl⟩

/-- A child is forked as soon as it is in the log. -/
theorem pids_of_call {o : ExecCall} {r : o.Ret} (h : w.children.map ChildProc.pid = forkedPids w.parent.log)
    (hs : execSem w o r w') : w'.children.map ChildProc.pid = forkedPids w'.parent.log := by
  obtain ⟨hparent, heffect⟩ := hs
  by_cases hfork : ∃ child, o = .fork child
  · obtain ⟨child, rfl⟩ := hfork
    have heffect : w'.pipes = w.pipes ∧ w'.children =
      if 0 < r.ret then w.children ++ [child.start r.ret.toNat w.parent.fds] else w.children := heffect
    obtain ⟨-, heffect⟩ := heffect
    rcases hparent with ⟨hret, -, hlog⟩ | ⟨hret, hlog⟩
    · rw [if_pos hret] at heffect
      rw [heffect, hlog, ParentState.extend_log, List.map_append, forkedPids_append, h]
      rfl
    · rw [if_neg (by omega)] at heffect
      rw [heffect, hlog, ParentState.extend_log, forkedPids_append, h]
      exact (List.append_nil _).symm
  · have hnot : ∀ child, o ≠ .fork child := fun child heq => hfork ⟨child, heq⟩
    obtain ⟨es, hlog, hforks, -⟩ := parentSem_events hparent
    have hsame : w'.children = w.children := by
      rcases children_of_call heffect with hsame | ⟨child, -, ho, -⟩
      · exact hsame
      · exact absurd ho (hnot child)
    rw [hsame, hlog, forkedPids_append, hforks hnot, List.append_nil, h]

/-- The executor among its children: what the parent does alone it does here,
and every child is safe if it is safe by itself as it is forked. -/
theorem executor_started (hA : ∀ w c sig, B w c sig → A (w.view c) sig) (chain : List Command) (ctx : ExecContext)
    (e : ExecEntry)
    (hfork : ∀ child pid (s : ParentState) pipes atEnd, ForkOk chain e s child →
      Safe (childWorld A) (C (forkedPids s.log).length) (fun _ _ => True) (child.program pid)
        ⟨s.fds, [], inheritedSignals, pipes, atEnd⟩) :
    Safe (startup B)
      ⟨fun w => (parentWatch chain ctx e).always w.parent ∧ Started A C w,
        fun o w => (parentWatch chain ctx e).atCall o w.parent⟩
      (fun ret w => Returned chain e ret w.parent) (executeCommand chain ctx) e.world := by
  have hparent := (executeCommand_safe chain ctx e).project (M := startup B) ExecWorld.parent
    (w := e.world) (fun w w' h => .inl h.parent) fun w o r w' h => h.1
  refine hparent.invariant ?_ ?_ ?_
  · intro w w' _ h hstep
    refine ⟨h.children.step hA hstep, ?_⟩
    obtain ⟨i, c, c', hc, hset, hpid⟩ := hstep.replaced
    rw [hset, map_set_same hc hpid, hstep.parent]
    exact h.pids
  · intro w o r w' _ hcall h hs
    refine ⟨h.children.call hs.2 ?_, pids_of_call h.pids hs⟩
    intro child pid pipes atEnd ho
    have hcall : (parentWatch chain ctx e).atCall (.fork child) w.parent := ho ▸ hcall
    have hlen : w.children.length = (forkedPids w.parent.log).length := by
      rw [← h.pids, List.length_map]
    rw [hlen]
    exact hfork child pid w.parent pipes atEnd hcall
  · refine ⟨?_, rfl⟩
    intro i c hc
    have hnone : ([] : List ChildProc)[i]? = some c := hc
    simp at hnone

end Started

/-! ### A child at the gate -/

theorem pipe_ends_plain {pipefd : ℤ × ℤ} {n m : ℕ} {fd : ℤ} {x : ℤ × Descriptor}
    (hx : x ∈ pipeEnds pipefd n ++ fdList fd (.readEnd m)) :
    ∃ k, x.2 = .file k ∨ x.2 = .readEnd k ∨ x.2 = .writeEnd k := by
  unfold pipeEnds fdList at hx
  rcases List.mem_append.mp hx with hx | hx
  · rcases List.mem_append.mp hx with hx | hx
    · split_ifs at hx
      · exact ⟨n, .inr (.inl (by simp_all))⟩
      · simp at hx
    · split_ifs at hx
      · exact ⟨n, .inr (.inr (by simp_all))⟩
      · simp at hx
  · split_ifs at hx
    · exact ⟨m, .inr (.inl (by simp_all))⟩
    · simp at hx

/-- The gate comes first among what a child of a pipeline was forked with. -/
theorem gate_first (gate pipefd : ℤ × ℤ) (pipeFd : ℤ) (n m : ℕ) :
    (pipeEnds pipefd n ++ (fdList pipeFd (.readEnd m) ++ gateEnds gate)).Perm
      (gateEnds gate ++ (pipeEnds pipefd n ++ fdList pipeFd (.readEnd m))) := by
  rw [← List.append_assoc]
  exact List.perm_append_comm

/-- Every child that the parent forks reads at most the one byte of the gate,
and gets past it with that byte only. -/
theorem forkedChild_gate {A : SignalRule} {chain : List Command} {e : ExecEntry} {s : ParentState} {child : ForkedChild}
    (h : ForkOk chain e s child) (pid : ℕ) (pipes : ℕ → List Byte) (atEnd : ℕ → Prop) :
    Safe (childWorld A) (childWatch fun _ => True) (fun _ _ => True) (child.program pid)
      ⟨s.fds, [], inheritedSignals, pipes, atEnd⟩ := by
  cases child with
  | single com gate =>
    obtain ⟨-, -, howns⟩ := h
    have hholds : Holds (fun _ => True) (gateEnds gate ++ []) s.fds :=
      howns.holds [] List.nodup_nil (fun x hx => absurd hx List.not_mem_nil) fun _ _ _ => trivial
    refine Safe.bind (childPrepareBeforeGate_safe 0 (fun x hx => absurd hx List.not_mem_nil) rfl hholds) ?_
    intro _ s hs _
    exact (past_safe (childRun_past com) hs.1).weaken fun _ _ _ _ => trivial
  | stage current next gate pgid pipeFd pipefd =>
    obtain ⟨-, -, -, -, -, howns⟩ := h
    have hgate := howns.perm (gate_first gate pipefd pipeFd _ _)
    have hholds := hgate.holds (R := fun _ => True) [] List.nodup_nil
      (fun x hx => absurd hx List.not_mem_nil) fun _ _ _ => trivial
    rw [List.append_nil] at hholds
    refine Safe.bind (childPrepareBeforeGate_safe _ (fun x hx => pipe_ends_plain hx) rfl hholds) ?_
    intro _ s hs _
    exact (past_safe (stageRest_past current next pipeFd pipefd) hs.1).weaken fun _ _ _ _ => trivial

/-! ### The bytes of the gate -/

/-- The bytes in the gate and those that were taken are the bytes written. -/
structure GateBytes (w : ExecWorld) : Prop where
  left : ∀ b ∈ w.pipes 0, b = 'G'.toUInt8
  took : ∀ c ∈ w.children, ∀ b ∈ c.took, b = 'G'.toUInt8
  total : (w.pipes 0).length + (w.children.map fun c => c.took.length).sum = gateBytes w.parent.log

section GateBytes

variable {A : SignalRule} {B : ArrivalRule} {w w' : ExecWorld}

/-- A call of a child takes the first byte of the gate, or none. -/
theorem childSem_bytes {goal : ChildView → Prop} {s s' : ChildView} {o : ChildCall} {r : o.Ret}
    (hcall : (childWatch goal).atCall o s) (hs : childSem s o r s') :
    (s'.pipes = s.pipes ∧ s'.took = s.took) ∨ ∃ b rest, s.pipes 0 = b :: rest ∧ s' = s.take 0 b rest := by
  cases o with
  | read fd =>
    have hgate : s.fds fd = some (.readEnd 0) := hcall.2.1
    have hs : childRead s fd r s' := hs
    unfold childRead at hs
    rw [hgate] at hs
    rcases hs with ⟨b, rest, hpipe, -, -, hs'⟩ | ⟨-, -, -, rfl⟩ | ⟨-, rfl⟩
    · exact .inr ⟨b, rest, hpipe, hs'⟩
    · exact .inl ⟨rfl, rfl⟩
    · exact .inl ⟨rfl, rfl⟩
  | close fd => exact .inl ((show s' = s.setFds _ from hs) ▸ ⟨rfl, rfl⟩)
  | sigprocmask how set => exact .inl ((show s' = s.setSignals _ from hs) ▸ ⟨rfl, rfl⟩)
  | setDefault sig => exact .inl ((show s' = s.setSignals _ from hs) ▸ ⟨rfl, rfl⟩)
  | setpgid pgid => exact .inl ((show s' = s from hs) ▸ ⟨rfl, rfl⟩)
  | eventShut => exact .inl ((show s' = s.setFds _ from hs) ▸ ⟨rfl, rfl⟩)
  | deviceCloseAll =>
    obtain ⟨fds, -, rfl⟩ := hs
    exact .inl ⟨rfl, rfl⟩
  | dup2 fd target =>
    rcases hs with ⟨-, -, rfl⟩ | ⟨-, rfl⟩
    · exact .inl ⟨rfl, rfl⟩
    · exact .inl ⟨rfl, rfl⟩
  | openFile file flags =>
    rcases hs with ⟨-, -, rfl⟩ | ⟨-, rfl⟩
    · exact .inl ⟨rfl, rfl⟩
    · exact .inl ⟨rfl, rfl⟩
  | execvp argv => exact .inl ((show s' = s from hs) ▸ ⟨rfl, rfl⟩)
  | exit code => exact r.elim

/-- A child is replaced, and no byte moves. -/
theorem GateBytes.replace (h : GateBytes w) {i : ℕ} {c c' : ChildProc} (hc : w.children[i]? = some c)
    (htook : c'.took = c.took) (hset : w'.children = w.children.set i c') (hpipes : w'.pipes = w.pipes)
    (hparent : w'.parent = w.parent) : GateBytes w' := by
  have hmem : c ∈ w.children := List.mem_of_getElem? hc
  refine ⟨hpipes ▸ h.left, ?_, ?_⟩
  · intro d hd
    rw [hset] at hd
    rcases List.mem_or_eq_of_mem_set hd with hd | hd
    · exact h.took d hd
    · rw [hd, htook]
      exact h.took c hmem
  · have hlen : (fun c : ChildProc => c.took.length) c' = (fun c : ChildProc => c.took.length) c :=
      congrArg List.length htook
    rw [hset, map_set_same hc hlen, hpipes, hparent]
    exact h.total

/-- A child takes a byte. -/
theorem GateBytes.take (h : GateBytes w) {i : ℕ} {c c' : ChildProc} {b : Byte} {rest : List Byte}
    (hc : w.children[i]? = some c) (hpipe : w.pipes 0 = b :: rest) (htook : c'.took = c.took ++ [b])
    (hset : w'.children = w.children.set i c') (hpipes : w'.pipes 0 = rest) (hparent : w'.parent = w.parent) :
    GateBytes w' := by
  have hmem : c ∈ w.children := List.mem_of_getElem? hc
  have hleft := h.left
  rw [hpipe] at hleft
  refine ⟨?_, ?_, ?_⟩
  · rw [hpipes]
    exact fun b hb => hleft b (List.mem_cons_of_mem _ hb)
  · intro d hd
    rw [hset] at hd
    rcases List.mem_or_eq_of_mem_set hd with hd | hd
    · exact h.took d hd
    · intro x hx
      rw [hd, htook] at hx
      rcases List.mem_append.mp hx with hx | hx
      · exact h.took c hmem x hx
      · rw [List.mem_singleton.mp hx]
        exact hleft b List.mem_cons_self
  · have hsum := sum_map_set (fun c : ChildProc => c.took.length) c' hc
    have htotal := h.total
    rw [hpipe] at htotal
    rw [hset, hpipes, hparent]
    simp only [htook, List.length_append, List.length_cons, List.length_nil] at hsum htotal ⊢
    omega

/-- A step of the children. -/
theorem GateBytes.step {goal : ChildView → Prop} (hC : Children A (fun _ => childWatch goal) w) (h : GateBytes w)
    (hs : StartStep B w w') : GateBytes w' := by
  cases hs with
  | @run i c prog s hc hlive hstep =>
    have hgood := (hC i c hc).good
    cases hprog : c.prog with
    | ret a =>
      rw [hprog] at hstep
      exact hstep.elim
    | call o k =>
      rw [hprog] at hstep hgood
      obtain ⟨r, hsem, -⟩ := hstep
      rcases childSem_bytes hgood.2 hsem with ⟨hpipes, htook⟩ | ⟨b, rest, hpipe, hs⟩
      · exact h.replace hc htook rfl hpipes rfl
      · have htook : (c.enter prog s).took = c.took ++ [b] := by rw [hs]; rfl
        have hrest : s.pipes 0 = rest := by
          rw [hs]
          exact Function.update_self 0 rest w.pipes
        exact h.take hc hpipe htook rfl hrest rfl
    | loop body t k =>
      rw [hprog] at hstep
      obtain ⟨-, hs⟩ := hstep
      exact h.replace hc (congrArg ChildView.took hs) rfl (congrArg ChildView.pipes hs) rfl
  | @exit i c hc hlive =>
    have htook : c.die.took = c.took := rfl
    exact h.replace hc htook rfl rfl rfl
  | @signal i c sig hc hlive hsig =>
    have htook : (c.arrive sig).took = c.took := rfl
    exact h.replace hc htook rfl rfl rfl

/-- The children and the pipes are as they were, and nothing was written. -/
theorem GateBytes.same (h : GateBytes w) (hpipes : w'.pipes = w.pipes) (hchildren : w'.children = w.children)
    (hbytes : gateBytes w'.parent.log = gateBytes w.parent.log) : GateBytes w' :=
  ⟨hpipes ▸ h.left, hchildren ▸ h.took, by rw [hpipes, hchildren, hbytes]; exact h.total⟩

/-- A child that has read nothing is new. -/
theorem GateBytes.forked {c : ChildProc} (h : GateBytes w) (hpipes : w'.pipes = w.pipes)
    (hchildren : w'.children = w.children ++ [c]) (htook : c.took = [])
    (hbytes : gateBytes w'.parent.log = gateBytes w.parent.log) : GateBytes w' := by
  refine ⟨hpipes ▸ h.left, ?_, ?_⟩
  · intro other hother b hb
    rw [hchildren] at hother
    rcases List.mem_append.mp hother with hother | hother
    · exact h.took other hother b hb
    · rw [List.mem_singleton.mp hother, htook] at hb
      exact absurd hb List.not_mem_nil
  · rw [hchildren, hpipes, hbytes, List.map_append, List.sum_append, List.map_singleton, htook]
    exact h.total

/-- A byte was written. -/
theorem GateBytes.written (h : GateBytes w) (hpipe : w'.pipes 0 = w.pipes 0 ++ ['G'.toUInt8])
    (hchildren : w'.children = w.children) (hbytes : gateBytes w'.parent.log = gateBytes w.parent.log + 1) :
    GateBytes w' := by
  refine ⟨?_, hchildren ▸ h.took, ?_⟩
  · intro b hb
    rw [hpipe] at hb
    rcases List.mem_append.mp hb with hb | hb
    · exact h.left b hb
    · exact List.mem_singleton.mp hb
  · have htotal := h.total
    rw [hpipe, hchildren, hbytes, List.length_append, List.length_singleton]
    omega

/-- A call of the parent. -/
theorem GateBytes.call (chain : List Command) (ctx : ExecContext) (e : ExecEntry) {o : ExecCall} {r : o.Ret}
    (h : GateBytes w) (hcall : (parentWatch chain ctx e).atCall o w.parent) (hs : execSem w o r w') : GateBytes w' := by
  obtain ⟨hparent, heffect⟩ := hs
  obtain ⟨es, hlog, -, hbytes⟩ := parentSem_events hparent
  have hsame : (∀ fd value, o ≠ .write fd value) → gateBytes w'.parent.log = gateBytes w.parent.log := by
    intro hnot
    rw [hlog, gateBytes_append, hbytes hnot, Nat.add_zero]
  unfold callEffect at heffect
  split at heffect
  · rename_i child r
    obtain ⟨hpipes, hchildren⟩ := heffect
    split_ifs at hchildren
    · exact h.forked hpipes hchildren rfl (hsame (by simp))
    · exact h.same hpipes hchildren (hsame (by simp))
  · rename_i fd value r
    obtain ⟨howns, rfl⟩ : Owns e [(fd, .writeEnd 0)] w.parent.fds ∧ value = 'G'.toUInt8 := hcall
    obtain ⟨hchildren, hpipes⟩ := heffect
    have hopen : w.parent.fds fd = some (.writeEnd 0) := (howns.opened _ List.mem_cons_self).2
    rw [hopen] at hpipes
    dsimp only at hpipes
    have hparent : if r.ret = 1 then (∃ pipe, w.parent.fds fd = some (.writeEnd pipe)) ∧
        w'.parent = w.parent.extend [.wrote]
      else w'.parent = if r.ret < 0 ∧ r.errno = EINTR then w.parent
        else w.parent.extend [.failed (.write fd 'G'.toUInt8)] := hparent
    by_cases hret : r.ret = 1
    · rw [if_pos hret] at hpipes hparent
      have hpipe : w'.pipes 0 = w.pipes 0 ++ ['G'.toUInt8] := by rw [hpipes, Function.update_self]
      refine h.written hpipe hchildren ?_
      rw [hparent.2, ParentState.extend_log, gateBytes_append]
      rfl
    · rw [if_neg hret] at hpipes hparent
      refine h.same hpipes hchildren ?_
      rw [hparent]
      split_ifs
      · rfl
      · rw [ParentState.extend_log, gateBytes_append]
        rfl
  · exact h.same heffect.1 heffect.2.1 (hsame (by simp))
  · rename_i r _ hnot _
    refine h.same heffect.1 heffect.2 (hsame fun fd value heq => ?_)
    subst heq
    exact hnot fd value r rfl HEq.rfl

end GateBytes

/-- What holds of the parent, the children and the bytes. -/
structure GateInvariant (chain : List Command) (ctx : ExecContext) (w : ExecWorld) : Prop where
  log : LogOk chain ctx w.parent.log
  started : Started (fun _ _ => True) (fun _ => childWatch fun _ => True) w
  bytes : GateBytes w

/-- The executor and its children keep count of the bytes. -/
theorem executor_gate (B : ArrivalRule) (chain : List Command) (ctx : ExecContext) (e : ExecEntry) :
    Safe (startup B) ⟨GateInvariant chain ctx, fun o w => (parentWatch chain ctx e).atCall o w.parent⟩
      (fun ret w => Returned chain e ret w.parent) (executeCommand chain ctx) e.world := by
  have hstarted := executor_started (A := fun _ _ => True) (B := B) (C := fun _ => childWatch fun _ => True)
    (fun _ _ _ _ => trivial) chain ctx e fun child pid s pipes atEnd hfork => forkedChild_gate hfork pid pipes atEnd
  have hbytes := hstarted.invariant (I := GateBytes) ?_ ?_ ?_
  · refine hbytes.mono ?_ (fun _ _ h => h) fun _ _ _ h => h
    intro w h
    exact ⟨h.1.1, h.1.2, h.2⟩
  · intro w w' halways h hstep
    exact GateBytes.step halways.2.children h hstep
  · intro w o r w' _ hcall h hs
    exact h.call chain ctx e hcall hs
  · exact ⟨fun b hb => absurd hb List.not_mem_nil, fun c hc => absurd hc List.not_mem_nil, rfl⟩

/-! ### Nobody passes too early, and nobody is left behind -/

/-- The child has read a byte, or makes a call that comes after the gate. -/
def PastGate (c : ChildProc) : Prop := c.took ≠ [] ∨ ∃ o k, c.prog = .call o k ∧ AfterGate o

/-- All bytes have been written. -/
def Released (chain : List Command) (w : ExecWorld) : Prop := gateBytes w.parent.log = chain.length

/-- The children that have read no byte. -/
def waiting (w : ExecWorld) : ℕ := w.children.countP fun c => c.took.isEmpty

/-- What a `read` of this child can come to: the byte of the gate, or an
interrupt. -/
def GateFed (w : ExecWorld) (c : ChildProc) (fd : ℤ) : Prop :=
  (∃ r s, childSem (w.view c) (.read fd) r s ∧ r.ret = 1) ∧
    ∀ r s, childSem (w.view c) (.read fd) r s →
      r.ret < 0 ∨ (r.ret = 1 ∧ r.value = 'G'.toUInt8 ∧ s.took = ['G'.toUInt8])

structure GateHolds (chain : List Command) (ctx : ExecContext) (w : ExecWorld) : Prop where
  passed : ∀ c ∈ w.children, PastGate c → c.took = ['G'.toUInt8] ∧ Ready chain ctx w.parent.log
  failed : Failure chain 1 w.parent.log → ∀ c ∈ w.children, ¬ PastGate c
  enough : Released chain w → waiting w ≤ (w.pipes 0).length
  fed : Released chain w → ∀ c ∈ w.children, ∀ fd k, c.prog = .call (.read fd) k → GateFed w c fd

section GateHolds

variable {chain : List Command} {ctx : ExecContext} {w : ExecWorld} {c : ChildProc}

theorem GateInvariant.good (h : GateInvariant chain ctx w) (hc : c ∈ w.children) :
    Good (childWatch fun _ => True) (fun _ _ => True) c.prog (w.view c) := by
  obtain ⟨i, hi⟩ := List.mem_iff_getElem?.mp hc
  exact (h.started.children i c hi).good

/-- A child has at most one byte. -/
theorem GateInvariant.short (h : GateInvariant chain ctx w) : ∀ c ∈ w.children, c.took.length ≤ 1 :=
  fun _ hc => (h.good hc).always

/-- A child past the gate has the byte of the gate. -/
theorem GateInvariant.took (h : GateInvariant chain ctx w) (hc : c ∈ w.children) (hpast : PastGate c) :
    c.took = ['G'.toUInt8] := by
  rcases hpast with hne | ⟨o, k, hprog, ho⟩
  · have hlen := h.short c hc
    have hall := h.bytes.took c hc
    cases htook : c.took with
    | nil => exact absurd htook hne
    | cons b bs =>
      rw [htook] at hlen hall
      have hbs : bs = [] := by simpa using hlen
      rw [hbs, hall b List.mem_cons_self]
  · have hgood := h.good hc
    rw [hprog] at hgood
    exact hgood.2.1 ho

/-- A byte that was taken was written. -/
theorem GateInvariant.counted (h : GateInvariant chain ctx w) (hc : c ∈ w.children) (htook : c.took = ['G'.toUInt8]) :
    0 < gateBytes w.parent.log := by
  have hmem : c.took.length ∈ w.children.map fun c => c.took.length := List.mem_map_of_mem hc
  have hle := List.single_le_sum (fun _ _ => Nat.zero_le _) _ hmem
  have hlen : c.took.length = 1 := by simp [htook]
  have htotal := h.bytes.total
  omega

/-- At most one byte each. -/
theorem waiting_took (cs : List ChildProc) (h : ∀ c ∈ cs, c.took.length ≤ 1) :
    cs.countP (fun c => c.took.isEmpty) + (cs.map fun c => c.took.length).sum = cs.length := by
  induction cs with
  | nil => rfl
  | cons c cs ih =>
    have hrest := ih fun d hd => h d (List.mem_cons_of_mem _ hd)
    have hc : c.took.length ≤ 1 := h c List.mem_cons_self
    have hone : (if c.took.isEmpty then 1 else 0) + c.took.length = 1 := by
      cases htook : c.took with
      | nil => rfl
      | cons b bs =>
        rw [htook] at hc
        simp at hc
        simp [hc]
    rw [List.countP_cons, List.map_cons, List.sum_cons, List.length_cons]
    omega

/-- Of the bytes for all children, those that wait have taken none. -/
theorem GateInvariant.enough (h : GateInvariant chain ctx w) (hreleased : Released chain w) :
    waiting w ≤ (w.pipes 0).length := by
  have hsum := waiting_took w.children h.short
  have htotal := h.bytes.total
  have hforks := h.log.forks
  rw [← h.started.pids, List.length_map] at hforks
  unfold Released at hreleased
  unfold waiting
  omega

/-- `read` of a child at the gate. -/
theorem gate_read {fd : ℤ} (hfd : c.fds fd = some (.readEnd 0)) (r : ReadResult) (s : ChildView) :
    childSem (w.view c) (.read fd) r s ↔
      (∃ b rest, w.pipes 0 = b :: rest ∧ r.ret = 1 ∧ r.value = b ∧ s = (w.view c).take 0 b rest) ∨
      (w.pipes 0 = [] ∧ w.atEnd 0 ∧ r.ret = 0 ∧ s = w.view c) ∨ (r.ret < 0 ∧ s = w.view c) := by
  have hsem : childSem (w.view c) (.read fd) r s = childRead (w.view c) fd r s := rfl
  have hview : (w.view c).fds fd = some (.readEnd 0) := hfd
  rw [hsem]
  unfold childRead
  rw [hview]
  rfl

theorem GateInvariant.fed (h : GateInvariant chain ctx w) (hreleased : Released chain w) (hc : c ∈ w.children) {fd : ℤ}
    {k : ReadResult → ChildProg Unit} (hprog : c.prog = .call (.read fd) k) : GateFed w c fd := by
  have hgood := h.good hc
  rw [hprog] at hgood
  have hfd : c.fds fd = some (.readEnd 0) := hgood.2.2.1
  have hnone : c.took = [] := hgood.2.2.2
  have hpos : 0 < waiting w := List.countP_pos_iff.mpr ⟨c, hc, by simp [hnone]⟩
  have hlen := h.enough hreleased
  obtain ⟨b, rest, hpipe⟩ : ∃ b rest, w.pipes 0 = b :: rest := by
    apply List.exists_cons_of_length_pos
    omega
  have hleft := h.bytes.left
  constructor
  · exact ⟨⟨1, 0, b⟩, _, (gate_read hfd _ _).mpr (.inl ⟨b, rest, hpipe, rfl, rfl, rfl⟩), rfl⟩
  · intro r s hs
    rcases (gate_read hfd r s).mp hs with ⟨b', rest', hpipe', hret, hvalue, hs'⟩ | ⟨hempty, -⟩ | ⟨hret, -⟩
    · have hb' : b' = 'G'.toUInt8 := hleft b' (hpipe' ▸ List.mem_cons_self)
      have htook : s.took = c.took ++ [b'] := by rw [hs']; rfl
      refine .inr ⟨hret, hvalue.trans hb', ?_⟩
      rw [htook, hnone, hb', List.nil_append]
    · rw [hempty] at hpipe
      cases hpipe
    · exact .inl hret

theorem GateInvariant.holds (h : GateInvariant chain ctx w) : GateHolds chain ctx w := by
  refine ⟨?_, ?_, h.enough, fun hreleased c hc fd k hprog => h.fed hreleased hc hprog⟩
  · intro c hc hpast
    have htook := h.took hc hpast
    exact ⟨htook, h.log.ready (h.counted hc htook)⟩
  · intro hfail c hc hpast
    have hpos := h.counted hc (h.took hc hpast)
    have hle := h.log.bytes
    have hzero : gateBytes w.parent.log < 1 := hfail.bytes h.log (by omega) Nat.one_pos
    omega

end GateHolds

/-! ### What the parent can rely on -/

/-- The parent waits for the job in the foreground. -/
def WaitsForeground (o : ExecCall) : Prop :=
  ∃ target flags, o = .job (.waitpid target flags) ∧ flags.untraced = true

section Release

/-- A byte more, if `write` succeeded. -/
theorem writeGate_bytes (fd : ℤ) (s : ParentState) :
    Safe parent .idle (fun ret s' => 0 ≤ ret → gateBytes s'.log = gateBytes s.log + 1) (writeGate fd) s := by
  refine Safe.loop (I := fun _ s' => s' = s) (fun _ => stable_alone _) (fun _ _ _ => trivial) ?_ rfl
  intro _ s₁ hs₁
  refine Safe.call_alone trivial trivial fun r s₂ hs => ?_
  have hs : if r.ret = 1 then (∃ pipe, s₁.fds fd = some (.writeEnd pipe)) ∧ s₂ = s₁.extend [.wrote]
    else s₂ = if r.ret < 0 ∧ r.errno = EINTR then s₁ else s₁.extend [.failed (.write fd 'G'.toUInt8)] := hs
  by_cases hone : r.ret = 1
  · rw [if_pos hone] at hs ⊢
    obtain ⟨-, hs⟩ := hs
    refine Safe.ret_alone trivial (Safe.ret_alone trivial fun _ => ?_)
    rw [hs, hs₁, ParentState.extend_log, gateBytes_append]
    rfl
  · rw [if_neg hone] at hs
    rw [if_neg hone]
    by_cases hintr : r.ret < 0 ∧ r.errno = EINTR
    · rw [if_pos hintr] at hs ⊢
      exact Safe.ret_alone trivial (hs.trans hs₁)
    · rw [if_neg hintr]
      exact Safe.ret_alone trivial (Safe.ret_alone trivial fun h => absurd h (by decide))

/-- A release that succeeds has written a byte for each child. -/
theorem startupGateRelease_bytes (fd : ℤ) : ∀ (count : ℕ) (s : ParentState),
    Safe parent .idle (fun ret s' => 0 ≤ ret → gateBytes s'.log = gateBytes s.log + count)
      (startupGateRelease fd count) s
  | 0, s => Safe.ret_alone trivial fun _ => rfl
  | count + 1, s => by
    refine (writeGate_bytes fd s).bind fun ret s₁ hone _ => ?_
    by_cases hret : ret < 0
    · rw [if_pos hret]
      exact Safe.ret_alone trivial fun h => absurd h (by decide)
    · rw [if_neg hret]
      refine (startupGateRelease_bytes fd count s₁).weaken fun ret' s₂ _ hrest hret' => ?_
      have hfirst : gateBytes s₁.log = gateBytes s.log + 1 := hone (by omega)
      have hrest : gateBytes s₂.log = gateBytes s₁.log + count := hrest hret'
      omega

end Release

/-- In every run of the executor with its children, whatever the order of their
steps and whoever dies: a child past the gate has read its one byte, and its
job is in the table and has its terminal; no child gets past the gate once a
step has failed before the first byte; and when all bytes are written there is
one for every child that waits, which it gets. They are all written when the
executor succeeds, and before it waits for the job in the foreground; with
fewer it fails, and leaves nothing of the start. A release that succeeds has
written a byte for each child it was to let go. -/
theorem startup_gate (B : ArrivalRule) (chain : List Command) (ctx : ExecContext) (e : ExecEntry) :
    Safe (startup B) ⟨GateHolds chain ctx, fun o w => WaitsForeground o → Released chain w⟩
      (fun ret w => Returned chain e ret w.parent ∧ (0 ≤ ret → Released chain w)) (executeCommand chain ctx) e.world ∧
    ∀ fd count w, Safe (startup B) .idle
      (fun ret w' => 0 ≤ ret → gateBytes w'.parent.log = gateBytes w.parent.log + count)
      (startupGateRelease fd count) w := by
  constructor
  · have hall : ∀ w, GateInvariant chain ctx w → chain.length ≤ gateBytes w.parent.log → Released chain w :=
      fun w h hle => Nat.le_antisymm h.log.bytes hle
    refine (executor_gate B chain ctx e).atCalls.mono (fun _ h => h.holds) ?_ ?_
    · intro o w h hwaits
      obtain ⟨hgate, hcall⟩ := h
      obtain ⟨target, flags, rfl, huntraced⟩ := hwaits
      exact hall w hgate (hcall huntraced)
    · intro ret w hgate hreturned
      refine ⟨hreturned, fun hret => hall w hgate ?_⟩
      by_contra hshort
      have hneg : ret < 0 := (hreturned.undone (by omega)).1
      omega
  · intro fd count w
    exact (startupGateRelease_bytes fd count w.parent).project (M := startup B) ExecWorld.parent
      (fun w w' h => .inl h.parent) fun w o r w' h => h.1

end DeviceRuntime
