/-
# The parent and its children

The executor with the children it forks, each a process with a program, a
descriptor table and a signal state of its own. All of them share the pipes
and take their steps in any order; a child can die at any point, and signals
reach it at any point at which they are allowed to come.

A child is looked at by itself in the world `childWorld`, where the others may
do anything to the pipes and send any allowed signal. `Children` says that
every child is safe there; it is kept by every step of the whole system
(`executor_children`), so that a property of a child is proved about its
program alone.

Key definitions: `SignalState`, `ChildView`, `childSem`, `childWorld`,
`ExecWorld`, `StartStep`, `execSem`, `startup`, `Children`.
Key theorems: `Children.step`, `Children.call`, `executor_children`.
-/
import Mathlib.Data.List.GetD
import DeviceRuntime.ExecutorRun
import DeviceRuntime.Lib.Safe

namespace DeviceRuntime

open Prog

/-! ### Signals -/

inductive Disposition
  | handler | ignore | default
deriving DecidableEq, Repr

/-- `came` are the signals that have reached the process, and `taken` those that
are not kept pending, each with what was done about it. -/
structure SignalState where
  blocked : List SignalNumber
  disposition : SignalNumber → Disposition
  pending : List SignalNumber
  taken : List (SignalNumber × Disposition)
  came : List SignalNumber

/-- A signal comes in. One that is blocked stays pending, whatever its
disposition. -/
def SignalState.arrive (s : SignalState) (sig : SignalNumber) : SignalState :=
  if sig ∈ s.blocked then
    { s with
      pending := if sig ∈ s.pending then s.pending else s.pending ++ [sig]
      came := s.came ++ [sig] }
  else { s with taken := s.taken ++ [(sig, s.disposition sig)], came := s.came ++ [sig] }

/-- A new mask; what is pending and no longer blocked is taken. -/
def SignalState.setMask (s : SignalState) (set : List SignalNumber) : SignalState :=
  { s with
    blocked := set
    pending := s.pending.filter fun sig => sig ∈ set
    taken := s.taken ++ (s.pending.filter fun sig => sig ∉ set).map fun sig => (sig, s.disposition sig) }

def SignalState.mask (s : SignalState) (how : MaskHow) (set : List SignalNumber) : SignalState :=
  match how with
  | .block => s.setMask (s.blocked ++ set)
  | .setmask => s.setMask set

def SignalState.setDefault (s : SignalState) (sig : SignalNumber) : SignalState :=
  { s with disposition := Function.update s.disposition sig .default }

/-- `signal_init` of the shell: two handlers, the rest ignored. -/
def shellDisposition : SignalNumber → Disposition
  | .sigint | .sigchld => .handler
  | _ => .ignore

/-- What a new child inherits of a shell that blocks nothing. -/
def inheritedSignals : SignalState := ⟨[], shellDisposition, [], [], []⟩

/-! ### A child by itself -/

/-- `took` are the bytes the child has read from pipes before it runs its
program. `pipes` is what is in them, and `atEnd` the pipes nobody can write to
any more. -/
structure ChildView where
  fds : FdTable
  took : List Byte
  signals : SignalState
  pipes : ℕ → List Byte
  atEnd : ℕ → Prop

def ChildView.setFds (s : ChildView) (fds : FdTable) : ChildView := { s with fds := fds }

def ChildView.setSignals (s : ChildView) (signals : SignalState) : ChildView := { s with signals := signals }

/-- The first byte is taken out of a pipe. -/
def ChildView.take (s : ChildView) (pipe : ℕ) (b : Byte) (rest : List Byte) : ChildView :=
  { s with took := s.took ++ [b], pipes := Function.update s.pipes pipe rest }

def FdTable.closeFd (fds : FdTable) (fd : ℤ) : FdTable := Function.update fds fd none

/-- The event pipe is closed. -/
def FdTable.shutEvent (fds : FdTable) : FdTable := fun fd => if fds fd = some .event then none else fds fd

/-- `read` of one byte. -/
def childRead (s : ChildView) (fd : ℤ) (r : ReadResult) (s' : ChildView) : Prop :=
  match s.fds fd with
  | some (.readEnd pipe) =>
    (∃ b rest, s.pipes pipe = b :: rest ∧ r.ret = 1 ∧ r.value = b ∧ s' = s.take pipe b rest) ∨
    (s.pipes pipe = [] ∧ s.atEnd pipe ∧ r.ret = 0 ∧ s' = s) ∨
    (r.ret < 0 ∧ s' = s)
  | _ => r.ret < 0 ∧ s' = s

/-- Devices are closed, all of them or some. -/
def FdTable.ClosesDevices (fds fds' : FdTable) : Prop :=
  ∀ fd, fds' fd = fds fd ∨ (fds' fd = none ∧ ∃ n, fds fd = some (.device n))

def childSem (s : ChildView) : (c : ChildCall) → c.Ret → ChildView → Prop
  | .close fd, _, s' => s' = s.setFds (s.fds.closeFd fd)
  | .sigprocmask how set, _, s' => s' = s.setSignals (s.signals.mask how set)
  | .setDefault sig, _, s' => s' = s.setSignals (s.signals.setDefault sig)
  | .setpgid _, _, s' => s' = s
  | .eventShut, _, s' => s' = s.setFds s.fds.shutEvent
  | .deviceCloseAll, _, s' => ∃ fds, s.fds.ClosesDevices fds ∧ s' = s.setFds fds
  | .read fd, r, s' => childRead s fd r s'
  | .dup2 fd target, r, s' =>
    (0 ≤ r.ret ∧ s.fds fd ≠ none ∧ s' = s.setFds (Function.update s.fds target (s.fds fd))) ∨ (r.ret < 0 ∧ s' = s)
  | .openFile file flags, r, s' =>
    (0 ≤ r.ret ∧ s.fds r.ret = none ∧ s' = s.setFds (Function.update s.fds r.ret (some (.redirected file flags)))) ∨
    (r.ret < 0 ∧ s' = s)
  | .execvp _, _, s' => s' = s

/-- The signals that may come to a child in this state. -/
abbrev SignalRule := ChildView → SignalNumber → Prop

/-- What the others can do to a child: change the pipes, and signal it. -/
structure ChildEnv (A : SignalRule) (s s' : ChildView) : Prop where
  fds : s'.fds = s.fds
  took : s'.took = s.took
  signals : s'.signals = s.signals ∨ ∃ sig, A s sig ∧ s'.signals = s.signals.arrive sig

abbrev childWorld (A : SignalRule) : World ChildCall ChildCall.Ret ChildView := ⟨childSem, ChildEnv A⟩

/-! ### The whole system -/

/-- A child that runs its command stays at the call of `execvp`. -/
structure ChildProc where
  pid : ℕ
  prog : ChildProg Unit
  fds : FdTable
  took : List Byte
  signals : SignalState
  live : Bool

structure ExecWorld where
  parent : ParentState
  pipes : ℕ → List Byte
  children : List ChildProc

/-- Nobody holds the write end. -/
def ExecWorld.atEnd (w : ExecWorld) (pipe : ℕ) : Prop :=
  (∀ fd, w.parent.fds fd ≠ some (.writeEnd pipe)) ∧
    ∀ c ∈ w.children, c.live = true → ∀ fd, c.fds fd ≠ some (.writeEnd pipe)

/-- What `c` sees. -/
def ExecWorld.view (w : ExecWorld) (c : ChildProc) : ChildView := ⟨c.fds, c.took, c.signals, w.pipes, w.atEnd⟩

/-- The child with what it has in `s`. -/
def ChildProc.enter (c : ChildProc) (prog : ChildProg Unit) (s : ChildView) : ChildProc :=
  { c with prog := prog, fds := s.fds, took := s.took, signals := s.signals }

def ChildProc.die (c : ChildProc) : ChildProc := { c with live := false }

def ChildProc.arrive (c : ChildProc) (sig : SignalNumber) : ChildProc := { c with signals := c.signals.arrive sig }

def ExecWorld.setChild (w : ExecWorld) (i : ℕ) (c : ChildProc) (pipes : ℕ → List Byte) : ExecWorld :=
  { w with children := w.children.set i c, pipes := pipes }

/-- The signals that may come to a child while the system is in this state. -/
abbrev ArrivalRule := ExecWorld → ChildProc → SignalNumber → Prop

/-- A step of a child: its program goes on, it ends, by itself or because it is
killed, or a signal reaches it. -/
inductive StartStep (B : ArrivalRule) : ExecWorld → ExecWorld → Prop
  | run {w i c} (prog : ChildProg Unit) (s : ChildView) (hc : w.children[i]? = some c) (hlive : c.live = true)
      (hstep : Next ⟨childSem, fun _ _ => False⟩ c.prog (w.view c) prog s) :
      StartStep B w (w.setChild i (c.enter prog s) s.pipes)
  | exit {w i c} (hc : w.children[i]? = some c) (hlive : c.live = true) : StartStep B w (w.setChild i c.die w.pipes)
  | signal {w i c} (sig : SignalNumber) (hc : w.children[i]? = some c) (hlive : c.live = true) (hsig : B w c sig) :
      StartStep B w (w.setChild i (c.arrive sig) w.pipes)

/-- The child of a `fork`: a copy of the parent's descriptors and of the
signals of the shell. -/
def ForkedChild.start (child : ForkedChild) (pid : ℕ) (fds : FdTable) : ChildProc :=
  ⟨pid, child.program pid, fds, [], inheritedSignals, true⟩

/-- What a call of the parent does to the pipes and the children. `waitpid`
reports only a child that has ended. -/
def callEffect (w : ExecWorld) (o : ExecCall) (r : o.Ret) (w' : ExecWorld) : Prop :=
  match o, r with
  | .fork child, r => w'.pipes = w.pipes ∧
      w'.children = if 0 < r.ret then w.children ++ [child.start r.ret.toNat w.parent.fds] else w.children
  | .write fd value, r => w'.children = w.children ∧ w'.pipes =
      match w.parent.fds fd with
      | some (.writeEnd pipe) =>
        if r.ret = 1 then Function.update w.pipes pipe (w.pipes pipe ++ [value]) else w.pipes
      | _ => w.pipes
  | .job (.waitpid _ _), .reported pid st => w'.pipes = w.pipes ∧ w'.children = w.children ∧
      (st.processStatus = .done → ∀ c ∈ w.children, c.pid = pid → c.live = false)
  | _, _ => w'.pipes = w.pipes ∧ w'.children = w.children

def execSem (w : ExecWorld) (o : ExecCall) (r : o.Ret) (w' : ExecWorld) : Prop :=
  parentSem w.parent o r w'.parent ∧ callEffect w o r w'

abbrev startup (B : ArrivalRule) : World ExecCall ExecCall.Ret ExecWorld := ⟨execSem, StartStep B⟩

/-- The shell calls the executor. -/
def ExecEntry.world (e : ExecEntry) : ExecWorld := ⟨e.parent, fun _ => [], []⟩

/-! ### Every child by itself -/

/-- Child `i` is safe by itself, with `C i` watched. -/
def Children (A : SignalRule) (C : ℕ → Watch ChildCall ChildView) (w : ExecWorld) : Prop :=
  ∀ i c, w.children[i]? = some c → Safe (childWorld A) (C i) (fun _ _ => True) c.prog (w.view c)

section Children

variable {A : SignalRule} {B : ArrivalRule} {C : ℕ → Watch ChildCall ChildView} {w w' : ExecWorld}

/-- Only what the others may change has changed. -/
theorem view_env {c : ChildProc} : ChildEnv A (w.view c) (w'.view c) := ⟨rfl, rfl, .inl rfl⟩

/-- The step of a program alone is one of the program among the others. -/
theorem next_childWorld {p p' : ChildProg Unit} {s s' : ChildView}
    (h : Next ⟨childSem, fun _ _ => False⟩ p s p' s') : Next (childWorld A) p s p' s' := by
  cases p with
  | ret a => exact h
  | call o k => exact h
  | loop body s k => exact h

/-- One child is changed, and the pipes perhaps. -/
theorem Children.set {i : ℕ} {c : ChildProc} {pipes : ℕ → List Byte} (h : Children A C w)
    (hc : i < w.children.length →
      Safe (childWorld A) (C i) (fun _ _ => True) c.prog ((w.setChild i c pipes).view c)) :
    Children A C (w.setChild i c pipes) := by
  intro j d hd
  have hget : (w.children.set i c)[j]? = some d := hd
  rw [List.getElem?_set] at hget
  by_cases hij : i = j
  · rw [if_pos hij] at hget
    split_ifs at hget with hlt
    obtain rfl := Option.some.inj hget
    exact hij ▸ hc hlt
  · rw [if_neg hij] at hget
    exact (h j d hget).env view_env

/-- A step of the children. -/
theorem Children.step (hA : ∀ w c sig, B w c sig → A (w.view c) sig) (h : Children A C w) (hs : StartStep B w w') :
    Children A C w' := by
  cases hs with
  | @run i c prog s hc hlive hstep =>
    apply h.set
    intro _
    have hsafe : Safe (childWorld A) (C i) (fun _ _ => True) prog s := (h i c hc).step (.inl (next_childWorld hstep))
    exact hsafe.env ⟨rfl, rfl, .inl rfl⟩
  | @exit i c hc hlive =>
    apply h.set
    intro _
    exact (h i c hc).env ⟨rfl, rfl, .inl rfl⟩
  | @signal i c sig hc hlive hsig =>
    apply h.set
    intro _
    exact (h i c hc).env ⟨rfl, rfl, .inr ⟨sig, hA w c sig hsig, rfl⟩⟩

/-- The children are as they were, but for the pipes. -/
theorem Children.same (h : Children A C w) (hw : w'.children = w.children) : Children A C w' := by
  intro i c hc
  rw [hw] at hc
  exact (h i c hc).env view_env

/-- What a call of the parent does to the children. -/
theorem children_of_call {o : ExecCall} {r : o.Ret} (hs : callEffect w o r w') :
    w'.children = w.children ∨
      ∃ child pid, o = .fork child ∧ w'.pipes = w.pipes ∧
        w'.children = w.children ++ [child.start pid w.parent.fds] := by
  unfold callEffect at hs
  split at hs
  · obtain ⟨hpipes, hs⟩ := hs
    split_ifs at hs
    · exact .inr ⟨_, _, rfl, hpipes, hs⟩
    · exact .inl hs
  · exact .inl hs.1
  · exact .inl hs.2.1
  · exact .inl hs.2

/-- A call of the parent, with a child that is safe if it forks one. -/
theorem Children.call {o : ExecCall} {r : o.Ret} (h : Children A C w) (hs : callEffect w o r w')
    (hfork : ∀ child pid pipes atEnd, o = .fork child →
      Safe (childWorld A) (C w.children.length) (fun _ _ => True) (child.program pid)
        ⟨w.parent.fds, [], inheritedSignals, pipes, atEnd⟩) : Children A C w' := by
  rcases children_of_call hs with hw | ⟨child, pid, ho, -, hw⟩
  · exact h.same hw
  intro i c hc
  rw [hw, List.getElem?_append] at hc
  split_ifs at hc with hlt
  · exact (h i c hc).env view_env
  · obtain ⟨hi, rfl⟩ := List.getElem?_eq_some_iff.mp hc
    have hi : i - w.children.length < 1 := hi
    obtain rfl : i = w.children.length := by omega
    rw [List.getElem_singleton]
    exact hfork child pid w'.pipes w'.atEnd ho

end Children

/-! ### One run -/

section Run

variable {B : ArrivalRule} {w : ExecWorld}

/-- A call of the parent that its children do not see. -/
theorem afterParent {α : Type} {o : ExecCall} {k : o.Ret → ExecProg α} {C : Watch ExecCall ExecWorld}
    {Q : α → ExecWorld → Prop} (r : o.Ret) (s : ParentState) (hs : parentSem w.parent o r s)
    (he : callEffect w o r ⟨s, w.pipes, w.children⟩) (h : Safe (startup B) C Q (.call o k) w) :
    Safe (startup B) C Q (k r) ⟨s, w.pipes, w.children⟩ :=
  Safe.afterCall r ⟨hs, he⟩ h

/-- A child is forked. -/
theorem afterFork {α : Type} {child : ForkedChild} {k : CallResult → ExecProg α} {C : Watch ExecCall ExecWorld}
    {Q : α → ExecWorld → Prop} (pid : ℕ) (hpid : 0 < pid) (hnew : pid ∉ forkedPids w.parent.log)
    (h : Safe (startup B) C Q (.call (.fork child) k) w) :
    Safe (startup B) C Q (k ⟨pid, 0⟩)
      ⟨w.parent.extend [.forked pid], w.pipes, w.children ++ [child.start pid w.parent.fds]⟩ := by
  have hpos : (0 : ℤ) < pid := by omega
  have hparent : parentSem w.parent (.fork child) ⟨pid, 0⟩ (w.parent.extend [.forked pid]) := .inl ⟨hpos, hnew, rfl⟩
  have heffect : callEffect w (.fork child) ⟨pid, 0⟩
      ⟨w.parent.extend [.forked pid], w.pipes, w.children ++ [child.start pid w.parent.fds]⟩ :=
    ⟨rfl, (if_pos hpos).symm⟩
  exact Safe.afterCall (M := startup B) (o := .fork child) (⟨pid, 0⟩ : CallResult) ⟨hparent, heffect⟩ h

end Run

end DeviceRuntime
