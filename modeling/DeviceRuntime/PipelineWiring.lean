/-
# The descriptors of a pipeline

With which descriptors each command of a pipeline is run. Pipe 0 is the gate,
and the command at position `i` reads from pipe `i` and writes to pipe `i + 1`,
unless it is the first or the last, or has redirections of its own. Nothing
else is left open on a pipe: a writer that were left would keep the next
command waiting for ever.

A child is followed by itself from what `fork` gives it (`ForkOk`) to `execvp`
(`forkedChild_wired`). Once a byte of the gate is written the parent has no end
of a pipe but the gate's (`ParentPipes`), so that when all children have got
there every end has one holder (`pipeline_wiring`).

Key definitions: `WiredEntry`, `WiredFds`, `AtExec`, `SoleHolders`.
Key theorems: `forkedChild_wired`, `executor_wired`, `pipeline_wiring`.
-/
import DeviceRuntime.StartupGate

namespace DeviceRuntime

open Prog

abbrev STDERR_FILENO : ℤ := 2

/-! ### What is to hold -/

def Descriptor.IsPipe : Descriptor → Prop
  | .readEnd _ | .writeEnd _ => True
  | _ => False

/-- The shell when the executor is called: its standard descriptors are open,
and none of the pipes to be made is. -/
structure WiredEntry extends ExecEntry where
  stdin : ℕ
  stdout : ℕ
  stderr : ℕ
  std : ∀ x ∈ [(STDIN_FILENO, Descriptor.file stdin), (STDOUT_FILENO, .file stdout), (STDERR_FILENO, .file stderr)],
    fds x.1 = some x.2
  noPipes : ∀ fd d, fds fd = some d → ¬ d.IsPipe

/-- What descriptor 0 of the command at position `i` is open on. -/
def stdinOf (e : WiredEntry) (i : ℕ) (com : Command) : Descriptor :=
  redirectedTo com.redirect.inputFile .rdonly (if i = 0 then .file e.stdin else .readEnd i)

/-- What descriptor 1 of the command at position `i` of `n` is open on. -/
def stdoutOf (e : WiredEntry) (n i : ℕ) (com : Command) : Descriptor :=
  redirectedTo com.redirect.outputFile (if com.redirect.append ≠ 0 then .append else .truncate)
    (if i + 1 < n then .writeEnd (i + 1) else .file e.stdout)

structure WiredFds (e : WiredEntry) (n i : ℕ) (com : Command) (fds : FdTable) : Prop where
  stdin : fds STDIN_FILENO = some (stdinOf e i com)
  stdout : fds STDOUT_FILENO = some (stdoutOf e n i com)
  others : ∀ fd d, fd ≠ STDIN_FILENO → fd ≠ STDOUT_FILENO → fds fd = some d → ¬ d.IsPipe ∧ d ≠ .event

/-- What child `i` has when it runs its command. -/
def wiredAt (e : WiredEntry) (chain : List Command) (i : ℕ) (s : ChildView) : Prop :=
  ∃ com, chain[i]? = some com ∧ WiredFds e chain.length i com s.fds

/-! ### A child -/

section Child

variable {A : SignalRule} {goal : ChildView → Prop} {R : Descriptor → Prop} {owned : List (ℤ × Descriptor)}
  {s : ChildView} {e : WiredEntry} {chain : List Command} {fd target : ℤ} {d d' : Descriptor}

/-- A redirection from a descriptor that may not be there. -/
theorem redirectIf_safe (h : Past R (fdList fd d ++ (target, d') :: owned) s) :
    Safe (childWorld A) (childWatch goal) (Redirected R ((target, if fd ≥ 0 then d else d') :: owned))
      (if fd ≥ 0 then redirectFd fd target else .ret MiniShell_OK) s := by
  unfold fdList at h
  by_cases hfd : fd ≥ 0
  · rw [if_pos hfd] at h
    rw [if_pos hfd, if_pos hfd]
    exact redirectFd_safe h
  · rw [if_neg hfd] at h
    rw [if_neg hfd, if_neg hfd]
    exact redirected_ret ⟨h.1, fun _ => h.2⟩

/-- A child whose redirection failed ends. -/
theorem redirected_exit {α : Type} {Q : α → ChildView → Prop} {ret : ℤ} (h : Redirected R owned ret s) :
    Safe (childWorld A) (childWatch goal) Q (childExit 1) s := by
  refine childExit_safe 1 (stable_redirected R owned ret) ?_ h
  intro s hs
  have hone : s.took.length ≤ 1 := by simp [hs.1]
  exact ⟨hone, fun h => h.elim, trivial⟩

/-- The descriptors at `execvp`. -/
theorem wired_of_holds {i : ℕ} {com : Command} (hcom : chain[i]? = some com) {R : Descriptor → Prop}
    (hR : ∀ d, R d → ¬ d.IsPipe ∧ d ≠ .event)
    (h : Past R [(STDIN_FILENO, stdinOf e i com), (STDOUT_FILENO, stdoutOf e chain.length i com),
      (STDERR_FILENO, .file e.stderr)] s) : wiredAt e chain i s := by
  refine ⟨com, hcom, ?_, ?_, ?_⟩
  · exact h.2.opened (STDIN_FILENO, stdinOf e i com) (by simp)
  · exact h.2.opened (STDOUT_FILENO, stdoutOf e chain.length i com) (by simp)
  · intro fd d h0 h1 hd
    by_cases h2 : fd = STDERR_FILENO
    · have herr : s.fds STDERR_FILENO = some (.file e.stderr) := h.2.opened (STDERR_FILENO, .file e.stderr) (by simp)
      rw [h2, herr] at hd
      obtain rfl := Option.some.inj hd
      exact ⟨fun h => h, by simp⟩
    · exact hR d (h.2.rest fd (by simp [h0, h1, h2]) d hd)

/-- A child with its two ends in place runs its command. -/
theorem childRun_wired {i : ℕ} {com : Command} (hcom : chain[i]? = some com)
    (hR : ∀ d, R d → ¬ d.IsPipe ∧ d ≠ .event)
    (h : Past R [(STDOUT_FILENO, if i + 1 < chain.length then .writeEnd (i + 1) else .file e.stdout),
      (STDIN_FILENO, if i = 0 then .file e.stdin else .readEnd i), (STDERR_FILENO, .file e.stderr)] s) :
    Safe (childWorld A) (childWatch (wiredAt e chain i)) (fun _ _ => True) (childRun com) s := by
  refine childRun_safe h ?_
  intro s hs
  exact wired_of_holds hcom hR hs

/-- The ends that were forked, with the standard descriptors in front of the
new pipe. -/
theorem stage_order (gate pipe carried std : List (ℤ × Descriptor)) :
    (gate ++ (pipe ++ carried) ++ std).Perm (gate ++ (carried ++ (std ++ pipe))) := by
  rw [List.append_assoc]
  refine List.Perm.append_left gate ?_
  calc (pipe ++ carried ++ std).Perm (carried ++ pipe ++ std) := List.perm_append_comm.append_right std
    _ = carried ++ (pipe ++ std) := List.append_assoc ..
    (carried ++ (pipe ++ std)).Perm (carried ++ (std ++ pipe)) := List.perm_append_comm.append_left carried

/-- The standard descriptors of the shell. -/
def standardOf (e : WiredEntry) : List (ℤ × Descriptor) :=
  [(STDIN_FILENO, .file e.stdin), (STDOUT_FILENO, .file e.stdout), (STDERR_FILENO, .file e.stderr)]

theorem standardOf_nodup (e : WiredEntry) : ((standardOf e).map Prod.fst).Nodup := by simp [standardOf]

theorem standardOf_plain (e : WiredEntry) :
    ∀ x ∈ standardOf e, ∃ k, x.2 = .file k ∨ x.2 = .readEnd k ∨ x.2 = .writeEnd k := by
  intro x hx
  rcases List.mem_cons.mp hx with rfl | hx
  · exact ⟨_, .inl rfl⟩
  rcases List.mem_cons.mp hx with rfl | hx
  · exact ⟨_, .inl rfl⟩
  · rw [List.mem_singleton.mp hx]
    exact ⟨_, .inl rfl⟩

/-- What a stage does when its input is in place: the write end of the new pipe
becomes its output, and the read end is closed. -/
theorem stageOutput_wired {i : ℕ} {com : Command} {next : Bool} {pipefd : ℤ × ℤ} (hcom : chain[i]? = some com)
    (hnext : next = true ↔ i + 1 < chain.length)
    (hpipefd : if next then 0 ≤ pipefd.1 ∧ 0 ≤ pipefd.2 else pipefd = (-1, -1))
    (hpast : Past (fun d => ¬ d.IsPipe ∧ d ≠ .event) ((STDIN_FILENO, if i = 0 then .file e.stdin else .readEnd i) ::
      (STDOUT_FILENO, .file e.stdout) :: (STDERR_FILENO, .file e.stderr) :: pipeEnds pipefd (i + 1)) s) :
    Safe (childWorld A) (childWatch (wiredAt e chain i)) (fun _ _ => True)
      ((if next then redirectFd pipefd.2 STDOUT_FILENO else .ret MiniShell_OK).bind fun ret =>
        if ret ≠ MiniShell_OK then childExit 1
        else if pipefd.1 ≥ 0 then .call (.close pipefd.1) fun _ => childRun com
          else childRun com) s := by
  have hR : ∀ d : Descriptor, ¬ d.IsPipe ∧ d ≠ .event → ¬ d.IsPipe ∧ d ≠ .event := fun _ h => h
  cases next with
  | true =>
    have hmore : i + 1 < chain.length := hnext.mp rfl
    have hends : 0 ≤ pipefd.1 ∧ 0 ≤ pipefd.2 := hpipefd
    rw [pipeEnds_of_nonneg hends] at hpast
    -- the write end comes first, and its place before it
    have hwrite : Past (fun d => ¬ d.IsPipe ∧ d ≠ .event) ((pipefd.2, .writeEnd (i + 1)) ::
        (STDOUT_FILENO, .file e.stdout) :: [(pipefd.1, .readEnd (i + 1)),
          (STDIN_FILENO, if i = 0 then .file e.stdin else .readEnd i), (STDERR_FILENO, .file e.stderr)]) s := by
      refine ⟨hpast.1, hpast.2.perm ?_⟩
      refine (List.perm_iff_count).mpr ?_
      intro x
      simp only [List.count_cons, List.count_nil]
      omega
    refine Safe.bind (redirectFd_safe hwrite) ?_
    intro ret s₁ hs _
    by_cases hret : ret ≠ MiniShell_OK
    · rw [if_pos hret]
      exact redirected_exit hs
    rw [if_neg hret, if_pos hends.1]
    have hread : Past (fun d => ¬ d.IsPipe ∧ d ≠ .event) ((pipefd.1, .readEnd (i + 1)) ::
        [(STDOUT_FILENO, .writeEnd (i + 1)), (STDIN_FILENO, if i = 0 then .file e.stdin else .readEnd i),
          (STDERR_FILENO, .file e.stderr)]) s₁ := ⟨hs.1, (hs.2 (not_not.mp hret)).perm (List.Perm.swap ..)⟩
    refine Safe.call (stable_past _ _) (fun s hs => ⟨hs.always, fun h => h.elim, trivial⟩) ?_ hread
    intro s₂ _ s₃ hs hsem
    have hsem : s₃ = s₂.setFds (s₂.fds.closeFd pipefd.1) := hsem
    refine childRun_wired hcom hR ?_
    rw [if_pos hmore, hsem]
    exact hs.setFds hs.2.close
  | false =>
    have hlast : ¬ i + 1 < chain.length := fun h => Bool.noConfusion (hnext.mpr h)
    have hnone : pipefd = (-1, -1) := hpipefd
    have hok : ¬ MiniShell_OK ≠ MiniShell_OK := by simp
    rw [hnone] at hpast ⊢
    have hstop : ¬ ((-1, -1) : ℤ × ℤ).1 ≥ 0 := by decide
    rw [if_neg (by decide), ret_bind, if_neg hok, if_neg hstop]
    refine childRun_wired hcom hR ?_
    rw [if_neg hlast]
    exact ⟨hpast.1, hpast.2.perm (List.Perm.swap ..)⟩

/-- What a child of `execute_single` or of a turn of `execute_pipeline` runs
its command with. -/
theorem forkedChild_wired {s : ParentState} {child : ForkedChild} (h : ForkOk chain e.toExecEntry s child) (pid : ℕ)
    (pipes : ℕ → List Byte) (atEnd : ℕ → Prop) :
    Safe (childWorld A) (childWatch (wiredAt e chain (forkedPids s.log).length)) (fun _ _ => True) (child.program pid)
      ⟨s.fds, [], inheritedSignals, pipes, atEnd⟩ := by
  cases child with
  | single com gate =>
    obtain ⟨hchain, hnone, howns⟩ := h
    have hholds := howns.holds _ (standardOf_nodup e) e.std e.noPipes
    have hcom : chain[(forkedPids s.log).length]? = some com := by rw [hchain, hnone]; rfl
    refine Safe.bind (childPrepareBeforeGate_safe 0 (standardOf_plain e) rfl hholds) ?_
    intro _ s' hs _
    refine childRun_wired hcom (fun _ h => h) ?_
    have hlast : ¬ (forkedPids s.log).length + 1 < chain.length := by simp [hchain, hnone]
    have hfirst : (forkedPids s.log).length = 0 := by rw [hnone]; rfl
    rw [if_neg hlast, if_pos hfirst]
    exact ⟨hs.1, hs.2.perm (List.Perm.swap ..)⟩
  | stage current next gate pgid pipeFd pipefd =>
    obtain ⟨hcom, hnext, hcarried, hpipefd, -, howns⟩ := h
    set i := (forkedPids s.log).length with hi
    have hgate := howns.perm (gate_first gate pipefd pipeFd _ _)
    have hholds := (hgate.holds _ (standardOf_nodup e) e.std e.noPipes).perm (stage_order ..)
    have hplain : ∀ x ∈ fdList pipeFd (.readEnd i) ++ (standardOf e ++ pipeEnds pipefd (i + 1)),
        ∃ k, x.2 = .file k ∨ x.2 = .readEnd k ∨ x.2 = .writeEnd k := by
      intro x hx
      rcases List.mem_append.mp hx with hx | hx
      · exact pipe_ends_plain (List.mem_append_right (pipeEnds pipefd (i + 1)) hx)
      rcases List.mem_append.mp hx with hx | hx
      · exact standardOf_plain e x hx
      · exact pipe_ends_plain (List.mem_append_left (fdList pipeFd (.readEnd i)) hx)
    refine Safe.bind (childPrepareBeforeGate_safe _ hplain rfl hholds) ?_
    intro _ s₁ hs _
    refine Safe.bind (redirectIf_safe hs) ?_
    intro ret s₂ hs _
    by_cases hret : ret ≠ MiniShell_OK
    · rw [if_pos hret]
      exact redirected_exit hs
    rw [if_neg hret]
    have hstdin : (if pipeFd ≥ 0 then Descriptor.readEnd i else .file e.stdin) =
        if i = 0 then .file e.stdin else .readEnd i := by
      by_cases hzero : i = 0
      · have hnone : ¬ pipeFd ≥ 0 := fun h => absurd (hcarried.mp h) (by omega)
        rw [if_neg hnone, if_pos hzero]
      · have hthere : pipeFd ≥ 0 := hcarried.mpr (by omega)
        rw [if_pos hthere, if_neg hzero]
    have hpast := hs.2 (not_not.mp hret)
    rw [hstdin] at hpast
    exact stageOutput_wired hcom hnext hpipefd ⟨hs.1, hpast⟩

end Child

/-! ### The parent -/

/-- Once a byte is written, no end of a pipe is left but the gate's. -/
def ParentPipes (s : ParentState) : Prop :=
  0 < gateBytes s.log → ∀ fd d, s.fds fd = some d → d.IsPipe → d = .writeEnd 0

/-- A call of the parent. -/
theorem ParentPipes.call {chain : List Command} {ctx : ExecContext} {e : WiredEntry} {s s' : ParentState} {o : ExecCall}
    {r : o.Ret} (h : ParentPipes s) (hcall : (parentWatch chain ctx e.toExecEntry).atCall o s)
    (hs : parentSem s o r s') : ParentPipes s' := by
  obtain ⟨es, hlog, -, hbytes⟩ := parentSem_events hs
  have hsame : (∀ fd value, o ≠ .write fd value) → gateBytes s'.log = gateBytes s.log := by
    intro hnot
    rw [hlog, gateBytes_append, hbytes hnot, Nat.add_zero]
  have hkeep : (∀ fd value, o ≠ .write fd value) → o ≠ .pipe → (∀ fd, o ≠ .close fd) → ParentPipes s' := by
    intro hwrite hpipe hclose hpos fd d hd
    rw [parentSem_fds hs hpipe hclose] at hd
    exact h (hsame hwrite ▸ hpos) fd d hd
  cases o with
  | pipe =>
    have hzero : gateBytes s.log = 0 := hcall
    intro hpos
    rw [hsame (by simp), hzero] at hpos
    exact absurd hpos (Nat.lt_irrefl 0)
  | close fd =>
    have hs : s' = s.setFds (Function.update s.fds fd none) := hs
    intro hpos x d hd
    rw [hsame (by simp)] at hpos
    have hd : Function.update s.fds fd none x = some d := by rw [hs] at hd; exact hd
    by_cases hx : x = fd
    · rw [hx, Function.update_self] at hd
      cases hd
    · rw [Function.update_of_ne hx] at hd
      exact h hpos x d hd
  | write fd value =>
    have howns : Owns e.toExecEntry [(fd, .writeEnd 0)] s.fds := hcall.1
    intro _ x d hd hpipe
    rw [parentSem_fds hs (by simp) (by simp)] at hd
    by_cases hx : x = fd
    · have hopen : s.fds fd = some (.writeEnd 0) := (howns.opened _ List.mem_cons_self).2
      rw [hx, hopen] at hd
      exact (Option.some.inj hd).symm
    · rw [howns.rest x (by simp [hx])] at hd
      exact absurd hpipe (e.noPipes x d hd)
  | job c => exact hkeep (by simp) (by simp) (by simp)
  | terminal c => exact hkeep (by simp) (by simp) (by simp)
  | getCloexec fd => exact hkeep (by simp) (by simp) (by simp)
  | setCloexec fd => exact hkeep (by simp) (by simp) (by simp)
  | fork child => exact hkeep (by simp) (by simp) (by simp)
  | setpgid pid pgid => exact hkeep (by simp) (by simp) (by simp)
  | setRunning running => exact hkeep (by simp) (by simp) (by simp)

/-! ### The whole pipeline -/

/-- The child runs its command, or is about to. -/
def AtExec (c : ChildProc) : Prop := ∃ argv k, c.prog = .call (.execvp argv) k

/-- Nobody but the writer at position `i` has the write end of pipe `i + 1`,
and nobody but the reader at `i` the read end of pipe `i`. -/
structure SoleHolders (w : ExecWorld) : Prop where
  parent : ∀ pipe, 0 < pipe → ∀ fd, w.parent.fds fd ≠ some (.readEnd pipe) ∧ w.parent.fds fd ≠ some (.writeEnd pipe)
  writers : ∀ i (c : ChildProc) fd pipe, w.children[i]? = some c → c.fds fd = some (.writeEnd pipe) → pipe = i + 1
  readers : ∀ i (c : ChildProc) fd pipe, w.children[i]? = some c → c.fds fd = some (.readEnd pipe) → pipe = i

structure Wiring (e : WiredEntry) (chain : List Command) (w : ExecWorld) : Prop where
  wired : ∀ i c, w.children[i]? = some c → AtExec c → ∃ com, chain[i]? = some com ∧
    WiredFds e chain.length i com c.fds
  sole : w.children ≠ [] → (∀ c ∈ w.children, AtExec c) → w.children.length = chain.length ∧ SoleHolders w

section Wiring

variable {e : WiredEntry} {chain : List Command} {ctx : ExecContext} {w : ExecWorld}

/-- Each child has no end of a pipe but its own two. -/
theorem WiredFds.writeEnd {n i : ℕ} {com : Command} {fds : FdTable} (h : WiredFds e n i com fds) {fd : ℤ} {pipe : ℕ}
    (hfd : fds fd = some (.writeEnd pipe)) : pipe = i + 1 := by
  by_cases h0 : fd = STDIN_FILENO
  · rw [h0, h.stdin] at hfd
    have hd := Option.some.inj hfd
    unfold stdinOf redirectedTo at hd
    split at hd
    · split_ifs at hd
    · cases hd
  by_cases h1 : fd = STDOUT_FILENO
  · rw [h1, h.stdout] at hfd
    have hd := Option.some.inj hfd
    unfold stdoutOf redirectedTo at hd
    split at hd
    · split_ifs at hd
      exact (Descriptor.writeEnd.inj hd).symm
    · cases hd
  · exact absurd trivial (h.others fd _ h0 h1 hfd).1

theorem WiredFds.readEnd {n i : ℕ} {com : Command} {fds : FdTable} (h : WiredFds e n i com fds) {fd : ℤ} {pipe : ℕ}
    (hfd : fds fd = some (.readEnd pipe)) : pipe = i := by
  by_cases h0 : fd = STDIN_FILENO
  · rw [h0, h.stdin] at hfd
    have hd := Option.some.inj hfd
    unfold stdinOf redirectedTo at hd
    split at hd
    · split_ifs at hd
      exact (Descriptor.readEnd.inj hd).symm
    · cases hd
  by_cases h1 : fd = STDOUT_FILENO
  · rw [h1, h.stdout] at hfd
    have hd := Option.some.inj hfd
    unfold stdoutOf redirectedTo at hd
    split at hd
    · split_ifs at hd
    · cases hd
  · exact absurd trivial (h.others fd _ h0 h1 hfd).1

/-- The children by themselves, with the parent's descriptors. -/
theorem executor_wired (B : ArrivalRule) (chain : List Command) (ctx : ExecContext) (e : WiredEntry) :
    Safe (startup B)
      ⟨fun w => Started (fun _ _ => True) (fun i => childWatch (wiredAt e chain i)) w ∧ ParentPipes w.parent,
        fun _ _ => True⟩
      (fun _ _ => True) (executeCommand chain ctx) e.world := by
  have hstarted := executor_started (A := fun _ _ => True) (B := B) (C := fun i => childWatch (wiredAt e chain i))
    (fun _ _ _ _ => trivial) chain ctx e.toExecEntry fun child pid s pipes atEnd hfork =>
      forkedChild_wired hfork pid pipes atEnd
  have hpipes := hstarted.invariant (I := fun w => ParentPipes w.parent) ?_ ?_ ?_
  · refine hpipes.mono ?_ (fun _ _ _ => trivial) fun _ _ _ _ => trivial
    intro w h
    exact ⟨h.1.2, h.2⟩
  · intro w w' _ h hstep
    rw [hstep.parent]
    exact h
  · intro w o r w' _ hcall h hs
    have hcall : (parentWatch chain ctx e.toExecEntry).atCall o w.parent := hcall
    exact h.call hcall hs.1
  · intro hpos
    exact absurd hpos (Nat.lt_irrefl 0)

theorem wiring_holds (hgate : GateInvariant chain ctx w)
    (hstarted : Started (fun _ _ => True) (fun i => childWatch (wiredAt e chain i)) w) (hpipes : ParentPipes w.parent) :
    Wiring e chain w := by
  have hwired : ∀ i c, w.children[i]? = some c → AtExec c → ∃ com, chain[i]? = some com ∧
      WiredFds e chain.length i com c.fds := by
    intro i c hc hexec
    obtain ⟨argv, k, hprog⟩ := hexec
    have hgood := (hstarted.children i c hc).good
    rw [hprog] at hgood
    exact hgood.2.2
  refine ⟨hwired, fun hne hall => ?_⟩
  obtain ⟨c, hc⟩ := List.exists_mem_of_ne_nil _ hne
  have hpast : PastGate c := by
    obtain ⟨argv, k, hprog⟩ := hall c hc
    exact .inr ⟨_, k, hprog, trivial⟩
  have hbytes := hgate.counted hc (hgate.took hc hpast)
  have hexec : ∀ i c, w.children[i]? = some c → AtExec c := fun i c hc => hall c (List.mem_of_getElem? hc)
  constructor
  · obtain ⟨m, job, -, -, hjob, hlen, -⟩ := hgate.log.ready hbytes
    rw [← hlen, hjob, ← hgate.started.pids, List.length_map]
  refine ⟨?_, ?_, ?_⟩
  · intro pipe hpos fd
    constructor
    · intro hfd
      cases hpipes hbytes fd _ hfd trivial
    · intro hfd
      have heq := Descriptor.writeEnd.inj (hpipes hbytes fd _ hfd trivial)
      omega
  · intro i c fd pipe hc hfd
    obtain ⟨com, -, hwire⟩ := hwired i c hc (hexec i c hc)
    exact hwire.writeEnd hfd
  · intro i c fd pipe hc hfd
    obtain ⟨com, -, hwire⟩ := hwired i c hc (hexec i c hc)
    exact hwire.readEnd hfd

end Wiring

/-- In every run: at the `execvp` of the child at position `i`, descriptor 0 is
the read end of pipe `i` or the shell's, or the input file of the command;
descriptor 1 is the write end of pipe `i + 1` or the shell's, or the output
file; and no other descriptor is open on a pipe of the executor or on the event
pipe. When all children have got there, no end of a pipe but the gate's has
another holder. -/
theorem pipeline_wiring (B : ArrivalRule) (chain : List Command) (ctx : ExecContext) (e : WiredEntry) :
    Safe (startup B) ⟨Wiring e chain, fun _ _ => True⟩ (fun _ _ => True) (executeCommand chain ctx) e.world := by
  have hgate := executor_gate B chain ctx e.toExecEntry
  have hboth := hgate.and (executor_wired B chain ctx e)
  refine hboth.mono ?_ (fun _ _ _ => trivial) fun _ _ _ _ => trivial
  intro w h
  exact wiring_holds h.1 h.2.1 h.2.2

/-- The standard descriptors and nothing else. -/
def standardFds : FdTable := fun fd => if 0 ≤ fd ∧ fd ≤ 2 then some (.file fd.toNat) else none

theorem standardFds_std :
    ∀ x ∈ [(STDIN_FILENO, Descriptor.file 0), (STDOUT_FILENO, .file 1), (STDERR_FILENO, .file 2)],
      standardFds x.1 = some x.2 := by
  decide

theorem standardFds_noPipes (fd : ℤ) (d : Descriptor) (hd : standardFds fd = some d) : ¬ d.IsPipe := by
  unfold standardFds at hd
  split_ifs at hd
  obtain rfl := Option.some.inj hd
  exact fun h => h

theorem jobmanagerInit_fresh : ∀ job ∈ jobmanagerInit.jobs, job.id < jobmanagerInit.nextid := by
  intro job h
  exact absurd h List.not_mem_nil

def wiredShell : WiredEntry where
  manager := jobmanagerInit
  fds := standardFds
  fresh := jobmanagerInit_fresh
  stdin := 0
  stdout := 1
  stderr := 2
  std := standardFds_std
  noPipes := standardFds_noPipes

theorem pipeline_wiring_shell : Safe (startup fun _ _ _ => True)
    ⟨Wiring wiredShell [plainCommand, plainCommand], fun _ _ => True⟩ (fun _ _ => True)
    (executeCommand [plainCommand, plainCommand] plainContext) wiredShell.world :=
  pipeline_wiring _ _ _ wiredShell

end DeviceRuntime
