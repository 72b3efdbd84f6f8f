/-
# The job table over all runs

A client that goes on choosing operations on the job table in memory: a job is
added with its processes, the children are reaped, the jobs that are done are
cleaned up, a job is removed, continued or waited for. `malloc`, `waitpid`
and `kill` do what they like, and there are fewer calls of `job_add` than an
`int` has positive values.

`Treated` is what a wait or a continue does to its job. Between two operations
`TableInvariant` holds: the ids, the statuses and the processes are as they
should be, and a cleanup or a removal would take out just the jobs it is for.

Key definitions: `Treated`, `TableInvariant`, `Heap.client`, `Heap.tableWatch`,
`RunInvariant`.
Key theorems: `jobContinue_treats`, `jobWaitForeground_treats`,
`TableInvariant.kept`, `TableInvariant.sublist`, `TableInvariant.launched`,
`operation_keeps`, `heap_table_invariant`.
-/
import DeviceRuntime.JobMemory

namespace DeviceRuntime

open LinkedList Prog

/-! ### Continuing and waiting -/

section Treated

variable {α : Type} {w w' : JobHeap} {e : Entry} {next : Option ℕ}

/-- The job is kept, and its status is right if it was right before. -/
def Treated (w : JobHeap) (e : Entry) (next : Option ℕ) (w' : JobHeap) : Prop :=
  ∃ e', SameJob e e' ∧ (e.Aggregated → e'.Aggregated) ∧ Became w e next e' w'

theorem Treated.refl (h : JobAt w e next) : Treated w e next w := ⟨e, SameJob.refl e, id, Became.refl h⟩

/-- A program that returns in memory of its own. -/
theorem total_safe {Q : α → JobHeap → Prop} {p : HeapProg α} (h : Total heapWorld Q p w) :
    Safe heapWorld Watch.idle Q p w := h.safe fun _ _ hmove => hmove

theorem loadJob_safe {Q : α → JobHeap → Prop} {job : ℕ} {node : Node JobRecord} {k : Node JobRecord → HeapProg α}
    (h : w.jobs job = some node) (hk : Safe heapWorld Watch.idle Q (k node) w) :
    Safe heapWorld Watch.idle Q (.call (.loadJob job) k) w := by
  apply Safe.call_alone trivial trivial
  intro node' w' hpost
  obtain ⟨hnode, hw⟩ := hpost
  have hsame : node = node' := Option.some.inj (h.symm.trans hnode)
  rw [hw, ← hsame]
  exact hk

theorem continueGroup_idle (pgid : ℕ) :
    Safe heapWorld Watch.idle (fun _ w' => w' = w) (Heap.continueGroup pgid) w := by
  refine Safe.iter (I := fun _ w' => w' = w) (fun _ => stable_alone _) (fun _ => stable_alone _)
    (fun _ _ _ => trivial) (fun _ _ _ => trivial) ?_ rfl
  intro _ w₁ hw₁
  apply Safe.call_alone trivial trivial
  intro r w₂ hw₂
  have hw : w₂ = w := hw₂.trans hw₁
  by_cases hfail : r.ret < 0
  · rw [if_pos hfail]
    by_cases hintr : r.errno = EINTR
    · rw [if_pos hintr]
      exact Safe.ret_alone trivial hw
    · rw [if_neg hintr]
      exact Safe.ret_alone trivial hw
  · rw [if_neg hfail]
    exact Safe.ret_alone trivial hw

theorem jobContinue_treats (h : JobAt w e next) :
    Safe heapWorld Watch.idle (fun _ w' => Treated w e next w') (Heap.jobContinue (some e.addr)) w := by
  have hrefl := Treated.refl h
  unfold Heap.jobContinue
  apply loadJob_safe h.node
  dsimp only
  by_cases hpgid : e.job.pgid = 0
  · rw [if_pos hpgid]
    exact Safe.ret_alone trivial hrefl
  rw [if_neg hpgid]
  by_cases hstopped : e.job.status ≠ .stopped
  · rw [if_pos hstopped]
    exact Safe.ret_alone trivial hrefl
  rw [if_neg hstopped]
  apply (continueGroup_idle e.job.pgid).bind
  intro ret w₁ hw₁ _
  rw [hw₁]
  by_cases hret : ret < 0
  · rw [if_pos hret]
    exact Safe.ret_alone trivial hrefl
  rw [if_neg hret]
  apply loadJob_safe h.node
  have hupdated := total_safe (eachUpdated_total h resumeProcess_total)
  rw [← Prog.bind_assoc]
  apply hupdated.bind
  intro _ w' hpost _
  obtain ⟨e', hkept, haggregated, hb⟩ := hpost
  exact Safe.ret_alone trivial ⟨e', hkept, fun _ => haggregated, hb⟩

/-- A process that was found is one of the job. -/
theorem find_split {pid a : ℕ} {processes : List (ℕ × Process)}
    (h : (if pid = 0 then none else (processes.find? fun node => node.2.pid = pid).map Prod.fst) = some a) :
    ∃ l x r, processes = l ++ (a, x) :: r := by
  by_cases hpid : pid = 0
  · rw [if_pos hpid] at h
    cases h
  · rw [if_neg hpid] at h
    obtain ⟨⟨b, x⟩, hfind, hb⟩ := Option.map_eq_some_iff.mp h
    obtain ⟨-, l, r, hsplit, -⟩ := List.find?_eq_some_iff_append.mp hfind
    have hab : b = a := hb
    rw [hab] at hsplit
    exact ⟨l, x, r, hsplit⟩

/-- A process of the job is reported, and the status is computed again. -/
theorem applied_treats {a : ℕ} {x : Process} {l r : List (ℕ × Process)} (h : JobAt w e next)
    (hsplit : e.processes = l ++ (a, x) :: r) (status : WaitStatus) :
    Total heapWorld (fun _ w' => Treated w e next w')
      ((Heap.applyWaitStatus a status).bind fun _ => Heap.jobUpdateStatus e.addr) w := by
  obtain ⟨addr, job, processes⟩ := e
  have hsplit : processes = l ++ (a, x) :: r := hsplit
  rw [hsplit] at h ⊢
  apply (changeProcess_total h fun x => processApplyWaitStatus x status).bind
  intro _ w₁ hb
  refine (jobUpdateStatus_total hb.now).mono ?_
  intro _ w' hb'
  have hkept : SameJob ⟨addr, job, l ++ (a, x) :: r⟩ ⟨addr, job, l ++ (a, processApplyWaitStatus x status) :: r⟩ := by
    refine ⟨rfl, rfl, ?_⟩
    unfold pidsOf
    simp [processApplyWaitStatus]
  exact ⟨_, hkept.trans (updated_kept _), fun _ => updated_aggregated _, hb.trans hb'⟩

theorem waitTurn_treats (h : JobAt w e next) :
    Safe heapWorld Watch.idle (fun _ w' => Treated w e next w') (Heap.waitTurn e.addr) w := by
  have hrefl := Treated.refl h
  unfold Heap.waitTurn
  apply loadJob_safe h.node
  dsimp only
  by_cases hrunning : e.job.status ≠ .running
  · rw [if_pos hrunning]
    exact Safe.ret_alone trivial hrefl
  rw [if_neg hrunning]
  apply Safe.call_alone trivial trivial
  intro result w₁ hw₁
  have hw₁ : w₁ = w := hw₁
  rw [hw₁]
  cases result with
  | failed errno =>
    dsimp only
    by_cases hintr : errno = EINTR
    · rw [if_pos hintr]
      exact Safe.ret_alone trivial hrefl
    · rw [if_neg hintr]
      exact Safe.ret_alone trivial hrefl
  | nothing => exact Safe.ret_alone trivial hrefl
  | reported pid status =>
    apply (total_safe (processFind_total h)).bind
    intro found w₂ hpost _
    obtain ⟨hw₂, hfound⟩ := hpost
    rw [hw₂]
    cases hprocess : found with
    | none => exact Safe.ret_alone trivial hrefl
    | some a =>
      rw [hprocess] at hfound
      obtain ⟨l, x, r, hsplit⟩ := find_split hfound.symm
      dsimp only
      rw [← Prog.bind_assoc]
      apply (total_safe (applied_treats h hsplit status)).bind
      exact fun _ _ htreated _ => Safe.ret_alone trivial htreated

theorem jobWaitForeground_treats (h : JobAt w e next) :
    Safe heapWorld Watch.idle (fun _ w' => Treated w e next w') (Heap.jobWaitForeground (some e.addr)) w := by
  have hrefl := Treated.refl h
  unfold Heap.jobWaitForeground
  apply loadJob_safe h.node
  dsimp only
  by_cases hpgid : e.job.pgid = 0
  · rw [if_pos hpgid]
    exact Safe.ret_alone trivial hrefl
  rw [if_neg hpgid]
  refine Safe.iter (I := fun _ w' => Treated w e next w') (fun _ => stable_alone _) (fun _ => stable_alone _)
    (fun _ _ _ => trivial) (fun _ _ _ => trivial) ?_ hrefl
  intro _ w₁ hpost
  obtain ⟨e₁, hkept, haggregated, hb⟩ := hpost
  rw [← hkept.addr]
  refine (waitTurn_treats hb.now).weaken ?_
  intro x w' _ hpost
  obtain ⟨e', hkept', haggregated', hb'⟩ := hpost
  have hall : Treated w e next w' :=
    ⟨e', hkept.trans hkept', fun hagg => haggregated' (haggregated hagg), hb.trans hb'⟩
  cases x with
  | inl _ => exact hall
  | inr _ => exact hall

end Treated

/-! ### The invariant -/

/-- What holds of the table between two operations; `added` is the history of
the pids that were added to each job. -/
structure TableInvariant (w : JobHeap) (added : ℤ → List ℕ) (table : List Entry) : Prop where
  represents : Represents w table
  positive : ∀ e ∈ table, 0 < e.job.id
  decreasing : (table.map fun e => e.job.id).Pairwise fun i j => j < i
  below : ∀ e ∈ table, e.job.id < w.manager.nextid
  status : ∀ e ∈ table, e.Aggregated
  groups : ∀ e ∈ table, 0 < e.job.pgid
  inOrder : ∀ e ∈ table, pidsOf e.processes = added e.job.id

section Invariant

variable {w w' : JobHeap} {added : ℤ → List ℕ} {table table' : List Entry}

theorem kept_ids (h : List.Forall₂ SameJob table table') :
    (table'.map fun e => e.job.id) = table.map fun e => e.job.id := by
  induction h with
  | nil => rfl
  | @cons e e' table table' hkept _ ih =>
    have hid : e'.job.id = e.job.id := by rw [hkept.job]
    rw [List.map_cons, List.map_cons, ih, hid]

theorem kept_mem (h : List.Forall₂ SameJob table table') : ∀ e' ∈ table', ∃ e ∈ table, SameJob e e' := by
  induction h with
  | nil => exact fun _ he => absurd he List.not_mem_nil
  | @cons e e' table table' hkept _ ih =>
    intro f hf
    rcases List.mem_cons.mp hf with rfl | hf
    · exact ⟨e, List.mem_cons_self, hkept⟩
    · obtain ⟨g, hg, hkept'⟩ := ih f hf
      exact ⟨g, List.mem_cons_of_mem _ hg, hkept'⟩

/-- Every job is kept, and its status is right again. -/
theorem TableInvariant.kept (h : TableInvariant w added table) (hkept : List.Forall₂ SameJob table table')
    (hstatus : ∀ e ∈ table', e.Aggregated) (hrepresents : Represents w' table')
    (hnextid : w'.manager.nextid = w.manager.nextid) : TableInvariant w' added table' := by
  refine ⟨hrepresents, ?_, ?_, ?_, hstatus, ?_, ?_⟩
  · intro e' he'
    obtain ⟨e, he, hk⟩ := kept_mem hkept e' he'
    rw [hk.job]
    exact h.positive e he
  · rw [kept_ids hkept]
    exact h.decreasing
  · intro e' he'
    obtain ⟨e, he, hk⟩ := kept_mem hkept e' he'
    rw [hk.job, hnextid]
    exact h.below e he
  · intro e' he'
    obtain ⟨e, he, hk⟩ := kept_mem hkept e' he'
    rw [hk.job]
    exact h.groups e he
  · intro e' he'
    obtain ⟨e, he, hk⟩ := kept_mem hkept e' he'
    rw [hk.pids, hk.job]
    exact h.inOrder e he

/-- Some jobs are taken out. -/
theorem TableInvariant.sublist (h : TableInvariant w added table) (hsub : table'.Sublist table)
    (hrepresents : Represents w' table') (hnextid : w'.manager.nextid = w.manager.nextid) :
    TableInvariant w' added table' := by
  refine ⟨hrepresents, ?_, ?_, ?_, ?_, ?_, ?_⟩
  · exact fun e he => h.positive e (hsub.mem he)
  · exact h.decreasing.sublist (hsub.map _)
  · intro e he
    rw [hnextid]
    exact h.below e (hsub.mem he)
  · exact fun e he => h.status e (hsub.mem he)
  · exact fun e he => h.groups e (hsub.mem he)
  · exact fun e he => h.inOrder e (hsub.mem he)

/-- A new job gets the next id. -/
theorem TableInvariant.launched {e : Entry} (h : TableInvariant w added table) (hid : e.job.id = w.manager.nextid)
    (hpositive : 0 < w.manager.nextid) (hnextid : w'.manager.nextid = w.manager.nextid + 1) (hstatus : e.Aggregated)
    (hgroup : 0 < e.job.pgid) (hrepresents : Represents w' (e :: table)) :
    TableInvariant w' (Function.update added e.job.id (pidsOf e.processes)) (e :: table) := by
  refine ⟨hrepresents, ?_, ?_, ?_, ?_, ?_, ?_⟩
  · refine List.forall_mem_cons.mpr ⟨?_, h.positive⟩
    rw [hid]
    exact hpositive
  · refine List.pairwise_cons.mpr ⟨?_, h.decreasing⟩
    intro i hi
    obtain ⟨f, hf, rfl⟩ := List.mem_map.mp hi
    beta_reduce
    rw [hid]
    exact h.below f hf
  · rw [hnextid]
    refine List.forall_mem_cons.mpr ⟨?_, fun f hf => ?_⟩
    · omega
    · have hbelow := h.below f hf
      omega
  · exact List.forall_mem_cons.mpr ⟨hstatus, h.status⟩
  · exact List.forall_mem_cons.mpr ⟨hgroup, h.groups⟩
  · refine List.forall_mem_cons.mpr ⟨?_, fun f hf => ?_⟩
    · rw [Function.update_self]
    · have hne : f.job.id ≠ e.job.id := by
        have hbelow := h.below f hf
        omega
      rw [Function.update_of_ne hne]
      exact h.inOrder f hf

end Invariant

/-! ### The client -/

namespace Heap

/-- The pids that `process_add` took, one after the other. -/
def processAdds (job : Option ℕ) : List ℤ → HeapProg (List ℕ)
  | [] => .ret []
  | pid :: pids => (processAdd job pid).bind fun ret => (processAdds job pids).bind fun added =>
      .ret (if ret = 0 then pid.toNat :: added else added)

inductive Operation
  | launch (pgid : ℤ) (command : Option (List Byte)) (pids : List ℤ)
  | reap
  | cleanupDone
  | remove (pgid : ℤ)
  | continue (job : Option ℕ)
  | waitForeground (job : Option ℕ)

/-- A new job is returned with the pids that were added. -/
def operation : Operation → HeapProg (Option (ℕ × List ℕ))
  | .launch pgid command pids => (jobAdd pgid command).bind fun job => (processAdds job pids).bind fun added =>
      .ret (job.map fun job => (job, added))
  | .reap => jobReap.bind fun _ => .ret none
  | .cleanupDone => jobCleanupDone.bind fun _ => .ret none
  | .remove pgid => (jobRemove pgid).bind fun _ => .ret none
  | .continue job => (jobContinue job).bind fun _ => .ret none
  | .waitForeground job => (jobWaitForeground job).bind fun _ => .ret none

/-- How often `job_add` is called. -/
def Operation.launches : Operation → ℕ
  | .launch _ _ _ => 1
  | _ => 0

inductive ClientCall
  | idle
  | heap (c : HeapCall)
  | done (launched : Option (ℕ × List ℕ))

abbrev ClientCall.Ret : ClientCall → Type
  | .idle => Operation
  | .heap c => c.Ret
  | .done _ => Unit

/-- Operation after operation, for ever. -/
def client : Prog ClientCall ClientCall.Ret Empty :=
  (jobmanagerInit.link fun c => .call (.heap c) .ret).bind fun _ =>
  .iter (fun _ => .call ClientCall.idle fun op =>
    ((operation op).link fun c => .call (.heap c) .ret).bind fun launched =>
    .call (.done launched) fun _ => .ret (.inl ())) ()

/-- Memory, the number of calls of `job_add`, and for each id the pids that were
added to the job in their order. -/
structure TableRun where
  heap : JobHeap
  launches : ℕ
  added : ℤ → List ℕ

/-- A pointer is null or points to a job of the table. -/
def Valid (w : JobHeap) (job : Option ℕ) : Prop :=
  ∀ a, job = some a → ∃ table, Represents w table ∧ a ∈ table.map Entry.addr

/-- What may be asked for next. -/
def Operation.Allowed (s : TableRun) : Operation → Prop
  | .launch _ _ _ => s.launches + 1 < 2 ^ 31 - 1
  | .continue job => Valid s.heap job
  | .waitForeground job => Valid s.heap job
  | _ => True

def TableRun.record (s : TableRun) : Option (ℕ × List ℕ) → TableRun
  | none => s
  | some (job, pids) => match s.heap.jobs job with
    | none => s
    | some node => { s with added := Function.update s.added node.val.id pids }

def clientSem (s : TableRun) : (c : ClientCall) → c.Ret → TableRun → Prop
  | .idle, op, s' => op.Allowed s ∧ s' = { s with launches := s.launches + op.launches }
  | .heap c, r, s' => ∃ w, jobHeapSem s.heap c r w ∧ s' = { s with heap := w }
  | .done launched, _, s' => s' = s.record launched

abbrev clientWorld : World ClientCall ClientCall.Ret TableRun := World.alone clientSem

/-- Between two operations the table is as it should be, and `job_cleanup_done`
and `job_remove` would return and leave all jobs but those they are for. -/
def tableWatch : Watch ClientCall TableRun where
  always _ := True
  atCall c s := match c with
    | .idle => ∃ table, TableInvariant s.heap s.added table ∧
        Total heapWorld (fun _ w' => Represents w' (table.filter fun e => e.job.status ≠ .done))
          jobCleanupDone s.heap ∧
        ∀ pgid : ℤ, Total heapWorld (fun _ w' => Represents w' (table.eraseP fun e => (e.job.pgid : ℤ) = pgid))
          (jobRemove pgid) s.heap
    | _ => True

end Heap

/-! ### One operation -/

/-- A job that was just added, with more processes. -/
structure Extended (e e' : Entry) (added : List ℕ) : Prop where
  id : e'.job.id = e.job.id
  pgid : e'.job.pgid = e.job.pgid
  status : e'.job.status = e.job.status
  pids : pidsOf e'.processes = pidsOf e.processes ++ added
  running : (∀ x ∈ vals e.processes, x.status = .running) → ∀ x ∈ vals e'.processes, x.status = .running

section Operation

variable {w w' : JobHeap} {e e' : Entry} {next : Option ℕ} {table : List Entry}

theorem with_extended (e : Entry) (a pid : ℕ) : Extended e (e.with a ⟨pid, .running, none⟩) [pid] := by
  refine ⟨rfl, rfl, rfl, ?_, ?_⟩
  · unfold Entry.with pidsOf
    rw [vals_append, List.map_append]
    rfl
  · intro hrunning x hx
    unfold Entry.with at hx
    rw [vals_append, List.mem_append] at hx
    rcases hx with hx | hx
    · exact hrunning x hx
    · rw [List.mem_singleton.mp hx]

theorem Extended.trans {e'' : Entry} {added added' : List ℕ} (h : Extended e e' added) (h' : Extended e' e'' added') :
    Extended e e'' (added ++ added') := by
  refine ⟨h'.id.trans h.id, h'.pgid.trans h.pgid, h'.status.trans h.status, ?_, ?_⟩
  · rw [h'.pids, h.pids, List.append_assoc]
  · exact fun hall => h'.running (h.running hall)

theorem processAdds_total : ∀ (pids : List ℤ) {w : JobHeap} {e : Entry}, JobAt w e next →
    Total heapWorld (fun added w' => ∃ e', Extended e e' added ∧ Became w e next e' w')
      (Heap.processAdds (some e.addr) pids) w
  | [], w, e, h => .ret ⟨e, ⟨rfl, rfl, rfl, (List.append_nil _).symm, id⟩, Became.refl h⟩
  | pid :: pids, w, e, h => by
    unfold Heap.processAdds
    apply (processAdd_total h).bind
    intro ret w₁ hadded
    rcases hadded with ⟨hret, hw₁⟩ | ⟨hret, a, hb⟩
    · rw [hw₁]
      apply (processAdds_total pids h).bind
      intro added w' hrest
      have hfailed : ¬ (-1 : ℤ) = 0 := by decide
      rw [hret, if_neg hfailed]
      exact .ret hrest
    · have hrest := processAdds_total pids hb.now
      rw [hb.addr] at hrest
      apply hrest.bind
      intro added w' hpost
      obtain ⟨e', hextended, hb'⟩ := hpost
      rw [if_pos hret]
      exact .ret ⟨e', (with_extended e a pid.toNat).trans hextended, hb.trans hb'⟩

/-- Nothing is added to no job. -/
theorem processAdds_none : ∀ pids : List ℤ,
    Total heapWorld (fun _ w' => w' = w) (Heap.processAdds none pids) w
  | [] => .ret rfl
  | _ :: pids => (processAdds_none pids).bind fun _ _ hw => .ret hw

theorem extended_aggregated {added : List ℕ} (h : Extended e e' added) (hnil : e.processes = [])
    (hstatus : e.job.status = .running) : e'.Aggregated := by
  intro hsome
  have hrunning : ∀ x ∈ vals e'.processes, x.status = .running := by
    apply h.running
    rw [hnil]
    exact fun x hx => absurd hx List.not_mem_nil
  obtain ⟨⟨a, x⟩, hx⟩ := List.exists_mem_of_ne_nil _ hsome
  have hmem : x ∈ vals e'.processes := List.mem_map_of_mem hx
  have hany : ((vals e'.processes).any fun process => process.status = .running) = true :=
    List.any_eq_true.mpr ⟨x, hmem, decide_eq_true (hrunning x hmem)⟩
  unfold statusOf
  rw [if_pos hany, h.status, hstatus]

theorem kept_middle {l r : List Entry} (h : SameJob e e') : List.Forall₂ SameJob (l ++ e :: r) (l ++ e' :: r) := by
  induction l with
  | nil => exact .cons h (List.forall₂_same.mpr fun f _ => SameJob.refl f)
  | cons f l ih => exact .cons (SameJob.refl f) ih

theorem int_eq {i : ℤ} (h0 : 0 ≤ i) (h1 : i < 2 ^ 31) : Heap.int i = i := by
  unfold Heap.int
  exact Int.bmod_eq_of_le (by omega) (by omega)

/-- A pointer to a job of the table is one of this table. -/
theorem valid_split {a : ℕ} (h : Represents w table) (hvalid : Heap.Valid w (some a)) :
    ∃ l e r, table = l ++ e :: r ∧ e.addr = a := by
  obtain ⟨table', htable', hmem⟩ := hvalid a rfl
  have hnodes : table'.map Entry.node = table.map Entry.node :=
    htable'.jobs.unique h.jobs (htable'.head.symm.trans h.head)
  have haddrs : table'.map Entry.addr = table.map Entry.addr := by
    have hfst := congrArg (List.map Prod.fst) hnodes
    rw [List.map_map, List.map_map] at hfst
    exact hfst
  rw [haddrs] at hmem
  obtain ⟨e, he, ha⟩ := List.mem_map.mp hmem
  obtain ⟨l, r, hsplit⟩ := List.append_of_mem he
  exact ⟨l, e, r, hsplit, ha⟩

end Operation

/-! ### Every run -/

/-- The invariant of the runs: `nextid` counts the jobs that were added. -/
structure RunInvariant (s : Heap.TableRun) (table : List Entry) : Prop where
  table : TableInvariant s.heap s.added table
  nextid : 0 < s.heap.manager.nextid
  counted : s.heap.manager.nextid ≤ s.launches + 1
  few : s.launches < 2 ^ 31 - 1

/-- The run after an operation, before it is recorded. -/
def Heap.TableRun.after (s : Heap.TableRun) (op : Heap.Operation) (w : JobHeap) : Heap.TableRun :=
  ⟨w, s.launches + op.launches, s.added⟩

/-- What an operation has to leave. -/
def Leaves (s : Heap.TableRun) (op : Heap.Operation) (launched : Option (ℕ × List ℕ)) (w : JobHeap) : Prop :=
  ∃ table, RunInvariant ((s.after op w).record launched) table

section Runs

variable {s : Heap.TableRun} {table table' : List Entry} {w' : JobHeap}

/-- An operation that adds no job. -/
theorem RunInvariant.same (h : RunInvariant s table) {op : Heap.Operation} (hop : op.launches = 0)
    (htable : TableInvariant w' s.added table') (hnextid : w'.manager.nextid = s.heap.manager.nextid) :
    Leaves s op none w' := by
  have hnow : s.after op w' = ⟨w', s.launches, s.added⟩ := by
    unfold Heap.TableRun.after
    rw [hop, Nat.add_zero]
  refine ⟨table', ?_⟩
  unfold Heap.TableRun.record
  dsimp only
  rw [hnow]
  refine ⟨htable, ?_, ?_, h.few⟩
  · dsimp only
    rw [hnextid]
    exact h.nextid
  · dsimp only
    rw [hnextid]
    exact h.counted

theorem RunInvariant.treated {l r : List Entry} {e : Entry} (h : RunInvariant s (l ++ e :: r)) {op : Heap.Operation}
    (hop : op.launches = 0) (htreated : Treated s.heap e (first (r.map Entry.node)) w') : Leaves s op none w' := by
  obtain ⟨e', hkept, haggregated, hb⟩ := htreated
  have hnextid : w'.manager.nextid = s.heap.manager.nextid := by rw [hb.manager]
  have hstatus : ∀ f ∈ l ++ e' :: r, f.Aggregated := by
    intro f hf
    rcases mem_middle hf with rfl | hf
    · exact haggregated (h.table.status e (List.mem_append_right _ List.mem_cons_self))
    · exact h.table.status f (mem_others hf)
  exact h.same hop (h.table.kept (kept_middle hkept) hstatus (h.table.represents.became hb) hnextid) hnextid

theorem launch_total (h : RunInvariant s table) {pgid : ℤ} {command : Option (List Byte)} {pids : List ℤ}
    (hallowed : s.launches + 1 < 2 ^ 31 - 1) :
    Total heapWorld (Leaves s (.launch pgid command pids)) (Heap.operation (.launch pgid command pids)) s.heap := by
  have hnextid := h.nextid
  have hcounted := h.counted
  unfold Heap.operation
  apply (jobAdd_total h.table.represents pgid command).bind
  intro job w₁ hadded
  rcases hadded with ⟨hjob, hw₁⟩ | ⟨a, command, hjob, hpgid, hrepresents, hint⟩
  · rw [hjob, hw₁]
    apply (processAdds_none pids).bind
    intro added w' hw'
    rw [hw']
    have hmore : s.heap.manager.nextid ≤ ((s.launches + 1 : ℕ) : ℤ) + 1 := by
      push_cast
      omega
    exact .ret ⟨table, h.table, hnextid, hmore, hallowed⟩
  · rw [hjob]
    apply (processAdds_total pids (hrepresents.jobAt (l := []))).bind
    intro added w' hpost
    obtain ⟨e', hextended, hb⟩ := hpost
    have hnow : Represents w' (e' :: table) := hrepresents.became (l := []) hb
    have hnode : w'.jobs a = some ⟨e'.job, first (table.map Entry.node)⟩ := by
      rw [← show e'.addr = a from hb.addr]
      exact hb.now.node
    have hsucc : w'.manager.nextid = s.heap.manager.nextid + 1 := by
      rw [hb.manager, hint]
      exact int_eq (by omega) (by omega)
    have hid' : e'.job.id = s.heap.manager.nextid := hextended.id
    have hgroup : 0 < e'.job.pgid := by
      have hsame : e'.job.pgid = pgid.toNat := hextended.pgid
      omega
    have htable := h.table.launched hid' hnextid hsucc (extended_aggregated hextended rfl rfl) hgroup hnow
    have hpids : pidsOf e'.processes = added := hextended.pids
    rw [hpids] at htable
    refine .ret ⟨e' :: table, ?_⟩
    unfold Heap.TableRun.record Heap.TableRun.after Heap.Operation.launches
    dsimp only [Option.map_some]
    rw [hnode]
    refine ⟨htable, ?_, ?_, hallowed⟩
    · dsimp only
      omega
    · dsimp only
      push_cast
      omega

/-- Every operation leaves a table that is as it should be. -/
theorem operation_keeps (h : RunInvariant s table) (op : Heap.Operation) (hallowed : op.Allowed s) :
    Safe heapWorld Watch.idle (Leaves s op) (Heap.operation op) s.heap := by
  cases op with
  | launch pgid command pids => exact total_safe (launch_total h hallowed)
  | reap =>
    apply total_safe
    apply (jobReap_total h.table.represents).bind
    intro _ w' hpost
    obtain ⟨table', hkept, hstatus, hrepresents, hmanager⟩ := hpost
    have hnextid : w'.manager.nextid = s.heap.manager.nextid := by rw [hmanager]
    exact .ret (h.same rfl (h.table.kept hkept hstatus hrepresents hnextid) hnextid)
  | cleanupDone =>
    apply total_safe
    apply (jobCleanupDone_total h.table.represents).bind
    intro _ w' hpost
    exact .ret (h.same rfl (h.table.sublist List.filter_sublist hpost.1 hpost.2) hpost.2)
  | remove pgid =>
    apply total_safe
    apply (jobRemove_total h.table.represents h.table.groups pgid).bind
    intro _ w' hpost
    exact .ret (h.same rfl (h.table.sublist List.eraseP_sublist hpost.1 hpost.2) hpost.2)
  | «continue» job =>
    cases job with
    | none => exact Safe.ret_alone trivial (h.same rfl h.table rfl)
    | some a =>
      obtain ⟨l, e, r, hsplit, ha⟩ := valid_split h.table.represents hallowed
      rw [hsplit] at h
      rw [← ha]
      apply (jobContinue_treats h.table.represents.jobAt).bind
      exact fun _ _ htreated _ => Safe.ret_alone trivial (h.treated rfl htreated)
  | waitForeground job =>
    cases job with
    | none => exact Safe.ret_alone trivial (h.same rfl h.table rfl)
    | some a =>
      obtain ⟨l, e, r, hsplit, ha⟩ := valid_split h.table.represents hallowed
      rw [hsplit] at h
      rw [← ha]
      apply (jobWaitForeground_treats h.table.represents.jobAt).bind
      exact fun _ _ htreated _ => Safe.ret_alone trivial (h.treated rfl htreated)

/-- The calls on memory of the client. -/
abbrev memoryWorld : World HeapCall HeapCall.Ret Heap.TableRun :=
  World.alone fun s c r s' => Heap.clientSem s (.heap c) r s'

/-- A function on memory as a part of the client. -/
theorem lift_safe {α : Type} {Q : α → JobHeap → Prop} {p : HeapProg α} (h : Safe heapWorld Watch.idle Q p s.heap) :
    Safe Heap.clientWorld Heap.tableWatch
      (fun a s' => Q a s'.heap ∧ s'.launches = s.launches ∧ s'.added = s.added)
      (p.link fun c => .call (.heap c) .ret) s := by
  have hsem : ∀ s₁ c r s₂, memoryWorld.sem s₁ c r s₂ → heapWorld.sem s₁.heap c r s₂.heap := by
    intro s₁ c r s₂ hs
    obtain ⟨w, hw, hs₂⟩ := hs
    rw [hs₂]
    exact hw
  have hproject := Safe.project (M := memoryWorld) (N := heapWorld) Heap.TableRun.heap (fun _ _ he => he.elim) hsem h
  have hkept := hproject.invariant (I := fun s' => s'.launches = s.launches ∧ s'.added = s.added)
    (fun _ _ _ _ (he : False) => he.elim) ?_ ⟨rfl, rfl⟩
  · have hboth := hkept.weaken fun a s' halways hq => And.intro hq halways.2
    exact hboth.embed Heap.ClientCall.heap (fun _ r => r) (fun _ _ he => he) (fun _ _ _ _ hs => hs)
      (fun _ _ => trivial) (fun _ _ _ => trivial)
  · intro s₁ c r s₂ _ _ hI hs
    obtain ⟨w, -, hs₂⟩ := hs
    rw [hs₂]
    exact hI

/-- The table as `jobmanager_init` leaves it, in any memory. -/
theorem RunInvariant.initial (w : JobHeap) : RunInvariant ⟨{ w with manager := ⟨none, 1⟩ }, 0, fun _ => []⟩ [] := by
  have hnone : ∀ {P : Entry → Prop}, ∀ e ∈ ([] : List Entry), P e := fun e he => absurd he List.not_mem_nil
  have hrepresents : Represents { w with manager := ⟨none, 1⟩ } [] := ⟨rfl, trivial, hnone, hnone, List.Pairwise.nil⟩
  refine ⟨⟨hrepresents, hnone, List.Pairwise.nil, hnone, hnone, hnone, hnone⟩, Int.one_pos, le_refl 1, ?_⟩
  show 0 < 2 ^ 31 - 1
  decide

/-- Between any two operations the table is as it should be. -/
theorem RunInvariant.watched (h : RunInvariant s table) : Heap.tableWatch.atCall .idle s := by
  refine ⟨table, h.table, ?_, ?_⟩
  · exact (jobCleanupDone_total h.table.represents).mono fun _ _ hpost => hpost.1
  · exact fun pgid => (jobRemove_total h.table.represents h.table.groups pgid).mono fun _ _ hpost => hpost.1

/-- From `jobmanager_init` on, whatever `malloc`, `waitpid` and `kill` return, the
table is as it should be between any two operations. -/
theorem heap_table_invariant (w : JobHeap) :
    Safe Heap.clientWorld Heap.tableWatch (fun _ _ => True) Heap.client ⟨w, 0, fun _ => []⟩ := by
  apply Safe.call_alone trivial trivial
  intro _ s₀ hs₀
  obtain ⟨w₀, hw₀, hs₀⟩ := hs₀
  have hw₀ : w₀ = { w with manager := ⟨none, 1⟩ } := hw₀
  rw [hs₀, hw₀]
  refine Safe.iter (I := fun _ s => ∃ table, RunInvariant s table) (fun _ => stable_alone _) (fun _ => stable_alone _)
    (fun _ _ _ => trivial) (fun _ _ _ => trivial) ?_ ⟨[], RunInvariant.initial w⟩
  intro _ s hrun
  obtain ⟨table, hrun⟩ := hrun
  apply Safe.call_alone trivial hrun.watched
  intro op s₁ hs₁
  obtain ⟨hallowed, hs₁⟩ := hs₁
  rw [hs₁]
  have hop := operation_keeps hrun op hallowed
  have hlift := lift_safe (s := { s with launches := s.launches + op.launches }) hop
  apply hlift.bind
  intro launched s₂ hpost _
  obtain ⟨hleaves, hlaunches, hadded⟩ := hpost
  apply Safe.call_alone trivial trivial
  intro _ s₃ hs₃
  have hafter : s.after op s₂.heap = s₂ := by
    dsimp only at hlaunches hadded
    unfold Heap.TableRun.after
    rw [← hadded, ← hlaunches]
  refine Safe.ret_alone trivial ?_
  unfold Leaves at hleaves
  rw [hafter, ← show s₃ = s₂.record launched from hs₃] at hleaves
  exact hleaves

end Runs

end DeviceRuntime
