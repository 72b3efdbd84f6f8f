/-
# What the functions on jobs do to memory

An `Entry` is a job with the addresses of its nodes, and `Represents` says that
the jobs of a table, and the processes of each, are the linked lists that
start at `head`. A function that is called for one job changes only the nodes
of that job (`Became`), so a table with the job in it stays a table with the
job changed (`Represents.became`).

Every function that does not wait returns, whatever memory there is besides
the table. In `DeviceRuntime.Job` the table is a list; the removals and the
status of a job do to the list what is done here to memory (`Lists`).

Key definitions: `Entry`, `JobAt`, `Became`, `Represents`, `SameJob`, `Lists`.
Key theorems: `Became.trans`, `Represents.became`, `jobUnlink_total`,
`jobUpdateStatus_total`, `processAdd_total`, `jobReap_total`,
`jobCleanupDone_total`, `jobRemove_total`, `jobFind_refines`,
`jobCleanupDone_refines`, `jobRemove_refines`.
-/
import DeviceRuntime.JobHeap

namespace DeviceRuntime

open LinkedList Prog

/-- A job of the table with the address of its node, and its processes with
theirs. -/
structure Entry where
  addr : ℕ
  job : JobRecord
  processes : List (ℕ × Process)

def Entry.node (e : Entry) : ℕ × JobRecord := (e.addr, e.job)

/-- The nodes of its processes. -/
def Entry.owned (e : Entry) : List ℕ := addrs e.processes

/-- The job is in memory, with `next` as the pointer to the job after it. -/
structure JobAt (w : JobHeap) (e : Entry) (next : Option ℕ) : Prop where
  node : w.jobs e.addr = some ⟨e.job, next⟩
  first : e.job.processes = first e.processes
  chain : Chain w.processes e.processes

/-- The job `e` became `e'`, and the other nodes are as they were. -/
structure Became (w : JobHeap) (e : Entry) (next : Option ℕ) (e' : Entry) (w' : JobHeap) : Prop where
  now : JobAt w' e' next
  addr : e'.addr = e.addr
  owned : ∀ a ∈ e'.owned, a ∈ e.owned ∨ w.processes a = none
  manager : w'.manager = w.manager
  jobs : ∀ a, a ≠ e.addr → w'.jobs a = w.jobs a
  processes : ∀ a, w.processes a ≠ none → a ∉ e.owned → w'.processes a = w.processes a

/-- The table is in memory. No process is in two jobs. -/
structure Represents (w : JobHeap) (table : List Entry) : Prop where
  head : w.manager.head = first (table.map Entry.node)
  jobs : Chain w.jobs (table.map Entry.node)
  firsts : ∀ e ∈ table, e.job.processes = first e.processes
  chains : ∀ e ∈ table, Chain w.processes e.processes
  disjoint : table.Pairwise fun e f => List.Disjoint e.owned f.owned

section Became

variable {w w' w'' : JobHeap} {e e' e'' : Entry} {next : Option ℕ}

theorem Became.refl (h : JobAt w e next) : Became w e next e w :=
  ⟨h, rfl, fun _ ha => Or.inl ha, rfl, fun _ _ => rfl, fun _ _ _ => rfl⟩

theorem Became.trans (h : Became w e next e' w') (h' : Became w' e' next e'' w'') : Became w e next e'' w'' := by
  refine ⟨h'.now, h'.addr.trans h.addr, ?_, h'.manager.trans h.manager, ?_, ?_⟩
  · intro a ha
    by_cases hfree : w.processes a = none
    · exact Or.inr hfree
    · refine Or.inl ?_
      by_contra hother
      rcases h'.owned a ha with howned | hfree'
      · exact (h.owned a howned).elim hother hfree
      · rw [h.processes a hfree hother] at hfree'
        exact hfree hfree'
  · intro a ha
    have ha' : a ≠ e'.addr := by
      rw [h.addr]
      exact ha
    rw [h'.jobs a ha', h.jobs a ha]
  · intro a halloc hother
    have hsame := h.processes a halloc hother
    have hother' : a ∉ e'.owned := fun howned => (h.owned a howned).elim hother halloc
    have halloc' : w'.processes a ≠ none := by
      rw [hsame]
      exact halloc
    rw [h'.processes a halloc' hother', hsame]

/-- A write to the node of the job itself. -/
theorem Became.setJob (h : JobAt w e next) {job : JobRecord} (hfirst : job.processes = e.job.processes) :
    Became w e next { e with job := job } (w.setJob e.addr ⟨job, next⟩) := by
  refine ⟨⟨write_self .., ?_, h.chain⟩, rfl, fun _ ha => Or.inl ha, rfl, ?_, fun _ _ _ => rfl⟩
  · dsimp only
    rw [hfirst]
    exact h.first
  · exact fun a ha => write_of_ne _ _ ha

/-- A write to the node of one of its processes. -/
theorem Became.setProcess {addr a : ℕ} {job : JobRecord} {x y : Process} {l r : List (ℕ × Process)}
    (h : JobAt w ⟨addr, job, l ++ (a, x) :: r⟩ next) :
    Became w ⟨addr, job, l ++ (a, x) :: r⟩ next ⟨addr, job, l ++ (a, y) :: r⟩
      (w.setProcess a ⟨y, LinkedList.first r⟩) := by
  have hchain : Chain w.processes (l ++ (a, x) :: r) := h.chain
  have hnodup := hchain.right.nodup
  rw [addrs_cons, List.nodup_cons] at hnodup
  refine ⟨⟨h.node, ?_, hchain.relink hchain.right.2 hnodup.1⟩, rfl, ?_, rfl, fun _ _ => rfl, ?_⟩
  · exact h.first.trans (first_append_cons ..)
  · intro b hb
    unfold Entry.owned at hb ⊢
    simp only [addrs_append, addrs_cons] at hb ⊢
    exact Or.inl hb
  · intro b _ hb
    apply write_of_ne
    intro hba
    apply hb
    unfold Entry.owned
    rw [hba]
    simp

end Became

section Represents

variable {w w' : JobHeap} {e e' : Entry} {l r : List Entry}

theorem Represents.jobAt (h : Represents w (l ++ e :: r)) : JobAt w e (first (r.map Entry.node)) := by
  have hjobs := h.jobs
  rw [List.map_append, List.map_cons] at hjobs
  have hmem : e ∈ l ++ e :: r := List.mem_append_right _ List.mem_cons_self
  exact ⟨hjobs.node, h.firsts e hmem, h.chains e hmem⟩

theorem disjoint_middle : (l ++ e :: r).Pairwise (fun e f => List.Disjoint e.owned f.owned) ↔
    (∀ f ∈ l ++ r, List.Disjoint e.owned f.owned) ∧
      (l ++ r).Pairwise fun e f => List.Disjoint e.owned f.owned := by
  rw [List.pairwise_middle fun h => List.disjoint_symm h, List.pairwise_cons]

theorem first_entry (e : Entry) (table : List Entry) : first ((e :: table).map Entry.node) = some e.addr := rfl

theorem mem_middle {f : Entry} (h : f ∈ l ++ e' :: r) : f = e' ∨ f ∈ l ++ r := by
  simp only [List.mem_append, List.mem_cons] at h ⊢
  tauto

theorem mem_others {f : Entry} (h : f ∈ l ++ r) : f ∈ l ++ e :: r := by
  simp only [List.mem_append, List.mem_cons] at h ⊢
  tauto

/-- The table with one job changed. -/
theorem Represents.became (h : Represents w (l ++ e :: r)) (hb : Became w e (first (r.map Entry.node)) e' w') :
    Represents w' (l ++ e' :: r) := by
  have hjobs := h.jobs
  rw [List.map_append, List.map_cons] at hjobs
  have hnodup := hjobs.right.nodup
  have hwrite : ∀ a, w'.jobs a = w.jobs.write e.addr ⟨e'.job, first (r.map Entry.node)⟩ a := by
    intro a
    by_cases ha : a = e.addr
    · rw [ha, write_self, ← hb.addr]
      exact hb.now.node
    · rw [write_of_ne _ _ ha]
      exact hb.jobs a ha
  obtain ⟨hdisjoint, hothers⟩ := disjoint_middle.mp h.disjoint
  have hkept : ∀ f ∈ l ++ r, ∀ a ∈ f.owned, w'.processes a = w.processes a := by
    intro f hf a ha
    have halloc := (h.chains f (mem_others hf)).allocated ha
    exact hb.processes a halloc fun howned => hdisjoint f hf howned ha
  refine ⟨?_, ?_, ?_, ?_, ?_⟩
  · have hhead := h.head
    rw [List.map_append, List.map_cons] at hhead ⊢
    rw [hb.manager, hhead]
    unfold Entry.node
    rw [hb.addr]
    exact first_append_cons ..
  · rw [List.map_append, List.map_cons]
    unfold Entry.node at hjobs hnodup ⊢
    rw [hb.addr]
    exact (hjobs.relink hjobs.right.2 (List.nodup_cons.mp hnodup).1).congr fun a _ => hwrite a
  · intro f hf
    rcases mem_middle hf with rfl | hf
    · exact hb.now.first
    · exact h.firsts f (mem_others hf)
  · intro f hf
    rcases mem_middle hf with rfl | hf
    · exact hb.now.chain
    · exact (h.chains f (mem_others hf)).congr (hkept f hf)
  · refine disjoint_middle.mpr ⟨?_, hothers⟩
    intro f hf a ha haf
    rcases hb.owned a ha with howned | hfree
    · exact hdisjoint f hf howned haf
    · exact (h.chains f (mem_others hf)).allocated haf hfree

end Represents

/-! ### Calls -/

section Calls

variable {α : Type} {Q : α → JobHeap → Prop} {w : JobHeap}

theorem total_loadManager {k : ManagerRecord → HeapProg α} (hk : Total heapWorld Q (k w.manager) w) :
    Total heapWorld Q (.call .loadManager k) w := by
  refine .call ⟨w.manager, w, rfl, rfl⟩ ?_
  rintro _ _ ⟨rfl, rfl⟩
  exact hk

theorem total_storeManager {m : ManagerRecord} {k : Unit → HeapProg α}
    (hk : Total heapWorld Q (k ()) { w with manager := m }) : Total heapWorld Q (.call (.storeManager m) k) w := by
  refine .call ⟨(), _, rfl⟩ ?_
  rintro _ _ rfl
  exact hk

theorem total_loadJob {job : ℕ} {node : Node JobRecord} {k : Node JobRecord → HeapProg α}
    (h : w.jobs job = some node) (hk : Total heapWorld Q (k node) w) :
    Total heapWorld Q (.call (.loadJob job) k) w := by
  refine .call ⟨node, w, h, rfl⟩ ?_
  rintro node' _ ⟨hnode, rfl⟩
  obtain rfl : node = node' := Option.some.inj (h.symm.trans hnode)
  exact hk

theorem total_storeJob {job : ℕ} {node : Node JobRecord} {k : Unit → HeapProg α} (h : w.jobs job ≠ none)
    (hk : Total heapWorld Q (k ()) (w.setJob job node)) : Total heapWorld Q (.call (.storeJob job node) k) w := by
  refine .call ⟨(), _, h, rfl⟩ ?_
  rintro _ _ ⟨-, rfl⟩
  exact hk

theorem total_freeJob {job : ℕ} {k : Unit → HeapProg α} (h : w.jobs job ≠ none)
    (hk : Total heapWorld Q (k ()) { w with jobs := w.jobs.free job }) :
    Total heapWorld Q (.call (.freeJob job) k) w := by
  refine .call ⟨(), _, h, rfl⟩ ?_
  rintro _ _ ⟨-, rfl⟩
  exact hk

theorem total_loadProcess {process : ℕ} {node : Node Process} {k : Node Process → HeapProg α}
    (h : w.processes process = some node) (hk : Total heapWorld Q (k node) w) :
    Total heapWorld Q (.call (.loadProcess process) k) w := by
  refine .call ⟨node, w, h, rfl⟩ ?_
  rintro node' _ ⟨hnode, rfl⟩
  obtain rfl : node = node' := Option.some.inj (h.symm.trans hnode)
  exact hk

theorem total_storeProcess {process : ℕ} {node : Node Process} {k : Unit → HeapProg α}
    (h : w.processes process ≠ none) (hk : Total heapWorld Q (k ()) (w.setProcess process node)) :
    Total heapWorld Q (.call (.storeProcess process node) k) w := by
  refine .call ⟨(), _, h, rfl⟩ ?_
  rintro _ _ ⟨-, rfl⟩
  exact hk

theorem total_freeProcess {process : ℕ} {k : Unit → HeapProg α} (h : w.processes process ≠ none)
    (hk : Total heapWorld Q (k ()) { w with processes := w.processes.free process }) :
    Total heapWorld Q (.call (.freeProcess process) k) w := by
  refine .call ⟨(), _, h, rfl⟩ ?_
  rintro _ _ ⟨-, rfl⟩
  exact hk

/-- A call that changes no memory, with any result. -/
theorem total_any {c : HeapCall} {k : c.Ret → HeapProg α} (r : c.Ret) (hsem : ∀ r w', jobHeapSem w c r w' ↔ w' = w)
    (hk : ∀ r, Total heapWorld Q (k r) w) : Total heapWorld Q (.call c k) w := by
  refine .call ⟨r, w, (hsem r w).mpr rfl⟩ ?_
  intro r w' hs
  rw [(hsem r w').mp hs]
  exact hk r

theorem updateJob_total {job : ℕ} {node : Node JobRecord} {f : Node JobRecord → Node JobRecord}
    {Q : Unit → JobHeap → Prop} (h : w.jobs job = some node) (hQ : Q () (w.setJob job (f node))) :
    Total heapWorld Q (Heap.updateJob job f) w := by
  apply total_loadJob h
  apply total_storeJob
  · rw [h]
    exact Option.some_ne_none _
  · exact .ret hQ

theorem updateJob_bind {job : ℕ} {node : Node JobRecord} {f : Node JobRecord → Node JobRecord} {k : Unit → HeapProg α}
    (h : w.jobs job = some node) (hk : Total heapWorld Q (k ()) (w.setJob job (f node))) :
    Total heapWorld Q ((Heap.updateJob job f).bind k) w := by
  apply (updateJob_total (Q := fun _ w' => w' = w.setJob job (f node)) h rfl).bind
  intro _ w' hw
  rw [hw]
  exact hk

theorem updateProcess_total {process : ℕ} {node : Node Process} {f : Node Process → Node Process}
    {Q : Unit → JobHeap → Prop} (h : w.processes process = some node) (hQ : Q () (w.setProcess process (f node))) :
    Total heapWorld Q (Heap.updateProcess process f) w := by
  apply total_loadProcess h
  apply total_storeProcess
  · rw [h]
    exact Option.some_ne_none _
  · exact .ret hQ

end Calls

/-! ### One job -/

section Job

variable {w : JobHeap} {e : Entry} {next : Option ℕ}

/-- The status that a job with these processes should have. -/
def statusOf (processes : List Process) : JobStatus :=
  if processes.any fun process => process.status = .running then .running
  else if processes.any fun process => process.status = .stopped then .stopped
  else .done

/-- The job after `job_update_status`. -/
def Entry.updated (e : Entry) : Entry :=
  if e.processes = [] then e else { e with job := { e.job with status := statusOf (vals e.processes) } }

theorem countStatus_total : ∀ {l : List (ℕ × Process)} (hasRunning hasStopped : Bool), Chain w.processes l →
    Total heapWorld (fun r w' => w' = w ∧
      r.1 = (hasRunning || (vals l).any fun process => process.status = .running) ∧
      r.2 = (hasStopped || (vals l).any fun process => process.status = .stopped))
      (.iter Heap.countStatus (first l, hasRunning, hasStopped)) w
  | [], hasRunning, hasStopped, _ => by
    refine .loop (.ret ⟨rfl, ?_, ?_⟩)
    · exact (Bool.or_false _).symm
    · exact (Bool.or_false _).symm
  | (a, x) :: l, hasRunning, hasStopped, h => by
    refine .loop (total_loadProcess h.1 ?_)
    refine (countStatus_total _ _ h.2).mono ?_
    intro r w' hr
    rw [hr.2.1, hr.2.2, vals_cons, List.any_cons, List.any_cons, Bool.or_assoc, Bool.or_assoc]
    exact ⟨hr.1, rfl, rfl⟩

theorem JobAt.empty (h : JobAt w e next) : e.job.processes = none ↔ e.processes = [] := by
  rw [h.first]
  cases e.processes with
  | nil => exact ⟨fun _ => rfl, fun _ => rfl⟩
  | cons node l => exact ⟨fun h => absurd h (Option.some_ne_none _), fun h => absurd h (List.cons_ne_nil _ _)⟩

theorem jobUpdateStatus_total (h : JobAt w e next) :
    Total heapWorld (fun _ w' => Became w e next e.updated w') (Heap.jobUpdateStatus e.addr) w := by
  unfold Heap.jobUpdateStatus Entry.updated
  apply total_loadJob h.node
  by_cases hnil : e.processes = []
  · rw [if_pos (h.empty.mpr hnil), if_pos hnil]
    exact .ret (Became.refl h)
  · rw [if_neg fun hnone => hnil (h.empty.mp hnone), if_neg hnil]
    have hcount := countStatus_total (w := w) false false h.chain
    rw [← h.first] at hcount
    apply hcount.bind
    intro found w' hpost
    obtain ⟨hw, hrunning, hstopped⟩ := hpost
    rw [hw]
    apply updateJob_total h.node
    rw [hrunning, hstopped, Bool.false_or, Bool.false_or]
    exact Became.setJob h rfl

theorem find_total {pid : ℕ} : ∀ {l : List (ℕ × Process)}, Chain w.processes l →
    Total heapWorld (fun r w' => w' = w ∧ r = (l.find? fun node => node.2.pid = pid).map Prod.fst)
      (.iter (Heap.findTurn pid) (first l)) w
  | [], _ => .loop (.ret ⟨rfl, rfl⟩)
  | (a, x) :: l, h => by
    refine .loop (total_loadProcess h.1 ?_)
    dsimp only
    by_cases hpid : x.pid = pid
    · rw [if_pos hpid, List.find?_cons_of_pos (by simpa using hpid)]
      exact .ret ⟨rfl, rfl⟩
    · rw [if_neg hpid, List.find?_cons_of_neg (by simpa using hpid)]
      exact find_total h.2

/-- `process_find` gives the first process with the pid. -/
theorem processFind_total {pid : ℕ} (h : JobAt w e next) :
    Total heapWorld (fun r w' => w' = w ∧
      r = if pid = 0 then none else (e.processes.find? fun node => node.2.pid = pid).map Prod.fst)
      (Heap.processFind e.addr pid) w := by
  unfold Heap.processFind
  by_cases hpid : pid = 0
  · rw [if_pos hpid, if_pos hpid]
    exact .ret ⟨rfl, rfl⟩
  · rw [if_neg hpid, if_neg hpid]
    apply total_loadJob h.node
    dsimp only
    rw [h.first]
    exact find_total h.chain

end Job

/-! ### Reaping -/

section Reap

variable {w : JobHeap} {addr a : ℕ} {job : JobRecord} {x : Process} {l r : List (ℕ × Process)} {next : Option ℕ}

/-- One process is changed in place. -/
theorem changeProcess_total (h : JobAt w ⟨addr, job, l ++ (a, x) :: r⟩ next) (f : Process → Process) :
    Total heapWorld (fun _ w' => Became w ⟨addr, job, l ++ (a, x) :: r⟩ next ⟨addr, job, l ++ (a, f x) :: r⟩ w')
      (Heap.updateProcess a fun node => { node with val := f node.val }) w :=
  updateProcess_total h.chain.node (Became.setProcess h)

/-- The process is the same but for what was reported of it. -/
def Reported (w : JobHeap) (addr a : ℕ) (job : JobRecord) (x : Process) (l r : List (ℕ × Process))
    (next : Option ℕ) (w' : JobHeap) : Prop :=
  ∃ y, y.pid = x.pid ∧ Became w ⟨addr, job, l ++ (a, x) :: r⟩ next ⟨addr, job, l ++ (a, y) :: r⟩ w'

theorem reapResult_total (h : JobAt w ⟨addr, job, l ++ (a, x) :: r⟩ next) (result : WaitResult) :
    Total heapWorld (fun _ w' => Reported w addr a job x l r next w') (Heap.reapResult addr a x.pid result) w := by
  have hsame : Reported w addr a job x l r next w := ⟨x, rfl, Became.refl h⟩
  cases result with
  | failed errno =>
    unfold Heap.reapResult
    dsimp only
    by_cases hchild : errno = ECHILD
    · rw [if_pos hchild]
      refine (changeProcess_total h fun x => { x with status := .done }).mono ?_
      exact fun _ w' hb => ⟨{ x with status := .done }, rfl, hb⟩
    · rw [if_neg hchild]
      exact .ret hsame
  | nothing => exact .ret hsame
  | reported ret status =>
    unfold Heap.reapResult
    dsimp only
    by_cases hret : ret = x.pid
    · rw [if_pos hret]
      apply (changeProcess_total h fun x => processApplyWaitStatus x status).bind
      intro _ w' hb
      apply total_loadJob hb.now.node
      have hdone : Reported w addr a job x l r next w' :=
        ⟨processApplyWaitStatus x status, rfl, hb⟩
      cases Heap.reapLine job.id x.pid status with
      | none => exact .ret hdone
      | some line => exact total_any () (fun _ _ => Iff.rfl) fun _ => .ret hdone
    · rw [if_neg hret]
      exact .ret hsame

theorem reapProcess_total (h : JobAt w ⟨addr, job, l ++ (a, x) :: r⟩ next) :
    Total heapWorld (fun _ w' => Reported w addr a job x l r next w') (Heap.reapProcess addr a) w := by
  unfold Heap.reapProcess
  apply total_loadProcess h.chain.node
  dsimp only
  by_cases hdone : x.status = .done
  · rw [if_pos hdone]
    exact .ret ⟨x, rfl, Became.refl h⟩
  · rw [if_neg hdone]
    exact total_any .nothing (fun _ _ => Iff.rfl) fun result => reapResult_total h result

def pidsOf (processes : List (ℕ × Process)) : List ℕ := (vals processes).map Process.pid

/-- A loop over the processes whose body changes only what was reported of each. -/
theorem eachProcess_total {body : ℕ → HeapProg Unit}
    (hbody : ∀ {a : ℕ} {x : Process} {l r : List (ℕ × Process)} {w : JobHeap},
      JobAt w ⟨addr, job, l ++ (a, x) :: r⟩ next →
      Total heapWorld (fun _ w' => Reported w addr a job x l r next w') (body a) w) :
    ∀ {l r : List (ℕ × Process)} {w : JobHeap}, JobAt w ⟨addr, job, l ++ r⟩ next →
    Total heapWorld (fun _ w' => ∃ r', pidsOf r' = pidsOf r ∧
      Became w ⟨addr, job, l ++ r⟩ next ⟨addr, job, l ++ r'⟩ w') (Heap.eachProcess body (first r)) w
  | l, [], w, h => .loop (.ret ⟨[], rfl, Became.refl h⟩)
  | l, (a, x) :: r, w, h => by
    refine .loop ?_
    unfold Prog.unroll
    dsimp only [first]
    rw [Prog.bind_assoc]
    apply (hbody h).bind
    intro _ w₁ hpost
    obtain ⟨y, hpid, hb⟩ := hpost
    refine total_loadProcess hb.now.chain.node ?_
    have hnow := hb.now
    rw [List.append_cons] at hnow
    refine (eachProcess_total hbody hnow).mono ?_
    intro _ w' hpost
    obtain ⟨r', hpids, hb'⟩ := hpost
    refine ⟨(a, y) :: r', ?_, ?_⟩
    · unfold pidsOf at hpids ⊢
      rw [vals_cons, vals_cons, List.map_cons, List.map_cons, hpid, hpids]
    · rw [← List.append_cons, ← List.append_cons] at hb'
      exact hb.trans hb'

theorem resumeProcess_total (h : JobAt w ⟨addr, job, l ++ (a, x) :: r⟩ next) :
    Total heapWorld (fun _ w' => Reported w addr a job x l r next w') (Heap.resumeProcess a) w := by
  unfold Heap.resumeProcess
  apply total_loadProcess h.chain.node
  by_cases hstopped : x.status = .stopped
  · rw [if_pos hstopped]
    refine (changeProcess_total h fun x => { x with status := .running }).mono ?_
    exact fun _ w' hb => ⟨{ x with status := .running }, rfl, hb⟩
  · rw [if_neg hstopped]
    exact .ret ⟨x, rfl, Became.refl h⟩

/-- The same job, but for its status and what is recorded of its processes. -/
structure SameJob (e e' : Entry) : Prop where
  addr : e'.addr = e.addr
  job : e'.job = { e.job with status := e'.job.status }
  pids : pidsOf e'.processes = pidsOf e.processes

/-- The status of a job with processes is the one they give it. -/
def Entry.Aggregated (e : Entry) : Prop := e.processes ≠ [] → e.job.status = statusOf (vals e.processes)

theorem SameJob.refl (e : Entry) : SameJob e e := ⟨rfl, rfl, rfl⟩

theorem SameJob.trans {e e' e'' : Entry} (h : SameJob e e') (h' : SameJob e' e'') : SameJob e e'' := by
  refine ⟨h'.addr.trans h.addr, ?_, h'.pids.trans h.pids⟩
  rw [h'.job, h.job]

theorem updated_kept (e : Entry) : SameJob e e.updated := by
  unfold Entry.updated
  by_cases hnil : e.processes = []
  · rw [if_pos hnil]
    exact SameJob.refl e
  · rw [if_neg hnil]
    exact ⟨rfl, rfl, rfl⟩

theorem updated_aggregated (e : Entry) : e.updated.Aggregated := by
  unfold Entry.updated
  by_cases hnil : e.processes = []
  · rw [if_pos hnil]
    exact fun hsome => absurd hnil hsome
  · rw [if_neg hnil]
    exact fun _ => rfl

/-- A loop over the processes of a job, and then its status. -/
theorem eachUpdated_total {e : Entry} {body : ℕ → HeapProg Unit} (h : JobAt w e next)
    (hbody : ∀ {a : ℕ} {x : Process} {l r : List (ℕ × Process)} {w : JobHeap},
      JobAt w ⟨e.addr, e.job, l ++ (a, x) :: r⟩ next →
      Total heapWorld (fun _ w' => Reported w e.addr a e.job x l r next w') (body a) w) :
    Total heapWorld (fun _ w' => ∃ e', SameJob e e' ∧ e'.Aggregated ∧ Became w e next e' w')
      ((Heap.eachProcess body e.job.processes).bind fun _ => Heap.jobUpdateStatus e.addr) w := by
  rw [h.first]
  apply (eachProcess_total hbody (l := []) h).bind
  intro _ w₁ hpost
  obtain ⟨processes', hpids, hb⟩ := hpost
  refine (jobUpdateStatus_total hb.now).mono ?_
  intro _ w' hb'
  have hkept : SameJob e ⟨e.addr, e.job, processes'⟩ := ⟨rfl, rfl, hpids⟩
  exact ⟨_, hkept.trans (updated_kept _), updated_aggregated _, hb.trans hb'⟩

theorem reapJob_total {e : Entry} (h : JobAt w e next) :
    Total heapWorld (fun _ w' => ∃ e', SameJob e e' ∧ e'.Aggregated ∧ Became w e next e' w')
      (Heap.reapJob e.addr) w := by
  unfold Heap.reapJob
  apply total_loadJob h.node
  exact eachUpdated_total h reapProcess_total

/-- The loop over the jobs, from one of them on. -/
theorem reapJobs_total : ∀ {l rest : List Entry} {w : JobHeap}, Represents w (l ++ rest) →
    Total heapWorld (fun _ w' => ∃ rest', List.Forall₂ SameJob rest rest' ∧ (∀ e ∈ rest', e.Aggregated) ∧
      Represents w' (l ++ rest') ∧ w'.manager = w.manager)
      (.iter Heap.reapTurn (first (rest.map Entry.node))) w
  | l, [], w, h => .loop (.ret ⟨[], .nil, fun _ he => absurd he List.not_mem_nil, h, rfl⟩)
  | l, e :: rest, w, h => by
    rw [first_entry]
    refine .loop ?_
    unfold Prog.unroll Heap.reapTurn
    dsimp only
    rw [Prog.bind_assoc]
    apply (reapJob_total h.jobAt).bind
    intro _ w₁ hpost
    obtain ⟨e', hkept, haggregated, hb⟩ := hpost
    have hnode : w₁.jobs e.addr = some ⟨e'.job, first (rest.map Entry.node)⟩ := by
      rw [← hb.addr]
      exact hb.now.node
    refine total_loadJob hnode ?_
    have htable := h.became hb
    rw [List.append_cons] at htable
    refine (reapJobs_total htable).mono ?_
    intro _ w' hpost
    obtain ⟨rest', hall, haggregates, hrepresents, hmanager⟩ := hpost
    rw [← List.append_cons] at hrepresents
    exact ⟨e' :: rest', .cons hkept hall, List.forall_mem_cons.mpr ⟨haggregated, haggregates⟩, hrepresents,
      hmanager.trans hb.manager⟩

/-- `job_reap` keeps the jobs and their processes, and recomputes every status. -/
theorem jobReap_total {table : List Entry} (h : Represents w table) :
    Total heapWorld (fun _ w' => ∃ table', List.Forall₂ SameJob table table' ∧ (∀ e ∈ table', e.Aggregated) ∧
      Represents w' table' ∧ w'.manager = w.manager) Heap.jobReap w := by
  unfold Heap.jobReap
  apply total_loadManager
  rw [h.head]
  exact reapJobs_total (l := []) h

end Reap

/-! ### Removing -/

section Remove

variable {w w' : JobHeap} {e : Entry} {l r table : List Entry}

theorem processDestroy_total : ∀ {l : List (ℕ × Process)} {w : JobHeap}, Chain w.processes l →
    Total heapWorld (fun _ w' => w'.manager = w.manager ∧ w'.jobs = w.jobs ∧
      ∀ a ∉ addrs l, w'.processes a = w.processes a) (Heap.processDestroy (first l)) w
  | [], w, _ => .loop (.ret ⟨rfl, rfl, fun _ _ => rfl⟩)
  | (a, x) :: l, w, h => by
    have hnodup := List.nodup_cons.mp h.nodup
    have hrest : Chain (w.processes.free a) l := by
      apply h.2.congr
      intro b hb
      apply free_of_ne
      exact fun hba => hnodup.1 (hba ▸ hb)
    refine .loop (total_loadProcess h.1 (total_freeProcess ?_ ?_))
    · rw [h.1]
      exact Option.some_ne_none _
    · refine (processDestroy_total hrest).mono ?_
      intro _ w' hpost
      obtain ⟨hmanager, hjobs, hprocesses⟩ := hpost
      refine ⟨hmanager, hjobs, ?_⟩
      intro b hb
      rw [addrs_cons, List.mem_cons, not_or] at hb
      rw [hprocesses b hb.2]
      exact free_of_ne _ hb.1

/-- Only the memory of the table matters. -/
theorem Represents.frame (h : Represents w table) (hhead : w'.manager.head = w.manager.head)
    (hjobs : ∀ e ∈ table, w'.jobs e.addr = w.jobs e.addr)
    (hprocesses : ∀ e ∈ table, ∀ a ∈ e.owned, w'.processes a = w.processes a) : Represents w' table := by
  refine ⟨hhead.trans h.head, h.jobs.congr ?_, h.firsts, ?_, h.disjoint⟩
  · intro a ha
    unfold addrs at ha
    rw [List.map_map, List.mem_map] at ha
    obtain ⟨e, he, rfl⟩ := ha
    exact hjobs e he
  · exact fun e he => (h.chains e he).congr (hprocesses e he)

/-- The pointer to the last of the jobs. -/
def prevOf (l : List Entry) : Option ℕ := l.getLast?.map Entry.addr

/-- The job before it, or the manager, points to the job after it. -/
structure Unlinked (w : JobHeap) (e : Entry) (table : List Entry) : Prop where
  rest : Represents w table
  node : ∃ next, JobAt w e next
  apart : e.addr ∉ table.map Entry.addr
  disjoint : ∀ f ∈ table, List.Disjoint e.owned f.owned

theorem Represents.addrs_nodup (h : Represents w table) : (table.map Entry.addr).Nodup := by
  have hnodup := h.jobs.nodup
  unfold addrs at hnodup
  rw [List.map_map] at hnodup
  exact hnodup

theorem Represents.apart (h : Represents w (l ++ e :: r)) : e.addr ∉ (l ++ r).map Entry.addr := by
  have hnodup := h.addrs_nodup
  rw [List.map_append, List.map_cons, List.nodup_middle, List.nodup_cons, ← List.map_append] at hnodup
  exact hnodup.1

theorem Represents.unlinked (h : Represents w (l ++ e :: r))
    (hhead : w'.manager.head = first ((l ++ r).map Entry.node)) (hjobs : Chain w'.jobs ((l ++ r).map Entry.node))
    (hnode : w'.jobs e.addr = w.jobs e.addr) (hprocesses : w'.processes = w.processes) : Unlinked w' e (l ++ r) := by
  have hat := h.jobAt
  obtain ⟨hdisjoint, hothers⟩ := disjoint_middle.mp h.disjoint
  refine ⟨⟨hhead, hjobs, ?_, ?_, hothers⟩, ⟨first (r.map Entry.node), ?_, hat.first, ?_⟩, h.apart, hdisjoint⟩
  · exact fun f hf => h.firsts f (mem_others hf)
  · intro f hf
    rw [hprocesses]
    exact h.chains f (mem_others hf)
  · rw [hnode]
    exact hat.node
  · rw [hprocesses]
    exact hat.chain

theorem setNext_total (h : Represents w (l ++ e :: r)) :
    Total heapWorld (fun _ w' => Unlinked w' e (l ++ r) ∧ w'.manager.nextid = w.manager.nextid)
      (Heap.setNext (prevOf l) (first (r.map Entry.node))) w := by
  have hjobs := h.jobs
  rcases List.eq_nil_or_concat l with hnil | ⟨l₀, p, hlast⟩
  · -- the first job
    rw [hnil] at h hjobs ⊢
    apply total_loadManager
    apply total_storeManager
    exact .ret ⟨h.unlinked rfl hjobs.2 rfl rfl, rfl⟩
  · have hprev : prevOf l = some p.addr := by
      unfold prevOf
      rw [hlast, List.concat_eq_append, List.getLast?_concat]
      rfl
    rw [List.concat_eq_append] at hlast
    have hsplit : ∀ rest : List Entry, (l ++ rest).map Entry.node =
        l₀.map Entry.node ++ (p.addr, p.job) :: rest.map Entry.node := by
      intro rest
      rw [hlast]
      simp [Entry.node]
    rw [hprev]
    rw [hsplit, List.map_cons] at hjobs
    have hnodup := hjobs.right.nodup
    rw [addrs_cons, List.nodup_cons] at hnodup
    refine updateJob_total hjobs.node ⟨h.unlinked ?_ ?_ ?_ rfl, rfl⟩
    · have hhead := h.head
      rw [hsplit] at hhead ⊢
      exact hhead.trans (first_append_cons ..)
    · rw [hsplit]
      apply hjobs.relink hjobs.right.2.2
      exact fun hmem => hnodup.1 (List.mem_cons_of_mem _ hmem)
    · apply write_of_ne
      intro heq
      exact hnodup.1 (heq ▸ List.mem_cons_self)

/-- The job is out of the table, and the others are as they were. -/
theorem jobUnlink_total (h : Represents w (l ++ e :: r)) :
    Total heapWorld (fun _ w' => Represents w' (l ++ r) ∧ w'.manager.nextid = w.manager.nextid)
      (Heap.jobUnlink (prevOf l) e.addr (first (r.map Entry.node))) w := by
  unfold Heap.jobUnlink
  apply (setNext_total h).bind
  intro _ w₁ hpost
  obtain ⟨hunlinked, hnextid⟩ := hpost
  obtain ⟨next, hat⟩ := hunlinked.node
  apply total_loadJob hat.node
  dsimp only
  rw [hat.first]
  apply (processDestroy_total hat.chain).bind
  intro _ w₂ hpost
  obtain ⟨hmanager, hjobs, hprocesses⟩ := hpost
  apply total_freeJob
  · rw [hjobs, hat.node]
    exact Option.some_ne_none _
  · refine .ret ⟨hunlinked.rest.frame ?_ ?_ ?_, ?_⟩
    · dsimp only
      rw [hmanager]
    · intro f hf
      dsimp only
      rw [hjobs]
      apply free_of_ne
      exact fun heq => hunlinked.apart (heq ▸ List.mem_map_of_mem hf)
    · intro f hf a ha
      exact hprocesses a fun howned => hunlinked.disjoint f hf howned ha
    · dsimp only
      rw [hmanager]
      exact hnextid

theorem prevOf_concat (l : List Entry) (e : Entry) : prevOf (l ++ [e]) = some e.addr := by
  unfold prevOf
  rw [List.getLast?_concat]
  rfl

/-- The jobs `l` stay, and the loop is at the first of `r`. -/
theorem cleanupLoop_total : ∀ {l r : List Entry} {w : JobHeap}, Represents w (l ++ r) →
    Total heapWorld (fun _ w' => Represents w' (l ++ r.filter fun e => e.job.status ≠ .done) ∧
      w'.manager.nextid = w.manager.nextid)
      (.iter Heap.cleanupTurn (prevOf l, first (r.map Entry.node))) w
  | l, [], w, h => .loop (.ret ⟨h, rfl⟩)
  | l, e :: r, w, h => by
    rw [first_entry]
    refine .loop (total_loadJob h.jobAt.node ?_)
    dsimp only
    by_cases hdone : e.job.status = .done
    · rw [if_pos hdone, List.filter_cons_of_neg (by simpa using hdone), Prog.bind_assoc]
      apply (jobUnlink_total h).bind
      intro _ w₁ hpost
      obtain ⟨hrest, hnextid⟩ := hpost
      refine (cleanupLoop_total hrest).mono ?_
      intro _ w' hpost
      obtain ⟨hrest', hnextid'⟩ := hpost
      exact ⟨hrest', hnextid'.trans hnextid⟩
    · rw [if_neg hdone, List.filter_cons_of_pos (by simpa using hdone)]
      rw [List.append_cons] at h ⊢
      rw [← prevOf_concat l e]
      exact cleanupLoop_total h

/-- `job_cleanup_done` removes exactly the jobs that are done. -/
theorem jobCleanupDone_total {table : List Entry} (h : Represents w table) :
    Total heapWorld (fun _ w' => Represents w' (table.filter fun e => e.job.status ≠ .done) ∧
      w'.manager.nextid = w.manager.nextid) Heap.jobCleanupDone w := by
  unfold Heap.jobCleanupDone
  apply total_loadManager
  rw [h.head]
  exact cleanupLoop_total (l := []) h

theorem removeLoop_total {pgid : ℤ} : ∀ {l r : List Entry} {w : JobHeap}, Represents w (l ++ r) →
    Total heapWorld (fun _ w' => Represents w' (l ++ r.eraseP fun e => (e.job.pgid : ℤ) = pgid) ∧
      w'.manager.nextid = w.manager.nextid)
      (.iter (Heap.removeTurn pgid) (prevOf l, first (r.map Entry.node))) w
  | l, [], w, h => .loop (.ret ⟨h, rfl⟩)
  | l, e :: r, w, h => by
    rw [first_entry]
    refine .loop (total_loadJob h.jobAt.node ?_)
    dsimp only
    by_cases hpgid : (e.job.pgid : ℤ) = pgid
    · rw [if_pos hpgid, List.eraseP_cons_of_pos (by simpa using hpgid), Prog.bind_assoc]
      apply (jobUnlink_total h).bind
      intro _ w₁ hrest
      exact .ret hrest
    · rw [if_neg hpgid, List.eraseP_cons_of_neg (by simpa using hpgid)]
      rw [List.append_cons] at h ⊢
      rw [← prevOf_concat l e]
      exact removeLoop_total h

/-- `job_remove` removes exactly the first job of the group. -/
theorem jobRemove_total {table : List Entry} (h : Represents w table) (hgroups : ∀ e ∈ table, 0 < e.job.pgid)
    (pgid : ℤ) :
    Total heapWorld (fun _ w' => Represents w' (table.eraseP fun e => (e.job.pgid : ℤ) = pgid) ∧
      w'.manager.nextid = w.manager.nextid) (Heap.jobRemove pgid) w := by
  unfold Heap.jobRemove
  by_cases hpgid : pgid ≤ 0
  · have hnone : ∀ e ∈ table, ¬ decide ((e.job.pgid : ℤ) = pgid) = true := by
      intro e he
      have hgroup := hgroups e he
      rw [decide_eq_true_eq]
      omega
    rw [if_pos hpgid, List.eraseP_of_forall_not hnone]
    exact .ret ⟨h, rfl⟩
  · rw [if_neg hpgid]
    apply total_loadManager
    rw [h.head]
    exact removeLoop_total (l := []) h

end Remove

/-! ### Adding -/

section Add

variable {w : JobHeap} {e : Entry} {next : Option ℕ}

theorem write_write {α : Type} (mem : Memory α) (a : ℕ) (node node' : Node α) :
    (mem.write a node).write a node' = mem.write a node' := Function.update_idem ..

theorem lastProcess_total {b : ℕ} {y : Process} : ∀ {l : List (ℕ × Process)} {c : ℕ},
    Chain w.processes (l ++ [(b, y)]) → first (l ++ [(b, y)]) = some c →
      Total heapWorld (fun r w' => w' = w ∧ r = b) (Heap.lastProcess c) w
  | [], c, h, hfirst => by
    obtain rfl : b = c := Option.some.inj hfirst
    exact .loop (total_loadProcess h.1 (.ret ⟨rfl, rfl⟩))
  | (a, x) :: l, c, h, hfirst => by
    obtain rfl : a = c := Option.some.inj hfirst
    refine .loop (total_loadProcess h.1 ?_)
    cases hnext : first (l ++ [(b, y)]) with
    | none =>
      cases l with
      | nil => cases hnext
      | cons node l => cases hnext
    | some c => exact lastProcess_total h.2 hnext

/-- The job with one more process. -/
def Entry.with (e : Entry) (a : ℕ) (x : Process) : Entry :=
  ⟨e.addr, { e.job with processes := first (e.processes ++ [(a, x)]) }, e.processes ++ [(a, x)]⟩

/-- What `process_add` has done: nothing, or the process is the last one. -/
def Added (w : JobHeap) (e : Entry) (next : Option ℕ) (pid ret : ℤ) (w' : JobHeap) : Prop :=
  (ret = -1 ∧ w' = w) ∨
    (ret = 0 ∧ ∃ a, Became w e next (e.with a ⟨pid.toNat, .running, none⟩) w')

theorem with_owned {a b : ℕ} {x : Process} (hb : b ∈ (e.with a x).owned) : b ∈ e.owned ∨ b = a := by
  unfold Entry.owned Entry.with at hb
  rw [addrs_append, List.mem_append] at hb
  exact hb.imp_right fun hb => List.mem_singleton.mp hb

/-- The first process of the job. -/
theorem Became.firstProcess {a : ℕ} {x : Process} (hnil : e.processes = [])
    (hfree : w.processes a = none) :
    Became w e next (e.with a x) ((w.setProcess a ⟨x, none⟩).setJob e.addr
      ⟨{ e.job with processes := some a }, next⟩) := by
  have hprocesses : (e.with a x).processes = [(a, x)] := by
    unfold Entry.with
    rw [hnil]
    rfl
  refine ⟨⟨?_, rfl, ?_⟩, rfl, ?_, rfl, ?_, ?_⟩
  · unfold Entry.with
    rw [hnil]
    exact write_self ..
  · rw [hprocesses]
    exact ⟨write_self .., trivial⟩
  · intro b hb
    refine (with_owned hb).imp_right fun hba => ?_
    rw [hba]
    exact hfree
  · exact fun b hb => write_of_ne _ _ hb
  · intro b halloc _
    apply write_of_ne
    exact fun hba => halloc (hba ▸ hfree)

/-- One more process, after the last one. -/
theorem Became.lastProcess {a b : ℕ} {x y : Process} {l : List (ℕ × Process)} (h : JobAt w e next)
    (hlast : e.processes = l ++ [(b, y)]) (hfree : w.processes a = none) :
    Became w e next (e.with a x) ((w.setProcess a ⟨x, none⟩).setProcess b ⟨y, some a⟩) := by
  have hchain := h.chain
  rw [hlast] at hchain
  have halloc : ∀ c ∈ addrs (l ++ [(b, y)]), c ≠ a := fun c hc hca => hchain.allocated hc (hca ▸ hfree)
  have hba : b ≠ a := halloc b (by simp)
  have hnew : Chain (w.processes.write a ⟨x, none⟩) (l ++ [(b, y)]) :=
    hchain.congr fun c hc => write_of_ne _ _ (halloc c hc)
  have hprocesses : (e.with a x).processes = l ++ (b, y) :: [(a, x)] := by
    unfold Entry.with
    rw [hlast, List.append_assoc]
    rfl
  have hjob : (e.with a x).job = e.job := by
    have hfirst : first (e.processes ++ [(a, x)]) = e.job.processes := by
      rw [h.first, hlast, List.append_assoc]
      exact first_append_cons ..
    unfold Entry.with
    rw [hfirst]
  refine ⟨⟨?_, rfl, ?_⟩, rfl, ?_, rfl, fun _ _ => rfl, ?_⟩
  · rw [hjob]
    exact h.node
  · rw [hprocesses]
    have hone : Chain (w.processes.write a ⟨x, none⟩) [(a, x)] := ⟨write_self .., trivial⟩
    refine hnew.relink hone ?_
    exact fun hmem => hba (List.mem_singleton.mp hmem)
  · intro c hc
    refine (with_owned hc).imp_right fun hca => ?_
    rw [hca]
    exact hfree
  · intro c hcalloc hc
    have hcb : c ≠ b := by
      intro hcb
      apply hc
      unfold Entry.owned
      rw [hlast, hcb]
      simp
    refine (write_of_ne _ _ hcb).trans (write_of_ne _ _ ?_)
    exact fun hca => hcalloc (hca ▸ hfree)

theorem processAdd_total {pid : ℤ} (h : JobAt w e next) :
    Total heapWorld (Added w e next pid) (Heap.processAdd (some e.addr) pid) w := by
  unfold Heap.processAdd
  dsimp only
  by_cases hpid : pid ≤ 0
  · rw [if_pos hpid]
    exact .ret (Or.inl ⟨rfl, rfl⟩)
  rw [if_neg hpid]
  refine .call ⟨none, w, Or.inl ⟨rfl, rfl⟩⟩ ?_
  intro r w₁ hmalloc
  rcases hmalloc with ⟨rfl, rfl⟩ | ⟨a, node, rfl, hfree, rfl⟩
  · exact .ret (Or.inl ⟨rfl, rfl⟩)
  dsimp only
  have hstored : (w.setProcess a node).setProcess a ⟨⟨pid.toNat, .running, none⟩, none⟩ =
      w.setProcess a ⟨⟨pid.toNat, .running, none⟩, none⟩ := by
    unfold JobHeap.setProcess
    dsimp only
    rw [write_write]
  apply total_storeProcess
  · have hself : (w.setProcess a node).processes a = some node := write_self ..
    rw [hself]
    exact Option.some_ne_none _
  rw [hstored]
  have hnode : (w.setProcess a ⟨⟨pid.toNat, .running, none⟩, none⟩).jobs e.addr = some ⟨e.job, next⟩ := h.node
  apply total_loadJob hnode
  dsimp only
  rcases List.eq_nil_or_concat e.processes with hnil | ⟨l, ⟨b, y⟩, hlast⟩
  · rw [h.first, hnil]
    refine (updateJob_total hnode ?_).bind fun _ w' hb => .ret (Or.inr ⟨rfl, a, hb⟩)
    exact Became.firstProcess hnil hfree
  · rw [List.concat_eq_append] at hlast
    have hchain := h.chain
    rw [hlast] at hchain
    have hnew : Chain (w.setProcess a ⟨⟨pid.toNat, .running, none⟩, none⟩).processes (l ++ [(b, y)]) := by
      apply hchain.congr
      intro c hc
      apply write_of_ne
      exact fun hca => hchain.allocated hc (hca ▸ hfree)
    have hsome : ∃ c, first (l ++ [(b, y)]) = some c := by
      cases l with
      | nil => exact ⟨b, rfl⟩
      | cons node l => exact ⟨node.1, rfl⟩
    obtain ⟨c, hc⟩ := hsome
    rw [h.first, hlast, hc]
    dsimp only
    apply (lastProcess_total hnew hc).bind
    intro r w₂ hpost
    obtain ⟨hw₂, hr⟩ := hpost
    rw [hw₂, hr]
    refine (updateProcess_total hnew.node ?_).bind fun _ w' hb => .ret (Or.inr ⟨rfl, a, hb⟩)
    exact Became.lastProcess h hlast hfree

theorem Represents.added {w' : JobHeap} {table : List Entry} {a : ℕ} {job : JobRecord} (h : Represents w table)
    (hfree : w.jobs a = none) (hjob : job.processes = none) (hhead : w'.manager.head = some a)
    (hnode : w'.jobs a = some ⟨job, w.manager.head⟩) (hothers : ∀ b, b ≠ a → w'.jobs b = w.jobs b)
    (hprocesses : w'.processes = w.processes) : Represents w' (⟨a, job, []⟩ :: table) := by
  have hrest : Chain w'.jobs (table.map Entry.node) := by
    apply h.jobs.congr
    intro b hb
    apply hothers
    exact fun hba => h.jobs.allocated hb (hba ▸ hfree)
  rw [h.head] at hnode
  refine ⟨hhead, ⟨hnode, hrest⟩, ?_, ?_, ?_⟩
  · exact List.forall_mem_cons.mpr ⟨hjob, h.firsts⟩
  · rw [hprocesses]
    exact List.forall_mem_cons.mpr ⟨trivial, h.chains⟩
  · exact List.pairwise_cons.mpr ⟨fun _ _ _ hmem => absurd hmem List.not_mem_nil, h.disjoint⟩

/-- The record of a job that was just added. -/
def newJob (id : ℤ) (pgid : ℕ) (command : List Byte) : JobRecord :=
  ⟨id, pgid, .running, command.take (COMMAND_SIZE - 1), none, none⟩

/-- What `job_add` has done: nothing, or the new job is the first one and has no
process. -/
def JobAdded (w : JobHeap) (table : List Entry) (pgid : ℤ) (r : Option ℕ) (w' : JobHeap) : Prop :=
  (r = none ∧ w' = w) ∨ ∃ a command, r = some a ∧ 0 < pgid ∧
    Represents w' (⟨a, newJob w.manager.nextid pgid.toNat command, []⟩ :: table) ∧
    w'.manager.nextid = Heap.int (w.manager.nextid + 1)

theorem jobAdd_total {table : List Entry} (h : Represents w table) (pgid : ℤ) (command : Option (List Byte)) :
    Total heapWorld (JobAdded w table pgid) (Heap.jobAdd pgid command) w := by
  unfold Heap.jobAdd
  cases command with
  | none => exact .ret (Or.inl ⟨rfl, rfl⟩)
  | some command =>
    dsimp only
    by_cases hpgid : pgid ≤ 0
    · rw [if_pos hpgid]
      exact .ret (Or.inl ⟨rfl, rfl⟩)
    rw [if_neg hpgid]
    refine .call ⟨none, w, Or.inl ⟨rfl, rfl⟩⟩ ?_
    intro r w₁ hmalloc
    rcases hmalloc with ⟨rfl, rfl⟩ | ⟨a, node, rfl, hfree, rfl⟩
    · exact .ret (Or.inl ⟨rfl, rfl⟩)
    dsimp only
    apply total_storeJob
    · exact ne_of_eq_of_ne (write_self ..) (Option.some_ne_none _)
    apply total_loadManager
    apply total_storeManager
    apply updateJob_bind
    · exact write_self ..
    apply total_loadManager
    apply updateJob_bind
    · exact write_self ..
    apply total_storeManager
    refine .ret (Or.inr ⟨a, command, rfl, not_le.mp hpgid, h.added hfree rfl rfl (write_self ..) ?_ rfl, rfl⟩)
    -- four writes to the new node
    intro b hb
    have hwrites : ∀ (mem : Memory JobRecord) (n : Node JobRecord), mem.write a n b = mem b := fun mem n =>
      write_of_ne _ _ hb
    exact (hwrites ..).trans ((hwrites ..).trans ((hwrites ..).trans (hwrites ..)))

end Add

/-! ### The table as a list -/

section Listed

variable {w : JobHeap} {e : Entry} {next : Option ℕ} {table : List Entry}

/-- The job without its addresses. -/
def Entry.listed (e : Entry) : Job :=
  ⟨e.job.id.toNat, e.job.pgid, e.job.status, e.job.command, vals e.processes, e.job.terminalModes⟩

/-- The table that is in memory, as a list. -/
def Lists (w : JobHeap) (m : JobManager) : Prop :=
  ∃ table, Represents w table ∧ (∀ e ∈ table, 0 < e.job.pgid) ∧ m = ⟨table.map Entry.listed, w.manager.nextid.toNat⟩

theorem updated_listed (e : Entry) : e.updated.listed = jobUpdateStatus e.listed := by
  unfold Entry.updated jobUpdateStatus Entry.listed
  dsimp only
  cases hprocesses : e.processes with
  | nil =>
    have hnil : vals ([] : List (ℕ × Process)) = [] := rfl
    rw [if_pos rfl, if_pos hnil, hprocesses]
  | cons node l =>
    have hcons : vals (node :: l) ≠ [] := List.cons_ne_nil _ _
    rw [if_neg (List.cons_ne_nil node l), if_neg hcons]
    rfl

theorem jobUpdateStatus_refines (h : JobAt w e next) :
    Total heapWorld (fun _ w' => ∃ e', Became w e next e' w' ∧ e'.listed = jobUpdateStatus e.listed)
      (Heap.jobUpdateStatus e.addr) w := (jobUpdateStatus_total h).mono fun _ _ hb => ⟨_, hb, updated_listed e⟩

/-- `job_cleanup_done` on memory does what it does to the list. -/
theorem jobCleanupDone_refines {m : JobManager} (h : Lists w m) :
    Total heapWorld (fun _ w' => Lists w' (jobCleanupDone m)) Heap.jobCleanupDone w := by
  obtain ⟨table, hrepresents, hgroups, hm⟩ := h
  refine (jobCleanupDone_total hrepresents).mono ?_
  intro _ w' hpost
  refine ⟨_, hpost.1, fun e he => hgroups e (List.mem_of_mem_filter he), ?_⟩
  rw [hpost.2, hm]
  unfold jobCleanupDone
  rw [List.filter_map]
  rfl

theorem listed_pgid (pgid : ℕ) : (fun e : Entry => decide ((e.job.pgid : ℤ) = pgid)) =
    (fun job : Job => decide (job.pgid = pgid)) ∘ Entry.listed := by
  funext e
  exact decide_eq_decide.mpr Nat.cast_inj

theorem jobFindLoop_total {pgid : ℤ} : ∀ {l r : List Entry}, Represents w (l ++ r) →
    Total heapWorld (fun p w' => w' = w ∧ p = (r.find? fun e => (e.job.pgid : ℤ) = pgid).map Entry.addr)
      (.iter (Heap.jobFindTurn pgid) (first (r.map Entry.node))) w
  | _, [], _ => .loop (.ret ⟨rfl, rfl⟩)
  | l, e :: r, h => by
    rw [first_entry]
    refine .loop (total_loadJob h.jobAt.node ?_)
    dsimp only
    by_cases hpgid : (e.job.pgid : ℤ) = pgid
    · rw [if_pos hpgid, List.find?_cons_of_pos (by simpa using hpgid)]
      exact .ret ⟨rfl, rfl⟩
    · rw [if_neg hpgid, List.find?_cons_of_neg (by simpa using hpgid)]
      rw [List.append_cons] at h
      exact jobFindLoop_total h

/-- `job_find` points to the job that is found in the list. -/
theorem jobFind_refines (h : Represents w table) (pgid : ℕ) :
    Total heapWorld (fun p w' => w' = w ∧ ∃ found : Option Entry, p = found.map Entry.addr ∧
      (∀ e ∈ found, e ∈ table) ∧ found.map Entry.listed =
        jobFind ⟨table.map Entry.listed, w.manager.nextid.toNat⟩ pgid) (Heap.jobFind pgid) w := by
  unfold Heap.jobFind jobFind
  by_cases hpgid : pgid = 0
  · have hzero : (pgid : ℤ) ≤ 0 := by omega
    rw [if_pos hzero, if_pos hpgid]
    exact .ret ⟨rfl, none, rfl, fun _ he => absurd he (Option.not_mem_none _), rfl⟩
  · have hpositive : ¬ (pgid : ℤ) ≤ 0 := by omega
    rw [if_neg hpositive, if_neg hpgid]
    apply total_loadManager
    rw [h.head]
    refine (jobFindLoop_total (l := []) h).mono ?_
    intro p w' hpost
    refine ⟨hpost.1, _, hpost.2, fun e he => List.mem_of_find?_eq_some he, ?_⟩
    rw [List.find?_map]
    rw [listed_pgid]

theorem jobRemove_refines {m : JobManager} (h : Lists w m) (pgid : ℕ) :
    Total heapWorld (fun _ w' => Lists w' (jobRemove m pgid)) (Heap.jobRemove pgid) w := by
  obtain ⟨table, hrepresents, hgroups, hm⟩ := h
  refine (jobRemove_total hrepresents hgroups pgid).mono ?_
  intro _ w' hpost
  refine ⟨_, hpost.1, fun e he => hgroups e (List.mem_of_mem_eraseP he), ?_⟩
  rw [hpost.2, hm]
  unfold jobRemove
  by_cases hpgid : pgid = 0
  · have hnone : ∀ e ∈ table, ¬ decide ((e.job.pgid : ℤ) = pgid) = true := by
      intro e he
      have hgroup := hgroups e he
      rw [decide_eq_true_eq]
      omega
    rw [if_pos hpgid, List.eraseP_of_forall_not hnone]
  · rw [if_neg hpgid, List.eraseP_map, listed_pgid]

end Listed

end DeviceRuntime
