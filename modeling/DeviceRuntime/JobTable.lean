/-
# The job table and the kernel

Children that stop, continue and exit by themselves while the shell waits for
a job, reaps, or continues one, in any order. The kernel keeps for each child
its state and at most one change that was not reported yet; a newer change
replaces it, and `waitpid` hands it over if its flags admit it.

`ProcessOk` relates what is recorded of a process to its child and is stable
under the steps of the children. A change that was handed over is owed to one
process until it is applied (`Owed`). `Agrees` is what holds between the
operations; that a live child is never recorded done holds at every step.

Key definitions: `Child`, `ChildStep`, `kernel`, `ProcessOk`, `Agrees`,
`jobWatch`, `Launched`.
Key theorems: `waitpid_owed`, `jobWaitForeground_safe`, `jobReap_safe`,
`jobContinue_safe`, `job_table_agrees`.
-/
import Mathlib.Data.List.Nodup
import Mathlib.Data.List.Pairwise
import DeviceRuntime.Job
import DeviceRuntime.Lib.Safe

namespace DeviceRuntime

open Prog

inductive ChildState
  | running | stopped | exited
deriving DecidableEq, Repr

/-- A child that was not reaped: its group, its state and the change that was
not reported. -/
structure Child where
  group : ℕ
  state : ChildState
  change : Option WaitStatus
deriving DecidableEq, Repr

/-- What should be recorded for a child in this state. -/
def ChildState.recorded : ChildState → ProcessStatus
  | .running => .running
  | .stopped => .stopped
  | .exited => .done

def Child.continue (c : Child) : Child := { c with state := .running, change := some .continued }

/-- The table, and the children that were not reaped. -/
structure JobWorld where
  manager : JobManager
  kernel : ℕ → Option Child

def JobWorld.setChild (w : JobWorld) (pid : ℕ) (c : Option Child) : JobWorld :=
  { w with kernel := Function.update w.kernel pid c }

/-- A child stops, is continued, or ends. -/
inductive ChildStep : JobWorld → JobWorld → Prop
  | stop {w pid c} (sig : ℕ) (hc : w.kernel pid = some c) (hs : c.state = .running) :
      ChildStep w (w.setChild pid (some { c with state := .stopped, change := some (.stopped sig) }))
  | continue {w pid c} (hc : w.kernel pid = some c) (hs : c.state = .stopped) :
      ChildStep w (w.setChild pid (some c.continue))
  | exit {w pid c} (st : WaitStatus) (hc : w.kernel pid = some c) (hs : c.state ≠ .exited)
      (hst : st.processStatus = .done) :
      ChildStep w (w.setChild pid (some { c with state := .exited, change := some st }))

def Target.matches (target : Target) (pid : ℕ) (c : Child) : Prop :=
  match target with
  | .process p => pid = p
  | .group g => c.group = g

/-- The changes that the flags of `waitpid` admit. -/
def WaitFlags.admit (flags : WaitFlags) : WaitStatus → Bool
  | .exited _ | .signaled _ => true
  | .stopped _ => flags.untraced
  | .continued => flags.continued

/-- A child whose change was handed over; one that ended is gone. -/
def Child.handOver (c : Child) : Option Child :=
  if c.state = .exited then none else some { c with change := none }

def waitpidSem (w : JobWorld) (target : Target) (flags : WaitFlags) : WaitResult → JobWorld → Prop
  | .reported pid st, w' => ∃ c, w.kernel pid = some c ∧ target.matches pid c ∧ c.change = some st ∧
      flags.admit st = true ∧ w' = w.setChild pid c.handOver
  | .nothing, w' => w' = w ∧ flags.nohang = true ∧ ∃ pid c, w.kernel pid = some c ∧ target.matches pid c
  | .failed errno, w' => w' = w ∧
      (errno = EINTR ∨ (errno = ECHILD ∧ ∀ pid c, w.kernel pid = some c → ¬ target.matches pid c))

/-- The stopped children of a group go on. -/
def resumeGroup (g : ℕ) (c : Child) : Child := if c.group = g ∧ c.state = .stopped then c.continue else c

def jobSem (w : JobWorld) : (c : JobCall) → c.Ret → JobWorld → Prop
  | .getJobs, m, w' => m = w.manager ∧ w' = w
  | .setJobs m, _, w' => w' = { w with manager := m }
  | .waitpid target flags, r, w' => waitpidSem w target flags r w'
  | .kill (.group g) .sigcont, r, w' =>
    (r.ret = 0 ∧ w' = { w with kernel := fun pid => (w.kernel pid).map (resumeGroup g) }) ∨ (r.ret = -1 ∧ w' = w)
  | _, _, w' => w' = w

abbrev kernel : World JobCall JobCall.Ret JobWorld := ⟨jobSem, ChildStep⟩

/-! ### Agreement -/

/-- A process that is recorded as `status`: its child is gone if it is done, and
only then, and a child with nothing to report is in the recorded state. -/
def ProcessOk (k : ℕ → Option Child) (pid : ℕ) (status : ProcessStatus) : Prop :=
  match k pid with
  | none => status = .done
  | some c => status ≠ .done ∧ (c.change = none → status = c.state.recorded)

/-- A child has the change that its state is from, and a child that has ended
has one. -/
structure Child.Ok (c : Child) : Prop where
  change : ∀ st, c.change = some st → st.processStatus = c.state.recorded
  ended : c.state = .exited → c.change ≠ none

def Job.pids (job : Job) : List ℕ := job.processes.map Process.pid

/-- The jobs with their groups and children. -/
def JobManager.shape (m : JobManager) : List (ℕ × ℕ × List ℕ) := m.jobs.map fun job => (job.id, job.pgid, job.pids)

structure Distinct (shape : List (ℕ × ℕ × List ℕ)) : Prop where
  ids : (shape.map fun s => s.1).Nodup
  pgids : (shape.map fun s => s.2.1).Nodup
  pids : (shape.flatMap fun s => s.2.2).Nodup
  positive : ∀ s ∈ shape, 0 ∉ s.2.2

/-- The jobs and processes are distinct, and a child is in the group of its
job. -/
structure Known (w : JobWorld) : Prop where
  distinct : Distinct w.manager.shape
  child : ∀ pid c, w.kernel pid = some c → c.Ok
  group : ∀ s ∈ w.manager.shape, ∀ pid ∈ s.2.2, ∀ c, w.kernel pid = some c → c.group = s.2.1

/-- Every process is recorded as its child is. -/
def Recorded (w : JobWorld) : Prop :=
  ∀ job ∈ w.manager.jobs, ∀ p ∈ job.processes, ProcessOk w.kernel p.pid p.status

/-- No child that is there, live or not, is recorded done. -/
def NeverLost (w : JobWorld) : Prop :=
  ∀ job ∈ w.manager.jobs, ∀ p ∈ job.processes, ∀ c, w.kernel p.pid = some c → p.status ≠ .done

/-- The status of the job is that of its processes. -/
def Job.Aggregated (job : Job) : Prop := jobUpdateStatus job = job

/-- The table agrees with the kernel, but the status of the jobs in `stale` is
not up to date. -/
structure Midway (stale : ℕ → Prop) (w : JobWorld) : Prop where
  known : Known w
  recorded : Recorded w
  aggregated : ∀ job ∈ w.manager.jobs, ¬ stale job.id → job.Aggregated

abbrev Agrees (w : JobWorld) : Prop := Midway (fun _ => False) w

/-- The change `st` was handed over and not yet applied to the process. -/
structure Owed (stale : ℕ → Prop) (pid : ℕ) (st : WaitStatus) (w : JobWorld) : Prop where
  known : Known w
  others : ∀ job ∈ w.manager.jobs, ∀ p ∈ job.processes, p.pid ≠ pid → ProcessOk w.kernel p.pid p.status
  owed : ProcessOk w.kernel pid st.processStatus
  lost : NeverLost w
  aggregated : ∀ job ∈ w.manager.jobs, ¬ stale job.id → job.Aggregated

/-- At every step no live child is recorded done. The table agrees with the
kernel whenever the shell waits for a job or signals one, and the processes are
recorded as they are whenever it asks for one of them. -/
def jobWatch : Watch JobCall JobWorld where
  always := NeverLost
  atCall c w := match c with
    | .waitpid (.group _) _ | .kill _ _ => Agrees w
    | .waitpid (.process _) _ => Recorded w
    | _ => True

theorem Recorded.lost {w : JobWorld} (h : Recorded w) : NeverLost w := by
  intro job hjob p hp c hc
  have hok := h job hjob p hp
  rw [ProcessOk, hc] at hok
  exact hok.1

theorem Midway.lost {stale : ℕ → Prop} {w : JobWorld} (h : Midway stale w) : NeverLost w := h.recorded.lost

theorem Midway.mono {stale stale' : ℕ → Prop} {w : JobWorld} (h : Midway stale w) (hs : ∀ i, stale i → stale' i) :
    Midway stale' w := ⟨h.known, h.recorded, fun job hjob hn => h.aggregated job hjob fun hi => hn (hs _ hi)⟩

/-! ### The table -/

section Table

variable {w : JobWorld}

theorem mem_shape {m : JobManager} {job : Job} (h : job ∈ m.jobs) : (job.id, job.pgid, job.pids) ∈ m.shape :=
  List.mem_map.mpr ⟨job, h, rfl⟩

theorem Known.same_id (h : Known w) {job job' : Job} (hj : job ∈ w.manager.jobs) (hj' : job' ∈ w.manager.jobs)
    (hid : job.id = job'.id) : job = job' := by
  have hids := h.distinct.ids
  rw [JobManager.shape, List.map_map] at hids
  exact List.inj_on_of_nodup_map hids hj hj' hid

theorem Known.same_pgid (h : Known w) {job job' : Job} (hj : job ∈ w.manager.jobs) (hj' : job' ∈ w.manager.jobs)
    (hid : job.pgid = job'.pgid) : job = job' := by
  have hids := h.distinct.pgids
  rw [JobManager.shape, List.map_map] at hids
  exact List.inj_on_of_nodup_map hids hj hj' hid

/-- A process is in one job. -/
theorem Known.same_pid (h : Known w) {job job' : Job} (hj : job ∈ w.manager.jobs) (hj' : job' ∈ w.manager.jobs)
    {pid : ℕ} (hp : pid ∈ job.pids) (hp' : pid ∈ job'.pids) : job = job' := by
  have hpids := h.distinct.pids
  rw [JobManager.shape, List.flatMap_map, List.nodup_flatMap] at hpids
  have hpairwise : w.manager.jobs.Pairwise fun job job' => List.Disjoint job.pids job'.pids := hpids.2
  have hsymm : Std.Symm fun job job' : Job => List.Disjoint job.pids job'.pids := ⟨fun _ _ hd _ h h' => hd h' h⟩
  by_contra hne
  exact hpairwise.forall hj hj' hne hp hp'

theorem find_spec {m : JobManager} {id : ℕ} {job : Job} (h : m.find id = some job) : job ∈ m.jobs ∧ job.id = id := by
  have hid := List.find?_some h
  exact ⟨List.mem_of_find?_eq_some h, by simpa using hid⟩

/-- The job a pointer points to, after it was changed. -/
theorem find_modify {m : JobManager} {id : ℕ} {f : Job → Job} (hf : ∀ job, (f job).id = job.id) {job : Job}
    (h : m.find id = some job) : (m.modify id f).find id = some (f job) := by
  obtain ⟨-, hid⟩ := find_spec h
  unfold JobManager.find JobManager.modify at *
  have hsame : ((fun job : Job => decide (job.id = id)) ∘ fun job => if job.id = id then f job else job) =
      fun job : Job => decide (job.id = id) := by
    funext job
    rw [Function.comp_apply]
    split_ifs with hjob
    · rw [hf]
    · rfl
  rw [List.find?_map, hsame, h, Option.map_some, if_pos hid]

theorem processFind_spec {job : Job} {pid : ℕ} {p : Process} (h : processFind job pid = some p) :
    p ∈ job.processes ∧ p.pid = pid := by
  unfold processFind at h
  split_ifs at h
  have hpid := List.find?_some h
  exact ⟨List.mem_of_find?_eq_some h, by simpa using hpid⟩

/-- A process of a job is found by its pid. -/
theorem Known.processFind (h : Known w) {job : Job} (hj : job ∈ w.manager.jobs) {pid : ℕ} (hp : pid ∈ job.pids) :
    processFind job pid ≠ none := by
  have hne : pid ≠ 0 := fun h0 => h.distinct.positive _ (mem_shape hj) (h0 ▸ hp)
  obtain ⟨p, hmem, hpid⟩ := List.mem_map.mp hp
  unfold DeviceRuntime.processFind
  rw [if_neg hne]
  intro hnone
  have hall := List.find?_eq_none.mp hnone p hmem
  exact hall (by simpa using hpid)

/-- The changes that leave the shape of the table alone. -/
def KeepsShape (f : Job → Job) : Prop :=
  ∀ job, (f job).id = job.id ∧ (f job).pgid = job.pgid ∧ (f job).pids = job.pids

theorem keepsShape_modifyProcess {pid : ℕ} {f : Process → Process} (hf : ∀ p, (f p).pid = p.pid) :
    KeepsShape fun job => job.modifyProcess pid f := by
  refine fun job => ⟨rfl, rfl, ?_⟩
  unfold Job.pids Job.modifyProcess
  rw [List.map_map]
  refine List.map_congr_left fun p _ => ?_
  rw [Function.comp_apply]
  split_ifs
  · exact hf p
  · rfl

theorem keepsShape_resume : KeepsShape Job.resume := by
  refine fun job => ⟨rfl, rfl, ?_⟩
  unfold Job.pids Job.resume
  rw [List.map_map]
  refine List.map_congr_left fun p _ => ?_
  rw [Function.comp_apply]
  split_ifs <;> rfl

theorem keepsShape_update : KeepsShape jobUpdateStatus := by
  intro job
  unfold jobUpdateStatus
  split_ifs <;> exact ⟨rfl, rfl, rfl⟩

theorem shape_modify (m : JobManager) (id : ℕ) {f : Job → Job} (hf : KeepsShape f) :
    (m.modify id f).shape = m.shape := by
  rw [JobManager.shape, JobManager.shape, JobManager.modify, List.map_map]
  refine List.map_congr_left fun job _ => ?_
  rw [Function.comp_apply]
  split_ifs
  · obtain ⟨h1, h2, h3⟩ := hf job
    rw [h1, h2, h3]
  · rfl

theorem mem_modify {m : JobManager} {id : ℕ} {f : Job → Job} {job' : Job} (h : job' ∈ (m.modify id f).jobs) :
    ∃ job ∈ m.jobs, (job.id = id ∧ job' = f job) ∨ (job.id ≠ id ∧ job' = job) := by
  obtain ⟨job, hjob, rfl⟩ := List.mem_map.mp h
  refine ⟨job, hjob, ?_⟩
  by_cases hid : job.id = id
  · exact .inl ⟨hid, if_pos hid⟩
  · exact .inr ⟨hid, if_neg hid⟩

theorem Known.modify (h : Known w) (id : ℕ) {f : Job → Job} (hf : KeepsShape f) :
    Known { w with manager := w.manager.modify id f } := by
  refine ⟨?_, h.child, ?_⟩
  · rw [shape_modify _ _ hf]
    exact h.distinct
  · rw [shape_modify _ _ hf]
    exact h.group

/-- One job is changed, and its processes are then recorded as they should be. -/
theorem midway_modify {stale : ℕ → Prop} {id : ℕ} {f : Job → Job} (hk : Known w) (hf : KeepsShape f)
    (hother : ∀ job ∈ w.manager.jobs, job.id ≠ id → ∀ p ∈ job.processes, ProcessOk w.kernel p.pid p.status)
    (hjob : ∀ job ∈ w.manager.jobs, job.id = id → ∀ p ∈ (f job).processes, ProcessOk w.kernel p.pid p.status)
    (hagg : ∀ job ∈ w.manager.jobs, ¬ stale job.id → job.Aggregated) :
    Midway (fun i => stale i ∨ i = id) { w with manager := w.manager.modify id f } := by
  refine ⟨hk.modify id hf, ?_, ?_⟩
  · intro job' hjob'
    obtain ⟨job, hmem, ⟨hid, rfl⟩ | ⟨hid, rfl⟩⟩ := mem_modify hjob'
    · exact hjob job hmem hid
    · exact hother job' hmem hid
  · intro job' hjob' hn
    obtain ⟨job, hmem, ⟨hid, rfl⟩ | ⟨hid, rfl⟩⟩ := mem_modify hjob'
    · exact absurd (.inr ((hf job).1.trans hid)) hn
    · exact hagg job' hmem fun hi => hn (.inl hi)

theorem jobUpdateStatus_idem (job : Job) : (jobUpdateStatus job).Aggregated := by
  unfold Job.Aggregated
  by_cases h : job.processes = []
  · rw [show jobUpdateStatus job = job from if_pos h]
    exact if_pos h
  · rw [show jobUpdateStatus job = _ from if_neg h]
    exact if_neg h

/-- The status of a job is brought up to date. -/
theorem Midway.update {stale : ℕ → Prop} (h : Midway stale w) (id : ℕ) :
    Midway (fun i => stale i ∧ i ≠ id) { w with manager := w.manager.modify id jobUpdateStatus } := by
  refine ⟨h.known.modify id keepsShape_update, ?_, ?_⟩
  · intro job' hjob'
    obtain ⟨job, hmem, ⟨hid, rfl⟩ | ⟨hid, rfl⟩⟩ := mem_modify hjob'
    · have hsame : (jobUpdateStatus job).processes = job.processes := by
        unfold jobUpdateStatus
        split_ifs <;> rfl
      rw [hsame]
      exact h.recorded job hmem
    · exact h.recorded job' hmem
  · intro job' hjob' hn
    obtain ⟨job, hmem, ⟨hid, rfl⟩ | ⟨hid, rfl⟩⟩ := mem_modify hjob'
    · exact jobUpdateStatus_idem job
    · exact h.aggregated job' hmem fun hi => hn ⟨hi, hid⟩

/-! ### Children -/

theorem childStep_manager {w' : JobWorld} (h : ChildStep w w') : w'.manager = w.manager := by
  cases h <;> rfl

/-- A child that moves has something to report. -/
theorem childStep_kernel {w' : JobWorld} (h : ChildStep w w') :
    ∃ pid c c', w.kernel pid = some c ∧ w'.kernel = Function.update w.kernel pid (some c') ∧ c'.group = c.group ∧
      c'.change ≠ none ∧ c'.Ok := by
  cases h with
  | @stop pid c sig hc hs =>
    refine ⟨pid, c, _, hc, rfl, rfl, Option.some_ne_none _, fun st hst => ?_, fun he => ChildState.noConfusion he⟩
    rw [← Option.some.inj hst]
    rfl
  | @«continue» pid c hc hs =>
    refine ⟨pid, c, _, hc, rfl, rfl, Option.some_ne_none _, fun st hst => ?_, fun he => ChildState.noConfusion he⟩
    rw [← Option.some.inj hst]
    rfl
  | @exit pid c st hc hs hst =>
    refine ⟨pid, c, _, hc, rfl, rfl, Option.some_ne_none _, fun st' hst' => ?_, fun _ => Option.some_ne_none _⟩
    rw [← Option.some.inj hst']
    exact hst

theorem childStep_processOk {w' : JobWorld} (h : ChildStep w w') {pid : ℕ} {s : ProcessStatus}
    (hok : ProcessOk w.kernel pid s) : ProcessOk w'.kernel pid s := by
  obtain ⟨pid', c, c', hc, hk, -, hchange, -⟩ := childStep_kernel h
  unfold ProcessOk at hok ⊢
  rw [hk]
  by_cases hpid : pid = pid'
  · subst hpid
    rw [hc] at hok
    rw [Function.update_self]
    exact ⟨hok.1, fun hn => absurd hn hchange⟩
  · rw [Function.update_of_ne hpid]
    exact hok

theorem childStep_known {w' : JobWorld} (h : ChildStep w w') (hk : Known w) : Known w' := by
  obtain ⟨pid', c, c', hc, hkernel, hgroup, -, hok⟩ := childStep_kernel h
  refine ⟨?_, ?_, ?_⟩
  · rw [childStep_manager h]
    exact hk.distinct
  · intro pid d hd
    rw [hkernel] at hd
    by_cases hpid : pid = pid'
    · subst hpid
      rw [Function.update_self] at hd
      obtain rfl := Option.some.inj hd
      exact hok
    · rw [Function.update_of_ne hpid] at hd
      exact hk.child pid d hd
  · rw [childStep_manager h]
    intro s hs pid hp d hd
    rw [hkernel] at hd
    by_cases hpid : pid = pid'
    · subst hpid
      rw [Function.update_self] at hd
      obtain rfl := Option.some.inj hd
      exact hgroup.trans (hk.group s hs pid hp c hc)
    · rw [Function.update_of_ne hpid] at hd
      exact hk.group s hs pid hp d hd

theorem stable_manager (m : JobManager) : Stable kernel fun w => w.manager = m :=
  fun _ _ hstep h => (childStep_manager hstep).trans h

theorem stable_midway (stale : ℕ → Prop) : Stable kernel (Midway stale) := by
  intro w w' hstep h
  have hm := childStep_manager hstep
  refine ⟨childStep_known hstep h.known, ?_, ?_⟩
  · intro job hjob p hp
    rw [hm] at hjob
    exact childStep_processOk hstep (h.recorded job hjob p hp)
  · rw [hm]
    exact h.aggregated

theorem childStep_lost {w' : JobWorld} (hstep : ChildStep w w') (h : NeverLost w) : NeverLost w' := by
  obtain ⟨pid', c, c', hc, hkernel, -⟩ := childStep_kernel hstep
  intro job hjob p hp d hd
  rw [childStep_manager hstep] at hjob
  rw [hkernel] at hd
  by_cases hpid : p.pid = pid'
  · exact h job hjob p hp c (hpid ▸ hc)
  · rw [Function.update_of_ne hpid] at hd
    exact h job hjob p hp d hd

/-- Children do not come back. -/
theorem childStep_gone {w' : JobWorld} (hstep : ChildStep w w') {pid : ℕ} (h : w.kernel pid = none) :
    w'.kernel pid = none := by
  obtain ⟨pid', c, c', hc, hkernel, -⟩ := childStep_kernel hstep
  have hne : pid ≠ pid' := fun heq => by rw [heq, hc] at h; cases h
  rw [hkernel, Function.update_of_ne hne]
  exact h

theorem stable_owed (stale : ℕ → Prop) (pid : ℕ) (st : WaitStatus) : Stable kernel (Owed stale pid st) := by
  intro w w' hstep h
  have hm := childStep_manager hstep
  refine ⟨childStep_known hstep h.known, ?_, childStep_processOk hstep h.owed, childStep_lost hstep h.lost, ?_⟩
  · intro job hjob p hp hne
    rw [hm] at hjob
    exact childStep_processOk hstep (h.others job hjob p hp hne)
  · rw [hm]
    exact h.aggregated

/-- The report of a change: the child is gone, or has nothing more to
report. -/
theorem handOver_ok {c : Child} {st : WaitStatus} (hok : c.Ok) (hc : c.change = some st) {k : ℕ → Option Child}
    {pid : ℕ} (hk : k pid = c.handOver) : ProcessOk k pid st.processStatus := by
  have hst := hok.change st hc
  rw [ProcessOk, hk, Child.handOver]
  by_cases he : c.state = .exited
  · rw [if_pos he]
    rw [he] at hst
    exact hst
  · rw [if_neg he]
    refine ⟨?_, fun _ => hst⟩
    rw [hst]
    cases hs : c.state with
    | running => exact ProcessStatus.noConfusion
    | stopped => exact ProcessStatus.noConfusion
    | exited => exact absurd hs he

theorem handOver_child {c d : Child} (hd : c.handOver = some d) : d.Ok ∧ d.group = c.group := by
  unfold Child.handOver at hd
  split_ifs at hd with he
  obtain rfl := Option.some.inj hd
  exact ⟨⟨fun st hst => absurd hst (Option.some_ne_none st).symm, fun h => absurd h he⟩, rfl⟩

/-- Only one child is touched by a report. -/
theorem waitpid_owed {stale : ℕ → Prop} {w' : JobWorld} {target : Target} {flags : WaitFlags} {pid : ℕ}
    {st : WaitStatus} (h : Midway stale w) (hs : waitpidSem w target flags (.reported pid st) w') :
    Owed stale pid st w' := by
  obtain ⟨c, hc, -, hchange, -, rfl⟩ := hs
  have hok := h.known.child pid c hc
  have hself : (w.setChild pid c.handOver).kernel pid = c.handOver := Function.update_self ..
  have hne : ∀ {pid'}, pid' ≠ pid → (w.setChild pid c.handOver).kernel pid' = w.kernel pid' := fun hne =>
    Function.update_of_ne hne ..
  refine ⟨⟨h.known.distinct, ?_, ?_⟩, ?_, handOver_ok hok hchange hself, ?_, h.aggregated⟩
  · intro pid' d hd
    by_cases hpid : pid' = pid
    · subst hpid
      exact (handOver_child (hself.symm.trans hd)).1
    · exact h.known.child pid' d (hne hpid ▸ hd)
  · intro s hmem pid' hp d hd
    by_cases hpid : pid' = pid
    · subst hpid
      exact (handOver_child (hself.symm.trans hd)).2.trans (h.known.group s hmem pid' hp c hc)
    · exact h.known.group s hmem pid' hp d (hne hpid ▸ hd)
  · intro job hjob p hp hpid
    rw [ProcessOk, hne hpid]
    exact h.recorded job hjob p hp
  · intro job hjob p hp d hd
    by_cases hpid : p.pid = pid
    · exact h.lost job hjob p hp c (hpid ▸ hc)
    · exact h.lost job hjob p hp d (hne hpid ▸ hd)

/-- The change is applied to the process it is owed to. -/
theorem Owed.apply {stale : ℕ → Prop} {pid id : ℕ} {st : WaitStatus} (h : Owed stale pid st w)
    (hjob : ∃ job ∈ w.manager.jobs, job.id = id ∧ pid ∈ job.pids) :
    Midway (fun i => stale i ∨ i = id) { w with manager :=
      (w.manager.modify id fun job => job.modifyProcess pid fun p => processApplyWaitStatus p st) } := by
  obtain ⟨owner, howner, rfl, hpid⟩ := hjob
  refine midway_modify h.known (keepsShape_modifyProcess fun _ => rfl) ?_ ?_ h.aggregated
  · intro job hmem hne p hp
    refine h.others job hmem p hp fun heq => hne ?_
    have hp' : pid ∈ job.pids := heq ▸ List.mem_map_of_mem hp
    rw [h.known.same_pid hmem howner hp' hpid]
  · intro job hmem _ p hp
    obtain ⟨p₀, hp₀, rfl⟩ := List.mem_map.mp hp
    by_cases heq : p₀.pid = pid
    · rw [if_pos heq]
      show ProcessOk w.kernel p₀.pid st.processStatus
      rw [heq]
      exact h.owed
    · rw [if_neg heq]
      exact h.others job hmem p₀ hp₀ heq

/-- A change of a child that is in no job is nobody's. -/
theorem Owed.unregistered {stale : ℕ → Prop} {pid : ℕ} {st : WaitStatus} (h : Owed stale pid st w)
    (hjob : ∀ job ∈ w.manager.jobs, pid ∉ job.pids) : Midway stale w := by
  refine ⟨h.known, fun job hmem p hp => h.others job hmem p hp fun heq => ?_, h.aggregated⟩
  exact hjob job hmem (heq ▸ List.mem_map_of_mem hp)

/-- A process whose child is gone is done. -/
theorem Midway.gone {stale : ℕ → Prop} (h : Midway stale w) (id : ℕ) {pid : ℕ} (hpid : w.kernel pid = none) :
    Midway (fun i => stale i ∨ i = id) { w with manager :=
      (w.manager.modify id fun job => job.modifyProcess pid fun p => { p with status := .done }) } := by
  refine midway_modify h.known (keepsShape_modifyProcess fun _ => rfl)
    (fun job hmem _ => h.recorded job hmem) ?_ h.aggregated
  intro job hmem _ p hp
  obtain ⟨p₀, hp₀, rfl⟩ := List.mem_map.mp hp
  by_cases heq : p₀.pid = pid
  · rw [if_pos heq]
    show ProcessOk w.kernel p₀.pid .done
    rw [ProcessOk, heq, hpid]
  · rw [if_neg heq]
    exact h.recorded job hmem p₀ hp₀

/-! ### Waiting -/

/-- Reading the table and writing it with one job changed. -/
theorem modifyJob_safe {P Q : JobWorld → Prop} {id : ℕ} {f : Job → Job} (hP : Stable kernel P)
    (hQ : Stable kernel Q) (hPlost : ∀ w, P w → NeverLost w) (hQlost : ∀ w, Q w → NeverLost w)
    (hf : ∀ w, P w → Q { w with manager := w.manager.modify id f }) (h : P w) :
    Safe kernel jobWatch (fun _ w => Q w) (modifyJob id f) w := by
  refine Safe.call hP (fun w hw => ⟨hPlost w hw, trivial⟩) ?_ h
  rintro w m w₁ hw ⟨rfl, rfl⟩
  have hstable : Stable kernel fun w' => P w' ∧ w'.manager = w₁.manager := fun w w' hs hw =>
    ⟨hP w w' hs hw.1, stable_manager _ w w' hs hw.2⟩
  refine Safe.call hstable (fun w hw => ⟨hPlost w hw.1, trivial⟩) ?_ ⟨hw, rfl⟩
  rintro w _ w₂ ⟨hw, hm⟩ hs
  obtain rfl : w₂ = { w with manager := w₁.manager.modify id f } := hs
  rw [← hm]
  exact Safe.ret hQ (fun w hw => ⟨hQlost w hw, hw⟩) (hf w hw)

/-- Applying a change that is owed to a process of the job. -/
theorem apply_safe {stale : ℕ → Prop} {pid id : ℕ} {st : WaitStatus} (h : Owed stale pid st w)
    (hjob : ∃ job ∈ w.manager.jobs, job.id = id ∧ pid ∈ job.pids) :
    Safe kernel jobWatch (fun _ w => Midway (fun i => stale i ∨ i = id) w)
      (modifyJob id fun job => job.modifyProcess pid fun p => processApplyWaitStatus p st) w := by
  refine modifyJob_safe (P := fun w => Owed stale pid st w ∧ ∃ job ∈ w.manager.jobs, job.id = id ∧ pid ∈ job.pids)
    ?_ (stable_midway _) (fun _ hw => hw.1.lost) (fun _ hw => hw.lost) (fun _ hw => hw.1.apply hw.2) ⟨h, hjob⟩
  intro w w' hs hw
  refine ⟨stable_owed stale pid st w w' hs hw.1, ?_⟩
  rw [childStep_manager hs]
  exact hw.2

theorem agrees_ret {α : Type} {a : α} (h : Agrees w) : Safe kernel jobWatch (fun _ w => Agrees w) (.ret a) w :=
  Safe.ret (stable_midway _) (fun _ hw => ⟨hw.lost, hw⟩) h

/-- The status of a job, brought up to date when nothing else is stale. -/
theorem update_safe {id : ℕ} (h : Midway (· = id) w) :
    Safe kernel jobWatch (fun _ w => Agrees w) (modifyJob id jobUpdateStatus) w :=
  modifyJob_safe (stable_midway _) (stable_midway _) (fun _ hw => hw.lost) (fun _ hw => hw.lost)
    (fun _ hw => (hw.update id).mono fun _ hi => hi.2 hi.1) h

/-- One wait of the foreground loop, for any of its outcomes. -/
theorem waitTurn_safe (id : ℕ) (h : Agrees w) : Safe kernel jobWatch (fun _ w => Agrees w) (waitTurn id) w := by
  refine Safe.call (stable_midway _) (fun _ hw => ⟨hw.lost, trivial⟩) ?_ h
  rintro w m w₁ hw ⟨rfl, rfl⟩
  cases hfind : w₁.manager.find id with
  | none => exact agrees_ret hw
  | some job =>
    obtain ⟨hjob, hid⟩ := find_spec hfind
    dsimp only
    by_cases hpgid : job.pgid = 0
    · rw [if_pos hpgid]
      exact agrees_ret hw
    rw [if_neg hpgid]
    by_cases hrunning : job.status ≠ .running
    · rw [if_pos hrunning]
      exact agrees_ret hw
    rw [if_neg hrunning]
    have hstable : Stable kernel fun w' => Agrees w' ∧ w'.manager = w₁.manager := fun w w' hs hw =>
      ⟨stable_midway _ w w' hs hw.1, stable_manager _ w w' hs hw.2⟩
    refine Safe.call hstable (fun _ hw => ⟨hw.1.lost, hw.1⟩) ?_ ⟨hw, rfl⟩
    rintro w r w₂ ⟨hw, hm⟩ hs
    have hjob : job ∈ w.manager.jobs := hm ▸ hjob
    cases r with
    | failed errno =>
      obtain rfl : w₂ = w := hs.1
      dsimp only
      split_ifs <;> exact agrees_ret hw
    | nothing =>
      obtain rfl : w₂ = w := hs.1
      exact agrees_ret hw
    | reported pid st =>
      have howed := waitpid_owed hw hs
      obtain ⟨c, hc, hgroup, -, -, rfl⟩ := hs
      dsimp only
      by_cases hfound : processFind job pid = none
      · rw [if_pos hfound]
        refine agrees_ret (howed.unregistered fun job' hjob' hpid => ?_)
        -- the child is in the group of its job, so it would have been found
        have hgroup' : c.group = job'.pgid := hw.known.group _ (mem_shape hjob') pid hpid c hc
        obtain rfl := hw.known.same_pgid hjob hjob' (hgroup.symm.trans hgroup')
        exact hw.known.processFind hjob hpid hfound
      · rw [if_neg hfound]
        obtain ⟨p, hp⟩ := Option.ne_none_iff_exists'.mp hfound
        obtain ⟨hmem, rfl⟩ := processFind_spec hp
        refine (apply_safe howed ⟨job, hjob, hid, List.mem_map_of_mem hmem⟩).bind fun _ w₃ hw₃ _ => ?_
        refine (update_safe (hw₃.mono fun _ hi => hi.resolve_left False.elim)).bind fun _ w₄ hw₄ _ => ?_
        exact agrees_ret hw₄

theorem jobWaitForeground_safe (id : ℕ) (h : Agrees w) :
    Safe kernel jobWatch (fun _ w => Agrees w) (jobWaitForeground id) w := by
  refine Safe.loop (I := fun _ w => Agrees w) (fun _ => stable_midway _) (fun _ _ hw => hw.lost) (fun _ w hw => ?_) h
  refine (waitTurn_safe id hw).weaken fun x w _ hw => ?_
  cases x with
  | inl _ => exact hw
  | inr _ => exact agrees_ret hw

/-! ### Reaping -/

theorem midway_ret {α : Type} {a : α} {stale : ℕ → Prop} (h : Midway stale w) :
    Safe kernel jobWatch (fun _ w => Midway stale w) (.ret a) w :=
  Safe.ret (stable_midway _) (fun _ hw => ⟨hw.lost, hw⟩) h

theorem printLine_safe {stale : ℕ → Prop} (h : Midway stale w) (line : Option (List Byte)) :
    Safe kernel jobWatch (fun _ w => Midway stale w) (printLine line) w := by
  cases line with
  | none => exact midway_ret h
  | some line =>
    refine Safe.call (stable_midway _) (fun _ hw => ⟨hw.lost, trivial⟩) ?_ h
    rintro w _ w₁ hw hs
    obtain rfl : w₁ = w := hs
    exact midway_ret hw

/-- A process of the job that is being reaped. -/
theorem reapProcess_safe (id pid : ℕ) (h : Midway (· = id) w) :
    Safe kernel jobWatch (fun _ w => Midway (· = id) w) (reapProcess id pid) w := by
  refine Safe.call (stable_midway _) (fun _ hw => ⟨hw.lost, trivial⟩) ?_ h
  rintro w m w₁ hw ⟨rfl, rfl⟩
  cases hfind : (w₁.manager.find id).bind fun job => processFind job pid with
  | none => exact midway_ret hw
  | some p =>
    dsimp only
    by_cases hdone : p.status = .done
    · rw [if_pos hdone]
      exact midway_ret hw
    rw [if_neg hdone]
    obtain ⟨job, hjob, hp⟩ := Option.bind_eq_some_iff.mp hfind
    obtain ⟨hmem, hid⟩ := find_spec hjob
    obtain ⟨hmemp, rfl⟩ := processFind_spec hp
    have howner : ∃ job ∈ w₁.manager.jobs, job.id = id ∧ p.pid ∈ job.pids :=
      ⟨job, hmem, hid, List.mem_map_of_mem hmemp⟩
    have hstable : Stable kernel fun w' => Midway (· = id) w' ∧ w'.manager = w₁.manager := fun w w' hs hw =>
      ⟨stable_midway _ w w' hs hw.1, stable_manager _ w w' hs hw.2⟩
    refine Safe.call hstable (fun _ hw => ⟨hw.1.lost, hw.1.recorded⟩) ?_ ⟨hw, rfl⟩
    rintro w r w₂ ⟨hw, hm⟩ hs
    rw [← hm] at howner
    have hsame : ∀ {w}, Midway (fun i => i = id ∨ i = id) w → Midway (· = id) w := fun hw =>
      hw.mono fun i hi => hi.elim (fun h => h) fun h => h
    cases r with
    | failed errno =>
      obtain ⟨rfl, herr⟩ := hs
      dsimp only
      by_cases hchild : errno = ECHILD
      · rw [if_pos hchild]
        have hgone : w₂.kernel p.pid = none := by
          rcases herr with hintr | ⟨-, hnone⟩
          · rw [hintr] at hchild
            exact absurd hchild (by decide)
          · cases hc : w₂.kernel p.pid with
            | none => rfl
            | some c => exact absurd rfl (hnone p.pid c hc)
        have hstable : Stable kernel fun w => Midway (· = id) w ∧ w.kernel p.pid = none := fun w w' hs hw =>
          ⟨stable_midway _ w w' hs hw.1, childStep_gone hs hw.2⟩
        exact modifyJob_safe hstable (stable_midway _) (fun _ hw => hw.1.lost) (fun _ hw => hw.lost)
          (fun _ hw => hsame (hw.1.gone id hw.2)) ⟨hw, hgone⟩
      · rw [if_neg hchild]
        exact midway_ret hw
    | nothing =>
      obtain rfl : w₂ = w := hs.1
      exact midway_ret hw
    | reported ret st =>
      have howed := waitpid_owed hw hs
      obtain ⟨c, hc, hret, -, -, rfl⟩ := hs
      obtain rfl : ret = p.pid := hret
      dsimp only
      rw [if_pos rfl]
      refine (apply_safe howed howner).bind fun _ w₃ hw₃ _ => ?_
      exact printLine_safe (hsame hw₃) _

theorem reapJob_safe (id : ℕ) (h : Agrees w) : Safe kernel jobWatch (fun _ w => Agrees w) (reapJob id) w := by
  refine Safe.call (stable_midway _) (fun _ hw => ⟨hw.lost, trivial⟩) ?_ h
  rintro w m w₁ hw ⟨rfl, rfl⟩
  cases hfind : w₁.manager.find id with
  | none => exact agrees_ret hw
  | some job =>
    have hloop := Safe.foldlM (M := kernel) (C := jobWatch) (I := fun (_ : Unit) w => Midway (· = id) w)
      (f := fun _ pid => reapProcess id pid) (fun _ => stable_midway _) (fun _ _ hw => hw.lost)
      (fun _ pid w hw => reapProcess_safe id pid hw) (job.processes.map Process.pid) (s := ())
      (hw.mono fun i hi => hi.elim)
    exact hloop.bind fun _ w hw _ => update_safe hw

theorem jobReap_safe (h : Agrees w) : Safe kernel jobWatch (fun _ w => Agrees w) jobReap w := by
  refine Safe.call (stable_midway _) (fun _ hw => ⟨hw.lost, trivial⟩) ?_ h
  rintro w m w₁ hw ⟨rfl, rfl⟩
  exact Safe.foldlM (I := fun (_ : Unit) w => Agrees w) (fun _ => stable_midway _) (fun _ _ hw => hw.lost)
    (fun _ id w hw => reapJob_safe id hw) _ hw

/-! ### Continuing -/

theorem resume_processOk {k : ℕ → Option Child} {pid : ℕ} {s : ProcessStatus} (g : ℕ) (h : ProcessOk k pid s) :
    ProcessOk (fun pid => (k pid).map (resumeGroup g)) pid s := by
  unfold ProcessOk at h ⊢
  dsimp only
  cases hc : k pid with
  | none =>
    rw [hc] at h
    exact h
  | some c =>
    rw [hc] at h
    rw [Option.map_some]
    unfold resumeGroup
    dsimp only
    by_cases hg : c.group = g ∧ c.state = .stopped
    · rw [if_pos hg]
      exact ⟨h.1, fun hn => absurd hn (Option.some_ne_none _)⟩
    · rw [if_neg hg]
      exact h

theorem resumeGroup_ok {g : ℕ} {c : Child} (h : c.Ok) : (resumeGroup g c).Ok ∧ (resumeGroup g c).group = c.group := by
  unfold resumeGroup
  by_cases hg : c.group = g ∧ c.state = .stopped
  · rw [if_pos hg]
    refine ⟨⟨fun st hst => ?_, fun _ => Option.some_ne_none _⟩, rfl⟩
    rw [← Option.some.inj hst]
    rfl
  · rw [if_neg hg]
    exact ⟨h, rfl⟩

/-- The stopped processes of the group may be recorded as running. -/
def Resumed (g : ℕ) (w : JobWorld) : Prop :=
  ∀ job ∈ w.manager.jobs, job.pgid = g → ∀ p ∈ job.processes, p.status = .stopped → ProcessOk w.kernel p.pid .running

/-- The group is continued: what is stopped now has a change to report. -/
theorem Midway.continue (h : Agrees w) (g : ℕ) :
    Agrees { w with kernel := fun pid => (w.kernel pid).map (resumeGroup g) } ∧
      Resumed g { w with kernel := fun pid => (w.kernel pid).map (resumeGroup g) } := by
  refine ⟨⟨⟨h.known.distinct, ?_, ?_⟩, fun job hjob p hp => resume_processOk g (h.recorded job hjob p hp),
    h.aggregated⟩, ?_⟩
  · intro pid c' hc'
    obtain ⟨c, hc, rfl⟩ := Option.map_eq_some_iff.mp hc'
    exact (resumeGroup_ok (h.known.child pid c hc)).1
  · intro s hs pid hp c' hc'
    obtain ⟨c, hc, rfl⟩ := Option.map_eq_some_iff.mp hc'
    rw [(resumeGroup_ok (h.known.child pid c hc)).2]
    exact h.known.group s hs pid hp c hc
  · intro job hjob hgroup p hp hstopped
    have hok := h.recorded job hjob p hp
    rw [ProcessOk, hstopped] at hok
    unfold ProcessOk
    dsimp only
    cases hc : w.kernel p.pid with
    | none =>
      rw [hc] at hok
      cases hok
    | some c =>
      rw [hc] at hok
      rw [Option.map_some]
      refine ⟨ProcessStatus.noConfusion, fun hn => ?_⟩
      exfalso
      unfold resumeGroup at hn
      have hgroup' : c.group = g :=
        (h.known.group _ (mem_shape hjob) p.pid (List.mem_map_of_mem hp) c hc).trans hgroup
      by_cases hs : c.state = .stopped
      · rw [if_pos ⟨hgroup', hs⟩] at hn
        cases hn
      · rw [if_neg fun hg => hs hg.2] at hn
        have hrecorded := hok.2 hn
        cases hstate : c.state with
        | running => rw [hstate] at hrecorded; cases hrecorded
        | stopped => exact hs hstate
        | exited => rw [hstate] at hrecorded; cases hrecorded

theorem stable_resumed (g : ℕ) : Stable kernel (Resumed g) := by
  intro w w' hstep h job hjob hgroup p hp hs
  rw [childStep_manager hstep] at hjob
  exact childStep_processOk hstep (h job hjob hgroup p hp hs)

/-- The signal is sent, or nothing has happened. -/
theorem continueGroup_safe {m : JobManager} (g : ℕ) (h : Agrees w ∧ w.manager = m) :
    Safe kernel jobWatch (fun ret w => (Agrees w ∧ w.manager = m) ∧ (¬ ret < 0 → Resumed g w)) (continueGroup g) w := by
  have hstable : Stable kernel fun w => Agrees w ∧ w.manager = m := fun w w' hs hw =>
    ⟨stable_midway _ w w' hs hw.1, stable_manager _ w w' hs hw.2⟩
  refine Safe.loop (I := fun _ w => Agrees w ∧ w.manager = m) (fun _ => hstable) (fun _ _ hw => hw.1.lost)
    (fun _ w hw => ?_) h
  refine Safe.call hstable (fun _ hw => ⟨hw.1.lost, hw.1⟩) ?_ hw
  rintro w r w₁ hw (⟨hret, rfl⟩ | ⟨hret, rfl⟩)
  · rw [if_neg (by rw [hret]; decide)]
    obtain ⟨hagrees, hresumed⟩ := hw.1.continue g
    have hboth : Stable kernel fun w' => (Agrees w' ∧ w'.manager = m) ∧ Resumed g w' := fun w₁ w₂ hs hw =>
      ⟨⟨stable_midway _ w₁ w₂ hs hw.1.1, stable_manager _ w₁ w₂ hs hw.1.2⟩, stable_resumed g w₁ w₂ hs hw.2⟩
    refine Safe.ret hboth (fun w₂ hw₂ => ⟨hw₂.1.1.lost, ?_⟩) ⟨⟨hagrees, hw.2⟩, hresumed⟩
    exact Safe.ret hboth (fun _ hw => ⟨hw.1.1.lost, hw.1, fun _ => hw.2⟩) hw₂
  · rw [if_pos (by rw [hret]; decide)]
    by_cases hintr : r.errno = EINTR
    · rw [if_pos hintr]
      exact Safe.ret hstable (fun _ hw => ⟨hw.1.lost, hw⟩) hw
    · rw [if_neg hintr]
      refine Safe.ret hstable (fun w₂ hw₂ => ⟨hw₂.1.lost, ?_⟩) hw
      exact Safe.ret hstable (fun _ hw => ⟨hw.1.lost, hw, fun hn => absurd (by decide) hn⟩) hw₂

theorem jobContinue_safe (id : ℕ) (h : Agrees w) :
    Safe kernel jobWatch (fun _ w => Agrees w) (jobContinue id) w := by
  refine Safe.call (stable_midway _) (fun _ hw => ⟨hw.lost, trivial⟩) ?_ h
  rintro w m w₁ hw ⟨rfl, rfl⟩
  cases hfind : w₁.manager.find id with
  | none => exact agrees_ret hw
  | some job =>
    obtain ⟨hjob, hid⟩ := find_spec hfind
    dsimp only
    by_cases hpgid : job.pgid = 0
    · rw [if_pos hpgid]
      exact agrees_ret hw
    rw [if_neg hpgid]
    by_cases hstopped : job.status ≠ .stopped
    · rw [if_pos hstopped]
      exact agrees_ret hw
    rw [if_neg hstopped]
    refine (continueGroup_safe job.pgid ⟨hw, rfl⟩).bind fun ret w₂ hw₂ _ => ?_
    obtain ⟨⟨hw₂, hm⟩, hresumed⟩ := hw₂
    by_cases hret : ret < 0
    · rw [if_pos hret]
      exact agrees_ret hw₂
    rw [if_neg hret]
    have hgroup : ∀ job' ∈ w₁.manager.jobs, job'.id = id → job'.pgid = job.pgid := by
      intro job' hjob' hid'
      rw [hw.known.same_id hjob' hjob (hid'.trans hid.symm)]
    have hstable : Stable kernel fun w => (Agrees w ∧ w.manager = w₁.manager) ∧ Resumed job.pgid w :=
      fun w w' hs hw => ⟨⟨stable_midway _ w w' hs hw.1.1, stable_manager _ w w' hs hw.1.2⟩,
        stable_resumed _ w w' hs hw.2⟩
    have hresume : Safe kernel jobWatch (fun _ w => Midway (· = id) w) (modifyJob id Job.resume) w₂ := by
      refine modifyJob_safe hstable (stable_midway _) (fun _ hw => hw.1.1.lost) (fun _ hw => hw.lost) ?_
        ⟨⟨hw₂, hm⟩, hresumed hret⟩
      rintro w ⟨⟨hw, hm⟩, hresumed⟩
      refine Midway.mono (midway_modify hw.known keepsShape_resume (fun job hmem _ => hw.recorded job hmem) ?_
        hw.aggregated) fun _ hi => hi.resolve_left False.elim
      intro job' hmem hid' p hp
      obtain ⟨p₀, hp₀, rfl⟩ := List.mem_map.mp hp
      by_cases hs : p₀.status = .stopped
      · rw [if_pos hs]
        exact hresumed job' hmem (hgroup job' (hm ▸ hmem) hid') p₀ hp₀ hs
      · rw [if_neg hs]
        exact hw.recorded job' hmem p₀ hp₀
    refine hresume.bind fun _ w₃ hw₃ _ => (update_safe hw₃).bind fun _ w₄ hw₄ _ => agrees_ret hw₄

end Table

/-! ### Any order of operations -/

/-- What the shell does with the table. -/
inductive JobOperation
  | waitForeground (id : ℕ)
  | reap
  | continue (id : ℕ)
deriving DecidableEq, Repr

def jobOperation : JobOperation → JobProg Unit
  | .waitForeground id => (jobWaitForeground id).bind fun _ => .ret ()
  | .reap => jobReap
  | .continue id => (jobContinue id).bind fun _ => .ret ()

/-- The shell is told what to do next, or an operation calls out. -/
inductive TableCall
  | idle
  | job (c : JobCall)

abbrev TableCall.Ret : TableCall → Type
  | .idle => JobOperation
  | .job c => c.Ret

/-- Operation after operation, for ever. -/
def tableClient : Prog TableCall TableCall.Ret Empty :=
  .iter (fun _ => .call TableCall.idle fun op =>
    ((jobOperation op).link fun c => .call (.job c) .ret).bind fun _ => .ret (.inl ())) ()

def tableSem (w : JobWorld) : (c : TableCall) → c.Ret → JobWorld → Prop
  | .idle, _, w' => w' = w
  | .job c, r, w' => jobSem w c r w'

abbrev table : World TableCall TableCall.Ret JobWorld := ⟨tableSem, ChildStep⟩

/-- The table also agrees with the kernel between the operations. -/
def tableWatch : Watch TableCall JobWorld where
  always := NeverLost
  atCall c w := match c with
    | .idle => Agrees w
    | .job c => jobWatch.atCall c w

/-- Jobs that were just started: their children run, each in the group of its
job. -/
structure Launched extends JobWorld where
  distinct : Distinct manager.shape
  running : ∀ job ∈ manager.jobs, job.status = .running ∧ ∀ p ∈ job.processes, p.status = .running ∧
    kernel p.pid = some ⟨job.pgid, .running, none⟩
  ok : ∀ pid c, kernel pid = some c → c.Ok

theorem Launched.agrees (s : Launched) : Agrees s.toJobWorld := by
  refine ⟨⟨s.distinct, s.ok, ?_⟩, ?_, ?_⟩
  · intro x hx pid hp c hc
    obtain ⟨job, hjob, rfl⟩ := List.mem_map.mp hx
    obtain ⟨p, hmem, rfl⟩ := List.mem_map.mp hp
    obtain rfl := Option.some.inj (hc.symm.trans ((s.running job hjob).2 p hmem).2)
    rfl
  · intro job hjob p hp
    obtain ⟨hs, hc⟩ := (s.running job hjob).2 p hp
    rw [ProcessOk, hc, hs]
    exact ⟨ProcessStatus.noConfusion, fun _ => rfl⟩
  · intro job hjob _
    obtain ⟨hs, hp⟩ := s.running job hjob
    unfold Job.Aggregated jobUpdateStatus
    by_cases hnil : job.processes = []
    · rw [if_pos hnil]
    rw [if_neg hnil]
    obtain ⟨p, hmem⟩ := List.exists_mem_of_ne_nil _ hnil
    rw [if_pos (List.any_eq_true.mpr ⟨p, hmem, by simpa using (hp p hmem).1⟩), ← hs]

theorem jobOperation_safe {w : JobWorld} (op : JobOperation) (h : Agrees w) :
    Safe kernel jobWatch (fun _ w => Agrees w) (jobOperation op) w := by
  cases op with
  | waitForeground id => exact (jobWaitForeground_safe id h).bind fun _ _ hw _ => agrees_ret hw
  | reap => exact jobReap_safe h
  | «continue» id => exact (jobContinue_safe id h).bind fun _ _ hw _ => agrees_ret hw

/-- However the children stop, continue and exit while the shell waits, reaps
and continues jobs, a live child is never recorded done, and between the
operations every process and job is recorded as the kernel has it. -/
theorem job_table_agrees (s : Launched) : Safe table tableWatch (fun _ _ => True) tableClient s.toJobWorld := by
  have hstable : Stable table Agrees := stable_midway _
  refine Safe.loop (I := fun _ w => Agrees w) (fun _ => hstable) (fun _ _ hw => hw.lost) (fun _ w hw => ?_) s.agrees
  refine Safe.call hstable (fun _ hw => ⟨hw.lost, hw⟩) ?_ hw
  rintro w op w₁ hw hs
  obtain rfl : w₁ = w := hs
  have henv : ∀ w w', table.env w w' → kernel.env w w' := fun _ _ he => he
  have hcall : ∀ c w, (∀ w', Relation.ReflTransGen kernel.env w w' → jobWatch.always w' ∧ jobWatch.atCall c w') →
      (∀ r w', Happens kernel w c r w' → jobWatch.always w') →
      Safe table tableWatch (Happens kernel w c) (.call (.job c) .ret) w := fun c w hbefore hafter =>
    Safe.happens table (.job c) (fun r => r) henv (fun _ _ _ hs => hs) hbefore hafter
  have hop : Safe table tableWatch (fun _ w => Agrees w) ((jobOperation op).link fun c => .call (.job c) .ret) w₁ :=
    Safe.link henv (fun _ hw => hw) hcall (jobOperation_safe op hw)
  exact hop.bind fun _ w hw _ => Safe.ret hstable (fun _ hw => ⟨hw.lost, hw⟩) hw

/-- A pipeline of two children and a job of one. -/
def launchedJobs : Launched where
  manager := ⟨[⟨2, 9, .running, text "c", [⟨9, .running, none⟩], none⟩,
    ⟨1, 7, .running, text "a", [⟨7, .running, none⟩, ⟨8, .running, none⟩], none⟩], 3⟩
  kernel pid :=
    if pid = 7 ∨ pid = 8 then some ⟨7, .running, none⟩ else if pid = 9 then some ⟨9, .running, none⟩ else none
  distinct := ⟨by decide, by decide, by decide, by decide⟩
  running := by decide
  ok := by
    intro pid c hc
    have hchild : c.state = .running ∧ c.change = none := by
      split_ifs at hc
      · obtain rfl := Option.some.inj hc
        exact ⟨rfl, rfl⟩
      · obtain rfl := Option.some.inj hc
        exact ⟨rfl, rfl⟩
    refine ⟨fun st hst => ?_, fun hexited => ?_⟩
    · rw [hchild.2] at hst
      cases hst
    · rw [hchild.1] at hexited
      cases hexited

theorem job_table_agrees_launched : Safe table tableWatch (fun _ _ => True) tableClient launchedJobs.toJobWorld :=
  job_table_agrees launchedJobs

end DeviceRuntime
