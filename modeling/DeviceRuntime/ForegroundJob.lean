/-
# The job of a run

The executor adds a job at the head of the table and then works with that job
only; `fg` works with the first job that is not done. Either way the jobs that
stand before it are done. `HasJob` says this of the job a pointer points to,
with the pids of its processes, and is kept by all that is done with the job.

Only the table is looked at: all other calls may return anything. A fact that
is shown here holds in every world that has the table in its state.

Key definitions: `tables`, `activeJob`, `HasJob`, `HasTable`.
Key theorems: `HasJob.change`, `HasJob.spec`, `jobAdd_has`, `processAdd_has`,
`HasTable.safe`.
-/
import DeviceRuntime.Executor
import DeviceRuntime.JobTable

namespace DeviceRuntime

open Prog

/-! ### The table alone -/

def tableCall (m : JobManager) : (c : JobCall) → c.Ret → JobManager → Prop
  | .getJobs, r, m' => r = m ∧ m' = m
  | .setJobs n, _, m' => m' = n
  | _, _, m' => m' = m

abbrev tables : World JobCall JobCall.Ret JobManager := World.alone tableCall

/-- The functions that neither wait nor signal. -/
def TableOnly : JobCall → Prop
  | .waitpid _ _ | .kill _ _ => False
  | _ => True

/-- The job that a wait for a group is for. -/
def activeJob (m : JobManager) (pgid : ℕ) : Option Job :=
  m.jobs.find? fun job => job.pgid = pgid ∧ job.status ≠ .done

/-- The pointer is to a job with these children, and the jobs before it are
done. -/
def HasJob (id : ℕ) (pids : List ℕ) (m : JobManager) : Prop :=
  ∃ before job after, m.jobs = before ++ job :: after ∧ job.id = id ∧ job.pgid ≠ 0 ∧ job.pids = pids ∧
    ∀ other ∈ before, other.status = .done ∧ other.id ≠ id

section Table

variable {m : JobManager} {id : ℕ} {pids : List ℕ}

/-- What the pointer and the wait find. -/
theorem HasJob.spec (h : HasJob id pids m) : ∃ job, m.find id = some job ∧ job.pgid ≠ 0 ∧ job.pids = pids ∧
    (job.status ≠ .done → activeJob m job.pgid = some job) := by
  obtain ⟨before, job, after, hjobs, hid, hpgid, hpids, hbefore⟩ := h
  refine ⟨job, ?_, hpgid, hpids, fun hactive => ?_⟩
  · unfold JobManager.find
    rw [hjobs]
    refine List.find?_eq_some_iff_append.mpr ⟨by simpa using hid, before, after, rfl, fun other hother => ?_⟩
    simpa using (hbefore other hother).2
  · unfold activeJob
    rw [hjobs]
    refine List.find?_eq_some_iff_append.mpr ⟨by simpa using hactive, before, after, rfl, fun other hother => ?_⟩
    simp [(hbefore other hother).1]

/-- The job is changed, and the jobs before it are left alone. -/
theorem HasJob.change (h : HasJob id pids m) {f : Job → Job} {pids' : List ℕ}
    (hf : ∀ job, job.pids = pids → (f job).id = job.id ∧ (f job).pgid = job.pgid ∧ (f job).pids = pids') :
    HasJob id pids' (m.modify id f) := by
  obtain ⟨before, job, after, hjobs, hid, hpgid, hpids, hbefore⟩ := h
  obtain ⟨hid', hpgid', hpids'⟩ := hf job hpids
  have hsame : (before.map fun other => if other.id = id then f other else other) = before := by
    refine (List.map_congr_left fun other hother => ?_).trans (List.map_id _)
    exact if_neg (hbefore other hother).2
  refine ⟨before, f job, after.map fun other => if other.id = id then f other else other, ?_, hid'.trans hid, ?_, hpids',
    hbefore⟩
  · unfold JobManager.modify
    dsimp only
    rw [hjobs, List.map_append, List.map_cons, hsame, if_pos hid]
  · rw [hpgid']
    exact hpgid

theorem HasJob.modify (h : HasJob id pids m) {f : Job → Job} (hf : KeepsShape f) : HasJob id pids (m.modify id f) :=
  h.change fun job hpids => ⟨(hf job).1, (hf job).2.1, (hf job).2.2.trans hpids⟩

/-- A job with a process more. -/
theorem HasJob.add (h : HasJob id pids m) (pid : ℕ) : HasJob id (pids ++ [pid]) (m.modify id fun job =>
    { job with processes := job.processes ++ [⟨pid, .running, none⟩] }) := by
  refine h.change fun job hpids => ⟨rfl, rfl, ?_⟩
  unfold Job.pids at *
  rw [List.map_append, hpids]
  rfl

/-- The first job that is not done, in a table that tells its jobs apart. -/
theorem HasJob.first (hdistinct : (m.jobs.map Job.id).Nodup) {job : Job}
    (hfind : m.jobs.find? (fun job => job.status = .running || job.status = .stopped) = some job)
    (hpgid : job.pgid ≠ 0) : HasJob job.id job.pids m := by
  obtain ⟨-, before, after, hjobs, hbefore⟩ := List.find?_eq_some_iff_append.mp hfind
  rw [hjobs, List.map_append, List.map_cons] at hdistinct
  refine ⟨before, job, after, hjobs, rfl, hpgid, rfl, fun other hother => ⟨?_, fun heq => ?_⟩⟩
  · have hnone := hbefore other hother
    cases hstatus : other.status with
    | done => rfl
    | running => simp [hstatus] at hnone
    | stopped => simp [hstatus] at hnone
  · refine (List.nodup_append.mp hdistinct).2.2 other.id (List.mem_map_of_mem hother) job.id List.mem_cons_self heq

/-- A new job stands at the head. -/
theorem jobAdd_has (pgid : ℕ) (command : Option (List Byte)) (m : JobManager) :
    Safe tables Watch.idle (fun r m' => ∀ id, r = some id → HasJob id [] m') (jobAdd pgid command) m := by
  have hnone : ∀ m : JobManager, ∀ id, none = some id → HasJob id [] m := fun _ _ h => by cases h
  unfold jobAdd
  cases command with
  | none => exact Safe.ret_alone trivial (hnone m)
  | some command =>
    dsimp only
    by_cases hpgid : pgid = 0
    · rw [if_pos hpgid]
      exact Safe.ret_alone trivial (hnone m)
    rw [if_neg hpgid]
    refine Safe.call_alone trivial trivial fun ok m₁ _ => ?_
    cases ok with
    | false => exact Safe.ret_alone trivial (hnone m₁)
    | true =>
      refine Safe.call_alone trivial trivial fun r m₂ _ => ?_
      refine Safe.call_alone trivial trivial fun _ m₃ hs => ?_
      have hs : m₃ = ⟨_ :: r.jobs, r.nextid + 1⟩ := hs
      refine Safe.ret_alone trivial fun id hid => ?_
      obtain rfl := Option.some.inj hid
      rw [hs]
      exact ⟨[], _, r.jobs, rfl, rfl, hpgid, rfl, fun _ h => absurd h List.not_mem_nil⟩

theorem processAdd_has (pid : ℕ) (h : HasJob id pids m) :
    Safe tables Watch.idle (fun ret m' => 0 ≤ ret → pid ≠ 0 ∧ HasJob id (pids ++ [pid]) m') (processAdd id pid) m := by
  unfold processAdd
  by_cases hpid : pid = 0
  · rw [if_pos hpid]
    exact Safe.ret_alone trivial fun h => absurd h (by decide)
  rw [if_neg hpid]
  refine Safe.call_alone trivial trivial fun ok m₁ hs => ?_
  have hs : m₁ = m := hs
  cases ok with
  | false => exact Safe.ret_alone trivial fun h => absurd h (by decide)
  | true =>
    refine Safe.call_alone trivial trivial fun r m₂ hs₂ => ?_
    obtain ⟨rfl, -⟩ : r = m₁ ∧ m₂ = m₁ := hs₂
    refine Safe.call_alone trivial trivial fun _ m₃ hs₃ => ?_
    have hs₃ : m₃ = r.modify id _ := hs₃
    refine Safe.ret_alone trivial fun _ => ⟨hpid, ?_⟩
    rw [hs₃, hs]
    exact h.add pid

/-- All that these functions call. -/
theorem jobAdd_only (pgid : ℕ) (command : Option (List Byte)) : (jobAdd pgid command).Only TableOnly := by
  unfold jobAdd
  cases command with
  | none => trivial
  | some command =>
    dsimp only
    split_ifs
    · trivial
    refine ⟨trivial, fun ok => ?_⟩
    dsimp only
    split_ifs
    · trivial
    · exact ⟨trivial, fun _ => ⟨trivial, fun _ => trivial⟩⟩

theorem modifyJob_only (id : ℕ) (f : Job → Job) : (modifyJob id f).Only TableOnly :=
  ⟨trivial, fun _ => ⟨trivial, fun _ => trivial⟩⟩

theorem processAdd_only (id pid : ℕ) : (processAdd id pid).Only TableOnly := by
  unfold processAdd
  split_ifs
  · trivial
  refine ⟨trivial, fun ok => ?_⟩
  dsimp only
  split_ifs
  · trivial
  · exact (modifyJob_only _ _).bind fun _ => trivial

/-- `addProcesses` on the table. -/
def addJobProcesses (id : ℕ) : List ℕ → JobProg ℤ
  | [] => .ret 0
  | pid :: pids => (processAdd id pid).bind fun ret => if ret < 0 then .ret (-1) else addJobProcesses id pids

theorem addProcesses_eq (id : ℕ) : ∀ pids, addProcesses id pids = onJobs (addJobProcesses id pids)
  | [] => rfl
  | pid :: pids => by
    unfold addProcesses addJobProcesses onJobs
    rw [link_bind]
    congr 1
    funext ret
    rw [addProcesses_eq id pids]
    split_ifs <;> rfl

theorem addJobProcesses_only (id : ℕ) : ∀ pids, (addJobProcesses id pids).Only TableOnly
  | [] => trivial
  | pid :: pids => by
    refine (processAdd_only id pid).bind fun ret => ?_
    split_ifs
    · trivial
    · exact addJobProcesses_only id pids

theorem addJobProcesses_has {id : ℕ} : ∀ (rest : List ℕ) {pids : List ℕ} {m : JobManager}, HasJob id pids m →
    Safe tables Watch.idle (fun ret m' => 0 ≤ ret → (∀ pid ∈ rest, pid ≠ 0) ∧ HasJob id (pids ++ rest) m')
      (addJobProcesses id rest) m
  | [], pids, m, h => by
    refine Safe.ret_alone trivial fun _ => ⟨fun _ h => absurd h List.not_mem_nil, ?_⟩
    rwa [List.append_nil]
  | pid :: rest, pids, m, h => by
    refine (processAdd_has pid h).bind fun ret m₁ hadded _ => ?_
    by_cases hret : ret < 0
    · rw [if_pos hret]
      exact Safe.ret_alone trivial fun h => absurd h (by decide)
    rw [if_neg hret]
    obtain ⟨hpid, hjob⟩ := hadded (by omega)
    refine (addJobProcesses_has rest hjob).weaken fun ret' m₂ _ hrest hret' => ?_
    obtain ⟨h0, hjob'⟩ := hrest hret'
    rw [List.append_assoc] at hjob'
    refine ⟨fun p hp => ?_, hjob'⟩
    rcases List.mem_cons.mp hp with rfl | hp
    · exact hpid
    · exact h0 p hp

end Table

/-! ### Pipes and groups -/

/-- The calls that make, mark and close descriptors, or set a group. -/
def Plumbing : ExecCall → Prop
  | .pipe | .getCloexec _ | .setCloexec _ | .close _ | .setpgid _ _ => True
  | _ => False

theorem closeFd_plumbing (fd : ℤ) : (closeFd fd).Only Plumbing := ⟨trivial, fun _ => trivial⟩

theorem closeOpen_plumbing (fd : ℤ) : (closeOpen fd).Only Plumbing := by
  unfold closeOpen
  split_ifs
  · exact closeFd_plumbing fd
  · trivial

theorem setpgidParent_plumbing (pid pgid : ℕ) : (setpgidParent pid pgid).Only Plumbing := by
  refine ⟨fun _ => ⟨trivial, fun r => ?_⟩, fun _ => trivial⟩
  dsimp only
  split_ifs <;> trivial

theorem setCloexec_plumbing (fd : ℤ) : (setCloexec fd).Only Plumbing := by
  refine ⟨trivial, fun r => ?_⟩
  dsimp only
  split_ifs
  · trivial
  · exact ⟨trivial, fun _ => trivial⟩

theorem startupGateCreate_plumbing : startupGateCreate.Only Plumbing := by
  have hfail : ∀ p : PipeResult, ((closeFd p.fds.1).bind fun _ => (closeFd p.fds.2).bind fun _ =>
      .ret (-1, -1, -1) : ExecProg (ℤ × ℤ × ℤ)).Only Plumbing :=
    fun p => (closeFd_plumbing _).bind fun _ => (closeFd_plumbing _).bind fun _ => trivial
  refine ⟨trivial, fun p => ?_⟩
  dsimp only
  split_ifs
  · trivial
  refine (setCloexec_plumbing _).bind fun ret => ?_
  split_ifs
  · exact hfail p
  refine (setCloexec_plumbing _).bind fun ret => ?_
  split_ifs
  · exact hfail p
  · trivial

theorem stagePipe_plumbing (next : Bool) : (stagePipe next).Only Plumbing := by
  unfold stagePipe
  split_ifs
  · exact ⟨trivial, fun _ => trivial⟩
  · trivial

/-! ### A larger state -/

/-- The table is a part of the state, and the functions of the table that
neither wait nor signal change nothing else. -/
structure HasTable {W : Type} (M : World ExecCall ExecCall.Ret W) (C : Watch ExecCall W) where
  manager : W → JobManager
  store : W → JobManager → W
  manager_store : ∀ w m, manager (store w m) = m
  store_manager : ∀ w, store w (manager w) = w
  store_store : ∀ w m n, store (store w m) n = store w n
  alone : ∀ w w', ¬ M.env w w'
  call : ∀ c w r w', M.sem w (.job c) r w' → tableCall (manager w) c r (manager w')
  frame : ∀ c w r w', TableOnly c → M.sem w (.job c) r w' → w' = store w (manager w')
  always : ∀ w, C.always w
  atCall : ∀ c w, TableOnly c → C.atCall (.job c) w

/-- What holds of the table alone holds of it as a part of the state. -/
theorem HasTable.safe {W α : Type} {M : World ExecCall ExecCall.Ret W} {C : Watch ExecCall W} (T : HasTable M C)
    {Q : α → JobManager → Prop} {p : JobProg α} {w : W} (hp : p.Only TableOnly)
    (h : Safe tables Watch.idle Q p (T.manager w)) :
    Safe M C (fun a w' => ∃ m, w' = T.store w m ∧ Q a m) (onJobs p) w := by
  let N : World JobCall JobCall.Ret W := World.alone fun w c r w' => M.sem w (.job c) r w'
  let D : Watch JobCall W := ⟨C.always, fun c => C.atCall (.job c)⟩
  have hframe : Safe N D (fun _ w' => w' = T.store w (T.manager w')) p w := by
    refine Only.safe (C := D) (stable_alone _) (fun w _ => T.always w) (fun c w hc _ => T.atCall c w hc) ?_ hp
      (T.store_manager w).symm
    intro c w₁ r w₂ hc hw₁ hs
    have hw₂ := T.frame c w₁ r w₂ hc hs
    rw [hw₁, T.store_store] at hw₂
    exact hw₂
  have hvalue : Safe N ⟨fun _ => True, fun _ _ => True⟩ (fun a w' => Q a (T.manager w')) p w :=
    Safe.project (M := N) (N := tables) T.manager (fun _ _ he => he.elim) (fun w c r w' hs => T.call c w r w' hs) h
  have hboth : Safe N D (fun a w' => ∃ m, w' = T.store w m ∧ Q a m) p w :=
    (hframe.and hvalue).mono (fun _ h => h.1) (fun _ _ h => h.1) fun a w' _ h => ⟨T.manager w', h⟩
  exact hboth.embed ExecCall.job (fun _ r => r) (fun w w' he => (T.alone w w' he).elim) (fun _ _ _ _ hs => hs)
    (fun _ h => h) (fun _ _ h => h)

end DeviceRuntime
