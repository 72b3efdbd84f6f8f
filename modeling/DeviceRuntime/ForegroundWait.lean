/-
# The wait for a job in the foreground

`job_wait_foreground` on a job that was just started. The kernel has a queue
of results for the group of the job: each is a failure with `EINTR`, or the
report of a process of the job that ended or was stopped. A wait for anything
else than the group gets no result, and neither does a wait when the queue is
empty.

The job after some reports is a function of the latest report of each process,
so only that counts and not the order.

Key definitions: `FreshJob`, `GroupReports`, `latest`, `Complete`, `jobAfter`.
Key theorems: `jobAfter_report`, `jobAfter_running`, `waitTurn_report`,
`foreground_wait`.
-/
import DeviceRuntime.JobTable
import DeviceRuntime.Lib.Safe

namespace DeviceRuntime

/-! ### Jobs and reports -/

/-- A job that was started with one or more processes, and has heard of none. -/
structure FreshJob where
  manager : JobManager
  job : Job
  pids : List ℕ
  find : manager.find job.id = some job
  group : job.pgid ≠ 0
  running : job.status = .running
  processes : job.processes = pids.map fun pid => ⟨pid, .running, none⟩
  distinct : pids.Nodup
  positive : 0 ∉ pids
  nonempty : pids ≠ []

/-- A wait that was interrupted, or the end or the stop of a process. -/
def OfGroup (pids : List ℕ) (r : WaitResult) : Prop :=
  r = .failed EINTR ∨ ∃ pid st, r = .reported pid st ∧ pid ∈ pids ∧ st ≠ .continued

/-- What the kernel has for the group. -/
structure GroupReports (pids : List ℕ) where
  queue : List WaitResult
  valid : ∀ r ∈ queue, OfGroup pids r

/-- The report of a process, if it is one. -/
def WaitResult.reportOf (pid : ℕ) : WaitResult → Option WaitStatus
  | .reported pid' st => if pid' = pid then some st else none
  | _ => none

def latest (reports : List WaitResult) (pid : ℕ) : Option WaitStatus :=
  (reports.filterMap (WaitResult.reportOf pid)).getLast?

/-- Every process was reported. -/
def Complete (pids : List ℕ) (reports : List WaitResult) : Prop := ∀ pid ∈ pids, latest reports pid ≠ none

/-- The shortest prefix that is complete. -/
structure FirstComplete (pids : List ℕ) (reports : List WaitResult) : Prop where
  complete : Complete pids reports
  first : ∀ before after, reports = before ++ after → Complete pids before → after = []

/-- The process has ended. -/
def Ended (st : Option WaitStatus) : Prop := ∃ status, st = some status ∧ status.processStatus = .done

/-- What the shell makes of the end of a process. -/
def WaitStatus.exitStatus : WaitStatus → Option ℤ
  | .exited code => some code
  | .signaled sig => some (128 + sig)
  | _ => none

structure WaitState where
  manager : JobManager
  queue : List WaitResult

/-- The queue is for the group `pgid`. -/
def waitSem (pgid : ℕ) (s : WaitState) : (c : JobCall) → c.Ret → WaitState → Prop
  | .getJobs, m, s' => m = s.manager ∧ s' = s
  | .setJobs m, _, s' => s' = { s with manager := m }
  | .waitpid target _, r, s' => target = .group pgid ∧ s.queue = r :: s'.queue ∧ s'.manager = s.manager
  | _, _, s' => s' = s

open Prog

abbrev groupWait (pgid : ℕ) : World JobCall JobCall.Ret WaitState := World.alone (waitSem pgid)

/-- The result is 0, the rest of the queue is left, and the job is as the
reports say. -/
structure WaitOver (j : FreshJob) (reports rest : List WaitResult) (ret : ℤ) (s : WaitState) : Prop where
  ret : ret = 0
  queue : s.queue = rest
  job : ∃ job, s.manager.find j.job.id = some job ∧ job.pids = j.pids ∧
    (job.status = .done ∧ (∀ pid ∈ j.pids, Ended (latest reports pid)) ∨
      job.status = .stopped ∧ ¬ ∀ pid ∈ j.pids, Ended (latest reports pid)) ∧
    (job.status = .done → ∀ last, j.pids.getLast? = some last →
      (latest reports last).bind WaitStatus.exitStatus = some (jobExitStatus job))

/-! ### The latest report -/

section Latest

variable {reports : List WaitResult} {pids : List ℕ}

theorem latest_report (reports : List WaitResult) (pid : ℕ) (st : WaitStatus) (p : ℕ) :
    latest (reports ++ [.reported pid st]) p = if pid = p then some st else latest reports p := by
  unfold latest
  rw [List.filterMap_append]
  by_cases hpid : pid = p
  · simp [WaitResult.reportOf, hpid]
  · simp [WaitResult.reportOf, hpid]

theorem latest_failed (reports : List WaitResult) (errno p : ℕ) :
    latest (reports ++ [.failed errno]) p = latest reports p := by
  unfold latest
  rw [List.filterMap_append]
  simp [WaitResult.reportOf]

/-- A report of the group says that a process ended or was stopped. -/
theorem latest_status (hvalid : ∀ r ∈ reports, OfGroup pids r) {pid : ℕ} {st : WaitStatus}
    (h : latest reports pid = some st) : st ≠ .continued := by
  have hmem : st ∈ reports.filterMap (WaitResult.reportOf pid) := List.mem_of_getLast? h
  obtain ⟨r, hr, hst⟩ := List.mem_filterMap.mp hmem
  rcases hvalid r hr with rfl | ⟨p, st', rfl, -, hne⟩
  · cases hst
  · have hst : (if p = pid then some st' else none) = some st := hst
    split_ifs at hst
    rwa [← Option.some.inj hst]

/-- What was reported stays reported. -/
theorem complete_mono (h : Complete pids reports) (more : List WaitResult) : Complete pids (reports ++ more) := by
  intro pid hpid
  obtain ⟨st, hst⟩ := Option.ne_none_iff_exists'.mp (h pid hpid)
  have hne : reports.filterMap (WaitResult.reportOf pid) ≠ [] := by
    intro hnil
    unfold latest at hst
    rw [hnil] at hst
    cases hst
  unfold latest
  rw [List.filterMap_append]
  intro hnone
  exact hne (List.append_eq_nil_iff.mp (List.getLast?_eq_none_iff.mp hnone)).1

/-- Reports that are complete with the last one and not before it. -/
theorem FirstComplete.concat {r : WaitResult} (hnot : ¬ Complete pids reports)
    (h : Complete pids (reports ++ [r])) : FirstComplete pids (reports ++ [r]) := by
  refine ⟨h, fun before after hsplit hbefore => ?_⟩
  by_contra hafter
  obtain ⟨after', last, rfl⟩ := (List.eq_nil_or_concat' after).resolve_left hafter
  rw [← List.append_assoc] at hsplit
  have hreports : reports = before ++ after' := (List.append_inj' hsplit rfl).1
  apply hnot
  rw [hreports]
  exact complete_mono hbefore after'

theorem WaitStatus.not_running {st : WaitStatus} (h : st ≠ .continued) : st.processStatus ≠ .running := by
  cases st with
  | continued => exact absurd rfl h
  | exited code | signaled sig | stopped sig => exact ProcessStatus.noConfusion

end Latest

/-! ### The job after some reports -/

def processAfter (reports : List WaitResult) (pid : ℕ) : Process :=
  match latest reports pid with
  | none => ⟨pid, .running, none⟩
  | some st => ⟨pid, st.processStatus, some st⟩

@[simp] theorem processAfter_pid (reports : List WaitResult) (pid : ℕ) : (processAfter reports pid).pid = pid := by
  unfold processAfter
  cases latest reports pid <;> rfl

@[simp] theorem processAfter_waitStatus (reports : List WaitResult) (pid : ℕ) :
    (processAfter reports pid).waitStatus = latest reports pid := by
  unfold processAfter
  cases latest reports pid <;> rfl

/-- The job, with every process as its latest report says. -/
def jobAfter (j : FreshJob) (reports : List WaitResult) : Job :=
  jobUpdateStatus { j.job with processes := j.pids.map (processAfter reports) }

section After

variable {j : FreshJob} {reports : List WaitResult}

theorem jobUpdateStatus_processes (job : Job) : (jobUpdateStatus job).processes = job.processes := by
  unfold jobUpdateStatus
  split_ifs <;> rfl

theorem jobAfter_processes (j : FreshJob) (reports : List WaitResult) :
    (jobAfter j reports).processes = j.pids.map (processAfter reports) := jobUpdateStatus_processes _

theorem jobAfter_status (j : FreshJob) (reports : List WaitResult) : (jobAfter j reports).status =
    if (j.pids.map (processAfter reports)).any fun process => process.status = .running then .running
    else if (j.pids.map (processAfter reports)).any fun process => process.status = .stopped then .stopped
    else .done := by
  have hnonempty : j.pids.map (processAfter reports) ≠ [] := fun h => j.nonempty (List.map_eq_nil_iff.mp h)
  unfold jobAfter jobUpdateStatus
  rw [if_neg hnonempty]

theorem jobAfter_start (j : FreshJob) : jobAfter j [] = j.job := by
  have hprocesses : j.pids.map (processAfter []) = j.job.processes := j.processes.symm
  have hrunning : (j.job.processes.any fun process => process.status = .running) = true := by
    obtain ⟨pid, hpid⟩ := List.exists_mem_of_ne_nil _ j.nonempty
    rw [j.processes]
    simp only [List.any_map, List.any_eq_true]
    exact ⟨pid, hpid, rfl⟩
  have hnonempty : j.job.processes ≠ [] := by
    rw [j.processes]
    exact fun h => j.nonempty (List.map_eq_nil_iff.mp h)
  unfold jobAfter jobUpdateStatus
  rw [hprocesses]
  dsimp only
  rw [if_neg hnonempty, if_pos hrunning, ← j.running]

/-- An interrupted wait changes nothing. -/
theorem jobAfter_failed (errno : ℕ) : jobAfter j (reports ++ [.failed errno]) = jobAfter j reports := by
  have hsame : processAfter (reports ++ [.failed errno]) = processAfter reports := by
    funext pid
    unfold processAfter
    rw [latest_failed]
  unfold jobAfter
  rw [hsame]

/-- The status of a job with processes does not depend on the status before. -/
theorem jobUpdateStatus_status (job : Job) (status : JobStatus) (h : job.processes ≠ []) :
    jobUpdateStatus { job with status := status } = jobUpdateStatus job := by
  unfold jobUpdateStatus
  rw [if_neg h, if_neg h]

/-- A report of a process, put into the job. -/
theorem jobAfter_report (pid : ℕ) (st : WaitStatus) :
    jobUpdateStatus ((jobAfter j reports).modifyProcess pid fun p => processApplyWaitStatus p st) =
      jobAfter j (reports ++ [.reported pid st]) := by
  have hprocesses : ((jobAfter j reports).processes.map fun p =>
      if p.pid = pid then processApplyWaitStatus p st else p) =
      j.pids.map (processAfter (reports ++ [.reported pid st])) := by
    rw [jobAfter_processes, List.map_map]
    refine List.map_congr_left fun p _ => ?_
    rw [Function.comp_apply, processAfter_pid]
    unfold processAfter
    rw [latest_report]
    by_cases hp : p = pid
    · rw [if_pos hp, if_pos hp.symm]
      unfold processApplyWaitStatus
      cases latest reports p <;> rfl
    · rw [if_neg hp, if_neg (Ne.symm hp)]
  have hnonempty : j.pids.map (processAfter (reports ++ [.reported pid st])) ≠ [] :=
    fun h => j.nonempty (List.map_eq_nil_iff.mp h)
  unfold Job.modifyProcess
  rw [hprocesses]
  have hrest : ({ jobAfter j reports with
      processes := j.pids.map (processAfter (reports ++ [.reported pid st])) } : Job) =
      { ({ j.job with processes := j.pids.map (processAfter (reports ++ [.reported pid st])) } : Job) with
        status := (jobAfter j reports).status } := by
    unfold jobAfter jobUpdateStatus
    split_ifs <;> rfl
  rw [hrest, jobUpdateStatus_status _ _ hnonempty]
  rfl

/-- The job runs until every process was reported. -/
theorem jobAfter_running (hvalid : ∀ r ∈ reports, OfGroup j.pids r) :
    (jobAfter j reports).status = .running ↔ ¬ Complete j.pids reports := by
  have hany : ((j.pids.map (processAfter reports)).any fun process => process.status = .running) = true ↔
      ¬ Complete j.pids reports := by
    simp only [List.any_map, List.any_eq_true, Function.comp_apply, decide_eq_true_eq]
    constructor
    · rintro ⟨pid, hpid, hstatus⟩ hcomplete
      unfold processAfter at hstatus
      cases hlatest : latest reports pid with
      | none => exact hcomplete pid hpid hlatest
      | some st =>
        rw [hlatest] at hstatus
        exact WaitStatus.not_running (latest_status hvalid hlatest) hstatus
    · intro h
      unfold Complete at h
      push Not at h
      obtain ⟨pid, hpid, hnone⟩ := h
      refine ⟨pid, hpid, ?_⟩
      unfold processAfter
      rw [hnone]
  rw [jobAfter_status, ← hany]
  split_ifs with hrunning hstopped
  · exact ⟨fun _ => hrunning, fun _ => rfl⟩
  · exact ⟨fun h => h.elim, fun h => absurd h hrunning⟩
  · exact ⟨fun h => h.elim, fun h => absurd h hrunning⟩

/-- When every process was reported, the job is done if all have ended and
stopped if not. -/
theorem jobAfter_over (hvalid : ∀ r ∈ reports, OfGroup j.pids r) (hcomplete : Complete j.pids reports) :
    (jobAfter j reports).status = .done ∧ (∀ pid ∈ j.pids, Ended (latest reports pid)) ∨
      (jobAfter j reports).status = .stopped ∧ ¬ ∀ pid ∈ j.pids, Ended (latest reports pid) := by
  have hrunning : ¬ (jobAfter j reports).status = .running := fun h => (jobAfter_running hvalid).mp h hcomplete
  have hstopped : ((j.pids.map (processAfter reports)).any fun process => process.status = .stopped) = true ↔
      ¬ ∀ pid ∈ j.pids, Ended (latest reports pid) := by
    simp only [List.any_map, List.any_eq_true, Function.comp_apply, decide_eq_true_eq]
    constructor
    · rintro ⟨pid, hpid, hstatus⟩ hall
      obtain ⟨st, hlatest, hdone⟩ := hall pid hpid
      unfold processAfter at hstatus
      rw [hlatest] at hstatus
      exact ProcessStatus.noConfusion (hdone.symm.trans hstatus)
    · intro h
      push Not at h
      obtain ⟨pid, hpid, hnot⟩ := h
      obtain ⟨st, hlatest⟩ := Option.ne_none_iff_exists'.mp (hcomplete pid hpid)
      refine ⟨pid, hpid, ?_⟩
      unfold processAfter
      rw [hlatest]
      have hne := WaitStatus.not_running (latest_status hvalid hlatest)
      cases hst : st.processStatus with
      | running => exact absurd hst hne
      | stopped => exact hst
      | done => exact absurd ⟨st, hlatest, hst⟩ hnot
  rw [jobAfter_status] at hrunning ⊢
  split_ifs at hrunning ⊢ with hany hstop
  · exact absurd rfl hrunning
  · exact .inr ⟨rfl, hstopped.mp hstop⟩
  · exact .inl ⟨rfl, by_contra fun h => hstop (hstopped.mpr h)⟩

/-- The exit status is that of the process that was added last. -/
theorem jobAfter_exit (hall : ∀ pid ∈ j.pids, Ended (latest reports pid)) {last : ℕ}
    (hlast : j.pids.getLast? = some last) :
    (latest reports last).bind WaitStatus.exitStatus = some (jobExitStatus (jobAfter j reports)) := by
  obtain ⟨st, hlatest, hdone⟩ := hall last (List.mem_of_getLast? hlast)
  unfold jobExitStatus
  rw [jobAfter_processes, List.getLast?_map, hlast, Option.map_some, Option.bind_some, processAfter_waitStatus, hlatest]
  cases st with
  | exited code => rfl
  | signaled sig => rfl
  | stopped sig => cases hdone
  | continued => cases hdone

end After

/-! ### Turns of the loop -/

section Turns

variable {j : FreshJob} {reports rest : List WaitResult} {s : WaitState}

/-- The table has the job as the reports so far say. -/
structure Heard (j : FreshJob) (reports rest : List WaitResult) (s : WaitState) : Prop where
  find : s.manager.find j.job.id = some (jobAfter j reports)
  queue : s.queue = rest
  valid : ∀ r ∈ reports, OfGroup j.pids r

theorem jobAfter_group (j : FreshJob) (reports : List WaitResult) : (jobAfter j reports).pgid = j.job.pgid :=
  (keepsShape_update _).2.1

theorem jobAfter_pids (j : FreshJob) (reports : List WaitResult) : (jobAfter j reports).pids = j.pids := by
  unfold Job.pids
  rw [jobAfter_processes, List.map_map]
  refine (List.map_congr_left fun pid _ => ?_).trans (List.map_id _)
  exact processAfter_pid reports pid

/-- Nothing more is waited for when every process was reported. -/
theorem waitTurn_over (h : Heard j reports rest s) (hcomplete : Complete j.pids reports) :
    Total (groupWait j.job.pgid) (fun x s' => x = .inr 0 ∧ s' = s) (waitTurn j.job.id) s := by
  refine .call ⟨s.manager, s, rfl, rfl⟩ fun m s₁ hs => ?_
  obtain ⟨rfl, rfl⟩ : m = s.manager ∧ s₁ = s := hs
  have hover : (jobAfter j reports).status ≠ .running := fun h' => (jobAfter_running h.valid).mp h' hcomplete
  rw [h.find]
  dsimp only
  rw [if_neg (by rw [jobAfter_group]; exact j.group), if_pos hover]
  exact .ret ⟨rfl, rfl⟩

theorem modifyJob_total (id pgid : ℕ) (f : Job → Job) (s : WaitState) :
    Total (groupWait pgid) (fun _ s' => s' = { s with manager := s.manager.modify id f }) (modifyJob id f) s := by
  refine .call ⟨s.manager, s, rfl, rfl⟩ fun m s₁ hs => ?_
  obtain ⟨rfl, rfl⟩ : m = s.manager ∧ s₁ = s := hs
  refine .call ⟨(), _, rfl⟩ fun _ s₂ hs => ?_
  exact .ret hs

/-- A turn takes one result from the queue. -/
theorem waitTurn_report {r : WaitResult} (h : Heard j reports (r :: rest) s) (hr : OfGroup j.pids r)
    (hcomplete : ¬ Complete j.pids reports) :
    Total (groupWait j.job.pgid) (fun x s' => x = .inl () ∧ Heard j (reports ++ [r]) rest s') (waitTurn j.job.id) s := by
  have hvalid : ∀ r' ∈ reports ++ [r], OfGroup j.pids r' := by
    intro r' hr'
    rcases List.mem_append.mp hr' with hr' | hr'
    · exact h.valid r' hr'
    · exact List.mem_singleton.mp hr' ▸ hr
  have hrunning : ¬ (jobAfter j reports).status ≠ .running := fun h' => h' ((jobAfter_running h.valid).mpr hcomplete)
  refine .call ⟨s.manager, s, rfl, rfl⟩ fun m s₁ hs => ?_
  obtain ⟨rfl, rfl⟩ : m = s.manager ∧ s₁ = s := hs
  rw [h.find]
  dsimp only
  rw [if_neg (by rw [jobAfter_group]; exact j.group), if_neg hrunning, jobAfter_group]
  refine .call ⟨r, ⟨s₁.manager, rest⟩, rfl, h.queue, rfl⟩ fun r' s₂ hs => ?_
  obtain ⟨-, hqueue, hmanager⟩ : _ ∧ s₁.queue = r' :: s₂.queue ∧ s₂.manager = s₁.manager := hs
  obtain ⟨rfl, hrest⟩ := List.cons.inj (h.queue.symm.trans hqueue)
  have hfind : s₂.manager.find j.job.id = some (jobAfter j reports) := by
    rw [hmanager]
    exact h.find
  rcases hr with rfl | ⟨pid, st, rfl, hpid, hst⟩
  · dsimp only
    rw [if_pos rfl]
    refine .ret ⟨rfl, ⟨?_, hrest.symm, hvalid⟩⟩
    rw [jobAfter_failed]
    exact hfind
  · have hfound : processFind (jobAfter j reports) pid ≠ none := by
      unfold processFind
      rw [if_neg fun h0 : pid = 0 => j.positive (h0 ▸ hpid), jobAfter_processes]
      intro hnone
      have hall := List.find?_eq_none.mp hnone (processAfter reports pid) (List.mem_map_of_mem hpid)
      exact hall (by simp)
    dsimp only
    rw [if_neg hfound]
    refine (modifyJob_total _ _ _ s₂).bind fun _ s₃ hs₃ => ?_
    refine (modifyJob_total _ _ _ s₃).bind fun _ s₄ hs₄ => ?_
    refine .ret ⟨rfl, ⟨?_, ?_, hvalid⟩⟩
    · have hid : (jobAfter j reports).id = j.job.id := (keepsShape_update _).1
      have happly : s₃.manager.find j.job.id =
          some ((jobAfter j reports).modifyProcess pid fun p => processApplyWaitStatus p st) := by
        rw [hs₃]
        exact find_modify (f := fun job => job.modifyProcess pid fun p => processApplyWaitStatus p st) (fun _ => rfl) hfind
      rw [hs₄, ← jobAfter_report]
      exact find_modify (fun job => (keepsShape_update job).1) happly
    · rw [hs₄, hs₃]
      exact hrest.symm

/-- The rest of a shortest complete prefix is taken, and the wait is over. -/
theorem wait_total : ∀ (ahead : List WaitResult) {reports : List WaitResult} {s : WaitState},
    Heard j reports (ahead ++ rest) s → (∀ r ∈ ahead, OfGroup j.pids r) → FirstComplete j.pids (reports ++ ahead) →
    Total (groupWait j.job.pgid) (WaitOver j (reports ++ ahead) rest)
      (.loop (fun _ => waitTurn j.job.id) () .ret) s
  | [], reports, s, h, _, hfirst => by
    rw [List.append_nil] at hfirst ⊢
    refine .loop ((waitTurn_over h hfirst.complete).bind fun x s' hx => ?_)
    obtain ⟨rfl, rfl⟩ := hx
    have hover := jobAfter_over h.valid hfirst.complete
    refine .ret ⟨rfl, h.queue, jobAfter j reports, h.find, jobAfter_pids j reports, hover, fun hdone last hlast => ?_⟩
    rcases hover with ⟨-, hall⟩ | ⟨hstopped, -⟩
    · exact jobAfter_exit hall hlast
    · exact JobStatus.noConfusion (hdone.symm.trans hstopped)
  | r :: ahead, reports, s, h, hvalid, hfirst => by
    have hcomplete : ¬ Complete j.pids reports := fun hc => by cases hfirst.first reports (r :: ahead) rfl hc
    refine .loop ((waitTurn_report h (hvalid r List.mem_cons_self) hcomplete).bind fun x s' hx => ?_)
    obtain ⟨rfl, hheard⟩ := hx
    have hsplit : reports ++ r :: ahead = (reports ++ [r]) ++ ahead := by rw [List.append_assoc]; rfl
    rw [hsplit] at hfirst ⊢
    exact wait_total ahead hheard (fun r' hr' => hvalid r' (List.mem_cons_of_mem _ hr')) hfirst

/-- The shell waits on while a process was not reported. -/
theorem wait_blocked : ∀ (queue : List WaitResult) {reports : List WaitResult} {s : WaitState},
    Heard j reports queue s → (∀ r ∈ queue, OfGroup j.pids r) → ¬ Complete j.pids (reports ++ queue) →
    Safe (groupWait j.job.pgid) Watch.idle (fun _ _ => False) (.loop (fun _ => waitTurn j.job.id) () .ret) s
  | [], reports, s, h, _, hcomplete => by
    rw [List.append_nil] at hcomplete
    have hrunning : ¬ (jobAfter j reports).status ≠ .running :=
      fun h' => h' ((jobAfter_running h.valid).mpr hcomplete)
    have hturn : Safe (groupWait j.job.pgid) Watch.idle (fun _ _ => False) (waitTurn j.job.id) s := by
      refine Safe.call_alone trivial trivial fun m s₁ hs => ?_
      obtain ⟨rfl, rfl⟩ : m = s.manager ∧ s₁ = s := hs
      rw [h.find]
      dsimp only
      rw [if_neg (by rw [jobAfter_group]; exact j.group), if_neg hrunning]
      refine Safe.call_alone trivial trivial fun r s₂ hs => ?_
      obtain ⟨-, hqueue, -⟩ : _ ∧ s₁.queue = r :: s₂.queue ∧ _ := hs
      rw [h.queue] at hqueue
      cases hqueue
    refine Safe.loop_alone trivial (hturn.bind fun x s' hx _ => hx.elim)
  | r :: queue, reports, s, h, hvalid, hcomplete => by
    have hsplit : reports ++ r :: queue = (reports ++ [r]) ++ queue := by rw [List.append_assoc]; rfl
    have hnot : ¬ Complete j.pids reports := by
      intro hc
      apply hcomplete
      exact complete_mono hc _
    have hturn := (waitTurn_report h (hvalid r List.mem_cons_self) hnot).safe fun _ _ => id
    refine Safe.loop_alone trivial (hturn.bind fun x s' hx _ => ?_)
    obtain ⟨rfl, hheard⟩ := hx
    rw [hsplit] at hcomplete
    exact wait_blocked queue hheard (fun r' hr' => hvalid r' (List.mem_cons_of_mem _ hr')) hcomplete

end Turns

/-! ### The wait -/

theorem FreshJob.heard (j : FreshJob) (queue : List WaitResult) : Heard j [] queue ⟨j.manager, queue⟩ := by
  refine ⟨?_, rfl, fun r hr => absurd hr List.not_mem_nil⟩
  rw [jobAfter_start]
  exact j.find

/-- The wait takes the shortest prefix of the reports that has every process
and returns the status they have in the end. Without such a prefix it goes on. -/
theorem foreground_wait (j : FreshJob) (q : GroupReports j.pids) :
    (∀ before rest, q.queue = before ++ rest → FirstComplete j.pids before →
      Total (groupWait j.job.pgid) (WaitOver j before rest) (jobWaitForeground j.job.id) ⟨j.manager, q.queue⟩) ∧
    (¬ Complete j.pids q.queue → Safe (groupWait j.job.pgid) Watch.idle (fun _ _ => False)
      (jobWaitForeground j.job.id) ⟨j.manager, q.queue⟩) := by
  refine ⟨fun before rest hqueue hfirst => ?_, fun hcomplete => ?_⟩
  · rw [hqueue]
    refine wait_total before (j.heard _) (fun r hr => q.valid r ?_) hfirst
    rw [hqueue]
    exact List.mem_append_left _ hr
  · exact wait_blocked q.queue (j.heard _) q.valid hcomplete

/-- A pipeline of two processes in the group 7. -/
def twoStages : FreshJob where
  manager := ⟨[⟨1, 7, .running, [], [⟨7, .running, none⟩, ⟨8, .running, none⟩], none⟩], 2⟩
  job := ⟨1, 7, .running, [], [⟨7, .running, none⟩, ⟨8, .running, none⟩], none⟩
  pids := [7, 8]
  find := rfl
  group := by decide
  running := rfl
  processes := rfl
  distinct := by decide
  positive := by decide
  nonempty := by decide

/-- The first process stops, the second one ends, and the first ends later. -/
def lateEnd : GroupReports twoStages.pids where
  queue := [.reported 7 (.stopped 20), .failed EINTR, .reported 8 (.exited 3), .reported 7 (.exited 0)]
  valid := by
    intro r hr
    simp only [List.mem_cons, List.not_mem_nil, or_false] at hr
    rcases hr with rfl | rfl | rfl | rfl
    · exact .inr ⟨7, .stopped 20, rfl, by decide +kernel, by decide⟩
    · exact .inl rfl
    · exact .inr ⟨8, .exited 3, rfl, by decide +kernel, by decide⟩
    · exact .inr ⟨7, .exited 0, rfl, by decide +kernel, by decide⟩

/-- The wait is over at the third result, before the first process ends. -/
theorem foreground_wait_stopped : Total (groupWait 7)
    (WaitOver twoStages [.reported 7 (.stopped 20), .failed EINTR, .reported 8 (.exited 3)] [.reported 7 (.exited 0)])
    (jobWaitForeground 1) ⟨twoStages.manager, lateEnd.queue⟩ :=
  (foreground_wait twoStages lateEnd).1 _ _ rfl
    (@FirstComplete.concat [.reported 7 (.stopped 20), .failed EINTR] _ _
      (by unfold Complete; decide +kernel) (by unfold Complete; decide +kernel))

end DeviceRuntime
