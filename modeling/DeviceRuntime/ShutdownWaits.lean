/-
# When the shutdown waits for a child it did not kill

`job_shutdown` sends SIGKILL to groups and waits for processes. A child that
left the groups of all jobs, or that the shell may not signal, gets no SIGKILL,
and here is a run in which it goes on: the other children end, no pass that
does not block finds it ended, and the last pass comes to the wait for it. So
the table of `DeviceRuntime.JobShutdown` is shut down as wanted only when every
child that is alive is in the group of a job and may be signalled.

Key definitions: `Untouched`, `Missed`, `Returns`, `Blocks`.
Key theorems: `reapJobs_spares`, `reapJobs_blocks`, `jobShutdown_blocks`,
`jobShutdown_uncovered`, `shutdown_kills_first`.
-/
import DeviceRuntime.JobShutdown

namespace DeviceRuntime

open Prog

/-! ### A child that no signal reaches -/

/-- The child is alive, and SIGKILL was not sent to it. -/
structure Untouched (pid : ℕ) (k : Kernel) : Prop where
  alive : k.life pid = .alive
  spared : k.killed pid = false

/-- What a pass leaves of the child. -/
structure Missed (pid : ℕ) (S S' : List ℕ) (k' : Kernel) : Prop where
  untouched : Untouched pid k'
  stays : pid ∈ S → pid ∈ S'

/-- A run returns. -/
def Returns {α : Type} (scope : SignalScope) (p : ShutdownProg α) (k : Kernel) (Q : α → Kernel → Prop) : Prop :=
  ∃ a k', Reach (shutdownWorld scope) (p, k) (.ret a, k') ∧ Q a k'

/-- A run comes to a wait for the child that blocks. -/
def Blocks {α : Type} (scope : SignalScope) (pid : ℕ) (p : ShutdownProg α) (k : Kernel) : Prop :=
  ∃ f k', Reach (shutdownWorld scope) (p, k) (.call (.waitpid pid false) f, k') ∧ k'.killed pid = false

section Missed

variable {α β : Type} {scope : SignalScope} {nohang : Bool} {pid : ℕ} {k : Kernel}

theorem Returns.ret {Q : α → Kernel → Prop} {a : α} (h : Q a k) : Returns scope (.ret a) k Q := ⟨a, k, .refl, h⟩

theorem Returns.call {Q : α → Kernel → Prop} {c : ShutdownCall} {f : c.Ret → ShutdownProg α} {k' : Kernel} (r : c.Ret)
    (hs : shutdownSem scope k c r k') (h : Returns scope (f r) k' Q) : Returns scope (.call c f) k Q := by
  obtain ⟨a, k'', hreach, ha⟩ := h
  exact ⟨a, k'', Reach.call r hs hreach, ha⟩

theorem Returns.bind {R : β → Kernel → Prop} {Q : α → Kernel → Prop} {p : ShutdownProg β} {f : β → ShutdownProg α}
    (h : Returns scope p k R) (hf : ∀ b k', R b k' → Returns scope (f b) k' Q) : Returns scope (p.bind f) k Q := by
  obtain ⟨b, k', hreach, hb⟩ := h
  obtain ⟨a, k'', hreach', ha⟩ := hf b k' hb
  exact ⟨a, k'', (Reach.bind hreach f).trans hreach', ha⟩

theorem Returns.blocks {R : β → Kernel → Prop} {p : ShutdownProg β} {f : β → ShutdownProg α}
    (h : Returns scope p k R) (hf : ∀ b k', R b k' → Blocks scope pid (f b) k') : Blocks scope pid (p.bind f) k := by
  obtain ⟨b, k', hreach, hb⟩ := h
  obtain ⟨g, k'', hreach', hspared⟩ := hf b k' hb
  exact ⟨g, k'', (Reach.bind hreach f).trans hreach', hspared⟩

theorem Blocks.bind {p : ShutdownProg β} (h : Blocks scope pid p k) (f : β → ShutdownProg α) :
    Blocks scope pid (p.bind f) k := by
  obtain ⟨g, k', hreach, hspared⟩ := h
  exact ⟨fun r => (g r).bind f, k', Reach.bind hreach f, hspared⟩

/-- A loop that is left after one turn. -/
theorem Returns.iter {σ : Type} {Q : α → Kernel → Prop} {body : σ → ShutdownProg (σ ⊕ α)} {s : σ}
    (h : Returns scope (body s) k fun x k' => ∃ a, x = .inr a ∧ Q a k') : Returns scope (.iter body s) k Q := by
  obtain ⟨x, k', hreach, a, rfl, ha⟩ := h
  exact ⟨a, k', Reach.leave hreach, ha⟩

/-- Another child is gone, or it ends now. -/
theorem other_ends {other : ℕ} (h : Untouched pid k) (hother : other ≠ pid) (hlife : k.life other ≠ .gone) :
    ∃ k₁, ∃ st : EndStatus, k.Later k₁ ∧ k₁.life other = .zombie st ∧ Untouched pid k₁ := by
  cases hnow : k.life other with
  | gone => exact absurd hnow hlife
  | zombie st => exact ⟨k, st, Kernel.Later.refl k, hnow, h⟩
  | alive =>
    have st : EndStatus := ⟨.exited 0, rfl⟩
    refine ⟨{ k with life := Function.update k.life other (.zombie st) }, st, ⟨?_, rfl⟩, ?_, ?_, h.spared⟩
    · intro p
      by_cases hp : p = other
      · rw [hp]
        refine Or.inr ⟨hnow, st, ?_⟩
        dsimp only
        rw [Function.update_self]
      · refine Or.inl ?_
        dsimp only
        rw [Function.update_of_ne hp]
    · dsimp only
      rw [Function.update_self]
    · dsimp only
      rw [Function.update_of_ne hother.symm]
      exact h.alive

theorem Untouched.reap {other : ℕ} (h : Untouched pid k) (hother : other ≠ pid) : Untouched pid (k.reap other) := by
  refine ⟨?_, h.spared⟩
  unfold Kernel.reap
  dsimp only
  rw [Function.update_of_ne hother.symm]
  exact h.alive

/-- The child itself still runs, and the others are waited for. -/
theorem reapTurn_spares {process : Process} (h : Untouched pid k) (hlets : nohang = true ∨ process.pid ≠ pid) :
    Returns scope (reapTurn nohang process) k fun x k' =>
      ∃ r, x = .inr r ∧ Untouched pid k' ∧ (process.pid = pid → r.2 = process) := by
  unfold reapTurn
  by_cases hpid : process.pid = pid
  · have hnohang : nohang = true := hlets.resolve_right fun hne => hne hpid
    have halive : k.life process.pid = .alive := by
      rw [hpid]
      exact h.alive
    refine Returns.call .nothing ⟨k, Kernel.Later.refl k, .running halive hnohang⟩ (Returns.ret ?_)
    exact ⟨_, rfl, h, fun _ => rfl⟩
  · by_cases hgone : k.life process.pid = .gone
    · refine Returns.call (.failed ECHILD) ⟨k, Kernel.Later.refl k, .none hgone⟩ ?_
      have hnot : ¬ ECHILD = EINTR := by decide
      dsimp only
      rw [if_neg hnot, if_pos rfl]
      exact Returns.ret ⟨_, rfl, h, fun hcontra => absurd hcontra hpid⟩
    · obtain ⟨k₁, st, hlater, hzombie, h₁⟩ := other_ends h hpid hgone
      refine Returns.call (.reported process.pid st) ⟨k₁, hlater, .reaped hzombie⟩ ?_
      dsimp only
      rw [if_pos rfl]
      exact Returns.ret ⟨_, rfl, h₁.reap hpid, fun hcontra => absurd hcontra hpid⟩

theorem reapLoop_spares {process : Process} (h : Untouched pid k) (hlets : nohang = true ∨ pid ∉ unreaped [process]) :
    Returns scope (reapLoop nohang process) k fun r k' => Missed pid (unreaped [process]) (unreaped [r.2]) k' := by
  unfold reapLoop
  by_cases hstatus : process.status = .done
  · rw [if_pos hstatus]
    exact Returns.ret ⟨h, id⟩
  · rw [if_neg hstatus]
    rw [unreaped_pending hstatus, List.mem_singleton] at hlets
    refine Returns.iter ?_
    obtain ⟨x, k', hreach, r, hx, huntouched, hsame⟩ := reapTurn_spares h (hlets.imp_right Ne.symm)
    refine ⟨x, k', hreach, r, hx, huntouched, ?_⟩
    intro hmem
    have hpid : process.pid = pid := by
      rw [unreaped_pending hstatus, List.mem_singleton] at hmem
      exact hmem.symm
    rw [hsame hpid]
    exact hmem

theorem Missed.append {S S' T T' : List ℕ} {k' : Kernel} (h : Missed pid S S' k) (h' : Missed pid T T' k') :
    Missed pid (S ++ T) (S' ++ T') k' := by
  refine ⟨h'.untouched, ?_⟩
  intro hmem
  rw [List.mem_append] at hmem ⊢
  exact hmem.imp h.stays h'.stays

theorem lets_append {S T : List ℕ} (h : nohang = true ∨ pid ∉ S ++ T) :
    (nohang = true ∨ pid ∉ S) ∧ (nohang = true ∨ pid ∉ T) := by
  rw [List.mem_append, not_or] at h
  exact ⟨h.imp_right And.left, h.imp_right And.right⟩

theorem reapProcesses_spares : ∀ (processes : List Process) {k : Kernel}, Untouched pid k →
    (nohang = true ∨ pid ∉ unreaped processes) →
    Returns scope (reapProcesses (reapLoop nohang) processes) k fun r k' =>
      Missed pid (unreaped processes) (unreaped r.2) k'
  | [], k, h, _ => Returns.ret ⟨h, id⟩
  | process :: next, k, h, hlets => by
    rw [unreaped_cons] at hlets ⊢
    obtain ⟨hfirst, hnext⟩ := lets_append hlets
    unfold reapProcesses
    apply (reapLoop_spares h hfirst).bind
    intro r k₁ hr
    apply (reapProcesses_spares next hr.untouched hnext).bind
    intro rs k₂ hrs
    refine Returns.ret ?_
    rw [unreaped_cons r.2 rs.2]
    exact hr.append hrs

theorem reapJobs_spares : ∀ (jobs : List Job) {k : Kernel}, Untouched pid k →
    (nohang = true ∨ pid ∉ registered jobs) →
    Returns scope (reapJobs (reapLoop nohang) jobs) k fun r k' =>
      Missed pid (registered jobs) (registered r.2) k' ∧ r.2.map Job.pgid = jobs.map Job.pgid
  | [], k, h, _ => Returns.ret ⟨⟨h, id⟩, rfl⟩
  | job :: next, k, h, hlets => by
    rw [registered_cons] at hlets ⊢
    obtain ⟨hfirst, hnext⟩ := lets_append hlets
    unfold reapJobs
    apply (reapProcesses_spares job.processes h hfirst).bind
    intro r k₁ hr
    apply (reapJobs_spares next hr.untouched hnext).bind
    intro rs k₂ hlast
    obtain ⟨hrs, hpgids⟩ := hlast
    have hkeeps := jobUpdateStatus_keeps { job with processes := r.2 }
    refine Returns.ret ?_
    rw [registered_cons, hkeeps.1, List.map_cons, List.map_cons, hkeeps.2, hpgids]
    exact ⟨hr.append hrs, rfl⟩

/-! ### The wait that blocks -/

theorem reapLoop_blocks {process : Process} (h : Untouched pid k) (hmem : pid ∈ unreaped [process]) :
    Blocks scope pid (reapLoop false process) k := by
  have hstatus : process.status ≠ .done := by
    intro hdone
    rw [unreaped_done hdone] at hmem
    exact absurd hmem List.not_mem_nil
  rw [unreaped_pending hstatus, List.mem_singleton] at hmem
  unfold reapLoop
  rw [if_neg hstatus, hmem]
  exact ⟨_, k, Reach.turn .refl, by rw [← hmem]; exact h.spared⟩

theorem reapProcesses_blocks : ∀ (processes : List Process) {k : Kernel}, Untouched pid k → pid ∈ unreaped processes →
    Blocks scope pid (reapProcesses (reapLoop false) processes) k
  | [], _, _, hmem => absurd hmem List.not_mem_nil
  | process :: next, k, h, hmem => by
    rw [unreaped_cons, List.mem_append] at hmem
    unfold reapProcesses
    by_cases hfirst : pid ∈ unreaped [process]
    · exact (reapLoop_blocks h hfirst).bind _
    · apply (reapLoop_spares h (Or.inr hfirst)).blocks
      intro r k₁ hr
      exact (reapProcesses_blocks next hr.untouched (hmem.resolve_left hfirst)).bind _

theorem reapJobs_blocks : ∀ (jobs : List Job) {k : Kernel}, Untouched pid k → pid ∈ registered jobs →
    Blocks scope pid (reapJobs (reapLoop false) jobs) k
  | [], _, _, hmem => absurd hmem List.not_mem_nil
  | job :: next, k, h, hmem => by
    rw [registered_cons, List.mem_append] at hmem
    unfold reapJobs
    by_cases hfirst : pid ∈ unreaped job.processes
    · exact (reapProcesses_blocks job.processes h hfirst).bind _
    · apply (reapProcesses_spares job.processes h (Or.inr hfirst)).blocks
      intro r k₁ hr
      exact (reapJobs_blocks next hr.untouched (hmem.resolve_left hfirst)).bind _

/-! ### A shutdown that leaves the child alone -/

/-- A signal that is not SIGKILL, or does not reach the child. -/
theorem Untouched.kill {pgid : ℕ} {sig : KillSignal} (h : Untouched pid k)
    (hsig : sig = .sigkill → ¬ scope.Reached pgid pid) : Untouched pid (k.kill scope pgid sig) := by
  refine ⟨h.alive, ?_⟩
  have hnot : ¬ (sig = .sigkill ∧ scope.Reached pgid pid ∧ k.life pid ≠ .gone) := fun hall => hsig hall.1 hall.2.1
  unfold Kernel.kill
  dsimp only
  rw [h.spared, decide_eq_false hnot, Bool.or_false]

/-- Whether `kill` finds somebody it can reach or fails, the child is spared. -/
theorem kill_spares {pgid : ℕ} {sig : KillSignal} {f : CallResult → ShutdownProg α} {Q : α → Kernel → Prop}
    (h : Untouched pid k) (hsig : sig = .sigkill → ¬ scope.Reached pgid pid)
    (hf : ∀ r k', Untouched pid k' → Returns scope (f r) k' Q) : Returns scope (.call (.kill pgid sig) f) k Q := by
  by_cases hnone : ∀ other, scope.Reached pgid other → k.life other = .gone
  · exact Returns.call ⟨-1, ESRCH⟩ ⟨k, Kernel.Later.refl k, .failed (by decide) hnone⟩ (hf _ _ h)
  · exact Returns.call ⟨0, 0⟩ ⟨k, Kernel.Later.refl k, .sent rfl⟩ (hf _ _ (h.kill hsig))

theorem signalJobs_spares {test : Job → Bool} {sig : KillSignal} : ∀ (jobs : List Job) {k : Kernel}, Untouched pid k →
    (∀ job ∈ jobs, test job = true → sig = .sigkill → ¬ scope.Reached job.pgid pid) →
    Returns scope (signalJobs test sig jobs) k fun _ => Untouched pid
  | [], _, h, _ => Returns.ret h
  | job :: next, k, h, hsafe => by
    unfold signalJobs
    by_cases htest : test job = true
    · rw [if_pos htest]
      apply kill_spares h (hsafe job List.mem_cons_self htest)
      exact fun _ k' h' => signalJobs_spares next h' fun job hjob => hsafe job (List.mem_cons_of_mem _ hjob)
    · rw [if_neg htest]
      exact signalJobs_spares next h fun job hjob => hsafe job (List.mem_cons_of_mem _ hjob)

theorem continueStopped_spares : ∀ (jobs : List Job) {k : Kernel}, Untouched pid k →
    Returns scope (continueStopped jobs) k fun jobs' k' => Untouched pid k' ∧ SameTable jobs jobs'
  | [], _, h => Returns.ret ⟨h, rfl, rfl⟩
  | job :: next, k, h => by
    have hjob : Returns scope (if job.status = .stopped then continueStoppedJob job else .ret job) k fun job' k' =>
        Untouched pid k' ∧ job'.pgid = job.pgid ∧ unreaped job'.processes = unreaped job.processes := by
      by_cases hstopped : job.status = .stopped
      · rw [if_pos hstopped]
        unfold continueStoppedJob
        by_cases hpgid : 0 < job.pgid
        · rw [if_pos hpgid]
          apply kill_spares h fun hcontra => by cases hcontra
          exact fun _ k' h' => Returns.ret ⟨h', continued_same job⟩
        · rw [if_neg hpgid]
          exact Returns.ret ⟨h, continued_same job⟩
      · rw [if_neg hstopped]
        exact Returns.ret ⟨h, rfl, rfl⟩
    unfold continueStopped
    apply hjob.bind
    intro job' k₁ hcontinued
    obtain ⟨h₁, hpgid, hchildren⟩ := hcontinued
    apply (continueStopped_spares next h₁).bind
    intro next' k₂ hcontinued'
    obtain ⟨h₂, hsame⟩ := hcontinued'
    exact Returns.ret ⟨h₂, hsame.cons hpgid hchildren⟩

theorem shutdownSleep_spares (h : Untouched pid k) : Returns scope shutdownSleep k fun _ => Untouched pid := by
  unfold shutdownSleep
  refine Returns.iter (Returns.call (⟨0, 0⟩, 0) (Kernel.Later.refl k) ?_)
  have hslept : ¬ (0 : ℤ) < 0 := by decide
  rw [if_neg hslept]
  exact Returns.ret ⟨(), rfl, h⟩

theorem retryReap_spares : ∀ (n : ℕ) (jobs : List Job) {k : Kernel}, Untouched pid k →
    Returns scope (retryReap n jobs) k fun jobs' k' =>
      Missed pid (registered jobs) (registered jobs') k' ∧ jobs'.map Job.pgid = jobs.map Job.pgid
  | 0, jobs, _, h => Returns.ret ⟨⟨h, id⟩, rfl⟩
  | n + 1, jobs, k, h => by
    unfold retryReap
    apply (reapJobs_spares jobs h (Or.inl rfl)).bind
    intro r k₁ hpassed
    obtain ⟨hr, hpgids⟩ := hpassed
    by_cases hdone : r.1 = true
    · rw [if_pos hdone]
      exact Returns.ret ⟨hr, hpgids⟩
    · rw [if_neg hdone]
      apply (shutdownSleep_spares hr.untouched).bind
      intro _ k₂ h₂
      obtain ⟨jobs', k₃, hreach, hrest, hpgids'⟩ := retryReap_spares n r.2 h₂
      exact ⟨jobs', k₃, hreach, ⟨hrest.untouched, fun hmem => hrest.stays (hr.stays hmem)⟩, hpgids'.trans hpgids⟩

theorem jobShutdown_blocks {m : JobManager} (h : Untouched pid k) (hmem : pid ∈ registered m.jobs)
    (hout : ∀ job ∈ m.jobs, 0 < job.pgid → ¬ scope.Reached job.pgid pid) : Blocks scope pid (jobShutdown m) k := by
  have hsome : m.jobs ≠ [] := by
    intro hempty
    rw [hempty] at hmem
    exact absurd hmem List.not_mem_nil
  unfold jobShutdown
  rw [if_neg hsome]
  apply (continueStopped_spares m.jobs h).blocks
  intro jobs k₁ hcontinued
  obtain ⟨h₁, hsame⟩ := hcontinued
  apply (signalJobs_spares jobs h₁ fun _ _ _ hcontra => by cases hcontra).blocks
  intro _ k₂ h₂
  apply (retryReap_spares JOB_SHUTDOWN_RETRY_COUNT jobs h₂).blocks
  intro jobs' k₃ hretried
  obtain ⟨h₃, hpgids⟩ := hretried
  have hkill : ∀ job ∈ jobs', decide (0 < job.pgid) = true → KillSignal.sigkill = .sigkill →
      ¬ scope.Reached job.pgid pid := by
    intro job hjob hpositive _
    have hpgid : job.pgid ∈ m.jobs.map Job.pgid := by
      rw [← hsame.pgids, ← hpgids]
      exact List.mem_map_of_mem hjob
    obtain ⟨old, hold, hsamePgid⟩ := List.mem_map.mp hpgid
    rw [decide_eq_true_eq, ← hsamePgid] at hpositive
    rw [← hsamePgid]
    exact hout old hold hpositive
  apply (signalJobs_spares jobs' h₃.untouched hkill).blocks
  intro _ k₄ h₄
  have hmem' : pid ∈ registered jobs' := by
    apply h₃.stays
    rw [hsame.registered]
    exact hmem
  exact (reapJobs_blocks jobs' h₄ hmem').bind _

end Missed

/-- A wait that blocks before any SIGKILL for its process is not allowed. -/
theorem Blocks.not_safe {α : Type} {scope : SignalScope} {pid : ℕ} {p : ShutdownProg α} {k : Kernel}
    {Q : α → Kernel → Prop} (h : Blocks scope pid p k) : ¬ Safe (shutdownWorld scope) killedFirst Q p k := by
  intro hsafe
  obtain ⟨f, k', hreach, hspared⟩ := h
  have hkilled : k'.killed pid = true := (hsafe _ _ hreach).2
  rw [hspared] at hkilled
  cases hkilled

/-- A registered child is alive and in no group of a job, or may not be
signalled: the shutdown waits for it without a SIGKILL. -/
theorem jobShutdown_uncovered {s : ShutdownStart} (h : ¬ s.Covered) :
    ¬ Safe (shutdownWorld s.scope) killedFirst (ShutdownOver s) (jobShutdown s.table) s.kernel := by
  unfold ShutdownStart.Covered at h
  push Not at h
  obtain ⟨pid, hmem, halive, hout⟩ := h
  have huntouched : Untouched pid s.kernel := ⟨halive, rfl⟩
  exact (jobShutdown_blocks huntouched hmem hout).not_safe

/-- The shutdown waits only for what it killed, and then for every child, just
when every registered child that is alive is in the group of a job and may be
signalled. -/
theorem shutdown_kills_first (s : ShutdownStart) :
    Safe (shutdownWorld s.scope) killedFirst (ShutdownOver s) (jobShutdown s.table) s.kernel ↔ s.Covered := by
  constructor
  · intro hsafe
    by_contra hcovered
    exact jobShutdown_uncovered hcovered hsafe
  · exact jobShutdown_covered

/-! ### A child in a group of its own -/

/-- The job of the group 7 has the process 8, which made a group of its own. -/
def movedStart : ShutdownStart where
  table := ⟨[⟨1, 7, .running, [], [⟨8, .running, none⟩], none⟩], 2⟩
  scope := ⟨fun pid => pid, fun _ => true⟩
  life pid := if pid = 8 then .alive else .gone
  positive := by decide
  distinct := by decide

theorem moved_uncovered : ¬ movedStart.Covered := by
  intro hcovered
  obtain ⟨job, hjob, -, hreached⟩ := hcovered 8 (List.mem_singleton_self 8) rfl
  rw [List.mem_singleton.mp hjob] at hreached
  obtain ⟨hgroup, -⟩ := hreached
  rcases hgroup with hall | hgroup
  · cases hall
  · cases hgroup

/-- The shutdown blocks on the process 8 without a SIGKILL for it. -/
theorem shutdown_waits_unkilled : ¬ ∀ s : ShutdownStart,
    Safe (shutdownWorld s.scope) killedFirst (ShutdownOver s) (jobShutdown s.table) s.kernel :=
  fun hall => jobShutdown_uncovered moved_uncovered (hall movedStart)

end DeviceRuntime
