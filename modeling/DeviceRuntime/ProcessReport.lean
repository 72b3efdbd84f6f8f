/-
# The report of the processes

`psinfo` for every listing of `/proc`, every content of the status files and
every failure of an allocation: either the table has exactly the processes that
can be read, in ascending order, or there is nothing but the message. In both
cases the directory is closed and no memory is kept. What `psinfo <pid>` says
agrees with the table.

Key definitions: `PsinfoAgrees`, `PsinfoOver`.
Key theorems: `parsePid_decimal`, `psinfoProcess_agrees`,
`processMonitorCollect_fails`, `psinfo_report`.
-/
import DeviceRuntime.ProcessCollect
import DeviceRuntime.SystemInfo

namespace DeviceRuntime

open Prog ProcessCall Selection

/-! ### One process -/

section Process

variable {files : StatusFiles} {l : ProcListing} {entries : List ProcessInfo}

/-- A number is a process if it can be one. -/
theorem parsePid_decimal (n : ℕ) :
    parsePid (decimal n) = if 1 ≤ (n : ℤ) ∧ (n : ℤ) ≤ INT_MAX then some (n : ℤ) else none := by
  have hmax : INT_MAX < LONG_MAX := by decide
  unfold parsePid
  rw [strtol_pidName]
  dsimp only
  by_cases hbig : (n : ℤ) > LONG_MAX
  · have hn : ¬ (1 ≤ (n : ℤ) ∧ (n : ℤ) ≤ INT_MAX) := by omega
    rw [if_pos hbig, if_neg hn]
    simp
  · rw [if_neg hbig]
    by_cases hn : 1 ≤ (n : ℤ) ∧ (n : ℤ) ≤ INT_MAX
    · have hgood : ¬ ((n : ℤ) ≤ 0 ∨ (n : ℤ) > INT_MAX) := by omega
      rw [if_pos hn]
      simpa using hgood
    · have hbad : ¬ (n : ℤ) ≤ 0 → (n : ℤ) > INT_MAX := by omega
      rw [if_neg hn]
      simpa using hbad

theorem processMonitorGet_error {pid ret : ℤ} (h : processMonitorGet files pid = .error ret) : ret ≠ MiniShell_OK := by
  have hunknown : MiniShell_ERR_UNKNOWN ≠ MiniShell_OK := by decide
  have hopen : MiniShell_ERR_OPEN ≠ MiniShell_OK := by decide
  unfold processMonitorGet at h
  dsimp only at h
  split_ifs at h
  · cases h
    exact hunknown
  · cases h
    exact hunknown
  · cases hfile : files (text "/proc/" ++ decimalInt pid ++ text "/status") with
    | none =>
      rw [hfile] at h
      cases h
      exact hopen
    | some file =>
      rw [hfile] at h
      dsimp only at h
      split_ifs at h
      cases h
      exact hunknown

/-- `psinfo <pid>` shows the entry of the table, or fails where there is none. -/
def PsinfoAgrees (files : StatusFiles) (entries : List ProcessInfo) (n : ℕ) : Prop :=
  (∃ info ∈ entries, info.pid = n ∧ psinfoProcess files (decimal n) = ⟨MiniShell_OK, printProcessInfo info, []⟩) ∨
    ((∀ info ∈ entries, info.pid ≠ n) ∧ (psinfoProcess files (decimal n)).status ≠ MiniShell_OK)

theorem psinfoProcess_agrees (hentries : ∀ info, info ∈ entries ↔ ReadableProcess l files info) {n : ℕ}
    (hlisted : decimal n ∈ l.names) : PsinfoAgrees files entries n := by
  unfold PsinfoAgrees psinfoProcess
  rw [parsePid_decimal]
  by_cases hn : 1 ≤ (n : ℤ) ∧ (n : ℤ) ≤ INT_MAX
  · rw [if_pos hn]
    dsimp only
    cases hget : processMonitorGet files n with
    | error ret =>
      right
      refine ⟨?_, processMonitorGet_error hget⟩
      intro info hinfo hpid
      have hread := ((hentries info).mp hinfo).read
      rw [hpid, hget] at hread
      cases hread
    | ok info =>
      left
      have hpid : info.pid = n := processMonitorGet_pid hget
      refine ⟨info, (hentries info).mpr ?_, hpid, rfl⟩
      rw [← hpid] at hn hget
      refine ⟨hn.1, hn.2, ?_, hget⟩
      rw [hpid, decimalInt_natCast]
      exact hlisted
  · rw [if_neg hn]
    right
    refine ⟨?_, ?_⟩
    · intro info hinfo hpid
      have hread := (hentries info).mp hinfo
      rw [← hpid] at hn
      exact hn ⟨hread.positive, hread.bounded⟩
    · dsimp only
      decide

end Process

/-! ### All processes -/

section Report

variable {listing : Option ProcListing} {heap : ℕ → Bool} {files : StatusFiles}

/-- Where the array cannot be doubled the block is released and the directory
is closed. -/
theorem processMonitorCollect_fails {l : ProcListing} (hheap : heap 0 = true)
    (hfails : ¬ Doublings heap (readable files l.names).length) :
    Prog.Total (proc (some l) heap) (DoublingFails heap (readable files l.names).length) (processMonitorCollect files)
      ProcState.start := by
  unfold processMonitorCollect
  have hopendir : ∃ r w', procSem (some l) heap ProcState.start .opendir r w' := ⟨_, _, rfl, rfl⟩
  apply Prog.Total.call hopendir
  intro r w' ⟨hr, hw'⟩
  have hopened : ¬ (!(some l).isSome) = true := Bool.false_ne_true
  rw [hr, hw', Prog.ret_bind, if_neg hopened]
  apply malloc_total
  · intro _
    have hstart : Doubled heap l.names 0 (ProcessArray.empty 0) ⟨some l.names, 1, [0]⟩ :=
      ⟨rfl, fun k hk => absurd hk (Nat.not_lt_zero k), rfl⟩
    apply (collectLoop_total l.names hstart).bind
    intro x w₁ hx
    cases x with
    | inl array =>
      obtain ⟨hentries, n, hdoubled⟩ := hx
      exact absurd (hdoubled.doublings hentries) hfails
    | inr failed => exact Prog.Total.ret hx
  · intro hno
    have hno : heap 0 = false := hno
    rw [hheap] at hno
    cases hno

/-- The list, or a failure; the only block that is left is that of the list. -/
theorem processMonitorCollect_ends : Prog.Total (proc listing heap)
    (fun r w => CollectsAll listing files r w ∨ (r.ret ≠ MiniShell_OK ∧ w.dir = none ∧ w.live = []))
    (processMonitorCollect files) ProcState.start := by
  by_cases hroom : HasRoom listing files heap
  · have hall := (processMonitorCollect_total.decides (fun _ _ h => h) fun _ _ h => h).mpr hroom
    exact hall.mono fun r w h => Or.inl h
  · unfold HasRoom at hroom
    push Not at hroom
    obtain ⟨l, rfl, hheap, hfails⟩ := hroom
    refine (processMonitorCollect_fails hheap hfails).mono ?_
    intro r w h
    obtain ⟨k, -, -, hr⟩ := h.fails
    refine Or.inr ⟨?_, h.closed, h.freed⟩
    have hcode : MiniShell_ERR_MEMORY ≠ MiniShell_OK := by decide
    rw [hr]
    exact hcode

/-- The report is a table that `psinfo <pid>` agrees with, or a message. -/
structure PsinfoOver (listing : Option ProcListing) (files : StatusFiles) (r : Report) (w : ProcState) : Prop where
  closed : w.dir = none
  freed : w.live = []
  report : (r.status ≠ MiniShell_OK ∧ r.out = [] ∧ r.err = text "psinfo: failed to collect process information\n") ∨
    ∃ l entries, listing = some l ∧ r = ⟨MiniShell_OK, printProcessList (some entries), []⟩ ∧
      (entries.Pairwise fun a b => a.pid < b.pid) ∧ (∀ info, info ∈ entries ↔ ReadableProcess l files info) ∧
      ∀ n : ℕ, decimal n ∈ l.names → PsinfoAgrees files entries n

/-- For all listings, files and failures of the heap. -/
theorem psinfo_report (listing : Option ProcListing) (files : StatusFiles) (heap : ℕ → Bool) (name : List Byte) :
    Prog.Total (proc listing heap) (PsinfoOver listing files) (cmdPsinfo files [name]) ProcState.start := by
  refine Prog.Total.bind processMonitorCollect_ends ?_
  intro r w hr
  by_cases hret : r.ret ≠ MiniShell_OK
  · rw [if_pos hret]
    apply Prog.Total.ret
    rcases hr with hall | hfailed
    · rcases hall.outcome with hfailed | hcollected
      · exact ⟨hall.closed, hfailed.live, Or.inl ⟨hret, rfl, rfl⟩⟩
      · obtain ⟨l, -, hcollected⟩ := hcollected
        exact absurd hcollected.ret hret
    · exact ⟨hfailed.2.1, hfailed.2.2, Or.inl ⟨hret, rfl, rfl⟩⟩
  · rw [if_neg hret]
    have hall : CollectsAll listing files r w := hr.resolve_right fun h => hret h.1
    have hcollected := hall.outcome.resolve_left fun h => hret h.ret
    obtain ⟨l, hlisting, hcollected⟩ := hcollected
    obtain ⟨entries, hascending, hentries, hcount, hlist⟩ := hcollected.list
    have hagrees : ∀ n : ℕ, decimal n ∈ l.names → PsinfoAgrees files entries n :=
      fun n hn => psinfoProcess_agrees hentries hn
    rcases hlist with ⟨hzero, hlist, hlive⟩ | ⟨_, address, hlist, hlive⟩
    · have hnil : entries = [] := List.length_eq_zero_iff.mp (hcount.symm.trans hzero)
      rw [hlist]
      apply Prog.Total.ret
      refine ⟨hall.closed, hlive, Or.inr ⟨l, entries, hlisting, ?_, hascending, hentries, hagrees⟩⟩
      rw [hnil]
      rfl
    · have hmem : address ∈ w.live := by
        rw [hlive]
        exact List.mem_cons_self
      rw [hlist]
      apply free_total hmem
      apply Prog.Total.ret
      refine ⟨hall.closed, ?_, Or.inr ⟨l, entries, hlisting, rfl, hascending, hentries, hagrees⟩⟩
      dsimp only
      rw [hlive]
      exact List.erase_cons_head _ _

end Report

end DeviceRuntime
