/-
# The list of the processes

`process_monitor_collect` for every listing of `/proc`, every content of the
status files and every failure of an allocation. The list has exactly the
processes that can be read, in ascending order, and the memory that is kept is
that of the list.

Where the array cannot be doubled, `*count` is left at the entries read so far.
The k-th allocation is the k-th doubling, so this happens exactly where there
are more than `64 * 2 ^ k` processes and the allocation after `malloc` and `k`
doublings fails.

Key definitions: `ProcListing`, `ProcState`, `proc`, `ReadableProcess`,
`Collected`, `CollectsAll`, `Doublings`.
Key theorems: `processEntry_iff`, `collectLoop_total`,
`processMonitorCollect_total`, `collected_iff`, `process_list`.
-/
import DeviceRuntime.Lib.Safe
import DeviceRuntime.ProcessMonitor

namespace DeviceRuntime

open Prog ProcessCall Selection

/-! ### The directory and the heap -/

/-- The names that `readdir` gives. Numbers are without leading zeros. -/
structure ProcListing where
  names : List (List Byte)
  nodup : names.Nodup
  numeric : ∀ name ∈ names, isPidName name = true → ∃ n : ℕ, name = decimal n

/-- The names that are still to come while the directory is open, the number of
allocations asked for, and the blocks in use. -/
structure ProcState where
  dir : Option (List (List Byte))
  allocations : ℕ
  live : List ℕ
deriving DecidableEq, Repr

/-- Nothing is open and no block is in use. -/
def ProcState.start : ProcState := ⟨none, 0, []⟩

/-- A block is named by the number of its allocation. The blocks `others` stay
with a new one; where there is none, nothing is changed. -/
def Allocates (heap : ℕ → Bool) (others : List ℕ) (w : ProcState) (r : Option ℕ) (w' : ProcState) : Prop :=
  if heap w.allocations then
    r = some w.allocations ∧ w' = ⟨w.dir, w.allocations + 1, w.allocations :: others⟩
  else r = none ∧ w' = ⟨w.dir, w.allocations + 1, w.live⟩

def procSem (listing : Option ProcListing) (heap : ℕ → Bool) (w : ProcState) :
    (c : ProcessCall) → c.Ret → ProcState → Prop
  | .opendir, r, w' => r = listing.isSome ∧ w' = { w with dir := listing.map ProcListing.names }
  | .readdir, r, w' => ∃ names, w.dir = some names ∧ r = names.head? ∧ w' = { w with dir := some names.tail }
  | .closedir, _, w' => w.dir ≠ none ∧ w' = { w with dir := none }
  | .malloc _, r, w' => Allocates heap w.live w r w'
  | .realloc address _, r, w' => address ∈ w.live ∧ Allocates heap (w.live.erase address) w r w'
  | .free address, _, w' => address ∈ w.live ∧ w' = { w with live := w.live.erase address }

abbrev proc (listing : Option ProcListing) (heap : ℕ → Bool) : World ProcessCall ProcessCall.Ret ProcState :=
  .alone (procSem listing heap)

section Calls

variable {listing : Option ProcListing} {heap : ℕ → Bool} {w : ProcState} {α : Type} {Q : α → ProcState → Prop}

/-- Both outcomes of an allocation. -/
theorem allocates_cases {others : List ℕ} {C : Option ℕ → ProcState → Prop}
    (hblock : heap w.allocations = true → C (some w.allocations) ⟨w.dir, w.allocations + 1, w.allocations :: others⟩)
    (hnull : heap w.allocations = false → C none ⟨w.dir, w.allocations + 1, w.live⟩) :
    (∃ r w', Allocates heap others w r w') ∧ ∀ r w', Allocates heap others w r w' → C r w' := by
  unfold Allocates
  by_cases hheap : heap w.allocations = true
  · simp only [if_pos hheap]
    refine ⟨⟨_, _, rfl, rfl⟩, ?_⟩
    intro r w' hr
    rw [hr.1, hr.2]
    exact hblock hheap
  · simp only [if_neg hheap]
    refine ⟨⟨_, _, rfl, rfl⟩, ?_⟩
    intro r w' hr
    rw [hr.1, hr.2]
    exact hnull (Bool.eq_false_iff.mpr hheap)

/-- What comes after `malloc`. -/
theorem malloc_total {size : ℕ} {k : Option ℕ → ProcessProg α}
    (hblock : heap w.allocations = true → Prog.Total (proc listing heap) Q (k (some w.allocations))
      ⟨w.dir, w.allocations + 1, w.allocations :: w.live⟩)
    (hnull : heap w.allocations = false →
      Prog.Total (proc listing heap) Q (k none) ⟨w.dir, w.allocations + 1, w.live⟩) :
    Prog.Total (proc listing heap) Q ((procMalloc size).bind k) w := by
  have hcases := @allocates_cases heap w w.live (fun r w' => Prog.Total (proc listing heap) Q (k r) w') hblock hnull
  exact Prog.Total.call hcases.1 hcases.2

/-- What comes after `realloc`. -/
theorem realloc_total {address size : ℕ} {k : Option ℕ → ProcessProg α} (hlive : address ∈ w.live)
    (hblock : heap w.allocations = true → Prog.Total (proc listing heap) Q (k (some w.allocations))
      ⟨w.dir, w.allocations + 1, w.allocations :: w.live.erase address⟩)
    (hnull : heap w.allocations = false →
      Prog.Total (proc listing heap) Q (k none) ⟨w.dir, w.allocations + 1, w.live⟩) :
    Prog.Total (proc listing heap) Q ((procRealloc address size).bind k) w := by
  have hcases := @allocates_cases heap w (w.live.erase address)
    (fun r w' => Prog.Total (proc listing heap) Q (k r) w') hblock hnull
  obtain ⟨r, w', hr⟩ := hcases.1
  exact Prog.Total.call ⟨r, w', hlive, hr⟩ fun r w' hr => hcases.2 r w' hr.2

/-- What comes after `free`. -/
theorem free_total {address : ℕ} {k : Unit → ProcessProg α} (hlive : address ∈ w.live)
    (h : Prog.Total (proc listing heap) Q (k ()) ⟨w.dir, w.allocations, w.live.erase address⟩) :
    Prog.Total (proc listing heap) Q ((procFree address).bind k) w := by
  have hsome : ∃ r w', procSem listing heap w (.free address) r w' := ⟨(), _, hlive, rfl⟩
  apply Prog.Total.call hsome
  intro _ w' hw'
  rw [hw'.2]
  exact h

/-- What comes after `closedir`. -/
theorem closedir_total {k : Unit → ProcessProg α} (hopen : w.dir ≠ none)
    (h : Prog.Total (proc listing heap) Q (k ()) ⟨none, w.allocations, w.live⟩) :
    Prog.Total (proc listing heap) Q (procClosedir.bind k) w := by
  have hsome : ∃ r w', procSem listing heap w .closedir r w' := ⟨(), _, hopen, rfl⟩
  apply Prog.Total.call hsome
  intro _ w' hw'
  rw [hw'.2]
  exact h

/-- What comes after `readdir`. -/
theorem readdir_total {names : List (List Byte)} {k : Option (List Byte) → ProcessProg α} (hopen : w.dir = some names)
    (h : Prog.Total (proc listing heap) Q (k names.head?) ⟨some names.tail, w.allocations, w.live⟩) :
    Prog.Total (proc listing heap) Q (procReaddir.bind k) w := by
  have hsome : ∃ r w', procSem listing heap w .readdir r w' := ⟨_, _, names, hopen, rfl, rfl⟩
  apply Prog.Total.call hsome
  intro r w' ⟨names', hopen', hr, hw'⟩
  rw [hopen] at hopen'
  cases hopen'
  rw [hr, hw']
  exact h

end Calls

/-! ### The entries -/

/-- What the entries of the directory give. -/
def readable (files : StatusFiles) (names : List (List Byte)) : List ProcessInfo :=
  names.filterMap (processEntry files)

/-- The process has an entry, and its file can be read. -/
structure ReadableProcess (listing : ProcListing) (files : StatusFiles) (info : ProcessInfo) : Prop where
  positive : 1 ≤ info.pid
  bounded : info.pid ≤ INT_MAX
  listed : decimalInt info.pid ∈ listing.names
  read : processMonitorGet files info.pid = .ok info

section Entries

variable {listing : ProcListing} {files : StatusFiles} {info : ProcessInfo}

theorem processStatusLine_pid (line : List Byte) (info : ProcessInfo) :
    (processStatusLine line info).pid = info.pid := by
  unfold processStatusLine
  split_ifs
  · rfl
  · cases skipStatusBlanks (line.drop 6) with
    | nil => rfl
    | cons value rest => rfl
  · rfl
  · rfl
  · rfl

theorem processStatusLines_pid (readError : Bool) (bytes : List Byte) (info : ProcessInfo) :
    (processStatusLines readError bytes info).pid = info.pid := by
  induction bytes, info using processStatusLines.induct readError with
  | case1 info => rw [processStatusLines, dif_pos rfl]
  | case2 bytes info hne hend => rw [processStatusLines, dif_neg hne, if_pos hend]
  | case3 bytes info hne hend ih =>
    rw [processStatusLines, dif_neg hne, if_neg hend, ih]
    exact processStatusLine_pid _ _

/-- What is read is the process that was asked for. -/
theorem processMonitorGet_pid {pid : ℤ} (h : processMonitorGet files pid = .ok info) : info.pid = pid := by
  unfold processMonitorGet at h
  dsimp only at h
  split_ifs at h
  cases hfile : files (text "/proc/" ++ decimalInt pid ++ text "/status") with
  | none =>
    rw [hfile] at h
    cases h
  | some file =>
    rw [hfile] at h
    dsimp only at h
    split_ifs at h
    rw [← Except.ok.inj h]
    exact processStatusLines_pid _ _ _

theorem decimalInt_natCast (n : ℕ) : decimalInt (n : ℤ) = decimal n := by
  unfold decimalInt
  rw [if_neg (by omega), Int.natAbs_natCast]

theorem isPidName_decimal (n : ℕ) : isPidName (decimal n) = true := by
  unfold isPidName
  rw [Bool.and_eq_true, decide_eq_true_eq, List.all_eq_true]
  exact ⟨decimal_ne_nil n, isdigit_of_mem_decimal⟩

theorem strtol_pidName (n : ℕ) : strtol (decimal n) =
    if (n : ℤ) > LONG_MAX then ⟨LONG_MAX, [], true⟩ else ⟨n, [], false⟩ := by
  have hall : ∀ c ∈ decimal n, isdigit c = true := isdigit_of_mem_decimal
  have hsign : strtolSign (decimal n) = (false, decimal n) := by
    obtain ⟨c, ds, hcons⟩ := List.exists_cons_of_ne_nil (decimal_ne_nil n)
    rw [hcons] at hall ⊢
    exact strtolSign_digit (hall c List.mem_cons_self)
  unfold strtol
  rw [hsign, strtolDigits_cut false (decimal_ne_nil n) hall, numberOf_decimal]
  exact if_neg (by decide)

/-- An entry that is a number is read if the number can be that of a process. -/
theorem processEntry_decimal (n : ℕ) : processEntry files (decimal n) =
    if 1 ≤ (n : ℤ) ∧ (n : ℤ) ≤ INT_MAX then (processMonitorGet files n).toOption else none := by
  have hmax : INT_MAX < LONG_MAX := by decide
  unfold processEntry
  rw [isPidName_decimal, strtol_pidName, if_neg (by decide)]
  dsimp only
  by_cases hbig : (n : ℤ) > LONG_MAX
  · have hn : ¬ (1 ≤ (n : ℤ) ∧ (n : ℤ) ≤ INT_MAX) := by omega
    rw [if_pos hbig, if_neg hn]
    exact if_pos (Or.inl rfl)
  · rw [if_neg hbig]
    dsimp only
    by_cases hn : 1 ≤ (n : ℤ) ∧ (n : ℤ) ≤ INT_MAX
    · have hgood : ¬ (false = true ∨ ([] : List Byte) ≠ [] ∨ (n : ℤ) ≤ 0 ∨ (n : ℤ) > INT_MAX) := by
        rintro (h | h | h | h)
        · cases h
        · exact h rfl
        · omega
        · omega
      rw [if_neg hgood, if_pos hn]
    · have hbad : false = true ∨ ([] : List Byte) ≠ [] ∨ (n : ℤ) ≤ 0 ∨ (n : ℤ) > INT_MAX := by omega
      rw [if_pos hbad, if_neg hn]

/-- What an entry of the directory gives. -/
theorem processEntry_iff {name : List Byte} (hname : name ∈ listing.names) :
    processEntry files name = some info ↔ name = decimalInt info.pid ∧ ReadableProcess listing files info := by
  constructor
  · intro h
    have hnumeric : isPidName name = true := by
      unfold processEntry at h
      by_contra hnot
      rw [Bool.not_eq_true] at hnot
      rw [hnot, if_pos (by decide)] at h
      cases h
    obtain ⟨n, rfl⟩ := listing.numeric name hname hnumeric
    rw [processEntry_decimal] at h
    split_ifs at h with hn
    cases hget : processMonitorGet files n with
    | error code =>
      rw [hget] at h
      cases h
    | ok found =>
      rw [hget] at h
      have hinfo : found = info := Option.some.inj h
      have hpid := processMonitorGet_pid hget
      rw [hinfo] at hget hpid
      rw [← hpid] at hget hn
      have hdecimal : decimal n = decimalInt info.pid := by rw [hpid, decimalInt_natCast]
      rw [hdecimal] at hname ⊢
      exact ⟨rfl, hn.1, hn.2, hname, hget⟩
  · rintro ⟨rfl, hread⟩
    obtain ⟨n, hn⟩ := Int.eq_ofNat_of_zero_le (show 0 ≤ info.pid by have := hread.positive; omega)
    have hget := hread.read
    have hrange : 1 ≤ (n : ℤ) ∧ (n : ℤ) ≤ INT_MAX := by
      rw [← hn]
      exact ⟨hread.positive, hread.bounded⟩
    rw [hn] at hget ⊢
    rw [decimalInt_natCast, processEntry_decimal, if_pos hrange, hget]
    rfl

theorem mem_readable : info ∈ readable files listing.names ↔ ReadableProcess listing files info := by
  unfold readable
  rw [List.mem_filterMap]
  constructor
  · rintro ⟨name, hname, hentry⟩
    exact ((processEntry_iff hname).mp hentry).2
  · intro h
    exact ⟨_, h.listed, (processEntry_iff h.listed).mpr ⟨rfl, h⟩⟩

/-- No process is read twice. -/
theorem readable_distinct (listing : ProcListing) (files : StatusFiles) :
    (readable files listing.names).Pairwise fun a b => a.pid ≠ b.pid := by
  unfold readable
  rw [List.pairwise_filterMap]
  apply listing.nodup.imp_of_mem
  intro name name' hname hname' hne info hinfo info' hinfo' hpid
  have h := (processEntry_iff hname).mp hinfo
  have h' := (processEntry_iff hname').mp hinfo'
  rw [h.1, h'.1, hpid] at hne
  exact hne rfl

/-- The sorted entries ascend strictly. -/
theorem sorted_readable (listing : ProcListing) (files : StatusFiles) :
    (sortBy ProcessInfo.pid (readable files listing.names)).Pairwise fun a b => a.pid < b.pid := by
  have hperm : (sortBy ProcessInfo.pid (readable files listing.names)).Perm (readable files listing.names) :=
    sortBy_perm
  have hsorted : (sortBy ProcessInfo.pid (readable files listing.names)).Pairwise fun a b => a.pid ≤ b.pid :=
    sortBy_sorted
  have hdistinct := (hperm.pairwise_iff fun {a b : ProcessInfo} (h : a.pid ≠ b.pid) => h.symm).mpr
    (readable_distinct listing files)
  exact (hsorted.and hdistinct).imp fun h => lt_of_le_of_ne h.1 h.2

end Entries

/-! ### The loop -/

/-- The allocation for the k-th doubling succeeds, for all that are needed. -/
def Doublings (heap : ℕ → Bool) (count : ℕ) : Prop := ∀ k, 64 * 2 ^ k < count → heap (k + 1) = true

/-- The array has been doubled `n` times, and `names` are still to come. -/
structure Doubled (heap : ℕ → Bool) (names : List (List Byte)) (n : ℕ) (array : ProcessArray) (w : ProcState) :
    Prop where
  capacity : array.capacity = 64 * 2 ^ n
  succeeded : ∀ k < n, heap (k + 1) = true
  state : w = ⟨some names, n + 1, [array.address]⟩

/-- The array cannot be doubled. -/
structure DoublingFails (heap : ℕ → Bool) (count : ℕ) (r : ProcessList) (w : ProcState) : Prop where
  fails : ∃ k, 64 * 2 ^ k < count ∧ heap (k + 1) = false ∧ r = ⟨MiniShell_ERR_MEMORY, none, 64 * 2 ^ k⟩
  closed : w.dir = none
  freed : w.live = []

section Loop

variable {listing : Option ProcListing} {heap : ℕ → Bool} {files : StatusFiles} {names : List (List Byte)} {n : ℕ}
  {array : ProcessArray} {info : ProcessInfo} {w : ProcState}

/-- What is appended, or the failure of the doubling. -/
def Appended (heap : ℕ → Bool) (names : List (List Byte)) (entries : List ProcessInfo) :
    ProcessArray ⊕ ProcessList → ProcState → Prop :=
  Sum.elim (fun array w => array.entries = entries ∧ ∃ n, Doubled heap names n array w)
    (DoublingFails heap entries.length)

theorem processAppend_total (h : Doubled heap names n array w) :
    Prog.Total (proc listing heap) (Appended heap names (array.entries ++ [info])) (processAppend array info) w := by
  have hstate := h.state
  unfold processAppend
  by_cases hfull : array.entries.length = array.capacity
  · rw [dif_pos hfull, hstate]
    apply realloc_total List.mem_cons_self
    · intro hheap
      apply Prog.Total.ret
      refine ⟨rfl, n + 1, ?_, ?_, ?_⟩
      · exact (congrArg (· * 2) h.capacity).trans (by ring)
      · intro k hk
        rcases Nat.lt_succ_iff_lt_or_eq.mp hk with hk | hk
        · exact h.succeeded k hk
        · rw [hk]
          exact hheap
      · simp [ProcessArray.push, ProcessArray.expanded]
    · intro hheap
      apply free_total List.mem_cons_self
      apply closedir_total (Option.some_ne_none _)
      apply Prog.Total.ret
      have hcount : array.entries.length = 64 * 2 ^ n := hfull.trans h.capacity
      have hmore : 64 * 2 ^ n < (array.entries ++ [info]).length := by
        rw [List.length_append, List.length_singleton, hcount]
        exact Nat.lt_succ_self _
      rw [hcount]
      exact ⟨⟨n, hmore, hheap, rfl⟩, rfl, List.erase_cons_head _ _⟩
  · rw [dif_neg hfull]
    exact Prog.Total.ret ⟨rfl, n, h.capacity, h.succeeded, hstate⟩

theorem DoublingFails.mono {count count' : ℕ} {r : ProcessList} (h : DoublingFails heap count r w)
    (hle : count ≤ count') : DoublingFails heap count' r w := by
  obtain ⟨k, hk, hheap, hr⟩ := h.fails
  exact ⟨⟨k, hk.trans_le hle, hheap, hr⟩, h.closed, h.freed⟩

/-- The array has been doubled as often as its entries need. -/
theorem Doubled.doublings {entries : List ProcessInfo} (h : Doubled heap names n array w)
    (hentries : array.entries = entries) : Doublings heap entries.length := by
  intro k hk
  apply h.succeeded
  have hle := array.count_le
  rw [hentries, h.capacity] at hle
  have hpow : 2 ^ k < 2 ^ n := by omega
  exact (Nat.pow_lt_pow_iff_right (by decide)).mp hpow

/-- The loop is over: the array has all entries, or it could not be doubled. -/
def CollectOver (heap : ℕ → Bool) (entries : List ProcessInfo) : ProcessArray ⊕ ProcessList → ProcState → Prop :=
  Appended heap [] entries

/-- An entry less is to come, and the same entries will be there in the end; or
the loop is over. -/
def CollectTurn (heap : ℕ → Bool) (files : StatusFiles) (names : List (List Byte)) (entries : List ProcessInfo) :
    ProcessArray ⊕ (ProcessArray ⊕ ProcessList) → ProcState → Prop :=
  Sum.elim (fun array w => array.entries ++ readable files names.tail = entries ∧ names ≠ [] ∧
      ∃ n, Doubled heap names.tail n array w)
    (CollectOver heap entries)

theorem collectTurn_total (h : Doubled heap names n array w) :
    Prog.Total (proc listing heap) (CollectTurn heap files names (array.entries ++ readable files names))
      (collectTurn files array) w := by
  unfold collectTurn
  rw [h.state]
  apply readdir_total rfl
  cases names with
  | nil =>
    have hnone : array.entries ++ readable files [] = array.entries := List.append_nil _
    rw [hnone]
    exact Prog.Total.ret ⟨rfl, n, h.capacity, h.succeeded, rfl⟩
  | cons name names =>
    have hdoubled : Doubled heap names n array ⟨some names, n + 1, [array.address]⟩ := ⟨h.capacity, h.succeeded, rfl⟩
    rw [List.head?_cons]
    dsimp only
    cases hentry : processEntry files name with
    | none =>
      have hskip : readable files (name :: names) = readable files names := List.filterMap_cons_none hentry
      rw [hskip]
      exact Prog.Total.ret ⟨rfl, List.cons_ne_nil _ _, n, hdoubled⟩
    | some info =>
      have hadd : array.entries ++ readable files (name :: names) =
          (array.entries ++ [info]) ++ readable files names := by
        unfold readable
        rw [List.filterMap_cons_some hentry]
        simp
      rw [hadd]
      apply (processAppend_total hdoubled).bind
      intro x w' hx
      cases x with
      | inl array' =>
        obtain ⟨hentries, n', hdoubled'⟩ := hx
        refine Prog.Total.ret ⟨?_, List.cons_ne_nil _ _, n', hdoubled'⟩
        rw [hentries]
        rfl
      | inr failed =>
        apply Prog.Total.ret
        exact DoublingFails.mono hx (List.prefix_append _ _).length_le

theorem collectLoop_total (names : List (List Byte)) : ∀ {n : ℕ} {array : ProcessArray} {w : ProcState},
    Doubled heap names n array w →
    Prog.Total (proc listing heap) (CollectOver heap (array.entries ++ readable files names))
      (Prog.iter (collectTurn files) array) w := by
  induction names with
  | nil =>
    intro n array w h
    apply Prog.Total.loop
    apply (collectTurn_total h).bind
    intro x w' hx
    cases x with
    | inl array' => exact absurd rfl hx.2.1
    | inr ended => exact Prog.Total.ret hx
  | cons name names ih =>
    intro n array w h
    apply Prog.Total.loop
    apply (collectTurn_total h).bind
    intro x w' hx
    cases x with
    | inl array' =>
      obtain ⟨hentries, _, n', hdoubled⟩ := hx
      rw [← hentries]
      exact ih hdoubled
    | inr ended => exact Prog.Total.ret hx

end Loop

/-! ### The result -/

/-- What the function promises where it succeeds: a list in ascending order of
exactly the processes that can be read, in the only block that is in use. -/
structure Collected (listing : ProcListing) (files : StatusFiles) (r : ProcessList) (w : ProcState) : Prop where
  ret : r.ret = MiniShell_OK
  list : ∃ entries : List ProcessInfo, (entries.Pairwise fun a b => a.pid < b.pid) ∧
    (∀ info, info ∈ entries ↔ ReadableProcess listing files info) ∧ r.count = entries.length ∧
    ((r.count = 0 ∧ r.list = none ∧ w.live = []) ∨
      (r.count ≠ 0 ∧ ∃ address, r.list = some (address, entries) ∧ w.live = [address]))

/-- What it promises where it fails. -/
structure CollectFailed (r : ProcessList) (w : ProcState) : Prop where
  ret : r.ret ≠ MiniShell_OK
  list : r.list = none
  count : r.count = 0
  live : w.live = []

/-- The postcondition, with the directory closed. -/
structure CollectsAll (listing : Option ProcListing) (files : StatusFiles) (r : ProcessList) (w : ProcState) :
    Prop where
  closed : w.dir = none
  outcome : CollectFailed r w ∨ ∃ l, listing = some l ∧ Collected l files r w

/-- The array is never too small and impossible to double. -/
def HasRoom (listing : Option ProcListing) (files : StatusFiles) (heap : ℕ → Bool) : Prop :=
  ∀ l, listing = some l → heap 0 = true → Doublings heap (readable files l.names).length

section Result

variable {listing : Option ProcListing} {heap : ℕ → Bool} {files : StatusFiles}

/-- After the loop: the list is sorted and trimmed. -/
theorem collected_of_array {l : ProcListing} {array : ProcessArray} {w : ProcState}
    (hentries : array.entries = readable files l.names) (address : ℕ) (hsome : array.entries.length ≠ 0)
    (hlive : w.live = [address]) :
    Collected l files ⟨MiniShell_OK, some (address, array.sorted), array.entries.length⟩ w := by
  have hsorted : array.sorted = sortBy ProcessInfo.pid (readable files l.names) := by
    unfold ProcessArray.sorted
    rw [hentries]
  refine ⟨rfl, array.sorted, ?_, ?_, ?_, Or.inr ⟨hsome, address, rfl, hlive⟩⟩
  · rw [hsorted]
    exact sorted_readable l files
  · intro info
    rw [hsorted, mem_sortBy]
    exact mem_readable
  · exact sortBy_perm.length_eq.symm

/-- No process can be read. -/
theorem collected_none {l : ProcListing} {w : ProcState} (hnone : readable files l.names = []) (hlive : w.live = []) :
    Collected l files ⟨MiniShell_OK, none, 0⟩ w := by
  refine ⟨rfl, [], List.Pairwise.nil, ?_, rfl, Or.inl ⟨rfl, rfl, hlive⟩⟩
  intro info
  rw [← mem_readable, hnone]

/-- Where the array cannot be doubled, `*count` is not 0. -/
theorem DoublingFails.not_collectsAll {count : ℕ} {r : ProcessList} {w : ProcState}
    (h : DoublingFails heap count r w) : ¬ CollectsAll listing files r w := by
  obtain ⟨k, -, -, hr⟩ := h.fails
  intro hall
  rcases hall.outcome with hfailed | ⟨l, -, hcollected⟩
  · have hcount := hfailed.count
    rw [hr] at hcount
    have hpos : 0 < 64 * 2 ^ k := by positivity
    dsimp only at hcount
    omega
  · have hret := hcollected.ret
    rw [hr] at hret
    exact absurd hret (show ¬ MiniShell_ERR_MEMORY = MiniShell_OK by decide)

/-- The function keeps its promise if and only if there is room. -/
theorem processMonitorCollect_total : Prog.Total (proc listing heap)
    (fun r w => CollectsAll listing files r w ↔ HasRoom listing files heap) (processMonitorCollect files)
    ProcState.start := by
  unfold processMonitorCollect
  have hopendir : ∃ r w', procSem listing heap ProcState.start .opendir r w' := ⟨_, _, rfl, rfl⟩
  apply Prog.Total.call hopendir
  intro r w' ⟨hr, hw'⟩
  rw [hr, hw']
  cases hlisting : listing with
  | none =>
    apply Prog.Total.ret
    exact iff_of_true ⟨rfl, Or.inl ⟨by decide, rfl, rfl, rfl⟩⟩ (fun l hl => by cases hl)
  | some l =>
    have hopened : ¬ (!(some l).isSome) = true := Bool.false_ne_true
    rw [Prog.ret_bind, if_neg hopened]
    apply malloc_total
    · intro hheap
      have hheap : heap 0 = true := hheap
      have hstart : Doubled heap l.names 0 (ProcessArray.empty 0) ⟨some l.names, 1, [0]⟩ :=
        ⟨rfl, fun k hk => absurd hk (Nat.not_lt_zero k), rfl⟩
      apply (collectLoop_total l.names hstart).bind
      intro x w₁ hx
      cases x with
      | inl array =>
        obtain ⟨hentries, n, hdoubled⟩ := hx
        have hroom : HasRoom (some l) files heap := by
          intro l' hl' _
          cases hl'
          exact hdoubled.doublings hentries
        rw [hdoubled.state]
        apply closedir_total (Option.some_ne_none _)
        by_cases hnone : array.entries.length = 0
        · rw [if_pos hnone]
          apply free_total List.mem_cons_self
          apply Prog.Total.ret
          rw [List.length_eq_zero_iff.mp hnone] at hentries
          have hlist := @collected_none files l ⟨none, n + 1, []⟩ hentries.symm rfl
          have herase : [array.address].erase array.address = [] := List.erase_cons_head _ _
          dsimp only
          rw [herase]
          exact iff_of_true ⟨rfl, Or.inr ⟨l, rfl, hlist⟩⟩ hroom
        · rw [if_neg hnone]
          apply realloc_total List.mem_cons_self
          · intro _
            have herase : [array.address].erase array.address = [] := List.erase_cons_head _ _
            apply Prog.Total.ret
            refine iff_of_true ⟨rfl, Or.inr ⟨l, rfl, ?_⟩⟩ hroom
            apply collected_of_array hentries _ hnone
            dsimp only
            rw [herase]
          · intro _
            apply Prog.Total.ret
            exact iff_of_true ⟨rfl, Or.inr ⟨l, rfl, collected_of_array hentries _ hnone rfl⟩⟩ hroom
      | inr failed =>
        apply Prog.Total.ret
        refine iff_of_false hx.not_collectsAll (fun hroom => ?_)
        obtain ⟨k, hk, hfails, -⟩ := hx.fails
        have hgrows := hroom l rfl hheap k hk
        rw [hgrows] at hfails
        cases hfails
    · intro hheap
      have hheap : heap 0 = false := hheap
      apply closedir_total (Option.some_ne_none _)
      apply Prog.Total.ret
      refine iff_of_true ⟨rfl, Or.inl ⟨by decide, rfl, rfl, rfl⟩⟩ (fun l hl hok => ?_)
      rw [hheap] at hok
      cases hok

end Result

/-- For every listing, all files and all failures of the heap, the promise is
kept if and only if no doubling that is needed fails. -/
theorem process_list (listing : Option ProcListing) (files : StatusFiles) (heap : ℕ → Bool) :
    Prog.Total (proc listing heap) (CollectsAll listing files) (processMonitorCollect files) ProcState.start ↔
      HasRoom listing files heap :=
  processMonitorCollect_total.decides (fun _ _ h => h) fun _ _ h => h

/-- 65 processes whose files have a name. -/
def crowdedListing : ProcListing where
  names := (List.range 65).map fun n => decimal (n + 1)
  nodup := by
    apply List.Nodup.map _ List.nodup_range
    intro n m h
    have hnumber := congrArg numberOf h
    rw [numberOf_decimal, numberOf_decimal] at hnumber
    omega
  numeric := by
    intro name hname _
    obtain ⟨n, -, rfl⟩ := List.mem_map.mp hname
    exact ⟨n + 1, rfl⟩

def namedFiles : StatusFiles := fun _ => some ⟨text "Name:\tsh\n", false⟩

theorem namedFiles_get {pid : ℤ} (hpos : 1 ≤ pid) (hmax : pid ≤ INT_MAX) :
    processMonitorGet namedFiles pid = .ok ⟨pid, text "sh", '?'.toUInt8, 0, 0⟩ := by
  have hlength : (decimalInt pid).length ≤ 20 :=
    length_decimalInt_le (by unfold LONG_MIN; omega) (hmax.trans (by decide))
  have hpath : ¬ (text "/proc/" ++ decimalInt pid ++ text "/status").length ≥ 64 := by
    have hfirst : (text "/proc/").length = 6 := rfl
    have hlast : (text "/status").length = 7 := rfl
    rw [List.length_append, List.length_append, hfirst, hlast]
    omega
  have hpiece : fgets 255 (text "Name:\tsh\n") = ⟨text "Name:\tsh\n", [], false⟩ := by decide +kernel
  have hlines : processStatusLines false (text "Name:\tsh\n") ⟨pid, [], '?'.toUInt8, 0, 0⟩ =
      ⟨pid, text "sh", '?'.toUInt8, 0, 0⟩ := by
    rw [processStatusLines, dif_neg (by decide), hpiece, if_neg (by decide), processStatusLines, dif_pos rfl]
    rfl
  unfold processMonitorGet
  rw [if_neg (by omega)]
  dsimp only
  rw [if_neg hpath]
  unfold namedFiles
  dsimp only
  rw [hlines]
  rfl

/-- The first doubling fails. -/
theorem process_count_kept : ¬ ∀ listing files heap,
    Prog.Total (proc listing heap) (CollectsAll listing files) (processMonitorCollect files) ProcState.start := by
  intro hall
  have hroom := (processMonitorCollect_total.decides (fun _ _ h => h) fun _ _ h => h).mp
    (hall (some crowdedListing) namedFiles fun n => n = 0)
  have hlength : (readable namedFiles crowdedListing.names).length = 65 := by
    have hall : ∀ name ∈ crowdedListing.names, (processEntry namedFiles name).isSome = true := by
      intro name hname
      obtain ⟨n, hn, rfl⟩ := List.mem_map.mp hname
      have hn := List.mem_range.mp hn
      have hmax : ((n + 1 : ℕ) : ℤ) ≤ INT_MAX := by
        unfold INT_MAX
        omega
      rw [processEntry_decimal, if_pos ⟨by omega, hmax⟩, namedFiles_get (by omega) hmax]
      rfl
    unfold readable
    rw [List.filterMap_length_eq_length.mpr hall]
    rfl
  have hgrows := hroom crowdedListing rfl rfl 0 (by rw [hlength]; decide)
  exact absurd hgrows (by decide)

end DeviceRuntime
