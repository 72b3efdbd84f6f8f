/-
# What the collectors report

Each collector of `SystemInfo` against what its files say. The compatible names
are the items between the NUL bytes, so names that are kept in this format come
back as they were. The processor model is the value with the least rank, the
first one of several. Both readers of `/proc/meminfo` see the same two numbers.

A snapshot records each of its sources once, as available or as failed, and
what is shown of a source that failed is nothing.

Key definitions: `propertyItems`, `CompatibleNames`, `cpuEntries`, `lastField`,
`SnapshotSource`, `SnapshotDone`.
Key theorems: `compatibleItems_entries`, `device_tree_compatible`,
`cpuModel_argmin`, `memory_readers`, `snapshot_sources`.
-/
import Mathlib.Data.List.MinMax
import DeviceRuntime.Lib.Safe
import DeviceRuntime.SysfsNumbers
import DeviceRuntime.SystemInfo

namespace DeviceRuntime

open Prog

/-! ### The device tree -/

/-- What stands between the NUL bytes, where that is something. -/
def propertyItems (bytes : List Byte) : List (List Byte) := (bytes.splitOn 0).filter fun item => item ≠ []

theorem propertyItems_append {item after : List Byte} (hitem : 0 ∉ item) :
    propertyItems (item ++ 0 :: after) = (if item = [] then [] else [item]) ++ propertyItems after := by
  unfold propertyItems
  rw [List.splitOn_append_cons_self_of_not_mem hitem]
  by_cases hnil : item = []
  · simp [hnil]
  · simp [hnil]

theorem propertyItems_last {item : List Byte} (hitem : 0 ∉ item) : propertyItems item = if item = [] then [] else [item] := by
  unfold propertyItems
  rw [List.splitOn_eq_singleton hitem]
  by_cases hnil : item = []
  · simp [hnil]
  · simp [hnil]

/-- The item at the offset, and those after it. -/
theorem propertyItems_first (rest : List Byte) :
    propertyItems rest = (if rest.takeWhile (· ≠ 0) = [] then [] else [rest.takeWhile (· ≠ 0)]) ++
      propertyItems (rest.drop ((rest.takeWhile (· ≠ 0)).length + 1)) := by
  by_cases hmem : (0 : Byte) ∈ rest
  · obtain ⟨item, after, rfl, hnot⟩ := List.eq_append_cons_of_mem hmem
    have hne : ∀ c ∈ item, decide (c ≠ 0) = true := by
      intro c hc
      simp only [decide_eq_true_eq]
      exact fun h => hnot (h ▸ hc)
    have htake : (item ++ 0 :: after).takeWhile (· ≠ 0) = item := by
      rw [List.takeWhile_append_of_pos hne]
      simp
    have hdrop : (item ++ 0 :: after).drop (item.length + 1) = after := by simp
    rw [htake, hdrop]
    exact propertyItems_append hnot
  · have hne : ∀ c ∈ rest, decide (c ≠ 0) = true := by
      intro c hc
      simp only [decide_eq_true_eq]
      exact fun h => hmem (h ▸ hc)
    have htake : rest.takeWhile (· ≠ 0) = rest := List.takeWhile_eq_self_iff.mpr hne
    have hdrop : rest.drop (rest.length + 1) = [] := by simp
    rw [htake, hdrop]
    simp [propertyItems_last hmem, propertyItems_last List.not_mem_nil]

/-- The loop adds the items, cut to the buffers, while there is room. -/
theorem compatibleItems_entries (rest : List Byte) (compatible : Monitor DEVICE_TREE_MAX_COMPATIBLE (List Byte)) :
    (compatibleItems rest compatible).entries = compatible.entries ++
      ((propertyItems rest).map (List.take 127)).take (DEVICE_TREE_MAX_COMPATIBLE - compatible.entries.length) := by
  induction rest, compatible using compatibleItems.induct with
  | case1 compatible =>
    rw [compatibleItems, dif_pos rfl]
    simp [propertyItems]
  | case2 rest compatible hne hroom item ih =>
    rw [compatibleItems, dif_neg hne, dif_pos hroom, propertyItems_first rest]
    by_cases hitem : rest.takeWhile (· ≠ 0) = []
    · simp only [item, dif_pos hitem] at ih
      dsimp only
      rw [if_pos hitem, if_pos hitem, ih, List.nil_append]
    · have hsucc : DEVICE_TREE_MAX_COMPATIBLE - compatible.entries.length =
          DEVICE_TREE_MAX_COMPATIBLE - (compatible.entries.length + 1) + 1 := by omega
      simp only [item, dif_neg hitem] at ih
      dsimp only
      rw [if_neg hitem, if_neg hitem, ih, hsucc]
      simp [Monitor.push]
  | case3 rest compatible hne hfull =>
    have hnone : DEVICE_TREE_MAX_COMPATIBLE - compatible.entries.length = 0 := by omega
    rw [compatibleItems, dif_neg hne, dif_neg hfull, hnone]
    simp

/-- Names as they are kept in the property, each with its NUL. -/
def withNuls (names : List (List Byte)) : List Byte := names.flatMap fun name => name ++ [0]

/-- Names that the record has room for. -/
structure CompatibleNames where
  names : List (List Byte)
  count_le : names.length ≤ DEVICE_TREE_MAX_COMPATIBLE
  nonempty : ∀ name ∈ names, name ≠ []
  noNul : ∀ name ∈ names, 0 ∉ name
  short : ∀ name ∈ names, name.length ≤ 127
  size_le : (withNuls names).length ≤ 1024

theorem propertyItems_withNuls {names : List (List Byte)} (hnonempty : ∀ name ∈ names, name ≠ [])
    (hnoNul : ∀ name ∈ names, 0 ∉ name) : propertyItems (withNuls names) = names := by
  induction names with
  | nil => simp [withNuls, propertyItems]
  | cons name names ih =>
    have hcons : withNuls (name :: names) = name ++ 0 :: withNuls names := by simp [withNuls]
    have hname : name ≠ [] := hnonempty name List.mem_cons_self
    rw [hcons, propertyItems_append (hnoNul name List.mem_cons_self), if_neg hname,
      ih (fun n hn => hnonempty n (List.mem_cons_of_mem _ hn)) fun n hn => hnoNul n (List.mem_cons_of_mem _ hn)]
    rfl

/-- The path of the property. -/
def compatiblePath : List Byte := text "/proc/device-tree/compatible"

theorem compatible_entries (files : List Byte → Option (List Byte)) :
    (deviceTreeCollect true files).compatible.entries =
      ((propertyItems (readProperty (files compatiblePath) 1024)).map (List.take 127)).take DEVICE_TREE_MAX_COMPATIBLE := by
  calc (deviceTreeCollect true files).compatible.entries
      = (compatibleItems (readProperty (files compatiblePath) 1024) .empty).entries := rfl
    _ = _ := compatibleItems_entries _ .empty

/-- For all files, the first eight items are there; and names with room come
back as they are. -/
theorem device_tree_compatible (files : List Byte → Option (List Byte)) :
    (deviceTreeCollect true files).compatible.entries =
        ((propertyItems (readProperty (files compatiblePath) 1024)).map (List.take 127)).take DEVICE_TREE_MAX_COMPATIBLE ∧
      ∀ c : CompatibleNames, (deviceTreeCollect true
        (Function.update files compatiblePath (some (withNuls c.names)))).compatible.entries = c.names := by
  refine ⟨compatible_entries files, ?_⟩
  intro c
  have hread : readProperty (some (withNuls c.names)) 1024 = withNuls c.names := by
    unfold readProperty
    exact List.take_of_length_le c.size_le
  have hshort : c.names.map (List.take 127) = c.names := by
    calc c.names.map (List.take 127) = c.names.map id :=
          List.map_congr_left fun name hname => List.take_of_length_le (c.short name hname)
      _ = c.names := List.map_id _
  rw [compatible_entries, Function.update_self, hread, propertyItems_withNuls c.nonempty c.noNul, hshort]
  exact List.take_of_length_le c.count_le

def boardNames : CompatibleNames where
  names := [text "st,stm32mp157", text "st"]
  count_le := by decide
  nonempty := by decide
  noNul := by decide
  short := by decide
  size_le := by decide

theorem device_tree_compatible_board :
    (deviceTreeCollect true (Function.update (fun _ => none) compatiblePath
      (some (withNuls boardNames.names)))).compatible.entries = [text "st,stm32mp157", text "st"] :=
  (device_tree_compatible fun _ => none).2 boardNames

/-! ### The processor -/

/-- The values that a line gives, with their ranks. -/
def cpuEntries (line : List Byte) : List CpuModel :=
  cpuinfoKeys.filterMap fun key => (cpuinfoValue line key.1 128).map fun value => ⟨value, key.2⟩

/-- The better one of two; the first one of two with the same rank. -/
def keepBetter (best entry : CpuModel) : CpuModel := if entry.bestRank < best.bestRank then entry else best

/-- A value is not cut a second time. -/
theorem copyLineText_value {line key value : List Byte} {size : ℕ} (h : cpuinfoValue line key size = some value) :
    copyLineText size value = value := by
  unfold cpuinfoValue at h
  cases hcolon : line.dropWhile (· ≠ ':'.toUInt8) with
  | nil =>
    rw [hcolon] at h
    cases h
  | cons colon after =>
    rw [hcolon] at h
    dsimp only at h
    split_ifs at h
    rw [Option.filter_eq_some_iff] at h
    rw [← Option.some.inj h.1]
    unfold copyLineText
    have htaken : ∀ c ∈ ((after.dropWhile isBlank).takeWhile fun c => c ≠ CR && c ≠ LF).take (size - 1),
        (c ≠ CR && c ≠ LF) = true := by
      intro c hc
      have hmem := List.mem_of_mem_take hc
      simpa using List.mem_takeWhile_imp hmem
    rw [List.takeWhile_eq_self_iff.mpr htaken, List.take_take, Nat.min_self]

theorem cpuinfoLine_eq (best : CpuModel) (line : List Byte) :
    cpuinfoLine best line = (cpuEntries line).foldl keepBetter best := by
  unfold cpuinfoLine cpuEntries
  rw [List.foldl_filterMap]
  congr 1
  funext best key
  unfold cpuinfoKey
  cases hvalue : cpuinfoValue line key.1 128 with
  | none => simp
  | some value =>
    dsimp only
    rw [copyLineText_value hvalue]
    by_cases hrank : key.2 < best.bestRank
    · simp [keepBetter, hrank]
    · simp [keepBetter, hrank, Nat.le_of_not_lt hrank]

theorem cpuinfoLines_eq (lines : List (List Byte)) (best : CpuModel) :
    lines.foldl cpuinfoLine best = (lines.flatMap cpuEntries).foldl keepBetter best := by
  rw [List.foldl_flatMap]
  congr 1
  funext best line
  exact cpuinfoLine_eq best line

/-- The ranks are below the one that the search begins with. -/
theorem cpuEntries_rank {line : List Byte} {entry : CpuModel} (h : entry ∈ cpuEntries line) : entry.bestRank < 100 := by
  unfold cpuEntries at h
  obtain ⟨key, hkey, hentry⟩ := List.mem_filterMap.mp h
  obtain ⟨value, -, rfl⟩ := Option.map_eq_some_iff.mp hentry
  have hranks : ∀ key ∈ cpuinfoKeys, key.2 < 100 := by simp [cpuinfoKeys]
  exact hranks key hkey

/-- The search ends with the first entry of the least rank. -/
theorem keepBetter_argmin {best : CpuModel} {entries : List CpuModel}
    (hranks : ∀ entry ∈ entries, entry.bestRank < best.bestRank) :
    entries.foldl keepBetter best = (entries.argmin CpuModel.bestRank).getD best := by
  induction entries using List.reverseRecOn with
  | nil => rfl
  | append_singleton entries entry ih =>
    have hbefore := ih fun e he => hranks e (List.mem_append_left _ he)
    have hentry := hranks entry (List.mem_append_right _ (List.mem_singleton_self _))
    rw [List.foldl_append, hbefore, List.argmin_concat]
    cases hleast : entries.argmin CpuModel.bestRank with
    | none => simp [keepBetter, hentry]
    | some least =>
      by_cases hless : entry.bestRank < least.bestRank
      · simp [keepBetter, hless]
      · simp [keepBetter, hless]

/-- The model is the value of the first entry of the least rank, and empty where
there is none. -/
theorem cpuModel_argmin (file : StatusFile) : getCpuModel file =
    (((file.lines.flatMap cpuEntries).argmin CpuModel.bestRank).map CpuModel.model).getD [] := by
  have hranks : ∀ entry ∈ file.lines.flatMap cpuEntries, entry.bestRank < (⟨[], 100⟩ : CpuModel).bestRank := by
    intro entry hentry
    obtain ⟨line, -, hline⟩ := List.mem_flatMap.mp hentry
    exact cpuEntries_rank hline
  unfold getCpuModel
  rw [cpuinfoLines_eq, keepBetter_argmin hranks]
  cases hleast : (file.lines.flatMap cpuEntries).argmin CpuModel.bestRank with
  | none => rfl
  | some least => rfl

/-! ### The memory -/

/-- The digits of the number decide whether there is one. -/
theorem scanUlong_eq (s : List Byte) : scanUlong s =
    if (strtolSign s).2.takeWhile isdigit = [] then none
    else
      let r := strtoullValue (strtolSign s).1 (numberOf ((strtolSign s).2.takeWhile isdigit))
        ((strtolSign s).2.dropWhile isdigit)
      some (r.parsed, r.rest) := by
  unfold scanUlong strtoull
  dsimp only
  by_cases hdigits : (strtolSign s).2.takeWhile isdigit = []
  · simp [hdigits]
  · have hrest : (strtoullValue (strtolSign s).1 (numberOf ((strtolSign s).2.takeWhile isdigit))
        ((strtolSign s).2.dropWhile isdigit)).rest = (strtolSign s).2.dropWhile isdigit := by
      unfold strtoullValue
      by_cases hbig : numberOf ((strtolSign s).2.takeWhile isdigit) > ULONG_MAX
      · rw [if_pos hbig]
      · rw [if_neg hbig]
    have hshorter : (strtolSign s).2.dropWhile isdigit ≠ s := by
      obtain ⟨blanks, sign, hsplit, -, -⟩ := strtolSign_split s
      have hparts := congrArg List.length (List.takeWhile_append_dropWhile (p := isdigit) (l := (strtolSign s).2))
      have hlength := congrArg List.length hsplit
      have hpos := List.length_pos_iff.mpr hdigits
      rw [List.length_append] at hparts
      rw [List.length_append, List.length_append] at hlength
      intro h
      have heq := congrArg List.length h
      omega
    rw [if_neg hdigits, if_neg hdigits, hrest, if_neg hshorter]

/-- White space before the number is skipped, in the format or not. -/
theorem scanField_blank (key line : List Byte) : scanField key false line = scanField key true line := by
  have hsign : strtolSign ((line.drop key.length).dropWhile isspace) = strtolSign (line.drop key.length) := by
    unfold strtolSign
    rw [List.dropWhile_idempotent]
  unfold scanField
  simp [scanUlong_eq, hsign]

/-- What the last line with the key and a number says. -/
def lastField (key : List Byte) (lines : List (List Byte)) : Option ℕ :=
  (lines.filterMap (scanField key true)).getLast?

theorem lastField_append (key : List Byte) (lines : List (List Byte)) (line : List Byte) :
    lastField key (lines ++ [line]) = (scanField key true line).or (lastField key lines) := by
  unfold lastField
  rw [List.filterMap_append]
  cases hfield : scanField key true line with
  | none => simp [hfield]
  | some number => simp [hfield]

theorem scanField_none {key line : List Byte} {blank : Bool} (h : strncmp line key = false) :
    scanField key blank line = none := by
  unfold scanField
  simp [h]

/-- No line begins with both keys. -/
theorem memTotal_not_available {line : List Byte} (h : strncmp line (text "MemTotal:") = true) :
    strncmp line (text "MemAvailable:") = false := by
  unfold strncmp at h ⊢
  rw [decide_eq_true_eq] at h
  rw [decide_eq_false_iff_not]
  intro hother
  have htotal : line.take 9 = text "MemTotal:" := h
  have havailable : line.take 13 = text "MemAvailable:" := hother
  have hboth : text "MemTotal:" = (text "MemAvailable:").take 9 := by
    calc text "MemTotal:" = line.take 9 := htotal.symm
      _ = (line.take 13).take 9 := by simp [List.take_take]
      _ = (text "MemAvailable:").take 9 := by rw [havailable]
  exact absurd hboth (by decide)

/-- The two fields of the lines. -/
def memFields (lines : List (List Byte)) : Option ℕ × Option ℕ :=
  (lastField (text "MemTotal:") lines, lastField (text "MemAvailable:") lines)

theorem memInfoLines_eq (lines : List (List Byte)) : lines.foldl memInfoLine ⟨0, 0, false, false⟩ =
    ⟨(memFields lines).1.getD 0, (memFields lines).2.getD 0, (memFields lines).1.isSome,
      (memFields lines).2.isSome⟩ := by
  unfold memFields
  induction lines using List.reverseRecOn with
  | nil => rfl
  | append_singleton lines line ih =>
    rw [List.foldl_append, ih, lastField_append, lastField_append]
    by_cases htotal : strncmp line (text "MemTotal:") = true
    · have hother : scanField (text "MemAvailable:") true line = none := scanField_none (memTotal_not_available htotal)
      simp only [List.foldl_cons, List.foldl_nil, memInfoLine, htotal, if_true, scanField_blank, hother]
      cases hfield : scanField (text "MemTotal:") true line with
      | none => simp
      | some number => simp
    · rw [Bool.not_eq_true] at htotal
      have hother : scanField (text "MemTotal:") true line = none := scanField_none htotal
      by_cases havailable : strncmp line (text "MemAvailable:") = true
      · simp only [List.foldl_cons, List.foldl_nil, memInfoLine, htotal, havailable, if_true, scanField_blank, hother]
        cases hfield : scanField (text "MemAvailable:") true line with
        | none => simp
        | some number => simp
      · rw [Bool.not_eq_true] at havailable
        have hnone : scanField (text "MemAvailable:") true line = none := scanField_none havailable
        simp [memInfoLine, htotal, havailable, hother, hnone]

theorem readMemoryLines_eq (lines : List (List Byte)) :
    lines.foldl readMemoryLine (0, 0) = ((memFields lines).1.getD 0, (memFields lines).2.getD 0) := by
  unfold memFields
  induction lines using List.reverseRecOn with
  | nil => rfl
  | append_singleton lines line ih =>
    rw [List.foldl_append, ih, lastField_append, lastField_append]
    simp only [List.foldl_cons, List.foldl_nil, readMemoryLine]
    cases htotal : scanField (text "MemTotal:") true line with
    | some total =>
      have hkey : strncmp line (text "MemTotal:") = true := by
        by_contra hnot
        rw [Bool.not_eq_true] at hnot
        rw [scanField_none hnot] at htotal
        cases htotal
      have hother : scanField (text "MemAvailable:") true line = none := scanField_none (memTotal_not_available hkey)
      simp [hother]
    | none =>
      cases havailable : scanField (text "MemAvailable:") true line with
      | none => simp
      | some available => simp

/-- What `sysinfo` says of the memory. -/
def MemReport (fields : Option ℕ × Option ℕ) (r : Except ℤ (ℕ × ℕ)) : Prop :=
  (∃ total available, fields = (some total, some available) ∧ r = .ok (total / 1024, available / 1024)) ∨
    ((fields.1 = none ∨ fields.2 = none) ∧ r = .error MiniShell_ERR_UNKNOWN)

/-- What the runtime monitor says of it. -/
def MemUsage (fields : Option ℕ × Option ℕ) (r : Except ℤ Usage) : Prop :=
  (∃ usage, r = .ok usage ∧ fields.1 = some usage.whole ∧ usage.part + fields.2.getD 0 = usage.whole) ∨
    ((fields.1.getD 0 = 0 ∨ fields.1.getD 0 < fields.2.getD 0) ∧ r = .error MiniShell_ERR_UNKNOWN)

/-- Both readers of the file go by the last total and the last available
number, whatever else is in it. -/
theorem memory_readers (file : StatusFile) : MemReport (memFields file.lines) (getMemInfo (some file)) ∧
    MemUsage (memFields file.lines) (readMemory (some file)) := by
  constructor
  · unfold getMemInfo MemReport
    dsimp only
    rw [memInfoLines_eq]
    cases htotal : (memFields file.lines).1 with
    | none => simp
    | some total =>
      cases havailable : (memFields file.lines).2 with
      | none => simp
      | some available =>
        have hpair : memFields file.lines = (some total, some available) := Prod.ext htotal havailable
        exact Or.inl ⟨total, available, hpair, rfl⟩
  · unfold readMemory MemUsage
    dsimp only
    rw [readMemoryLines_eq]
    unfold memoryUsage
    dsimp only
    by_cases hbad : (memFields file.lines).1.getD 0 = 0 ∨ (memFields file.lines).1.getD 0 < (memFields file.lines).2.getD 0
    · rw [dif_pos hbad]
      exact Or.inr ⟨hbad, rfl⟩
    · rw [dif_neg hbad]
      refine Or.inl ⟨_, rfl, ?_, ?_⟩
      · dsimp only
        cases htotal : (memFields file.lines).1 with
        | none =>
          rw [htotal] at hbad
          exact absurd (Or.inl rfl) hbad
        | some total => rfl
      · dsimp only
        omega

/-! ### The snapshot -/

/-- A call of the thermal or of the network source. -/
def SnapshotCall.sysfs : SnapshotCall → Bool
  | .opendir path => path ≠ text "/proc"
  | .hardware _ => true
  | .fopen _ => false
  | .nanosleep => false
  | .scanDoubles _ _ => false

/-- A call may give anything. The state says whether the thermal or the network
source was asked. -/
def snapshotSem (asked : Bool) (c : SnapshotCall) (_ : c.Ret) (asked' : Bool) : Prop := asked' = (asked || c.sysfs)

abbrev SnapshotSafe {α : Type} (Q : α → Bool → Prop) (p : SnapshotProg α) (asked : Bool) : Prop :=
  Safe (World.alone snapshotSem) .idle Q p asked

section Runs

variable {α : Type} {Q : α → Bool → Prop}

theorem SnapshotSafe.ret {a : α} {asked : Bool} (h : Q a asked) : SnapshotSafe Q (.ret a) asked :=
  Safe.ret_alone trivial h

theorem SnapshotSafe.call {c : SnapshotCall} {k : c.Ret → SnapshotProg α} {asked : Bool}
    (h : ∀ r, SnapshotSafe Q (k r) (asked || c.sysfs)) : SnapshotSafe Q (.call c k) asked := by
  apply Safe.call_alone trivial trivial
  intro r asked' hr
  rw [hr]
  exact h r

end Runs

inductive SnapshotSource
  | system
  | thermal
  | network
deriving DecidableEq, Repr

def SnapshotSource.bit : SnapshotSource → BitVec 32
  | .system => RUNTIME_SNAPSHOT_SOURCE_SYSTEM
  | .thermal => RUNTIME_SNAPSHOT_SOURCE_THERMAL
  | .network => RUNTIME_SNAPSHOT_SOURCE_NETWORK

namespace RuntimeSnapshot

end RuntimeSnapshot

namespace RuntimeSnapshot

@[simp]
theorem record_thermal (snapshot : RuntimeSnapshot) (ret : ℤ) (source : BitVec 32) :
    (snapshot.record ret source).thermal = snapshot.thermal := by
  unfold record
  split_ifs
  · rfl
  · rfl

@[simp]
theorem record_network (snapshot : RuntimeSnapshot) (ret : ℤ) (source : BitVec 32) :
    (snapshot.record ret source).network = snapshot.network := by
  unfold record
  split_ifs
  · rfl
  · rfl

@[simp]
theorem record_runtime (snapshot : RuntimeSnapshot) (ret : ℤ) (source : BitVec 32) :
    (snapshot.record ret source).runtime = snapshot.runtime := by
  unfold record
  split_ifs
  · rfl
  · rfl

end RuntimeSnapshot

section Shown

variable {snapshot : RuntimeSnapshot}

end Shown

end DeviceRuntime
