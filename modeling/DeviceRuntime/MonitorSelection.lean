/-
# What the monitors select

The monitors keep the first entries of the directory for which there is room.
Of these, the primary interface is the first by name that is up and not `lo`,
and the temperature of the hottest zone is the greatest that can be read. So
the order of the directory makes a difference only where it has more entries
than there is room for.

Key definitions: `networkResult`, `thermalResult`, `Up`, `PrimaryName`,
`zoneTemperature`, `HottestTemperature`, `SelectsName`, `SelectsTemperature`.
Key theorems: `monitorCollectFrom_total`, `primary_name`,
`hottest_temperature`, `monitor_selection`, `crowded_selection`.
-/
import Mathlib.Order.Bounds.Basic
import DeviceRuntime.Monitor
import DeviceRuntime.SysfsFiles

namespace DeviceRuntime

open Selection

/-! ### The collectors -/

section Collect

variable {tree : List Byte → SysfsFile} {capacity : ℕ} {Info : Type} {wanted : List Byte → Bool}
  {collect : List Byte → HardwareProg Info} {info : List Byte → Info} {name : Info → List Byte}

/-- The entries for which there is room. -/
def kept (wanted : List Byte → Bool) (capacity : ℕ) (dir : List (List Byte)) : List (List Byte) :=
  (dir.filter wanted).take capacity

theorem kept_all {dir : List (List Byte)} (hroom : (dir.filter wanted).length ≤ capacity) :
    kept wanted capacity dir = dir.filter wanted := List.take_of_length_le hroom

/-- The records of the entries that are kept, by name. -/
def collected (wanted : List Byte → Bool) (capacity : ℕ) (info : List Byte → Info) (name : Info → List Byte)
    (dir : List (List Byte)) : Monitor capacity Info where
  entries := sortBy name ((kept wanted capacity dir).map info)
  count_le := by
    rw [sortBy_perm.length_eq, List.length_map]
    exact List.length_take_le _ _

theorem qsort_entries (monitor : Monitor capacity Info) :
    (monitor.qsort name).entries = sortBy name monitor.entries := by
  unfold Monitor.qsort
  split_ifs with hmany
  · rfl
  · match h : monitor.entries with
    | [] => rfl
    | [info] => rfl
    | first :: second :: rest =>
      rw [h] at hmany
      simp at hmany

theorem monitor_ext {m m' : Monitor capacity Info} (h : m.entries = m'.entries) : m = m' := by
  cases m
  cases m'
  cases h
  rfl

theorem monitorCollect_total
    (hcollect : ∀ entry w, w.current = none → Prog.Total (files tree) (HasRead (info entry)) (collect entry) w) :
    ∀ (dir : List (List Byte)) (monitor : Monitor capacity Info) {w : FilesState}, w.current = none →
    Prog.Total (files tree) (fun m w' => m.entries = monitor.entries ++
        (kept wanted (capacity - monitor.entries.length) dir).map info ∧ w'.current = none)
      (monitorCollect wanted collect dir monitor) w := by
  intro dir
  induction dir with
  | nil =>
    intro monitor w hw
    apply Prog.Total.ret
    exact ⟨by simp [kept], hw⟩
  | cons entry dir ih =>
    intro monitor w hw
    unfold monitorCollect
    cases hwanted : wanted entry with
    | false =>
      have hkept : kept wanted (capacity - monitor.entries.length) (entry :: dir) =
          kept wanted (capacity - monitor.entries.length) dir := by
        unfold kept
        rw [List.filter_cons_of_neg (by rw [hwanted]; decide)]
      rw [hkept]
      exact ih monitor hw
    | true =>
      rw [if_neg (by decide)]
      by_cases hroom : monitor.entries.length < capacity
      · rw [dif_pos hroom]
        have hkept : kept wanted (capacity - monitor.entries.length) (entry :: dir) =
            entry :: kept wanted (capacity - (monitor.push (info entry) hroom).entries.length) dir := by
          have hlen : (monitor.push (info entry) hroom).entries.length = monitor.entries.length + 1 :=
            List.length_append
          have hmore : capacity - monitor.entries.length = capacity - (monitor.entries.length + 1) + 1 := by omega
          unfold kept
          rw [List.filter_cons_of_pos hwanted, hlen, hmore, List.take_succ_cons]
        apply (hcollect entry w hw).bind
        intro r w' ⟨hr, hw'⟩
        rw [hr]
        apply (ih (monitor.push (info entry) hroom) hw').mono
        intro m w'' ⟨hm, hw''⟩
        refine ⟨?_, hw''⟩
        rw [hm, hkept, List.map_cons]
        exact List.append_assoc _ _ _
      · rw [dif_neg hroom]
        apply Prog.Total.ret
        have hnone : capacity - monitor.entries.length = 0 := by omega
        rw [hnone]
        exact ⟨by simp [kept], hw⟩

theorem monitorCollectFrom_total
    (hcollect : ∀ entry w, w.current = none → Prog.Total (files tree) (HasRead (info entry)) (collect entry) w)
    {base : List Byte} (hbase : base ≠ []) (monitor : Monitor capacity Info) (dir : List (List Byte))
    {w : FilesState} (hw : w.current = none) :
    Prog.Total (files tree) (HasRead (MiniShell_OK, collected wanted capacity info name dir))
      (monitorCollectFrom wanted collect name monitor (some dir) base) w := by
  unfold monitorCollectFrom
  rw [if_neg hbase]
  apply (monitorCollect_total hcollect dir .empty hw).bind
  intro m w' ⟨hm, hw'⟩
  apply Prog.Total.ret
  refine ⟨?_, hw'⟩
  have hentries : (m.qsort name).entries = (collected wanted capacity info name dir).entries := by
    rw [qsort_entries, hm]
    rfl
  rw [monitor_ext hentries]

theorem readPath_total {α : Type} {path : Option (List Byte)} {missing : α} {read : List Byte → HardwareProg α}
    {found : List Byte → α} {w : FilesState} (hw : w.current = none)
    (hread : ∀ path, Prog.Total (files tree) (HasRead (found path)) (read path) w) :
    Prog.Total (files tree) (HasRead ((path.map found).getD missing)) (readPath path missing read) w := by
  cases path with
  | none => exact Prog.Total.ret ⟨rfl, hw⟩
  | some path => exact hread path

end Collect

/-! ### The files of an entry -/

section Entry

variable {tree : List Byte → SysfsFile} {base entry : List Byte}

/-- What is read of the file of an entry, by a path for which there is room. -/
def entryFile {α : Type} (tree : List Byte → SysfsFile) (base entry file : List Byte) (missing : α)
    (read : SysfsFile → α) : α := ((buildPath base entry file).map fun path => read (tree path)).getD missing

/-- The state of an interface. -/
def operstate (tree : List Byte → SysfsFile) (base entry : List Byte) : List Byte :=
  entryFile tree base entry (text "operstate") [] (SysfsFile.cleared 32)

def counter (tree : List Byte → SysfsFile) (base entry file : List Byte) : Except ℕ ℕ :=
  entryFile tree base entry file (.error 0) SysfsFile.ull

def networkRecord (tree : List Byte → SysfsFile) (base entry : List Byte) : NetworkRuntimeInfo :=
  networkInfo entry (operstate tree base entry) (counter tree base entry (text "statistics/rx_bytes"))
    (counter tree base entry (text "statistics/tx_bytes"))

def temperature (tree : List Byte → SysfsFile) (base entry : List Byte) : Except ℕ ℤ :=
  entryFile tree base entry (text "temp") (.error 0) SysfsFile.long

def thermalRecord (tree : List Byte → SysfsFile) (base entry : List Byte) : ThermalRuntimeInfo :=
  thermalInfo entry (entryFile tree base entry (text "type") [] (SysfsFile.cleared 64)) (temperature tree base entry)

theorem networkCollect_total (w : FilesState) (hw : w.current = none) :
    Prog.Total (files tree) (HasRead (networkRecord tree base entry)) (networkCollect base entry) w := by
  unfold networkCollect
  apply (readPath_total hw fun path => sysfsReadCleared_total (by decide) hw).bind
  intro state w hstate
  apply (readPath_total hstate.2 fun path => sysfsReadUll_total hstate.2).bind
  intro rx w hrx
  apply (readPath_total hrx.2 fun path => sysfsReadUll_total hrx.2).bind
  intro tx w htx
  apply Prog.Total.ret
  refine ⟨?_, htx.2⟩
  rw [hstate.1, hrx.1, htx.1]
  rfl

theorem thermalCollect_total (w : FilesState) (hw : w.current = none) :
    Prog.Total (files tree) (HasRead (thermalRecord tree base entry)) (thermalCollect base entry) w := by
  unfold thermalCollect
  apply (readPath_total hw fun path => sysfsReadCleared_total (by decide) hw).bind
  intro type w htype
  apply (readPath_total htype.2 fun path => sysfsReadLong_total htype.2).bind
  intro temperature w htemperature
  apply Prog.Total.ret
  refine ⟨?_, htemperature.2⟩
  rw [htype.1, htemperature.1]
  rfl

end Entry

/-! ### The primary interface -/

/-- The least of the names with a property. -/
def LeastName (S : List Byte → Prop) (name : List Byte) : Prop := S name ∧ ∀ other, S other → name ≤ other

/-- The rule: an interface that is up and not `lo`, else one that is not `lo`,
else any; of several, the one with the least name. -/
inductive PrimaryName (up : List Byte → Prop) (names : List (List Byte)) : Option (List Byte) → Prop
  | up {name : List Byte} (h : LeastName (fun n => n ∈ names ∧ n ≠ text "lo" ∧ up n) name) :
      PrimaryName up names (some name)
  | down {name : List Byte} (hnone : ∀ n ∈ names, n ≠ text "lo" → ¬ up n)
      (h : LeastName (fun n => n ∈ names ∧ n ≠ text "lo") name) : PrimaryName up names (some name)
  | lo {name : List Byte} (hnone : ∀ n ∈ names, n = text "lo") (h : LeastName (· ∈ names) name) :
      PrimaryName up names (some name)
  | none (hnone : names = []) : PrimaryName up names .none

section Primary

variable {tree : List Byte → SysfsFile} {base : List Byte}

def Up (tree : List Byte → SysfsFile) (base entry : List Byte) : Prop := operstate tree base entry = text "up"

abbrev networkResult (tree : List Byte → SysfsFile) (base : List Byte) (dir : List (List Byte)) : NetworkMonitor :=
  collected isInterface NETWORK_MONITOR_MAX_INTERFACES (networkRecord tree base) NetworkRuntimeInfo.name dir

theorem networkRecord_name {entry : List Byte} (hshort : entry.length ≤ 15) :
    (networkRecord tree base entry).name = entry := List.take_of_length_le (by omega)

variable {names : List (List Byte)}

/-- The first record with a property, by name. -/
theorem find?_record {p : NetworkRuntimeInfo → Bool} {info : NetworkRuntimeInfo}
    (hshort : ∀ n ∈ names, n.length ≤ 15)
    (h : (sortBy NetworkRuntimeInfo.name (names.map (networkRecord tree base))).find? p = some info) :
    LeastName (fun n => n ∈ names ∧ p (networkRecord tree base n) = true) info.name := by
  obtain ⟨hmem, hp, hle⟩ := find?_sortBy h
  obtain ⟨n, hn, rfl⟩ := List.mem_map.mp hmem
  rw [networkRecord_name (hshort n hn)] at hle ⊢
  refine ⟨⟨hn, hp⟩, ?_⟩
  intro other ⟨hother, hpother⟩
  have h := hle _ (List.mem_map_of_mem hother) hpother
  rwa [networkRecord_name (hshort other hother)] at h

theorem find?_record_none {p : NetworkRuntimeInfo → Bool}
    (h : (sortBy NetworkRuntimeInfo.name (names.map (networkRecord tree base))).find? p = none) :
    ∀ n ∈ names, ¬ p (networkRecord tree base n) = true := by
  intro n hn
  exact find?_sortBy_eq_none.mp h _ (List.mem_map_of_mem hn)

/-- The selection follows the rule. -/
theorem primary_name {monitor : NetworkMonitor} (hshort : ∀ n ∈ names, n.length ≤ 15)
    (hentries : monitor.entries = sortBy NetworkRuntimeInfo.name (names.map (networkRecord tree base))) :
    PrimaryName (Up tree base) names ((networkMonitorPrimary monitor).map NetworkRuntimeInfo.name) := by
  unfold networkMonitorPrimary
  rw [hentries]
  have hup : ∀ n ∈ names, ((networkRecord tree base n).name ≠ text "lo" &&
      (networkRecord tree base n).state = text "up") = true ↔ n ≠ text "lo" ∧ Up tree base n := by
    intro n hn
    rw [networkRecord_name (hshort n hn), Bool.and_eq_true, decide_eq_true_iff, decide_eq_true_iff]
    exact Iff.rfl
  have hother : ∀ n ∈ names, decide ((networkRecord tree base n).name ≠ text "lo") = true ↔ n ≠ text "lo" := by
    intro n hn
    rw [networkRecord_name (hshort n hn), decide_eq_true_iff]
  split
  · rename_i info hfind
    obtain ⟨⟨hmem, hp⟩, hle⟩ := find?_record hshort hfind
    apply PrimaryName.up
    refine ⟨⟨hmem, (hup _ hmem).mp hp⟩, ?_⟩
    intro n ⟨hn, hnup⟩
    exact hle n ⟨hn, (hup n hn).mpr hnup⟩
  · rename_i hnone
    have hdown : ∀ n ∈ names, n ≠ text "lo" → ¬ Up tree base n := fun n hn hlo hnup =>
      find?_record_none hnone n hn ((hup n hn).mpr ⟨hlo, hnup⟩)
    split
    · rename_i info hfind
      obtain ⟨⟨hmem, hp⟩, hle⟩ := find?_record hshort hfind
      apply PrimaryName.down hdown
      refine ⟨⟨hmem, (hother _ hmem).mp hp⟩, ?_⟩
      intro n ⟨hn, hlo⟩
      exact hle n ⟨hn, (hother n hn).mpr hlo⟩
    · rename_i hnone
      have hlo : ∀ n ∈ names, n = text "lo" := by
        intro n hn
        by_contra hne
        exact find?_record_none hnone n hn ((hother n hn).mpr hne)
      cases hfind : (sortBy NetworkRuntimeInfo.name (names.map (networkRecord tree base))).find? fun _ => true with
      | some info =>
        have hhead : (sortBy NetworkRuntimeInfo.name (names.map (networkRecord tree base))).head? = some info := by
          rw [← hfind]
          cases sortBy NetworkRuntimeInfo.name (names.map (networkRecord tree base)) with
          | nil => rfl
          | cons _ _ => rfl
        obtain ⟨⟨hmem, _⟩, hle⟩ := find?_record hshort hfind
        rw [hhead]
        apply PrimaryName.lo hlo
        exact ⟨hmem, fun n hn => hle n ⟨hn, rfl⟩⟩
      | none =>
        have hempty : names = [] := by
          apply List.eq_nil_iff_forall_not_mem.mpr
          intro n hn
          exact find?_record_none hfind n hn rfl
        rw [hempty]
        exact PrimaryName.none rfl

end Primary

/-! ### The hottest zone -/

/-- The temperature of a zone, if it can be read. -/
def zoneTemperature (tree : List Byte → SysfsFile) (base entry : List Byte) : Option ℚ :=
  (temperature tree base entry).toOption.map fun value => (value : ℚ) / 1000

/-- The rule: the greatest temperature that can be read. -/
def HottestTemperature (temperature : List Byte → Option ℚ) (names : List (List Byte)) : Option ℚ → Prop
  | none => ∀ n ∈ names, temperature n = none
  | some t => IsGreatest {t | ∃ n ∈ names, temperature n = some t} t

section Hottest

variable {tree : List Byte → SysfsFile} {base : List Byte} {names : List (List Byte)}

abbrev thermalResult (tree : List Byte → SysfsFile) (base : List Byte) (dir : List (List Byte)) : ThermalMonitor :=
  collected isThermalZone THERMAL_MONITOR_MAX_ZONES (thermalRecord tree base) ThermalRuntimeInfo.name dir

theorem zoneTemperature_some {n : List Byte} {t : ℚ} : zoneTemperature tree base n = some t ↔
    (thermalRecord tree base n).hasTemperature = true ∧ (thermalRecord tree base n).temperature = t := by
  unfold zoneTemperature thermalRecord thermalInfo
  cases temperature tree base n with
  | error errno => simp [Except.toOption]
  | ok value => simp [Except.toOption]

theorem zoneTemperature_none {n : List Byte} :
    zoneTemperature tree base n = none ↔ (thermalRecord tree base n).hasTemperature = false := by
  unfold zoneTemperature thermalRecord thermalInfo
  cases temperature tree base n with
  | error errno => simp [Except.toOption]
  | ok value => simp [Except.toOption]

theorem hottest_temperature {monitor : ThermalMonitor}
    (hentries : monitor.entries = sortBy ThermalRuntimeInfo.name (names.map (thermalRecord tree base))) :
    HottestTemperature (zoneTemperature tree base) names
      ((thermalMonitorHottest monitor).map ThermalRuntimeInfo.temperature) := by
  unfold thermalMonitorHottest
  rw [hentries]
  cases hgreatest : greatest ThermalRuntimeInfo.hasTemperature ThermalRuntimeInfo.temperature
      (sortBy ThermalRuntimeInfo.name (names.map (thermalRecord tree base))) with
  | none =>
    intro n hn
    rw [zoneTemperature_none]
    exact greatest_eq_none.mp hgreatest _ (mem_sortBy.mpr (List.mem_map_of_mem hn))
  | some best =>
    obtain ⟨hmem, hhas, hle⟩ := le_greatest hgreatest
    obtain ⟨n, hn, rfl⟩ := List.mem_map.mp (mem_sortBy.mp hmem)
    refine ⟨⟨n, hn, zoneTemperature_some.mpr ⟨hhas, rfl⟩⟩, ?_⟩
    intro t ⟨m, hm, ht⟩
    obtain ⟨hmhas, rfl⟩ := zoneTemperature_some.mp ht
    exact hle _ (mem_sortBy.mpr (List.mem_map_of_mem hm)) hmhas

/-- There is one greatest temperature. -/
theorem hottestTemperature_unique {temperature : List Byte → Option ℚ} {names' : List (List Byte)} {t t' : Option ℚ}
    (hperm : names'.Perm names) (h : HottestTemperature temperature names t)
    (h' : HottestTemperature temperature names' t') : t' = t := by
  have hset : {t | ∃ n ∈ names', temperature n = some t} = {t | ∃ n ∈ names, temperature n = some t} := by
    ext t
    simp [hperm.mem_iff]
  cases t with
  | none =>
    cases t' with
    | none => rfl
    | some t' =>
      obtain ⟨⟨n, hn, ht⟩, _⟩ := h'
      rw [h n (hperm.mem_iff.mp hn)] at ht
      cases ht
  | some t =>
    cases t' with
    | none =>
      obtain ⟨⟨n, hn, ht⟩, _⟩ := h
      rw [h' n (hperm.mem_iff.mpr hn)] at ht
      cases ht
    | some t' =>
      have h' : IsGreatest {t | ∃ n ∈ names', temperature n = some t} t' := h'
      rw [hset] at h'
      rw [h'.unique h]

end Hottest

/-! ### The selection -/

section Selects

variable {tree : List Byte → SysfsFile} {base : List Byte}

/-- Collecting from the directory in this order and selecting gives `chosen` in
every run. -/
def SelectsName (tree : List Byte → SysfsFile) (base : List Byte) (dir : List (List Byte))
    (chosen : Option (List Byte)) : Prop :=
  ∀ (monitor : NetworkMonitor) (w : FilesState), w.current = none →
    Prog.Total (files tree) (fun r _ => r.1 = MiniShell_OK ∧
        (networkMonitorPrimary r.2).map NetworkRuntimeInfo.name = chosen)
      (networkMonitorCollectFrom monitor (some dir) base) w

def SelectsTemperature (tree : List Byte → SysfsFile) (base : List Byte) (dir : List (List Byte))
    (chosen : Option ℚ) : Prop :=
  ∀ (monitor : ThermalMonitor) (w : FilesState), w.current = none →
    Prog.Total (files tree) (fun r _ => r.1 = MiniShell_OK ∧
        (thermalMonitorHottest r.2).map ThermalRuntimeInfo.temperature = chosen)
      (thermalMonitorCollectFrom monitor (some dir) base) w

theorem selectsName_result (hbase : base ≠ []) (dir : List (List Byte)) :
    SelectsName tree base dir
      ((networkMonitorPrimary (networkResult tree base dir)).map NetworkRuntimeInfo.name) := by
  intro monitor w hw
  apply (monitorCollectFrom_total (fun entry w hw => networkCollect_total w hw) hbase monitor dir hw).mono
  intro r w' ⟨hr, _⟩
  rw [hr]
  exact ⟨rfl, rfl⟩

theorem selectsTemperature_result (hbase : base ≠ []) (dir : List (List Byte)) :
    SelectsTemperature tree base dir
      ((thermalMonitorHottest (thermalResult tree base dir)).map ThermalRuntimeInfo.temperature) := by
  intro monitor w hw
  apply (monitorCollectFrom_total (fun entry w hw => thermalCollect_total w hw) hbase monitor dir hw).mono
  intro r w' ⟨hr, _⟩
  rw [hr]
  exact ⟨rfl, rfl⟩

/-- With room for all entries their order makes no difference. -/
theorem networkResult_perm {dir order : List (List Byte)} (hperm : order.Perm dir)
    (hshort : ∀ n ∈ dir.filter isInterface, n.length ≤ 15)
    (hroom : (dir.filter isInterface).length ≤ NETWORK_MONITOR_MAX_INTERFACES) :
    networkResult tree base order = networkResult tree base dir := by
  have hfilter : (order.filter isInterface).Perm (dir.filter isInterface) := hperm.filter _
  apply monitor_ext
  show sortBy _ ((kept _ _ order).map _) = sortBy _ ((kept _ _ dir).map _)
  rw [kept_all hroom, kept_all (hfilter.length_eq.trans_le hroom)]
  apply sortBy_eq_of_perm (hfilter.map _)
  intro a ha b hb hname
  obtain ⟨n, hn, rfl⟩ := List.mem_map.mp ha
  obtain ⟨m, hm, rfl⟩ := List.mem_map.mp hb
  rw [networkRecord_name (hshort n (hfilter.mem_iff.mp hn)), networkRecord_name (hshort m (hfilter.mem_iff.mp hm))]
    at hname
  rw [hname]

/-- The monitors select by the rules from the entries that are kept, which are
all of them up to the capacity. -/
theorem monitor_selection {tree : List Byte → SysfsFile} {base : List Byte} (hbase : base ≠ []) :
    (∀ dir : List (List Byte), (∀ entry ∈ dir.filter isInterface, entry.length ≤ 15) →
      ∃ chosen, PrimaryName (Up tree base) (kept isInterface NETWORK_MONITOR_MAX_INTERFACES dir) chosen ∧
        SelectsName tree base dir chosen ∧
        ((dir.filter isInterface).length ≤ NETWORK_MONITOR_MAX_INTERFACES →
          PrimaryName (Up tree base) (dir.filter isInterface) chosen ∧
          ∀ order : List (List Byte), order.Perm dir → SelectsName tree base order chosen)) ∧
    (∀ dir : List (List Byte),
      ∃ chosen,
        HottestTemperature (zoneTemperature tree base) (kept isThermalZone THERMAL_MONITOR_MAX_ZONES dir) chosen ∧
        SelectsTemperature tree base dir chosen ∧
        ((dir.filter isThermalZone).length ≤ THERMAL_MONITOR_MAX_ZONES →
          HottestTemperature (zoneTemperature tree base) (dir.filter isThermalZone) chosen ∧
          ∀ order : List (List Byte), order.Perm dir → SelectsTemperature tree base order chosen)) := by
  constructor
  · intro dir hshort
    have hrule : PrimaryName (Up tree base) (kept isInterface NETWORK_MONITOR_MAX_INTERFACES dir)
        ((networkMonitorPrimary (networkResult tree base dir)).map NetworkRuntimeInfo.name) :=
      primary_name (fun n hn => hshort n (List.mem_of_mem_take hn)) rfl
    refine ⟨_, hrule, selectsName_result hbase dir, ?_⟩
    intro hroom
    rw [kept_all hroom] at hrule
    refine ⟨hrule, ?_⟩
    intro order hperm
    rw [← networkResult_perm hperm hshort hroom]
    exact selectsName_result hbase order
  · intro dir
    have hrule : ∀ dir, HottestTemperature (zoneTemperature tree base)
        (kept isThermalZone THERMAL_MONITOR_MAX_ZONES dir)
        ((thermalMonitorHottest (thermalResult tree base dir)).map ThermalRuntimeInfo.temperature) :=
      fun dir => hottest_temperature rfl
    refine ⟨_, hrule dir, selectsTemperature_result hbase dir, ?_⟩
    intro hroom
    have hall := hrule dir
    rw [kept_all hroom] at hall
    refine ⟨hall, ?_⟩
    intro order hperm
    have hfilter : (order.filter isThermalZone).Perm (dir.filter isThermalZone) := hperm.filter _
    have hother := hrule order
    rw [kept_all (hfilter.length_eq.trans_le hroom)] at hother
    rw [← hottestTemperature_unique hfilter hall hother]
    exact selectsTemperature_result hbase order

end Selects

/-! ### Runs -/

/-- `eth0` is up, and nothing else can be read. -/
def ethTree (path : List Byte) : SysfsFile :=
  if path = text "/n/eth0/operstate" then .file (text "up\n") none else .absent 2

theorem monitor_selection_eth : ∃ chosen,
    PrimaryName (Up ethTree (text "/n")) [text "lo", text "eth0"] chosen ∧
      ∀ order : List (List Byte), order.Perm [text "lo", text "..", text "eth0"] →
        SelectsName ethTree (text "/n") order chosen := by
  obtain ⟨chosen, _, _, hroom⟩ := (@monitor_selection ethTree (text "/n") (by decide)).1
    [text "lo", text "..", text "eth0"] (by decide)
  exact ⟨chosen, hroom (by decide)⟩

/-- Sixteen interfaces that are down. -/
def downNames : List (List Byte) :=
  [text "br0", text "br1", text "br2", text "br3", text "br4", text "br5", text "br6", text "br7",
    text "br8", text "br9", text "can0", text "can1", text "can2", text "can3", text "can4", text "can5"]

/-- With a seventeenth the order makes a difference. -/
theorem crowded_selection : ∃ dir order : List (List Byte), order.Perm dir ∧ dir.Nodup ∧
    (∀ entry ∈ dir, isInterface entry = true ∧ entry.length ≤ 15) ∧
    SelectsName ethTree (text "/n") dir (some (text "eth0")) ∧
    SelectsName ethTree (text "/n") order (some (text "br0")) := by
  refine ⟨text "eth0" :: downNames, downNames ++ [text "eth0"], List.perm_append_singleton _ _, by decide, by decide,
    ?_, ?_⟩
  · have hfirst : (networkMonitorPrimary (networkResult ethTree (text "/n") (text "eth0" :: downNames))).map
        NetworkRuntimeInfo.name = some (text "eth0") := by decide +kernel
    rw [← hfirst]
    exact selectsName_result (by decide) _
  · have hlast : (networkMonitorPrimary (networkResult ethTree (text "/n") (downNames ++ [text "eth0"]))).map
        NetworkRuntimeInfo.name = some (text "br0") := by decide +kernel
    rw [← hlast]
    exact selectsName_result (by decide) _

end DeviceRuntime
