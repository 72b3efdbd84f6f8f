/-
# The network and the thermal monitor

`src/network_monitor.c` and `src/thermal_monitor.c`. A directory is the list of
the names that `readdir` gives, in their order, or `none` where `opendir` fails.
The monitors and the paths are there by type, so the tests for NULL have no
branch here. A temperature is an exact number.

The collectors differ in the entries they take and in what they read of each;
the loop over the directory is one definition.

Key definitions: `Monitor`, `buildPath`, `monitorCollect`,
`networkMonitorCollectFrom`, `networkMonitorPrimary`,
`thermalMonitorCollectFrom`, `thermalMonitorHottest`.
-/
import Mathlib.Data.Rat.Defs
import Mathlib.Algebra.Order.Ring.Unbundled.Rat
import DeviceRuntime.Hardware
import DeviceRuntime.Lib.Sorted

namespace DeviceRuntime

open Selection

abbrev NETWORK_MONITOR_MAX_INTERFACES : ℕ := 16
abbrev THERMAL_MONITOR_MAX_ZONES : ℕ := 16

/-! ### The arrays -/

/-- The entries of an array that are in use. -/
structure Monitor (capacity : ℕ) (Info : Type) where
  entries : List Info
  count_le : entries.length ≤ capacity

namespace Monitor

variable {capacity : ℕ} {Info : Type}

def empty : Monitor capacity Info := ⟨[], Nat.zero_le _⟩

def push (monitor : Monitor capacity Info) (info : Info) (hroom : monitor.entries.length < capacity) :
    Monitor capacity Info where
  entries := monitor.entries ++ [info]
  count_le := by
    rw [List.length_append, List.length_singleton]
    exact hroom

/-- `qsort` by the names, where there is more than one. -/
def qsort (name : Info → List Byte) (monitor : Monitor capacity Info) : Monitor capacity Info :=
  if monitor.entries.length > 1 then
    { entries := sortBy name monitor.entries
      count_le := by
        rw [sortBy_perm.length_eq]
        exact monitor.count_le }
  else monitor

end Monitor

/-- `copy_text`, for a buffer of `size` bytes. -/
def copyText (size : ℕ) (src : List Byte) : List Byte := src.take (size - 1)

/-- `build_path`, for a buffer of 512 bytes. -/
def buildPath (base name file : List Byte) : Option (List Byte) :=
  let path := base ++ '/'.toUInt8 :: (name ++ '/'.toUInt8 :: file)
  if path.length ≥ 512 then none else some path

/-- What is read at a path, if there is one. -/
def readPath {α : Type} (path : Option (List Byte)) (missing : α) (read : List Byte → HardwareProg α) :
    HardwareProg α :=
  match path with
  | none => return missing
  | some path => read path

/-- The loop over a directory: the wanted entries, while there is room. -/
def monitorCollect {capacity : ℕ} {Info : Type} (wanted : List Byte → Bool) (collect : List Byte → HardwareProg Info) :
    List (List Byte) → Monitor capacity Info → HardwareProg (Monitor capacity Info)
  | [], monitor => return monitor
  | entry :: dir, monitor =>
    if !wanted entry then monitorCollect wanted collect dir monitor
    else if hroom : monitor.entries.length < capacity then
      (collect entry).bind fun info => monitorCollect wanted collect dir (monitor.push info hroom)
    else return monitor

/-- What the two collectors do, with the names of the records. -/
def monitorCollectFrom {capacity : ℕ} {Info : Type} (wanted : List Byte → Bool) (collect : List Byte → HardwareProg Info)
    (name : Info → List Byte) (monitor : Monitor capacity Info) (dir : Option (List (List Byte))) (base : List Byte) :
    HardwareProg (ℤ × Monitor capacity Info) :=
  if base = [] then return (MiniShell_ERR_UNKNOWN, monitor)
  else
    match dir with
    | none => return (MiniShell_ERR_OPEN, .empty)
    | some dir =>
      (monitorCollect wanted collect dir .empty).bind fun monitor => return (MiniShell_OK, monitor.qsort name)

/-! ### The network monitor -/

structure NetworkRuntimeInfo where
  name : List Byte
  state : List Byte
  rxBytes : ℕ
  txBytes : ℕ
  hasRx : Bool
  hasTx : Bool
deriving DecidableEq, Repr

abbrev NetworkMonitor := Monitor NETWORK_MONITOR_MAX_INTERFACES NetworkRuntimeInfo

/-- The entries that do not begin with a dot. -/
def isInterface (entry : List Byte) : Bool := entry.head? ≠ some '.'.toUInt8

def networkCounter (base entry file : List Byte) : HardwareProg (Except ℕ ℕ) :=
  readPath (buildPath base entry file) (.error 0) sysfsReadUll

def networkInfo (entry state : List Byte) (rx tx : Except ℕ ℕ) : NetworkRuntimeInfo where
  name := copyText 64 entry
  state := state
  rxBytes := rx.toOption.getD 0
  txBytes := tx.toOption.getD 0
  hasRx := rx.toOption.isSome
  hasTx := tx.toOption.isSome

def networkCollect (base entry : List Byte) : HardwareProg NetworkRuntimeInfo := do
  let state ← readPath (buildPath base entry (text "operstate")) [] fun path => sysfsReadCleared path 32
  let rx ← networkCounter base entry (text "statistics/rx_bytes")
  let tx ← networkCounter base entry (text "statistics/tx_bytes")
  return networkInfo entry state rx tx

def networkMonitorCollectFrom (monitor : NetworkMonitor) (dir : Option (List (List Byte))) (base : List Byte) :
    HardwareProg (ℤ × NetworkMonitor) :=
  monitorCollectFrom isInterface (networkCollect base) NetworkRuntimeInfo.name monitor dir base

def networkMonitorPrimary (monitor : NetworkMonitor) : Option NetworkRuntimeInfo :=
  match monitor.entries.find? fun info => info.name ≠ text "lo" && info.state = text "up" with
  | some info => some info
  | none =>
    match monitor.entries.find? fun info => info.name ≠ text "lo" with
    | some info => some info
    | none => monitor.entries.head?

/-! ### The thermal monitor -/

structure ThermalRuntimeInfo where
  name : List Byte
  type : List Byte
  temperature : ℚ
  hasTemperature : Bool
deriving DecidableEq, Repr

abbrev ThermalMonitor := Monitor THERMAL_MONITOR_MAX_ZONES ThermalRuntimeInfo

def isThermalZone (entry : List Byte) : Bool := strncmp entry (text "thermal_zone")

/-- `temperature` is in thousandths of a degree. -/
def thermalInfo (entry type : List Byte) (temperature : Except ℕ ℤ) : ThermalRuntimeInfo where
  name := copyText 64 entry
  type := type
  temperature := (temperature.toOption.getD 0 : ℚ) / 1000
  hasTemperature := temperature.toOption.isSome

def thermalCollect (base entry : List Byte) : HardwareProg ThermalRuntimeInfo := do
  let type ← readPath (buildPath base entry (text "type")) [] fun path => sysfsReadCleared path 64
  let temperature ← readPath (buildPath base entry (text "temp")) (.error 0) sysfsReadLong
  return thermalInfo entry type temperature

def thermalMonitorCollectFrom (monitor : ThermalMonitor) (dir : Option (List (List Byte))) (base : List Byte) :
    HardwareProg (ℤ × ThermalMonitor) :=
  monitorCollectFrom isThermalZone (thermalCollect base) ThermalRuntimeInfo.name monitor dir base

def thermalMonitorHottest (monitor : ThermalMonitor) : Option ThermalRuntimeInfo :=
  greatest ThermalRuntimeInfo.hasTemperature ThermalRuntimeInfo.temperature monitor.entries

end DeviceRuntime
