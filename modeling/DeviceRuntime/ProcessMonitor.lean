/-
# The process monitor

`src/process_monitor.c`: what is read of `/proc/<pid>/status`, and the list of
all processes with the memory it takes. The list is an array that is doubled
when it is full, sorted and trimmed in the end.

What the files under `/proc` hold is an argument. A file is its bytes, and
whether reading it ends with an error. The pointers are there by type, so the
tests for NULL have no branch here. Messages there are none.

Key definitions: `isPidName`, `copyStatusText`, `processMonitorGet`,
`ProcessArray`, `processMonitorCollect`.
-/
import DeviceRuntime.Lib.Sorted
import DeviceRuntime.ShellConfig

namespace DeviceRuntime

open Selection

abbrev PROCESS_NAME_LENGTH : ℕ := 64

structure ProcessInfo where
  pid : ℤ
  name : List Byte
  state : Byte
  rssKb : ℕ
  threads : ℕ
deriving DecidableEq, Repr

/-- A file under `/proc`. -/
structure StatusFile where
  bytes : List Byte
  readError : Bool

/-- The file at a path, if `fopen` finds one. -/
abbrev StatusFiles := List Byte → Option StatusFile

/-! ### One process -/

def isPidName (name : List Byte) : Bool := name ≠ [] && name.all isdigit

def skipStatusBlanks (src : List Byte) : List Byte := src.dropWhile fun c => c = ' '.toUInt8 || c = '\t'.toUInt8

/-- The text up to the end of the line, cut to the buffer. -/
def copyStatusText (size : ℕ) (src : List Byte) : List Byte :=
  ((skipStatusBlanks src).takeWhile fun c => c ≠ CR && c ≠ LF).take (size - 1)

/-- `sscanf` with `%lu`, or with `%u` and the values `unsigned int` has. -/
def scanNumber (values : ℕ) (line : List Byte) (number : ℕ) : ℕ :=
  let r := strtoull line
  if r.rest = line then number else r.parsed % values

/-- One line of the file. -/
def processStatusLine (line : List Byte) (info : ProcessInfo) : ProcessInfo :=
  if strncmp line (text "Name:") then { info with name := copyStatusText PROCESS_NAME_LENGTH (line.drop 5) }
  else if strncmp line (text "State:") then
    match skipStatusBlanks (line.drop 6) with
    | [] => info
    | value :: _ => { info with state := value }
  else if strncmp line (text "VmRSS:") then { info with rssKb := scanNumber (ULONG_MAX + 1) (line.drop 6) info.rssKb }
  else if strncmp line (text "Threads:") then
    { info with threads := scanNumber (UINT32_MAX + 1) (line.drop 8) info.threads }
  else info

/-- The loop over the pieces of the file. At a read error `fgets` gives no
piece. -/
def processStatusLines (readError : Bool) (bytes : List Byte) (info : ProcessInfo) : ProcessInfo :=
  if _h : bytes = [] then info
  else if (fgets 255 bytes).eof ∧ readError then info
  else processStatusLines readError (fgets 255 bytes).rest (processStatusLine (cstr (fgets 255 bytes).line) info)
termination_by bytes.length
decreasing_by exact fgets_shorter _h

/-- The process, or the code of `error.h`. -/
def processMonitorGet (files : StatusFiles) (pid : ℤ) : Except ℤ ProcessInfo :=
  if pid ≤ 0 then .error MiniShell_ERR_UNKNOWN
  else
    let path := text "/proc/" ++ decimalInt pid ++ text "/status"
    if path.length ≥ 64 then .error MiniShell_ERR_UNKNOWN
    else
      match files path with
      | none => .error MiniShell_ERR_OPEN
      | some file =>
        let info := processStatusLines file.readError file.bytes ⟨pid, [], '?'.toUInt8, 0, 0⟩
        if info.name = [] then .error MiniShell_ERR_UNKNOWN else .ok info

/-! ### All processes -/

/-- The calls for the directory `/proc` and for the heap. The sizes are numbers
of entries; a block is named by its address. -/
inductive ProcessCall
  | opendir
  | readdir
  | closedir
  | malloc (size : ℕ)
  | realloc (address : ℕ) (size : ℕ)
  | free (address : ℕ)
deriving DecidableEq, Repr

abbrev ProcessCall.Ret : ProcessCall → Type
  | .opendir => Bool
  | .readdir => Option (List Byte)
  | .closedir => Unit
  | .malloc _ => Option ℕ
  | .realloc _ _ => Option ℕ
  | .free _ => Unit

abbrev ProcessProg := Prog ProcessCall ProcessCall.Ret

namespace ProcessCall

def procOpendir : ProcessProg Bool := .call ProcessCall.opendir .ret
def procReaddir : ProcessProg (Option (List Byte)) := .call ProcessCall.readdir .ret
def procClosedir : ProcessProg Unit := .call ProcessCall.closedir .ret
def procMalloc (size : ℕ) : ProcessProg (Option ℕ) := .call (ProcessCall.malloc size) .ret
def procRealloc (address size : ℕ) : ProcessProg (Option ℕ) := .call (ProcessCall.realloc address size) .ret
def procFree (address : ℕ) : ProcessProg Unit := .call (ProcessCall.free address) .ret

end ProcessCall

open ProcessCall

/-- The array `result` with its capacity and the `*count` entries in use. -/
structure ProcessArray where
  address : ℕ
  capacity : ℕ
  entries : List ProcessInfo
  capacity_pos : 0 < capacity
  count_le : entries.length ≤ capacity

namespace ProcessArray

/-- After `malloc` of 64 entries. -/
def empty (address : ℕ) : ProcessArray := ⟨address, 64, [], by decide, Nat.zero_le _⟩

/-- `result[*count] = info`. -/
def push (array : ProcessArray) (info : ProcessInfo) (hroom : array.entries.length ≠ array.capacity) :
    ProcessArray where
  address := array.address
  capacity := array.capacity
  entries := array.entries ++ [info]
  capacity_pos := array.capacity_pos
  count_le := by
    rw [List.length_append, List.length_singleton]
    exact lt_of_le_of_ne array.count_le hroom

/-- The array in a block of twice the size. -/
def expanded (array : ProcessArray) (address : ℕ) : ProcessArray where
  address := address
  capacity := array.capacity * 2
  entries := array.entries
  capacity_pos := Nat.mul_pos array.capacity_pos (by decide)
  count_le := array.count_le.trans (Nat.le_mul_of_pos_right _ (by decide))

theorem expanded_room (array : ProcessArray) (address : ℕ) :
    (array.expanded address).entries.length ≠ (array.expanded address).capacity := by
  have hle := array.count_le
  have hpos := array.capacity_pos
  unfold expanded
  dsimp only
  omega

/-- `qsort`. -/
def sorted (array : ProcessArray) : List ProcessInfo := sortBy ProcessInfo.pid array.entries

end ProcessArray

/-- What is returned, `*list` and `*count`. A list is its block and its entries. -/
structure ProcessList where
  ret : ℤ
  list : Option (ℕ × List ProcessInfo)
  count : ℕ
deriving DecidableEq, Repr

/-- The process of an entry of `/proc`, if there is one to read. -/
def processEntry (files : StatusFiles) (name : List Byte) : Option ProcessInfo :=
  if !isPidName name then none
  else
    let value := strtol name
    if value.erange ∨ value.rest ≠ [] ∨ value.number ≤ 0 ∨ value.number > INT_MAX then none
    else (processMonitorGet files value.number).toOption

/-- The array with one more entry, or the failure where there is no memory for
it. -/
def processAppend (array : ProcessArray) (info : ProcessInfo) : ProcessProg (ProcessArray ⊕ ProcessList) :=
  if hfull : array.entries.length = array.capacity then do
    match ← procRealloc array.address (array.capacity * 2) with
    | none =>
      procFree array.address
      procClosedir
      return .inr ⟨MiniShell_ERR_MEMORY, none, array.entries.length⟩
    | some address => return .inl ((array.expanded address).push info (array.expanded_room address))
  else .ret (.inl (array.push info hfull))

/-- A turn of the loop: the directory has ended, or there is no memory. -/
def collectTurn (files : StatusFiles) (array : ProcessArray) :
    ProcessProg (ProcessArray ⊕ (ProcessArray ⊕ ProcessList)) := do
  match ← procReaddir with
  | none => return .inr (.inl array)
  | some name =>
    match processEntry files name with
    | none => return .inl array
    | some info =>
      match ← processAppend array info with
      | .inl array => return .inl array
      | .inr failed => return .inr (.inr failed)

def processMonitorCollect (files : StatusFiles) : ProcessProg ProcessList := do
  let opened ← procOpendir
  if !opened then return ⟨MiniShell_ERR_OPEN, none, 0⟩
  match ← procMalloc 64 with
  | none =>
    procClosedir
    return ⟨MiniShell_ERR_MEMORY, none, 0⟩
  | some address =>
    match ← Prog.iter (collectTurn files) (ProcessArray.empty address) with
    | .inr failed => return failed
    | .inl array =>
      procClosedir
      if array.entries.length = 0 then
        procFree array.address
        return ⟨MiniShell_OK, none, 0⟩
      match ← procRealloc array.address array.entries.length with
      | none => return ⟨MiniShell_OK, some (array.address, array.sorted), array.entries.length⟩
      | some trimmed => return ⟨MiniShell_OK, some (trimmed, array.sorted), array.entries.length⟩

end DeviceRuntime
