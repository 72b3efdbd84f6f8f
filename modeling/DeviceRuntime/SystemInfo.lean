/-
# What the system says about itself

`src/device_tree.c`, `src/system_info.c` as far as it reads `/proc`,
`src/runtime_monitor.c`, `src/runtime_snapshot.c` and
`src/commands/cmd_runtime.c`. A file of numbers of type `double` is read by a
call, and nothing is computed with them; a usage is kept as the two integers of
its quotient. The lines with such numbers are not printed here.

A file is what reading it gives (`StatusFile`). The buffers are there by type,
so the tests for NULL have no branch here.

Key definitions: `fgetsLines`, `scanUlong`, `compatibleItems`,
`deviceTreeCollect`, `cpuinfoLine`, `getMemInfo`, `cpuUsage`, `readMemory`,
`runtimeMonitorCollect`, `runtimeSnapshotCollect`, `cmdPsinfo`.
-/
import DeviceRuntime.DeviceCommand
import DeviceRuntime.Monitor
import DeviceRuntime.ProcessMonitor

namespace DeviceRuntime

/-! ### Reading files -/

/-- The strings that a loop over `fgets` with a buffer of 256 bytes sees. At a
read error `fgets` gives no piece. -/
def fgetsLines (readError : Bool) (bytes : List Byte) : List (List Byte) :=
  if _h : bytes = [] then []
  else if (fgets 255 bytes).eof ∧ readError then []
  else cstr (fgets 255 bytes).line :: fgetsLines readError (fgets 255 bytes).rest
termination_by bytes.length
decreasing_by exact fgets_shorter _h

def StatusFile.lines (file : StatusFile) : List (List Byte) := fgetsLines file.readError file.bytes

/-- `%lu` and `%llu` of `sscanf`, with what is left. -/
def scanUlong (s : List Byte) : Option (ℕ × List Byte) :=
  let r := strtoull s
  if r.rest = s then none else some (r.parsed, r.rest)

/-- `sscanf` with a key, `%lu` and possibly a blank between them, which takes
any number of white-space characters. -/
def scanField (key : List Byte) (blank : Bool) (line : List Byte) : Option ℕ :=
  if !strncmp line key then none
  else (scanUlong (if blank then (line.drop key.length).dropWhile isspace else line.drop key.length)).map Prod.fst

abbrev DEVICE_TREE_MAX_COMPATIBLE : ℕ := 8

structure DeviceTreeInfo where
  available : Bool
  model : List Byte
  compatible : Monitor DEVICE_TREE_MAX_COMPATIBLE (List Byte)
  bootargs : List Byte

/-- `fread` of at most `size` bytes, if there is a file. -/
def readProperty (file : Option (List Byte)) (size : ℕ) : List Byte := (file.getD []).take size

def copyPropertyText (size : ℕ) (src : List Byte) : List Byte :=
  (src.takeWhile fun c => c ≠ 0 && c ≠ CR && c ≠ LF).take (size - 1)

/-- The loop of `collect_compatible`; `rest` is what begins at `offset`. -/
def compatibleItems (rest : List Byte) (compatible : Monitor DEVICE_TREE_MAX_COMPATIBLE (List Byte)) :
    Monitor DEVICE_TREE_MAX_COMPATIBLE (List Byte) :=
  if _h : rest = [] then compatible
  else if hroom : compatible.entries.length < DEVICE_TREE_MAX_COMPATIBLE then
    let item := rest.takeWhile (· ≠ 0)
    compatibleItems (rest.drop (item.length + 1))
      (if item = [] then compatible else compatible.push (item.take 127) hroom)
  else compatible
termination_by rest.length
decreasing_by
  rw [List.length_drop]
  have hpos : 0 < rest.length := List.length_pos_iff.mpr _h
  omega

/-- `files` are the properties; `present`: there is a device tree. -/
def deviceTreeCollect (present : Bool) (files : List Byte → Option (List Byte)) : DeviceTreeInfo :=
  if !present then ⟨false, [], .empty, []⟩
  else
    { available := true
      model := copyPropertyText 128 (readProperty (files (text "/proc/device-tree/model")) 256)
      compatible := compatibleItems (readProperty (files (text "/proc/device-tree/compatible")) 1024) .empty
      bootargs := copyPropertyText 1024 (readProperty (files (text "/proc/device-tree/chosen/bootargs")) 1024) }

/-! ### The processor and the memory -/

/-- `copy_text` of `system_info.c`: up to the end of the line. -/
def copyLineText (size : ℕ) (src : List Byte) : List Byte :=
  (src.takeWhile fun c => c ≠ CR && c ≠ LF).take (size - 1)

def isBlank (c : Byte) : Bool := c = ' '.toUInt8 || c = '\t'.toUInt8

/-- The value of a line with the key, if it is not empty. -/
def cpuinfoValue (line key : List Byte) (size : ℕ) : Option (List Byte) :=
  match line.dropWhile (· ≠ ':'.toUInt8) with
  | [] => none
  | _ :: after =>
    if (line.takeWhile (· ≠ ':'.toUInt8)).rdropWhile isBlank ≠ key then none
    else (some (copyLineText size (after.dropWhile isBlank))).filter fun value => value ≠ []

/-- The keys with their ranks. -/
def cpuinfoKeys : List (List Byte × ℕ) :=
  [(text "model name", 0), (text "Model", 1), (text "Hardware", 2), (text "Processor", 3)]

/-- `cpu_model` and `best_rank`. -/
structure CpuModel where
  model : List Byte
  bestRank : ℕ
deriving DecidableEq, Repr

/-- One key in the loop over the keys. -/
def cpuinfoKey (line : List Byte) (best : CpuModel) (key : List Byte × ℕ) : CpuModel :=
  if key.2 ≥ best.bestRank then best
  else
    match cpuinfoValue line key.1 128 with
    | none => best
    | some candidate => ⟨copyLineText 128 candidate, key.2⟩

/-- One line of `/proc/cpuinfo`. -/
def cpuinfoLine (best : CpuModel) (line : List Byte) : CpuModel := cpuinfoKeys.foldl (cpuinfoKey line) best

/-- `cpu_model` after `get_cpu_info`. -/
def getCpuModel (file : StatusFile) : List Byte := (file.lines.foldl cpuinfoLine ⟨[], 100⟩).model

/-- `mem_total` and `mem_available`, with `got_total` and `got_available`. -/
structure MemInfo where
  total : ℕ
  available : ℕ
  gotTotal : Bool
  gotAvailable : Bool
deriving DecidableEq, Repr

def memInfoLine (info : MemInfo) (line : List Byte) : MemInfo :=
  if strncmp line (text "MemTotal:") then
    match scanField (text "MemTotal:") false line with
    | none => info
    | some number => { info with total := number, gotTotal := true }
  else if strncmp line (text "MemAvailable:") then
    match scanField (text "MemAvailable:") false line with
    | none => info
    | some number => { info with available := number, gotAvailable := true }
  else info

/-- Both in megabytes, or the code of `error.h`. -/
def getMemInfo (file : Option StatusFile) : Except ℤ (ℕ × ℕ) :=
  match file with
  | none => .error MiniShell_ERR_OPEN
  | some file =>
    let info := file.lines.foldl memInfoLine ⟨0, 0, false, false⟩
    if !info.gotTotal || !info.gotAvailable then .error MiniShell_ERR_UNKNOWN
    else .ok (info.total / 1024, info.available / 1024)

/-! ### The runtime monitor -/

/-- Sums of `unsigned long long`. -/
structure CpuSnapshot where
  total : ℕ
  idle : ℕ
deriving DecidableEq, Repr

/-- `(double)part * 100.0 / (double)whole`. -/
structure Usage where
  part : ℕ
  whole : ℕ
  whole_pos : 0 < whole
  part_le : part ≤ whole

/-- The usage between two snapshots. -/
def cpuUsage (first second : CpuSnapshot) : Except ℤ Usage :=
  if hless : second.total ≤ first.total ∨ second.idle < first.idle then .error MiniShell_ERR_UNKNOWN
  else if second.idle - first.idle > second.total - first.total then .error MiniShell_ERR_UNKNOWN
  else .ok
    { part := second.total - first.total - (second.idle - first.idle)
      whole := second.total - first.total
      whole_pos := Nat.sub_pos_of_lt (Nat.lt_of_not_le fun h => hless (Or.inl h))
      part_le := Nat.sub_le _ _ }

/-- `total` and `available` of the loop of `read_memory`. -/
def readMemoryLine (s : ℕ × ℕ) (line : List Byte) : ℕ × ℕ :=
  match scanField (text "MemTotal:") true line with
  | some total => (total, s.2)
  | none =>
    match scanField (text "MemAvailable:") true line with
    | some available => (s.1, available)
    | none => s

def memoryUsage (total available : ℕ) : Except ℤ Usage :=
  if hbad : total = 0 ∨ available > total then .error MiniShell_ERR_UNKNOWN
  else .ok
    { part := total - available
      whole := total
      whole_pos := Nat.pos_of_ne_zero fun h => hbad (Or.inl h)
      part_le := Nat.sub_le _ _ }

def readMemory (file : Option StatusFile) : Except ℤ Usage :=
  match file with
  | none => .error MiniShell_ERR_OPEN
  | some file =>
    let s := file.lines.foldl readMemoryLine (0, 0)
    memoryUsage s.1 s.2

/-- A `double` is its bits. -/
abbrev Double := BitVec 64

/-- The calls of the collectors. `scanDoubles` opens a file and is `fscanf`
with `count` times `%lf`: the fields it has read, if there is a file. -/
inductive SnapshotCall
  | fopen (path : List Byte)
  | nanosleep
  | opendir (path : List Byte)
  | scanDoubles (path : List Byte) (count : ℕ)
  | hardware (c : HardwareCall)

abbrev SnapshotCall.Ret : SnapshotCall → Type
  | .fopen _ => Option StatusFile
  | .nanosleep => CallResult
  | .opendir _ => Option (List (List Byte))
  | .scanDoubles _ _ => Option (List Double)
  | .hardware c => c.Ret

abbrev SnapshotProg := Prog SnapshotCall SnapshotCall.Ret

/-- A usage that is not set is the 0 that `memset` leaves. -/
structure RuntimeMonitor where
  cpuUsage : Option Usage
  memoryUsage : Option Usage
  loadAverage : List Double
  processCount : ℕ
  uptime : Double

/-- What `memset` leaves. -/
def RuntimeMonitor.zero : RuntimeMonitor := ⟨none, none, [0, 0, 0], 0, 0⟩

/-- The fields that were read, before those that were not. -/
def filled (fields rest : List Double) : List Double := fields ++ rest.drop fields.length

abbrev RUNTIME_SNAPSHOT_SOURCE_SYSTEM : BitVec 32 := 1#32 <<< 0
abbrev RUNTIME_SNAPSHOT_SOURCE_THERMAL : BitVec 32 := 1#32 <<< 1
abbrev RUNTIME_SNAPSHOT_SOURCE_NETWORK : BitVec 32 := 1#32 <<< 2

structure RuntimeSnapshot where
  runtime : RuntimeMonitor
  thermal : ThermalMonitor
  network : NetworkMonitor
  availableSources : BitVec 32
  failedSources : BitVec 32

def RuntimeSnapshot.zero : RuntimeSnapshot := ⟨.zero, .empty, .empty, 0, 0⟩

/-- A source that has returned `ret`. -/
def RuntimeSnapshot.record (snapshot : RuntimeSnapshot) (ret : ℤ) (source : BitVec 32) : RuntimeSnapshot :=
  if ret = MiniShell_OK then { snapshot with availableSources := snapshot.availableSources ||| source }
  else { snapshot with failedSources := snapshot.failedSources ||| source }

/-- The status of a command, and what it prints. -/
structure Report where
  status : ℤ
  out : List Byte
  err : List Byte
deriving DecidableEq, Repr

def psinfoUsage : Report := ⟨MiniShell_ERR_PARSE, text "usage:\n  psinfo\n  psinfo <pid>\n", []⟩

/-- `none` is `MiniShell_ERR_PARSE`. -/
def parsePid (word : List Byte) : Option ℤ :=
  let r := strtol word
  if r.erange ∨ r.rest ≠ [] ∨ r.number ≤ 0 ∨ r.number > INT_MAX then none else some r.number

def printProcessInfo (info : ProcessInfo) : List Byte :=
  text "\n========== Process Information ==========\n\n" ++
  text "PID             : " ++ decimalInt info.pid ++ text "\nName            : " ++ info.name ++
  text "\nState           : " ++ [info.state] ++ text "\nRSS             : " ++ decimal info.rssKb ++
  text " KB\nThreads         : " ++ decimal info.threads ++ text "\n\n=========================================\n\n"

/-- `%-8ld %-24s %-7c %-12lu %-8u` -/
def processRow (info : ProcessInfo) : List Byte :=
  padded 8 (decimalInt info.pid) ++ text " " ++ padded 24 info.name ++ text " " ++ padded 7 [info.state] ++ text " " ++
    padded 12 (decimal info.rssKb) ++ text " " ++ padded 8 (decimal info.threads) ++ [LF]

def processHeading : List Byte :=
  text "\n========== Process Information ==========\n\n" ++ padded 8 (text "PID") ++ text " " ++ padded 24 (text "NAME") ++
    text " " ++ padded 7 (text "STATE") ++ text " " ++ padded 12 (text "RSS(KB)") ++ text " " ++
    padded 8 (text "THREADS") ++ text "\n----------------------------------------------------------------\n"

/-- `list` is `none` for a NULL pointer. -/
def printProcessList (list : Option (List ProcessInfo)) : List Byte :=
  match list with
  | none | some [] => text "no processes found\n"
  | some entries => processHeading ++ entries.flatMap processRow ++ text "\nTotal: " ++ decimal entries.length ++
      text " processes\n=========================================\n\n"

/-- `psinfo <pid>`. -/
def psinfoProcess (files : StatusFiles) (word : List Byte) : Report :=
  match parsePid word with
  | none => ⟨MiniShell_ERR_PARSE, [], text "psinfo: invalid pid: " ++ word ++ [LF]⟩
  | some pid =>
    match processMonitorGet files pid with
    | .error ret => ⟨ret, [], text "psinfo: unable to read process " ++ decimalInt pid ++ [LF]⟩
    | .ok info => ⟨MiniShell_OK, printProcessInfo info, []⟩

def processMonitorFree (address : ℕ) : ProcessProg Unit := ProcessCall.procFree address

/-- `psinfo`. The list is released after it was printed. -/
def psinfoList (files : StatusFiles) : ProcessProg Report :=
  (processMonitorCollect files).bind fun r =>
    if r.ret ≠ MiniShell_OK then .ret ⟨r.ret, [], text "psinfo: failed to collect process information\n"⟩
    else
      let report : Report := ⟨MiniShell_OK, printProcessList (r.list.map Prod.snd), []⟩
      match r.list with
      | none => .ret report
      | some (address, _) => (processMonitorFree address).bind fun _ => .ret report

def cmdPsinfo (files : StatusFiles) (argv : List (List Byte)) : ProcessProg Report :=
  match argv with
  | [_] => psinfoList files
  | [_, word] => .ret (psinfoProcess files word)
  | _ => .ret psinfoUsage

end DeviceRuntime
