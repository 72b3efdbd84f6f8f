/-
# What the shell starts with

The two searches of `shell_context.c` are written apart: one makes a path in a
buffer of its own and copies it, the other works in the context and clears it.
Where nothing changes in between both find the path that `contextPath` names,
the first of the documented places in which there is a file.

In any surroundings the context is consistent once it is set up
(`ContextOk`), and each builtin that works on it keeps it so.

Key definitions: `Surroundings`, `contextPath`, `ContextState`, `ContextOk`,
`ConfigOk`.
Key theorems: `shellContextInit_safe`, `contextOperate_safe`, `context_paths`,
`context_kept`, `context_session`.
-/
import DeviceRuntime.DeviceCommands
import DeviceRuntime.ShellConfigLanguage
import DeviceRuntime.ShellContext

namespace DeviceRuntime

open Prog

/-! ### Where the files are looked for -/

/-- What the search looks at. `executable` is the link in `/proc`. -/
structure Surroundings where
  environ : List Byte → Option (List Byte)
  executable : Option (List Byte)
  cwd : Option (List Byte)
  present : List Byte → Bool

/-- The places, in order, for the file `name`. -/
def searchedPaths (s : Surroundings) (name : List Byte) : List (List Byte) :=
  (match executableDirectory s.executable with
    | none => []
    | some directory => [joinPath directory (text "../config/" ++ name), joinPath directory (text "config/" ++ name)]) ++
  (match s.cwd with
    | none => []
    | some cwd => [joinPath cwd (text "config/" ++ name)])

/-- A path that the buffers take. -/
def pathFits (path : List Byte) : Bool := path.length < SHELL_CONFIG_PATH_SIZE

/-- The path in the environment, made absolute; there need not be a file. -/
def absolutePath (s : Surroundings) (path : List Byte) : Option (List Byte) :=
  if path.head? = some '/'.toUInt8 then some path else s.cwd.map fun cwd => joinPath cwd path

/-- The path of the file `name`, or the one in the environment. -/
def contextPath (s : Surroundings) (key name : List Byte) : Option (List Byte) :=
  match environmentPath (s.environ key) with
  | some path => (absolutePath s path).filter pathFits
  | none => (searchedPaths s name).find? fun path => pathFits path && s.present path

/-- What a search returns and leaves in the context. -/
def pathResult : Option (List Byte) → ℤ × List Byte
  | none => (-1, [])
  | some path => (0, path)

/-- What `readlink` gives. -/
def Surroundings.link (s : Surroundings) (size : ℕ) : Option (List Byte) := s.executable.map fun link => link.take size

def surroundingsSem (s : Surroundings) : Unit → (c : ContextCall) → c.Ret → Unit → Prop
  | _, .getenv name, r, _ => r = s.environ name
  | _, .getcwd _, r, _ => r = s.cwd
  | _, .readlink size, r, _ => r = s.link size
  | _, .access path, r, _ => r = s.present path
  | _, _, _, _ => True

/-- Surroundings that do not change. -/
abbrev surroundings (s : Surroundings) : World ContextCall ContextCall.Ret Unit := World.alone (surroundingsSem s)

/-- A search that ends with `result`. -/
abbrev Finds (s : Surroundings) (result : ℤ × List Byte) (p : PathSearch) : Prop :=
  Prog.Total (surroundings s) (fun r _ => r = result) p ()

section Search

variable {s : Surroundings}

/-- One place. -/
def tried (s : Surroundings) (path : List Byte) : Option (List Byte) :=
  if pathFits path && s.present path then some path else none

theorem joinPath_ne (directory relative : List Byte) : joinPath directory relative ≠ [] := by
  simp [joinPath]

theorem pathFits_of {path : List Byte} (h : ¬ path.length ≥ SHELL_CONFIG_PATH_SIZE) : pathFits path = true := by
  unfold pathFits
  exact decide_eq_true (not_le.mp h)

theorem not_pathFits {path : List Byte} (h : path.length ≥ SHELL_CONFIG_PATH_SIZE) : pathFits path = false := by
  unfold pathFits
  exact decide_eq_false (not_lt.mpr h)

/-- A message, then the end. -/
theorem Finds.log {message : List Byte} {result : ℤ × List Byte} :
    Finds s result (.call (.log message) fun _ => .ret result) := by
  refine .call ⟨(), (), trivial⟩ fun _ _ _ => ?_
  exact .ret rfl

theorem shellContextCopyConfigPath_finds {path : List Byte} (hne : path ≠ []) :
    Finds s (pathResult ((some path).filter pathFits)) (shellContextCopyConfigPath [] path) := by
  unfold shellContextCopyConfigPath
  rw [if_neg hne]
  by_cases hlong : path.length ≥ SHELL_CONFIG_PATH_SIZE
  · rw [if_pos hlong]
    simp only [Option.filter_some, not_pathFits hlong]
    exact Finds.log
  · rw [if_neg hlong]
    simp only [Option.filter_some, pathFits_of hlong]
    exact .ret rfl

theorem shellContextTryConfigPath_finds (directory relative : List Byte) :
    Finds s (pathResult (tried s (joinPath directory relative))) (shellContextTryConfigPath [] directory relative) := by
  unfold shellContextTryConfigPath tried
  by_cases hlong : (joinPath directory relative).length ≥ SHELL_CONFIG_PATH_SIZE
  · simp only [if_pos hlong, not_pathFits hlong, Bool.false_and]
    exact .ret rfl
  · rw [if_neg hlong]
    refine .call ⟨s.present (joinPath directory relative), (), rfl⟩ fun found _ hfound => ?_
    have hfound : found = s.present (joinPath directory relative) := hfound
    rw [hfound]
    cases hpresent : s.present (joinPath directory relative) with
    | false =>
      simp only [Bool.and_false, Bool.not_false, if_true]
      exact .ret rfl
    | true =>
      have hcopy := shellContextCopyConfigPath_finds (s := s) (joinPath_ne directory relative)
      simp only [Option.filter_some, pathFits_of hlong] at hcopy
      simp only [pathFits_of hlong]
      exact hcopy

theorem shellContextDevicesPath_finds (directory relative : List Byte) :
    Finds s (pathResult (tried s (joinPath directory relative))) (shellContextDevicesPath directory relative true) := by
  unfold shellContextDevicesPath tried
  by_cases hlong : (joinPath directory relative).length ≥ SHELL_CONFIG_PATH_SIZE
  · simp only [if_pos hlong, not_pathFits hlong, Bool.false_and]
    exact .ret rfl
  · rw [if_neg hlong, if_pos rfl]
    refine .call ⟨s.present (joinPath directory relative), (), rfl⟩ fun found _ hfound => ?_
    have hfound : found = s.present (joinPath directory relative) := hfound
    rw [hfound, pathFits_of hlong]
    cases hpresent : s.present (joinPath directory relative) with
    | false => exact .ret rfl
    | true => exact .ret rfl

/-- Two places one after the other. -/
theorem Finds.orElse {first second : Option (List Byte)} {p : PathSearch} {q : ℤ × List Byte → PathSearch}
    (hp : Finds s (pathResult first) p) (hq : Finds s (pathResult second) (q (-1, []))) :
    Finds s (pathResult (first.or second)) (p.bind fun r => if r.1 = 0 then .ret r else q r) := by
  refine hp.bind fun r _ hr => ?_
  rw [hr]
  cases first with
  | none => exact hq
  | some path => exact .ret rfl

/-- A link that was not read to its end has been read to the last byte. -/
theorem executableDirectory_link (s : Surroundings) :
    executableDirectory (s.link (SHELL_CONFIG_PATH_SIZE - 1)) = executableDirectory s.executable := by
  unfold Surroundings.link
  cases s.executable with
  | none => rfl
  | some link =>
    by_cases hshort : link.length < SHELL_CONFIG_PATH_SIZE - 1
    · rw [Option.map_some, List.take_of_length_le hshort.le]
    · have hlength : (link.take (SHELL_CONFIG_PATH_SIZE - 1)).length = SHELL_CONFIG_PATH_SIZE - 1 := by
        rw [List.length_take]
        omega
      have hcut : ¬ ((link.take (SHELL_CONFIG_PATH_SIZE - 1)).length > 0 ∧
          (link.take (SHELL_CONFIG_PATH_SIZE - 1)).length < SHELL_CONFIG_PATH_SIZE - 1) := by omega
      have hwhole : ¬ (link.length > 0 ∧ link.length < SHELL_CONFIG_PATH_SIZE - 1) := by omega
      simp only [executableDirectory, Option.map_some, hcut, hwhole, not_false_eq_true, if_true]

/-- The places beside the executable. -/
def besideExecutable (s : Surroundings) (name : List Byte) : Option (List Byte) :=
  match executableDirectory s.executable with
  | none => none
  | some directory => (tried s (joinPath directory (text "../config/" ++ name))).or
      (tried s (joinPath directory (text "config/" ++ name)))

/-- The place in the current directory. -/
def inCurrent (s : Surroundings) (name : List Byte) : Option (List Byte) :=
  match s.cwd with
  | none => none
  | some cwd => tried s (joinPath cwd (text "config/" ++ name))

theorem find_tried (path : List Byte) (paths : List (List Byte)) :
    (path :: paths).find? (fun path => pathFits path && s.present path) =
      (tried s path).or (paths.find? fun path => pathFits path && s.present path) := by
  unfold tried
  rw [List.find?_cons]
  cases pathFits path && s.present path with
  | false => rfl
  | true => rfl

theorem searchedPaths_find (s : Surroundings) (name : List Byte) :
    (searchedPaths s name).find? (fun path => pathFits path && s.present path) =
      (besideExecutable s name).or (inCurrent s name) := by
  unfold searchedPaths besideExecutable inCurrent
  cases executableDirectory s.executable with
  | none =>
    cases s.cwd with
    | none => rfl
    | some cwd => simp [tried]
  | some directory =>
    cases s.cwd with
    | none => simp [find_tried, tried]
    | some cwd => simp [find_tried, tried, Option.or_assoc]

theorem tryExecutableConfigPath_finds :
    Finds s (pathResult (besideExecutable s (text "config.conf")))
      (tryExecutableConfigPath [] (s.link (SHELL_CONFIG_PATH_SIZE - 1))) := by
  unfold tryExecutableConfigPath besideExecutable
  rw [executableDirectory_link]
  cases executableDirectory s.executable with
  | none => exact .ret rfl
  | some directory =>
    exact Finds.orElse (shellContextTryConfigPath_finds directory (text "../config/config.conf"))
      (shellContextTryConfigPath_finds directory (text "config/config.conf"))

theorem executableDevicesPath_finds :
    Finds s (pathResult (besideExecutable s (text "devices.conf")))
      (executableDevicesPath [] (s.link (SHELL_CONFIG_PATH_SIZE - 1))) := by
  unfold executableDevicesPath besideExecutable
  rw [executableDirectory_link]
  cases executableDirectory s.executable with
  | none => exact .ret rfl
  | some directory =>
    exact Finds.orElse (shellContextDevicesPath_finds directory (text "../config/devices.conf"))
      (shellContextDevicesPath_finds directory (text "config/devices.conf"))

/-- The end of both searches: -1 with an empty path is what failed. -/
theorem Finds.last {place : Option (List Byte)} {p : PathSearch} (hp : Finds s (pathResult place) p) :
    Finds s (pathResult place) (p.bind fun r => if r.1 = 0 then .ret r else .ret (-1, [])) := by
  have hend : Finds s (pathResult none) (.ret (-1, [])) := .ret rfl
  have hlast := Finds.orElse (q := fun _ => .ret (-1, [])) hp hend
  rwa [Option.or_none] at hlast

theorem shellContextSetEnvironmentConfigPath_finds {path : List Byte} (hne : path ≠ []) :
    Finds s (pathResult ((absolutePath s path).filter pathFits)) (shellContextSetEnvironmentConfigPath [] path) := by
  unfold shellContextSetEnvironmentConfigPath absolutePath
  by_cases habsolute : path.head? = some '/'.toUInt8
  · rw [if_pos habsolute, if_pos habsolute]
    exact shellContextCopyConfigPath_finds hne
  rw [if_neg habsolute, if_neg habsolute]
  refine .call ⟨s.cwd, (), rfl⟩ fun cwd _ hcwd => ?_
  have hcwd : cwd = s.cwd := hcwd
  rw [hcwd]
  cases s.cwd with
  | none => exact Finds.log
  | some cwd =>
    dsimp only
    by_cases hlong : (joinPath cwd path).length ≥ SHELL_CONFIG_PATH_SIZE
    · rw [if_pos hlong]
      simp only [Option.map_some, Option.filter_some, not_pathFits hlong]
      exact Finds.log
    · rw [if_neg hlong]
      exact shellContextCopyConfigPath_finds (joinPath_ne cwd path)

theorem environmentPath_ne {environment : Option (List Byte)} {path : List Byte}
    (h : environmentPath environment = some path) : path ≠ [] := by
  obtain ⟨-, hne⟩ := Option.filter_eq_some_iff.mp h
  exact of_decide_eq_true hne

theorem shellContextSetConfigPath_finds (s : Surroundings) :
    Finds s (pathResult (contextPath s (text "MINISHELL_CONFIG") (text "config.conf")))
      (shellContextSetConfigPath []) := by
  unfold shellContextSetConfigPath contextPath
  refine .call ⟨s.environ (text "MINISHELL_CONFIG"), (), rfl⟩ fun environment _ henvironment => ?_
  have henvironment : environment = s.environ (text "MINISHELL_CONFIG") := henvironment
  rw [henvironment]
  cases hpath : environmentPath (s.environ (text "MINISHELL_CONFIG")) with
  | some path => exact shellContextSetEnvironmentConfigPath_finds (environmentPath_ne hpath)
  | none =>
    dsimp only
    rw [searchedPaths_find]
    refine .call ⟨s.link (SHELL_CONFIG_PATH_SIZE - 1), (), rfl⟩ fun link _ hlink => ?_
    have hlink : link = s.link (SHELL_CONFIG_PATH_SIZE - 1) := hlink
    rw [hlink]
    refine Finds.orElse tryExecutableConfigPath_finds ?_
    refine .call ⟨s.cwd, (), rfl⟩ fun cwd _ hcwd => ?_
    have hcwd : cwd = s.cwd := hcwd
    unfold inCurrent
    rw [hcwd]
    cases s.cwd with
    | none => exact .ret rfl
    | some cwd => exact Finds.last (shellContextTryConfigPath_finds cwd (text "config/config.conf"))

theorem shellContextSetDevicesPath_finds (s : Surroundings) :
    Finds s (pathResult (contextPath s (text "MINISHELL_DEVICES_CONFIG") (text "devices.conf")))
      (shellContextSetDevicesPath []) := by
  unfold shellContextSetDevicesPath contextPath
  refine .call ⟨s.environ (text "MINISHELL_DEVICES_CONFIG"), (), rfl⟩ fun environment _ henvironment => ?_
  have henvironment : environment = s.environ (text "MINISHELL_DEVICES_CONFIG") := henvironment
  rw [henvironment]
  cases environmentPath (s.environ (text "MINISHELL_DEVICES_CONFIG")) with
  | some path =>
    unfold absolutePath
    dsimp only
    by_cases habsolute : path.head? = some '/'.toUInt8
    · rw [if_pos habsolute, if_pos habsolute]
      by_cases hshort : path.length < SHELL_CONFIG_PATH_SIZE
      · rw [if_pos hshort]
        simp only [Option.filter_some, pathFits_of (not_le.mpr hshort)]
        exact .ret rfl
      · rw [if_neg hshort]
        simp only [Option.filter_some, not_pathFits (not_lt.mp hshort)]
        exact .ret rfl
    · rw [if_neg habsolute, if_neg habsolute]
      refine .call ⟨s.cwd, (), rfl⟩ fun cwd _ hcwd => ?_
      have hcwd : cwd = s.cwd := hcwd
      rw [hcwd]
      cases s.cwd with
      | none => exact .ret rfl
      | some cwd =>
        dsimp only [shellContextDevicesPath]
        by_cases hlong : (joinPath cwd path).length ≥ SHELL_CONFIG_PATH_SIZE
        · rw [if_pos hlong]
          simp only [Option.map_some, Option.filter_some, not_pathFits hlong]
          exact .ret rfl
        · rw [if_neg hlong]
          simp only [Option.map_some, Option.filter_some, pathFits_of hlong]
          exact .ret rfl
  | none =>
    dsimp only
    rw [searchedPaths_find]
    refine .call ⟨s.link (SHELL_CONFIG_PATH_SIZE - 1), (), rfl⟩ fun link _ hlink => ?_
    have hlink : link = s.link (SHELL_CONFIG_PATH_SIZE - 1) := hlink
    rw [hlink]
    refine Finds.orElse executableDevicesPath_finds ?_
    refine .call ⟨s.cwd, (), rfl⟩ fun cwd _ hcwd => ?_
    have hcwd : cwd = s.cwd := hcwd
    unfold inCurrent
    rw [hcwd]
    cases s.cwd with
    | none => exact .ret rfl
    | some cwd => exact Finds.last (shellContextDevicesPath_finds cwd (text "config/devices.conf"))

end Search

/-- Both searches find what is documented: the path in the environment, or the
first of the places with a file, or nothing. -/
theorem context_paths (s : Surroundings) :
    Finds s (pathResult (contextPath s (text "MINISHELL_CONFIG") (text "config.conf")))
        (shellContextSetConfigPath []) ∧
      Finds s (pathResult (contextPath s (text "MINISHELL_DEVICES_CONFIG") (text "devices.conf")))
        (shellContextSetDevicesPath []) :=
  ⟨shellContextSetConfigPath_finds s, shellContextSetDevicesPath_finds s⟩

/-! ### The configuration -/

/-- A configuration as the shell can use it. -/
structure ConfigOk (config : MiniShellConfig) : Prop where
  prompts : config.prompts ≠ [] ∧ config.prompts.length < PROMPTS_SIZE
  maxJob : 0 < config.maxJob ∧ config.maxJob ≤ INT_MAX
  debug : config.debug = 0 ∨ config.debug = 1

theorem configInit_ok : ConfigOk configInit := ⟨by decide, by decide, .inl rfl⟩

theorem ConfigOk.set {config : MiniShellConfig} {key value : List Byte} {s : Setting} (h : ConfigOk config)
    (hsets : Sets key value s) : ConfigOk (Setting.apply config (some s)) := by
  cases hsets with
  | prompts hne hlen => exact ⟨⟨hne, hlen⟩, h.maxJob, h.debug⟩
  | maxJob hdecimal hpos hmax => exact ⟨h.prompts, ⟨Int.natCast_pos.mpr hpos, hmax⟩, h.debug⟩
  | debug on =>
    refine ⟨h.prompts, h.maxJob, ?_⟩
    cases on with
    | false => exact .inl rfl
    | true => exact .inr rfl

/-- A line leaves the configuration usable. -/
theorem ConfigOk.apply {config : MiniShellConfig} {line : List Byte} {s : Option Setting} (h : ConfigOk config)
    (hreads : ReadsAs line s) : ConfigOk (Setting.apply config s) := by
  cases hreads with
  | blank => exact h
  | comment => exact h
  | sets hk hsets => exact h.set hsets

theorem configPiece_ok {piece : Fgets} {config c : MiniShellConfig} (h : ConfigOk config)
    (hpiece : configPiece piece config = some c) : ConfigOk c := by
  unfold configPiece at hpiece
  dsimp only at hpiece
  split_ifs at hpiece with hcut
  obtain ⟨s, hreads, rfl⟩ := (configParseLine_reads _ _ _).mp hpiece
  exact h.apply hreads

theorem configPieces_ok (readError : Bool) (bytes : List Byte) : ∀ {config c : MiniShellConfig}, ConfigOk config →
    configPieces readError bytes config = some c → ConfigOk c := by
  induction hn : bytes.length using Nat.strong_induction_on generalizing bytes with
  | _ n ih =>
    intro config c h hpieces
    unfold configPieces at hpieces
    by_cases hnil : bytes = []
    · rw [dif_pos hnil] at hpieces
      obtain rfl := Option.some.inj hpieces
      exact h
    rw [dif_neg hnil] at hpieces
    by_cases herror : (fgets (CONFIG_LINE_SIZE - 1) bytes).eof = true ∧ readError = true
    · rw [if_pos herror] at hpieces
      obtain rfl := Option.some.inj hpieces
      exact h
    rw [if_neg herror] at hpieces
    cases hpiece : configPiece (fgets (CONFIG_LINE_SIZE - 1) bytes) config with
    | none =>
      rw [hpiece] at hpieces
      exact absurd hpieces (by simp)
    | some next =>
      rw [hpiece] at hpieces
      have hshorter : (fgets (CONFIG_LINE_SIZE - 1) bytes).rest.length < n := by
        rw [← hn]
        exact fgets_shorter hnil
      exact ih _ hshorter _ rfl (configPiece_ok h hpiece) hpieces

/-- A load that fails leaves the configuration as it is. -/
theorem configLoad_failed {files : List Byte → Except ℕ ConfigFile} {config : MiniShellConfig} {filename : List Byte}
    (h : (configLoad files config filename).1 ≠ MiniShell_OK) : (configLoad files config filename).2 = config := by
  unfold configLoad at h ⊢
  cases hfile : files filename with
  | error errno => rfl
  | ok file =>
    rw [hfile] at h
    dsimp only at h ⊢
    cases hpieces : configPieces file.readError file.bytes configInit with
    | none => rfl
    | some temporary =>
      rw [hpieces] at h
      dsimp only at h ⊢
      split_ifs at h ⊢
      · rfl
      · rfl
      · exact absurd rfl h

/-- Whatever the file is. -/
theorem configLoad_ok (files : List Byte → Except ℕ ConfigFile) {config : MiniShellConfig} (filename : List Byte)
    (h : ConfigOk config) : ConfigOk (configLoad files config filename).2 := by
  unfold configLoad
  cases files filename with
  | error errno => exact h
  | ok file =>
    dsimp only
    cases hpieces : configPieces file.readError file.bytes configInit with
    | none => exact h
    | some temporary =>
      dsimp only
      split_ifs
      · exact h
      · exact h
      · exact configPieces_ok file.readError file.bytes configInit_ok hpieces

/-! ### The context -/

/-- `debug`: the level of the log. -/
structure ContextState where
  device : DeviceCommandState
  debug : Bool

def contextSem (w : ContextState) : (c : ContextCall) → c.Ret → ContextState → Prop
  | .logSetlevel debug, _, w' => w' = { w with debug := debug }
  | .command c, r, w' => ∃ device, deviceCommandSem w.device c r device ∧ w' = { w with device := device }
  | .getenv _, _, w' => w' = w
  | .getcwd _, _, w' => w' = w
  | .readlink _, _, w' => w' = w
  | .access _, _, w' => w' = w
  | .files, _, w' => w' = w
  | .log _, _, w' => w' = w
  | .jobShutdown, _, w' => w' = w

/-- Surroundings that may be any at any time. -/
abbrev contextWorld : World ContextCall ContextCall.Ret ContextState := World.alone contextSem

/-- A path that was cut is not looked at, and the devices are used as in a
session of device commands. -/
def contextWatch : Watch ContextCall ContextState where
  always := fun _ => True
  atCall c w := match c with
    | .access path => path.length < SHELL_CONFIG_PATH_SIZE
    | .command c => (deviceCommandWatch SessionUse).atCall c w.device
    | _ => True

/-- The context is consistent. -/
structure ContextOk (ctx : RuntimeContext) (w : ContextState) : Prop where
  status : 0 ≤ ctx.lastExitStatus
  config : ConfigOk ctx.rest.config
  level : w.debug = decide (ctx.rest.config.debug ≠ 0)
  configFile : ctx.rest.configFile.length < SHELL_CONFIG_PATH_SIZE
  devices : ManagerOk ctx.rest.devices w.device
  devicesFile : ctx.rest.devicesFile.length < SHELL_CONFIG_PATH_SIZE

/-- The calls of a command, where nothing else is called. -/
def commandSem (w : ContextState) (c : DeviceCommandCall) (r : c.Ret) (w' : ContextState) : Prop :=
  contextSem w (.command c) r w'

section Context

variable {w : ContextState} {ctx : RuntimeContext}

/-- A command that is safe by itself is safe in the context and leaves the log
alone. -/
theorem onContext_safe {α : Type} {U : DeviceCall → Prop} (hU : ∀ c, U c → SessionUse c)
    {Q : α → DeviceCommandState → Prop} {p : DeviceCommandProg α}
    (h : Safe deviceCommandWorld (deviceCommandWatch U) Q p w.device) :
    Safe contextWorld contextWatch (fun a w' => Q a w'.device ∧ w'.debug = w.debug) (onContext p) w := by
  have hproject : Safe (World.alone commandSem)
      ⟨fun w => (deviceCommandWatch U).always w.device, fun c w => (deviceCommandWatch U).atCall c w.device⟩
      (fun a w' => Q a w'.device) p w := by
    refine Safe.project ContextState.device ?_ ?_ h
    · exact fun _ _ henv => henv.elim
    · intro v c r v' hstep
      obtain ⟨device, hdevice, rfl⟩ := hstep
      exact hdevice
  have hkept : Safe (World.alone commandSem)
      ⟨fun v => (deviceCommandWatch U).always v.device ∧ v.debug = w.debug,
        fun c v => (deviceCommandWatch U).atCall c v.device⟩ (fun a v => Q a v.device) p w := by
    refine Safe.invariant (I := fun v => v.debug = w.debug) ?_ ?_ hproject rfl
    · exact fun _ _ _ _ henv => henv.elim
    · intro v c r v' _ _ hdebug hstep
      obtain ⟨device, -, rfl⟩ := hstep
      exact hdebug
  have hresult := hkept.weaken (fun a v halways hq => And.intro hq halways.2)
  refine Safe.embed ContextCall.command (fun _ r => r) ?_ ?_ ?_ ?_ hresult
  · exact fun _ _ henv => henv
  · exact fun _ _ _ _ hstep => hstep
  · exact fun _ _ => trivial
  · exact fun c v hcall => deviceCommandWatch_mono hU c v.device hcall

/-- A search is over: its path fits, and nothing else has changed. -/
def SearchOver (w : ContextState) (r : ℤ × List Byte) (w' : ContextState) : Prop :=
  r.2.length < SHELL_CONFIG_PATH_SIZE ∧ w' = w

abbrev SearchSafe (w : ContextState) (p : PathSearch) : Prop := Safe contextWorld contextWatch (SearchOver w) p w

theorem empty_path : ([] : List Byte).length < SHELL_CONFIG_PATH_SIZE := by decide

theorem SearchSafe.ret {ret : ℤ} {path : List Byte} (h : path.length < SHELL_CONFIG_PATH_SIZE) :
    SearchSafe w (.ret (ret, path)) := Safe.ret_alone trivial ⟨h, rfl⟩

theorem SearchSafe.log {message : List Byte} {ret : ℤ} {path : List Byte}
    (h : path.length < SHELL_CONFIG_PATH_SIZE) : SearchSafe w (.call (.log message) fun _ => .ret (ret, path)) := by
  apply Safe.call_alone trivial trivial
  rintro _ _ rfl
  exact SearchSafe.ret h

/-- One search after another. -/
theorem SearchSafe.orElse {p : PathSearch} {q : ℤ × List Byte → PathSearch} (hp : SearchSafe w p)
    (hq : ∀ r : ℤ × List Byte, r.2.length < SHELL_CONFIG_PATH_SIZE → SearchSafe w (q r)) :
    SearchSafe w (p.bind fun r => if r.1 = 0 then .ret r else q r) := by
  refine Safe.bind hp fun r w' hr _ => ?_
  obtain ⟨hfits, rfl⟩ := hr
  by_cases hfound : r.1 = 0
  · rw [if_pos hfound]
    exact SearchSafe.ret hfits
  · rw [if_neg hfound]
    exact hq r hfits

theorem shellContextCopyConfigPath_safe {configFile : List Byte} (h : configFile.length < SHELL_CONFIG_PATH_SIZE)
    (path : List Byte) : SearchSafe w (shellContextCopyConfigPath configFile path) := by
  unfold shellContextCopyConfigPath
  by_cases hnil : path = []
  · rw [if_pos hnil]
    exact SearchSafe.ret h
  rw [if_neg hnil]
  by_cases hlong : path.length ≥ SHELL_CONFIG_PATH_SIZE
  · rw [if_pos hlong]
    exact SearchSafe.log empty_path
  · rw [if_neg hlong]
    exact SearchSafe.ret (not_le.mp hlong)

theorem shellContextTryConfigPath_safe {configFile : List Byte} (h : configFile.length < SHELL_CONFIG_PATH_SIZE)
    (directory relative : List Byte) : SearchSafe w (shellContextTryConfigPath configFile directory relative) := by
  unfold shellContextTryConfigPath
  by_cases hlong : (joinPath directory relative).length ≥ SHELL_CONFIG_PATH_SIZE
  · rw [if_pos hlong]
    exact SearchSafe.ret h
  rw [if_neg hlong]
  have hwhole : contextWatch.atCall (.access (joinPath directory relative)) w := not_le.mp hlong
  apply Safe.call_alone trivial hwhole
  rintro found _ rfl
  by_cases hmissing : (!found) = true
  · rw [if_pos hmissing]
    exact SearchSafe.ret h
  · rw [if_neg hmissing]
    exact shellContextCopyConfigPath_safe h _

theorem shellContextDevicesPath_safe (directory relative : List Byte) (mustExist : Bool) :
    SearchSafe w (shellContextDevicesPath directory relative mustExist) := by
  unfold shellContextDevicesPath
  by_cases hlong : (joinPath directory relative).length ≥ SHELL_CONFIG_PATH_SIZE
  · rw [if_pos hlong]
    exact SearchSafe.ret empty_path
  rw [if_neg hlong]
  have hwhole : contextWatch.atCall (.access (joinPath directory relative)) w := not_le.mp hlong
  cases mustExist with
  | false => exact SearchSafe.ret hwhole
  | true =>
    rw [if_pos rfl]
    apply Safe.call_alone trivial hwhole
    rintro found _ rfl
    by_cases hmissing : (!found) = true
    · rw [if_pos hmissing]
      exact SearchSafe.ret empty_path
    · rw [if_neg hmissing]
      exact SearchSafe.ret hwhole

theorem shellContextSetEnvironmentConfigPath_safe {configFile : List Byte}
    (h : configFile.length < SHELL_CONFIG_PATH_SIZE) (path : List Byte) :
    SearchSafe w (shellContextSetEnvironmentConfigPath configFile path) := by
  unfold shellContextSetEnvironmentConfigPath
  by_cases habsolute : path.head? = some '/'.toUInt8
  · rw [if_pos habsolute]
    exact shellContextCopyConfigPath_safe h path
  rw [if_neg habsolute]
  apply Safe.call_alone trivial trivial
  rintro cwd _ rfl
  cases cwd with
  | none => exact SearchSafe.log h
  | some cwd =>
    dsimp only
    by_cases hlong : (joinPath cwd path).length ≥ SHELL_CONFIG_PATH_SIZE
    · rw [if_pos hlong]
      exact SearchSafe.log h
    · rw [if_neg hlong]
      exact shellContextCopyConfigPath_safe h _

theorem tryExecutableConfigPath_safe {configFile : List Byte} (h : configFile.length < SHELL_CONFIG_PATH_SIZE)
    (link : Option (List Byte)) : SearchSafe w (tryExecutableConfigPath configFile link) := by
  unfold tryExecutableConfigPath
  cases executableDirectory link with
  | none => exact SearchSafe.ret h
  | some directory =>
    exact SearchSafe.orElse (shellContextTryConfigPath_safe h _ _) fun r hr => shellContextTryConfigPath_safe hr _ _

theorem executableDevicesPath_safe {devicesFile : List Byte} (h : devicesFile.length < SHELL_CONFIG_PATH_SIZE)
    (link : Option (List Byte)) : SearchSafe w (executableDevicesPath devicesFile link) := by
  unfold executableDevicesPath
  cases executableDirectory link with
  | none => exact SearchSafe.ret h
  | some directory =>
    exact SearchSafe.orElse (shellContextDevicesPath_safe _ _ _) fun _ _ => shellContextDevicesPath_safe _ _ _

theorem shellContextSetConfigPath_safe : SearchSafe w (shellContextSetConfigPath []) := by
  unfold shellContextSetConfigPath
  apply Safe.call_alone trivial trivial
  rintro environment _ rfl
  cases environmentPath environment with
  | some path => exact shellContextSetEnvironmentConfigPath_safe empty_path path
  | none =>
    apply Safe.call_alone trivial trivial
    rintro link _ rfl
    refine SearchSafe.orElse (tryExecutableConfigPath_safe empty_path link) fun r hr => ?_
    apply Safe.call_alone trivial trivial
    rintro cwd _ rfl
    cases cwd with
    | none => exact SearchSafe.ret empty_path
    | some cwd =>
      exact SearchSafe.orElse (shellContextTryConfigPath_safe hr _ _) fun _ _ => SearchSafe.ret empty_path

theorem shellContextSetDevicesPath_safe : SearchSafe w (shellContextSetDevicesPath []) := by
  unfold shellContextSetDevicesPath
  apply Safe.call_alone trivial trivial
  rintro environment _ rfl
  cases environmentPath environment with
  | some path =>
    dsimp only
    by_cases habsolute : path.head? = some '/'.toUInt8
    · rw [if_pos habsolute]
      by_cases hshort : path.length < SHELL_CONFIG_PATH_SIZE
      · rw [if_pos hshort]
        exact SearchSafe.ret hshort
      · rw [if_neg hshort]
        exact SearchSafe.ret empty_path
    rw [if_neg habsolute]
    apply Safe.call_alone trivial trivial
    rintro cwd _ rfl
    cases cwd with
    | none => exact SearchSafe.ret empty_path
    | some cwd => exact shellContextDevicesPath_safe _ _ _
  | none =>
    apply Safe.call_alone trivial trivial
    rintro link _ rfl
    refine SearchSafe.orElse (executableDevicesPath_safe empty_path link) fun r hr => ?_
    apply Safe.call_alone trivial trivial
    rintro cwd _ rfl
    cases cwd with
    | none => exact SearchSafe.ret empty_path
    | some cwd =>
      exact SearchSafe.orElse (shellContextDevicesPath_safe _ _ _) fun _ _ => SearchSafe.ret empty_path

theorem loadConfig_safe (path : ℤ × List Byte) :
    Safe contextWorld contextWatch (fun config w' => ConfigOk config ∧ w' = w) (loadConfig path) w := by
  unfold loadConfig
  by_cases hfound : path.1 = 0
  · rw [if_pos hfound]
    apply Safe.call_alone trivial trivial
    rintro files _ rfl
    have hok := configLoad_ok files path.2 configInit_ok
    by_cases hfailed : (configLoad files configInit path.2).1 ≠ MiniShell_OK
    · rw [if_pos hfailed]
      apply Safe.call_alone trivial trivial
      rintro _ _ rfl
      exact Safe.ret_alone trivial ⟨hok, rfl⟩
    · rw [if_neg hfailed]
      exact Safe.ret_alone trivial ⟨hok, rfl⟩
  · rw [if_neg hfound]
    apply Safe.call_alone trivial trivial
    rintro _ _ rfl
    exact Safe.ret_alone trivial ⟨configInit_ok, rfl⟩

/-- The manager, and the level of the log as it was. -/
def DevicesOver (w : ContextState) (m : DeviceManager) (w' : ContextState) : Prop :=
  ManagerOk m w'.device ∧ w'.debug = w.debug

theorem reloadUse_session (c : DeviceCall) (h : ReloadUse c) : SessionUse c := .inr h

theorem loadDevicesConfig_safe (h : ManagerOk deviceManagerInit w.device) (path : ℤ × List Byte) :
    Safe contextWorld contextWatch (DevicesOver w) (loadDevicesConfig path) w := by
  unfold loadDevicesConfig
  by_cases hfound : path.1 = 0
  · rw [if_pos hfound]
    apply Safe.call_alone trivial trivial
    rintro files _ rfl
    refine Safe.bind (onContext_safe reloadUse_session (deviceManagerLoad_over h files path.2)) fun r w' hr _ => ?_
    obtain ⟨⟨hmanager, -, -⟩, hdebug⟩ := hr
    by_cases hfailed : r.1.ret < 0
    · rw [if_pos hfailed]
      apply Safe.call_alone trivial trivial
      intro message w₁ hstep
      obtain ⟨device, hdevice, rfl⟩ := hstep
      have hdevice : device = w'.device := hdevice
      rw [hdevice]
      apply Safe.call_alone trivial trivial
      rintro _ _ rfl
      exact Safe.ret_alone trivial ⟨hmanager, hdebug⟩
    · rw [if_neg hfailed]
      exact Safe.ret_alone trivial ⟨hmanager, hdebug⟩
  · rw [if_neg hfound]
    apply Safe.call_alone trivial trivial
    rintro _ _ rfl
    exact Safe.ret_alone trivial ⟨h, rfl⟩

/-- Whatever the surroundings are. -/
theorem shellContextInit_safe (h : ManagerOk deviceManagerInit w.device) :
    Safe contextWorld contextWatch ContextOk shellContextInit w := by
  unfold shellContextInit
  refine Safe.bind shellContextSetConfigPath_safe fun configPath _ hpath _ => ?_
  obtain ⟨hconfigPath, rfl⟩ := hpath
  refine Safe.bind (loadConfig_safe configPath) fun config w' hconfig _ => ?_
  obtain ⟨hconfig, hsame⟩ := hconfig
  rw [hsame]
  apply Safe.call_alone trivial trivial
  intro _ w₁ hstep
  have hfresh : ManagerOk deviceManagerInit w₁.device := by
    rw [hstep]
    exact h
  have hlevel : w₁.debug = decide (config.debug ≠ 0) := by rw [hstep]
  refine Safe.bind shellContextSetDevicesPath_safe fun devicesPath w₂ hpath _ => ?_
  obtain ⟨hdevicesPath, rfl⟩ := hpath
  refine Safe.bind (loadDevicesConfig_safe hfresh devicesPath) fun devices w₃ hdevices _ => ?_
  obtain ⟨hmanager, hdebug⟩ := hdevices
  exact Safe.ret_alone trivial ⟨le_refl 0, hconfig, hdebug.trans hlevel, hconfigPath, hmanager, hdevicesPath⟩

/-- A builtin is over: the paths are those found at the start. -/
def BuiltinOver (ctx : RuntimeContext) (r : ℤ × RuntimeContext) (w : ContextState) : Prop :=
  ContextOk r.2 w ∧ r.2.rest.configFile = ctx.rest.configFile ∧ r.2.rest.devicesFile = ctx.rest.devicesFile

/-- Something is printed in the context. -/
theorem contextPrint_safe {α : Type} {Q : α → ContextState → Prop} {line : List Byte} {a : α} (h : Q a w) :
    Safe contextWorld contextWatch Q (.call (.command (.print line)) fun _ => .ret a) w := by
  apply Safe.call_alone trivial trivial
  intro _ w' hstep
  obtain ⟨device, hdevice, rfl⟩ := hstep
  have hdevice : device = w.device := hdevice
  rw [hdevice]
  exact Safe.ret_alone trivial h

theorem builtinReload_safe (h : ContextOk ctx w) :
    Safe contextWorld contextWatch (BuiltinOver ctx) (builtinReload ctx) w := by
  unfold builtinReload
  apply Safe.call_alone trivial trivial
  rintro files _ rfl
  have hok := configLoad_ok files ctx.rest.configFile h.config
  dsimp only
  by_cases hfailed : (configLoad files ctx.rest.config ctx.rest.configFile).1 ≠ MiniShell_OK
  · rw [if_pos hfailed]
    have hsame : (configLoad files ctx.rest.config ctx.rest.configFile).2 = ctx.rest.config :=
      configLoad_failed hfailed
    have hlevel := h.level
    rw [← hsame] at hlevel
    apply Safe.call_alone trivial trivial
    rintro _ _ rfl
    exact Safe.ret_alone trivial ⟨⟨h.status, hok, hlevel, h.configFile, h.devices, h.devicesFile⟩, rfl, rfl⟩
  · rw [if_neg hfailed]
    apply Safe.call_alone trivial trivial
    rintro _ _ rfl
    exact contextPrint_safe ⟨⟨h.status, hok, rfl, h.configFile, h.devices, h.devicesFile⟩, rfl, rfl⟩

theorem builtinDevice_safe (h : ContextOk ctx w) (argv : List (List Byte)) :
    Safe contextWorld contextWatch (BuiltinOver ctx) (builtinDevice ctx argv) w := by
  unfold builtinDevice
  apply Safe.call_alone trivial trivial
  rintro files _ rfl
  have hcommand := cmdDevice_safe h.devices files ctx.rest.devicesFile argv
  refine Safe.bind (onContext_safe (commandUse_session argv) hcommand) fun r w' hr _ => ?_
  obtain ⟨hover, hdebug⟩ := hr
  refine Safe.ret_alone trivial ⟨⟨h.status, h.config, ?_, h.configFile, hover.ok, h.devicesFile⟩, rfl, rfl⟩
  exact hdebug.trans h.level

theorem runBuiltin_safe (h : ContextOk ctx w) (operation : ContextOperation) :
    Safe contextWorld contextWatch (BuiltinOver ctx) (runBuiltin ctx operation) w := by
  cases operation with
  | reload => exact builtinReload_safe h
  | device argv => exact builtinDevice_safe h argv
  | status => exact contextPrint_safe ⟨h, rfl, rfl⟩
  | exit =>
    exact Safe.ret_alone trivial
      ⟨⟨h.status, h.config, h.level, h.configFile, h.devices, h.devicesFile⟩, rfl, rfl⟩

/-- What is kept between two builtins: the context is consistent, and the paths
are those of `start`. -/
def ContextKept (start ctx : RuntimeContext) (w : ContextState) : Prop :=
  ContextOk ctx w ∧ ctx.rest.configFile = start.rest.configFile ∧ ctx.rest.devicesFile = start.rest.devicesFile

theorem contextOperate_safe {start : RuntimeContext} (h : ContextKept start ctx w) (operation : ContextOperation) :
    Safe contextWorld contextWatch (ContextKept start) (contextOperate ctx operation) w := by
  obtain ⟨hok, hconfigFile, hdevicesFile⟩ := h
  refine Safe.map (runBuiltin_safe hok operation) fun r w' hr => ?_
  obtain ⟨hok', hconfigFile', hdevicesFile'⟩ := hr
  refine ⟨⟨?_, hok'.config, hok'.level, hok'.configFile, hok'.devices, hok'.devicesFile⟩,
    hconfigFile'.trans hconfigFile, hdevicesFile'.trans hdevicesFile⟩
  show 0 ≤ if r.1 < 0 then 1 else r.1
  split_ifs
  · decide
  · omega

theorem contextOperations_safe {start : RuntimeContext} (h : ContextKept start ctx w)
    (operations : List ContextOperation) :
    Safe contextWorld contextWatch (ContextKept start) (contextOperations ctx operations) w :=
  Safe.foldlM (fun _ => stable_alone _) (fun _ _ _ => trivial)
    (fun _ operation _ hctx => contextOperate_safe hctx operation) operations h

/-- Everything is released. -/
def ContextGone (ctx : RuntimeContext) (w : ContextState) : Prop :=
  ctx.rest.running = 0 ∧ ctx.rest.devices = deviceManagerInit ∧ w.device.heap.created.Nodup ∧
    w.device.heap.released.Perm w.device.heap.created

theorem shellContextDestroy_safe (h : ContextOk ctx w) :
    Safe contextWorld contextWatch ContextGone (shellContextDestroy ctx) w := by
  unfold shellContextDestroy
  apply Safe.call_alone trivial trivial
  rintro _ _ rfl
  refine Safe.bind (onContext_safe reloadUse_session (deviceManagerDestroy_over h.devices)) fun devices w' hr _ => ?_
  obtain ⟨⟨hinit, hfresh, hperm⟩, -⟩ := hr
  exact Safe.ret_alone trivial ⟨rfl, hinit, hfresh, hperm⟩

end Context

/-- The state when the shell starts. -/
def contextStart : ContextState := ⟨⟨⟨[], []⟩, []⟩, true⟩

/-- At the end every device context that was created has been released once. -/
theorem context_session (operations : List ContextOperation) :
    Safe contextWorld contextWatch ContextGone (contextSession operations) contextStart := by
  refine Safe.bind (shellContextInit_safe (ManagerOk.init [])) fun start w hstart _ => ?_
  refine Safe.bind (contextOperations_safe ⟨hstart, rfl, rfl⟩ operations) fun ctx w' hctx _ => ?_
  exact shellContextDestroy_safe hctx.1

end DeviceRuntime
