/-
# The context of the shell

`src/shell_context.c`: where the two configuration files are looked for, and
what is loaded from them when the shell starts. With it the builtins of
`src/builtin.c` and `src/cmd_device.c` that work on what was loaded.

A search returns what the function returns, with the path it leaves in the
context. `files` is the file system when a file is opened. The job table and
the input buffer have modules of their own; `job_shutdown` is a call.

Key definitions: `ContextCall`, `executableDirectory`,
`shellContextSetConfigPath`, `shellContextSetDevicesPath`, `shellContextInit`,
`builtinReload`, `shellContextDestroy`, `ContextOperation`, `contextOperate`.
-/
import DeviceRuntime.DeviceCommand
import DeviceRuntime.Parser
import DeviceRuntime.ShellConfig

namespace DeviceRuntime

abbrev SHELL_CONFIG_PATH_SIZE : ℕ := 4096

/-- `readlink` is that of `/proc/self/exe`: at most `size` bytes of the link.
`debug`: the level of the log is `LOG_DEBUG`. -/
inductive ContextCall
  | getenv (name : List Byte)
  | getcwd (size : ℕ)
  | readlink (size : ℕ)
  | access (path : List Byte)
  | files
  | log (message : List Byte)
  | logSetlevel (debug : Bool)
  | jobShutdown
  | command (c : DeviceCommandCall)

abbrev ContextCall.Ret : ContextCall → Type
  | .getenv _ => Option (List Byte)
  | .getcwd _ => Option (List Byte)
  | .readlink _ => Option (List Byte)
  | .access _ => Bool
  | .files => List Byte → Except ℕ ConfigFile
  | .log _ => Unit
  | .logSetlevel _ => Unit
  | .jobShutdown => Unit
  | .command c => c.Ret

abbrev ContextProg := Prog ContextCall ContextCall.Ret

/-- A command, in the context. -/
def onContext {α : Type} (p : DeviceCommandProg α) : ContextProg α := p.link fun c => .call (.command c) .ret

/-- What is returned, and the path in the context. -/
abbrev PathSearch := ContextProg (ℤ × List Byte)

/-! ### The file with the configuration -/

def shellContextCopyConfigPath (configFile path : List Byte) : PathSearch :=
  if path = [] then .ret (-1, configFile)
  else if path.length ≥ SHELL_CONFIG_PATH_SIZE then
    .call (.log (text "config path is too long")) fun _ => .ret (-1, [])
  else .ret (0, path)

/-- `%s/%s` -/
def joinPath (directory relative : List Byte) : List Byte := directory ++ '/'.toUInt8 :: relative

def shellContextSetEnvironmentConfigPath (configFile path : List Byte) : PathSearch :=
  if path.head? = some '/'.toUInt8 then shellContextCopyConfigPath configFile path
  else .call (.getcwd SHELL_CONFIG_PATH_SIZE) fun
    | none => .call (.log (text "failed resolve current directory")) fun _ => .ret (-1, configFile)
    | some cwd =>
      if (joinPath cwd path).length ≥ SHELL_CONFIG_PATH_SIZE then
        .call (.log (text "config path is too long")) fun _ => .ret (-1, configFile)
      else shellContextCopyConfigPath configFile (joinPath cwd path)

def shellContextTryConfigPath (configFile directory relative : List Byte) : PathSearch :=
  if (joinPath directory relative).length ≥ SHELL_CONFIG_PATH_SIZE then .ret (-1, configFile)
  else .call (.access (joinPath directory relative)) fun found =>
    if !found then .ret (-1, configFile) else shellContextCopyConfigPath configFile (joinPath directory relative)

/-- What stands before the last slash of the executable; `none` if there is no
slash or the link was not read to its end. -/
def executableDirectory (link : Option (List Byte)) : Option (List Byte) :=
  match link with
  | none => none
  | some link =>
    if ¬ (link.length > 0 ∧ link.length < SHELL_CONFIG_PATH_SIZE - 1) then none
    else
      let executable := cstr link
      if '/'.toUInt8 ∉ executable then none
      else
        let directory := ((executable.reverse.dropWhile (· ≠ '/'.toUInt8)).drop 1).reverse
        if directory = [] then some (text "/") else some directory

/-- The environment variable if there is something in it. -/
def environmentPath (environment : Option (List Byte)) : Option (List Byte) := environment.filter fun path => path ≠ []

/-- The part of `shell_context_set_config_path` with the executable. -/
def tryExecutableConfigPath (configFile : List Byte) (link : Option (List Byte)) : PathSearch :=
  match executableDirectory link with
  | none => .ret (-1, configFile)
  | some executable =>
    (shellContextTryConfigPath configFile executable (text "../config/config.conf")).bind fun r =>
      if r.1 = 0 then .ret r else shellContextTryConfigPath r.2 executable (text "config/config.conf")

def shellContextSetConfigPath (configFile : List Byte) : PathSearch :=
  .call (.getenv (text "MINISHELL_CONFIG")) fun environment =>
    match environmentPath environment with
    | some environment => shellContextSetEnvironmentConfigPath configFile environment
    | none => .call (.readlink (SHELL_CONFIG_PATH_SIZE - 1)) fun link =>
      (tryExecutableConfigPath configFile link).bind fun r =>
        if r.1 = 0 then .ret r
        else .call (.getcwd SHELL_CONFIG_PATH_SIZE) fun
          | none => .ret (-1, [])
          | some cwd => (shellContextTryConfigPath r.2 cwd (text "config/config.conf")).bind fun r =>
            if r.1 = 0 then .ret r else .ret (-1, [])

/-! ### The file with the devices -/

def shellContextDevicesPath (directory relative : List Byte) (mustExist : Bool) : PathSearch :=
  if (joinPath directory relative).length ≥ SHELL_CONFIG_PATH_SIZE then .ret (-1, [])
  else if mustExist then .call (.access (joinPath directory relative)) fun found =>
    if !found then .ret (-1, []) else .ret (0, joinPath directory relative)
  else .ret (0, joinPath directory relative)

/-- The part of `shell_context_set_devices_path` with the executable. -/
def executableDevicesPath (devicesFile : List Byte) (link : Option (List Byte)) : PathSearch :=
  match executableDirectory link with
  | none => .ret (-1, devicesFile)
  | some directory => (shellContextDevicesPath directory (text "../config/devices.conf") true).bind fun r =>
    if r.1 = 0 then .ret r else shellContextDevicesPath directory (text "config/devices.conf") true

def shellContextSetDevicesPath (devicesFile : List Byte) : PathSearch :=
  .call (.getenv (text "MINISHELL_DEVICES_CONFIG")) fun environment =>
    match environmentPath environment with
    | some environment =>
      if environment.head? = some '/'.toUInt8 then
        if environment.length < SHELL_CONFIG_PATH_SIZE then .ret (0, environment) else .ret (-1, [])
      else .call (.getcwd SHELL_CONFIG_PATH_SIZE) fun
        | none => .ret (-1, devicesFile)
        | some directory => shellContextDevicesPath directory environment false
    | none => .call (.readlink (SHELL_CONFIG_PATH_SIZE - 1)) fun link =>
      (executableDevicesPath devicesFile link).bind fun r =>
        if r.1 = 0 then .ret r
        else .call (.getcwd SHELL_CONFIG_PATH_SIZE) fun
          | none => .ret (-1, [])
          | some directory => (shellContextDevicesPath directory (text "config/devices.conf") true).bind fun r =>
            if r.1 = 0 then .ret r else .ret (-1, [])

/-! ### The context -/

/-- The members that are set here. -/
structure ContextMembers where
  running : ℤ
  config : MiniShellConfig
  configFile : List Byte
  devices : DeviceManager
  devicesFile : List Byte

abbrev RuntimeContext := ShellContext ContextMembers

/-- `config_load` in `shell_context_init`; the result is the configuration. -/
def loadConfig (path : ℤ × List Byte) : ContextProg MiniShellConfig :=
  if path.1 = 0 then .call .files fun files =>
    if (configLoad files configInit path.2).1 ≠ MiniShell_OK then
      .call (.log (text "using default config")) fun _ => .ret (configLoad files configInit path.2).2
    else .ret (configLoad files configInit path.2).2
  else .call (.log (text "config file not found, using default config")) fun _ => .ret configInit

/-- `device_manager_load` in `shell_context_init`; the result is the manager. -/
def loadDevicesConfig (path : ℤ × List Byte) : ContextProg DeviceManager :=
  if path.1 = 0 then .call .files fun files =>
    (onContext (onCommand (deviceManagerLoad deviceManagerInit files path.2))).bind fun r =>
      if r.1.ret < 0 then .call (.command (.strerror r.1.errno)) fun message =>
        .call (.log (text "failed load devices config: " ++ path.2 ++ text ": " ++ message)) fun _ => .ret r.2
      else .ret r.2
  else .call (.log (text "devices config file not found")) fun _ => .ret deviceManagerInit

def shellContextInit : ContextProg RuntimeContext :=
  (shellContextSetConfigPath []).bind fun configPath =>
    (loadConfig configPath).bind fun config =>
      .call (.logSetlevel (config.debug ≠ 0)) fun _ =>
        (shellContextSetDevicesPath []).bind fun devicesPath =>
          (loadDevicesConfig devicesPath).bind fun devices =>
            .ret ⟨0, ⟨1, config, configPath.2, devices, devicesPath.2⟩⟩

def builtinReload (ctx : RuntimeContext) : ContextProg (ℤ × RuntimeContext) :=
  .call .files fun files =>
    let r := configLoad files ctx.rest.config ctx.rest.configFile
    let ctx : RuntimeContext := { ctx with rest := { ctx.rest with config := r.2 } }
    if r.1 ≠ MiniShell_OK then
      .call (.log (text "failed reload config: " ++ ctx.rest.configFile)) fun _ => .ret (MiniShell_ERR_UNKNOWN, ctx)
    else .call (.logSetlevel (ctx.rest.config.debug ≠ 0)) fun _ =>
      .call (.command (.print (text "config reloaded\n"))) fun _ => .ret (MiniShell_OK, ctx)

def builtinStatus (ctx : RuntimeContext) : ContextProg (ℤ × RuntimeContext) :=
  .call (.command (.print (decimalInt ctx.lastExitStatus ++ [LF]))) fun _ => .ret (MiniShell_OK, ctx)

def builtinExit (ctx : RuntimeContext) : ContextProg (ℤ × RuntimeContext) :=
  .ret (ctx.lastExitStatus, { ctx with rest := { ctx.rest with running := 0 } })

def builtinDevice (ctx : RuntimeContext) (argv : List (List Byte)) : ContextProg (ℤ × RuntimeContext) :=
  .call .files fun files =>
    (onContext (cmdDevice ctx.rest.devices files ctx.rest.devicesFile argv)).bind fun r =>
      .ret (r.1, { ctx with rest := { ctx.rest with devices := r.2 } })

def shellContextDestroy (ctx : RuntimeContext) : ContextProg RuntimeContext :=
  .call .jobShutdown fun _ =>
    (onContext (onCommand (deviceManagerDestroy ctx.rest.devices))).bind fun devices =>
      .ret { ctx with rest := { ctx.rest with running := 0, devices := devices } }

/-! ### What the shell does with it -/

/-- The builtins that work on what was loaded. -/
inductive ContextOperation
  | reload
  | device (argv : List (List Byte))
  | status
  | exit

def runBuiltin (ctx : RuntimeContext) : ContextOperation → ContextProg (ℤ × RuntimeContext)
  | .reload => builtinReload ctx
  | .device argv => builtinDevice ctx argv
  | .status => builtinStatus ctx
  | .exit => builtinExit ctx

/-- A builtin, as `shell_dispatch_input` runs it: its status is the new
`last_exit_status`. -/
def contextOperate (ctx : RuntimeContext) (operation : ContextOperation) : ContextProg RuntimeContext :=
  (runBuiltin ctx operation).bind fun r =>
    .ret { r.2 with lastExitStatus := if r.1 < 0 then 1 else r.1 }

def contextOperations (ctx : RuntimeContext) (operations : List ContextOperation) : ContextProg RuntimeContext :=
  operations.foldlM contextOperate ctx

/-- The context from the start of the shell to its end. -/
def contextSession (operations : List ContextOperation) : ContextProg RuntimeContext :=
  shellContextInit.bind fun ctx => (contextOperations ctx operations).bind shellContextDestroy

end DeviceRuntime
