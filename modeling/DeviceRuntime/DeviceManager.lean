/-
# The device manager

`src/device_manager.c`, with `device_backend_init` and `backend_destroy` of
`src/device_backend.c`. A device that is initialised by `deviceBackendInit`
owns the context `calloc` gave it; a caller's context is the caller's.

The array of the manager is the list of its devices. The functions of the
device layer are run with `onDevices`, where the destructor of a backend is
`backendDestroy`.

Key definitions: `DeviceManager`, `deviceBackendInit`, `deviceManagerRegister`,
`deviceManagerCloseAll`, `deviceManagerDestroy`, `deviceManagerLoad`.
-/
import DeviceRuntime.DeviceConfig

namespace DeviceRuntime

abbrev BRIGHTNESS_PATH_SIZE : ℕ := DEVICE_PATH_SIZE + DEVICE_NAME_SIZE

/-- The calls of the manager: what a device layer calls, and the heap. `free`
has a context or a NULL pointer. -/
inductive ManagerCall
  | device (c : DeviceCall)
  | calloc (type : DeviceType)
  | free (context : Option ℕ)

/-- `calloc` gives a context or fails with an `errno`. -/
abbrev ManagerCall.Ret : ManagerCall → Type
  | .device c => c.Ret
  | .calloc _ => Except ℕ ℕ
  | .free _ => Unit

abbrev ManagerProg := Prog ManagerCall ManagerCall.Ret

def OpsTable.isCaller : OpsTable → Bool
  | .caller _ => true
  | _ => false

/-! ### Backends -/

/-- The tables of `device_backend.c`, by the type of the device. -/
def backendOps : DeviceType → DeviceOps
  | .uart => ⟨.uartOps, true, true, true, true, true, true⟩
  | .i2c => ⟨.i2cOps, true, true, true, false, true, true⟩
  | .oled => ⟨.oledOps, true, false, false, true, true, true⟩
  | .gpio => ⟨.gpioOps, true, true, true, false, true, true⟩
  | .led => ⟨.ledOps, true, true, true, true, true, true⟩

/-- `backend_destroy`: close once more and release the context. -/
def backendDestroy (d : Device) : ManagerProg Unit := do
  if d.ops.any (·.hasClose) then
    let _ ← (.call (.device (.backendClose d)) .ret : ManagerProg CallResult)
  .call (.free d.context) .ret

/-- A callback of a device: the destructor of a backend is `backend_destroy`. -/
def deviceCallback : (c : DeviceCall) → ManagerProg c.Ret
  | .backendDestroy d =>
    if d.ops.all (·.table.isCaller) then .call (.device (.backendDestroy d)) .ret else backendDestroy d
  | c => .call (.device c) .ret

/-- A function of the device layer, in the manager. -/
def onDevices {α : Type} (p : DeviceProg α) : ManagerProg α := p.link deviceCallback

def brightnessPath (ledName : List Byte) : List Byte :=
  text "/sys/class/leds/" ++ ledName ++ text "/brightness"

/-- The device, or the `errno` of a failure. -/
def deviceBackendInit (config : DeviceConfig) : ManagerProg (Except ℕ Device) := do
  if !deviceConfigValidate config then return .error EINVAL
  match ← (.call (.calloc config.type) .ret : ManagerProg (Except ℕ ℕ)) with
  | .error errno => return .error errno
  | .ok context =>
    if config.type = .led ∧ (brightnessPath config.ledName).length ≥ BRIGHTNESS_PATH_SIZE then
      let _ ← (.call (.free (some context)) .ret : ManagerProg Unit)
      return .error ENAMETOOLONG
    return .ok (deviceInit (some config) (some (backendOps config.type)) (some context))

/-! ### The manager -/

structure DeviceManager where
  devices : List Device
  count_le : devices.length ≤ DEVICE_MAX_COUNT
deriving DecidableEq, Repr

def deviceManagerInit : DeviceManager := ⟨[], Nat.zero_le _⟩

def deviceManagerFind (m : DeviceManager) (name : List Byte) : Option Device :=
  m.devices.find? fun device => device.config.name = name

def deviceManagerGet (m : DeviceManager) (index : ℕ) : Option Device := m.devices[index]?

/-- What is written through the pointer `device_manager_get` returned. -/
def DeviceManager.set (m : DeviceManager) (index : ℕ) (d : Device) : DeviceManager :=
  ⟨m.devices.set index d, by rw [List.length_set]; exact m.count_le⟩

/-- `config` and `ops` are `none` for NULL pointers. -/
def deviceManagerRegister (m : DeviceManager) (config : Option DeviceConfig) (ops : Option DeviceOps)
    (context : Option ℕ) : CallResult × DeviceManager :=
  match config, ops with
  | some config, some ops =>
    if !ops.hasOpen ∨ !ops.hasClose ∨ !deviceConfigValidate config then (⟨-1, EINVAL⟩, m)
    else if (deviceManagerFind m config.name).isSome then (⟨-1, EEXIST⟩, m)
    else if h : m.devices.length < DEVICE_MAX_COUNT then
      (⟨0, 0⟩, ⟨m.devices ++ [deviceInit (some config) (some ops) context], by
        rw [List.length_append]; exact h⟩)
    else (⟨-1, ENOSPC⟩, m)
  | _, _ => (⟨-1, EINVAL⟩, m)

/-- One turn of the loop of `device_manager_close_all`, with `saved_errno`. -/
def closeDevice (s : DeviceManager × ℕ) (i : ℕ) : ManagerProg (DeviceManager × ℕ) :=
  match deviceManagerGet s.1 i with
  | none => .ret s
  | some d => (onDevices (deviceClose d)).bind fun r =>
    .ret (s.1.set i r.device, if r.ret < 0 ∧ s.2 = 0 then r.errno else s.2)

def deviceManagerCloseAll (m : DeviceManager) : ManagerProg (CallResult × DeviceManager) := do
  let s ← (List.range m.devices.length).foldlM closeDevice (m, 0)
  if s.2 ≠ 0 then return (⟨-1, s.2⟩, s.1)
  return (⟨0, 0⟩, s.1)

/-- The loop of `device_manager_destroy`. -/
def destroyDevices : List Device → ManagerProg Unit
  | [] => .ret ()
  | d :: ds => (onDevices (deviceDestroy d)).bind fun _ => destroyDevices ds

def deviceManagerDestroy (m : DeviceManager) : ManagerProg DeviceManager := do
  destroyDevices m.devices
  return deviceManagerInit

/-- The loop of `device_manager_load`, with `temporary`: the second manager, or
the `errno` with which it was given up. -/
def loadDevices (temporary : DeviceManager) : (configs : List DeviceConfig) →
    temporary.devices.length + configs.length ≤ DEVICE_MAX_COUNT → ManagerProg (Except ℕ DeviceManager)
  | [], _ => .ret (.ok temporary)
  | config :: configs, h => (deviceBackendInit config).bind fun
    | .error errno => (deviceManagerDestroy temporary).bind fun _ => .ret (.error errno)
    | .ok d => loadDevices
        ⟨temporary.devices ++ [d], by rw [List.length_append, List.length_singleton]; rw [List.length_cons] at h; omega⟩
        configs (by rw [List.length_append, List.length_singleton]; rw [List.length_cons] at h; omega)

/-- `files` is the file system at the time of the call. -/
def deviceManagerLoad (m : DeviceManager) (files : List Byte → Except ℕ ConfigFile) (filename : List Byte) :
    ManagerProg (CallResult × DeviceManager) := do
  if m.devices.any fun device => device.opened ≠ 0 then return (⟨-1, EBUSY⟩, m)
  let loaded := deviceConfigLoad files ⟨[], Nat.zero_le _⟩ filename
  if loaded.ret < 0 then return (⟨-1, loaded.errno⟩, m)
  let temporary ← loadDevices deviceManagerInit loaded.list.devices (by
    rw [show deviceManagerInit.devices.length = 0 from rfl, Nat.zero_add]; exact loaded.list.count_le)
  match temporary with
  | .error errno => return (⟨-1, errno⟩, m)
  | .ok temporary =>
    let _ ← deviceManagerDestroy m
    return (⟨0, 0⟩, temporary)

end DeviceRuntime
