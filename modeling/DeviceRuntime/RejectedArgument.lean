/-
# A rejected argument and the device

Which failures of a backend leave a device usable is decided by a list of
`errno`s in `device_result`, while the `errno` comes from a driver. A request
is rejected when it fails without a call to the hardware: then the device
stays open and ready, but for two requests. An invalid trigger leaves no
`errno`, for which `led_control` puts `EIO`, and a text that is not UTF-8 is
`EILSEQ`; neither is on the list.

The context of the device is in memory, and the log may leave any `errno`.

Key definitions: `DeviceRequest`, `perform`, `Memory`, `OpenDevice`, `Unheard`,
`Rejected`, `LeavesReady`, `Breaks`.
Key theorems: `perform_cases`, `backend_rejection`, `trigger_rejected`,
`rejected_argument`, `rejected_trigger`.
-/
import DeviceRuntime.Backend
import DeviceRuntime.BackendOpen
import DeviceRuntime.Lib.Safe

namespace DeviceRuntime

open HardwareCall

/-- A request to an opened device. -/
inductive DeviceRequest
  | read (buffer : Bool) (size : ℕ)
  | write (buffer : Option (List Byte))
  | control (request : DeviceControl) (argument : ControlArgument)
deriving DecidableEq, Repr

def perform (d : Device) : DeviceRequest → DeviceProg DeviceResult
  | .read buffer size => (deviceRead d buffer size).bind fun r => .ret r.1
  | .write buffer => deviceWrite d buffer
  | .control request argument => deviceControl d request argument

/-! ### Requests without the hardware -/

/-- The contexts of the devices. -/
abbrev Memory := (type : DeviceType) → BackendContext type

/-- A context as an open leaves it. -/
def ContextOpen (m : Memory) : DeviceType → Prop
  | .uart => 0 ≤ (m .uart).fd
  | .i2c => 0 ≤ (m .i2c).fd
  | .oled => 0 ≤ (m .oled).bus.fd ∧ (m .oled).display.bus = true
  | .gpio => 0 ≤ (m .gpio).fd
  | .led => True

/-- A device of a backend that is opened and in the state `opened`. -/
structure OpenDevice (d : Device) (m : Memory) : Prop where
  valid : deviceConfigValidate d.config = true
  ops : d.ops = some (backendOps d.config.type)
  enabled : d.config.enabled ≠ 0
  opened : d.opened = 1
  state : d.state = .opened
  context : ContextOpen m d.config.type

/-- Calls that the hardware does not see. -/
def Inside : HardwareCall → Prop
  | .load _ => True
  | .store _ _ => True
  | .logError _ _ => True
  | _ => False

def memorySem (m : Memory) : (o : HardwareCall) → o.Ret → Memory → Prop
  | .load type, r, m' => r = m type ∧ m' = m
  | .store type context, _, m' => m' = Function.update m type context
  | _, _, m' => m' = m

def insideWatch : Prog.Watch HardwareCall Memory := ⟨fun _ => True, fun o _ => Inside o⟩

/-- The program makes no call that the hardware sees, and returns as wanted. -/
abbrev Unheard {α : Type} (Q : α → Prop) (p : HardwareProg α) (m : Memory) : Prop :=
  Prog.Safe (Prog.World.alone memorySem) insideWatch (fun a _ => Q a) p m

section Unheard

variable {α β : Type} {Q : α → Prop} {m : Memory}

@[simp] theorem unheard_ret {a : α} : Unheard Q (.ret a) m ↔ Q a :=
  ⟨fun h => h.good.2, fun h => Prog.Safe.ret_alone trivial h⟩

@[simp] theorem unheard_load {type : DeviceType} {k : BackendContext type → HardwareProg α} :
    Unheard Q (.call (HardwareCall.load type) k) m ↔ Unheard Q (k (m type)) m := by
  constructor
  · intro h
    have hs : memorySem m (.load type) (m type) m := ⟨rfl, rfl⟩
    exact h.afterCall (o := HardwareCall.load type) (m type) hs
  · intro h
    apply Prog.Safe.call_alone trivial trivial
    rintro r m' ⟨rfl, rfl⟩
    exact h

@[simp] theorem unheard_store {type : DeviceType} {context : BackendContext type} {k : Unit → HardwareProg α} :
    Unheard Q (.call (HardwareCall.store type context) k) m ↔ Unheard Q (k ()) (Function.update m type context) := by
  constructor
  · intro h
    exact h.afterCall (o := HardwareCall.store type context) () rfl
  · intro h
    apply Prog.Safe.call_alone trivial trivial
    rintro _ m' rfl
    exact h

@[simp] theorem unheard_log {format : List Byte} {errno : ℕ} {k : ℕ → HardwareProg α} :
    Unheard Q (.call (HardwareCall.logError format errno) k) m ↔ ∀ e, Unheard Q (k e) m := by
  constructor
  · intro h e
    exact h.afterCall (o := HardwareCall.logError format errno) e rfl
  · intro h
    apply Prog.Safe.call_alone trivial trivial
    rintro e m' rfl
    exact h e

/-- What follows does not matter for what is heard. -/
theorem unheard_bind {p : HardwareProg β} {f : β → HardwareProg α} (h : Unheard Q (p.bind f) m) :
    Unheard (fun b => ∃ m', Unheard Q (f b) m') p m := by
  intro p' m' hr
  have hbind := hr.bind f
  have hgood := h.reach hbind
  cases p' with
  | ret b => exact ⟨trivial, m', hgood⟩
  | call o k => exact hgood.good
  | loop body s k => trivial

theorem unheard_map {g : β → α} {p : HardwareProg β} :
    Unheard Q (p.bind fun b => .ret (g b)) m ↔ Unheard (fun b => Q (g b)) p m := by
  constructor
  · intro h
    refine (unheard_bind h).weaken fun b _ _ hb => ?_
    obtain ⟨m', hb⟩ := hb
    exact unheard_ret.mp hb
  · intro h
    apply Prog.Safe.bind h
    intro b m' hb _
    exact unheard_ret.mpr hb

theorem unheard_loop {σ : Type} {body : σ → HardwareProg (σ ⊕ β)} {s : σ} {k : β → HardwareProg α} :
    Unheard Q (.loop body s k) m ↔ Unheard Q (Prog.unroll body s k) m :=
  ⟨fun h => h.afterLoop, fun h => Prog.Safe.loop_alone trivial h⟩

/-- The hardware sees something. -/
def Reaches (p : HardwareProg α) (m : Memory) : Prop := ¬ Unheard (fun _ => True) p m

theorem Reaches.not {p : HardwareProg α} (h : Reaches p m) : ¬ Unheard Q p m :=
  fun hq => h (hq.weaken fun _ _ _ _ => trivial)

theorem heard_call {o : HardwareCall} {k : o.Ret → HardwareProg α} (ho : ¬ Inside o) : Reaches (.call o k) m :=
  fun h => ho h.good.2

theorem heard_load {type : DeviceType} {k : BackendContext type → HardwareProg α} (h : Reaches (k (m type)) m) :
    Reaches (.call (HardwareCall.load type) k) m := fun hq => h (unheard_load.mp hq)

theorem unheard_loaded {type : DeviceType} {f : BackendContext type → HardwareProg α} :
    Unheard Q ((loadContext type).bind f) m ↔ Unheard Q (f (m type)) m := unheard_load

theorem unheard_stored {type : DeviceType} {context : BackendContext type} {f : Unit → HardwareProg α} :
    Unheard Q ((storeContext type context).bind f) m ↔ Unheard Q (f ()) (Function.update m type context) := unheard_store

theorem heard_loaded {type : DeviceType} {f : BackendContext type → HardwareProg α} (h : Reaches (f (m type)) m) :
    Reaches ((loadContext type).bind f) m := heard_load h

theorem heard_bind {p : HardwareProg β} {f : β → HardwareProg α} (h : Reaches p m) : Reaches (p.bind f) m :=
  fun hq => h.not (unheard_bind hq)

theorem heard_loop {σ : Type} {body : σ → HardwareProg (σ ⊕ β)} {s : σ} {k : β → HardwareProg α}
    (h : Reaches (body s) m) : Reaches (.loop body s k) m := fun hq => h.not (unheard_bind (unheard_loop.mp hq))

end Unheard

/-- The request fails, and the hardware sees nothing of it. -/
def Rejected (font : OledFont) (d : Device) (q : DeviceRequest) (m : Memory) : Prop :=
  Unheard (fun r => r.ret < 0) (onHardware font d.config.type (perform d q)) m

/-- The failure leaves a device for the next request. -/
structure StaysOpen (r : DeviceResult) : Prop where
  failed : r.ret < 0
  opened : r.device.opened = 1
  state : r.device.state = .opened
  ready : deviceReady r.device = none

def LeavesReady (font : OledFont) (d : Device) (q : DeviceRequest) (m : Memory) : Prop :=
  Unheard StaysOpen (onHardware font d.config.type (perform d q)) m

/-- The requests that break the device when they are rejected: a trigger for an
LED, and a text that begins on the screen. -/
def Breaks (d : Device) : DeviceRequest → Prop
  | .control .ledTrigger (.trigger _) => d.config.type = .led
  | .control .oledText (.text t) =>
    d.config.type = .oled ∧ (0 ≤ t.x ∧ t.x < OLED_WIDTH) ∧ 0 ≤ t.y ∧ t.y < OLED_HEIGHT
  | _ => False

/-! ### What the drivers do first -/

section Drivers

variable {m : Memory}

theorem i2cBusRead_heard {bus : I2cBus} (hopen : 0 ≤ bus.fd) (size : ℕ) : Reaches (i2cBusRead bus size) m := by
  unfold i2cBusRead
  rw [if_neg (Int.not_lt.mpr hopen)]
  exact heard_loop (heard_call id)

theorem i2cBusWrite_heard {bus : I2cBus} (hopen : 0 ≤ bus.fd) (data : List Byte) : Reaches (i2cBusWrite bus data) m := by
  unfold i2cBusWrite
  rw [if_neg (Int.not_lt.mpr hopen)]
  exact heard_loop (heard_call id)

theorem oledWriteCommands_heard {bus : I2cBus} {oled : Oled} (hopen : 0 ≤ bus.fd) (hbus : oled.bus = true)
    {commands : List Byte} (hne : commands.length ≠ 0) : Reaches (oledWriteCommands oled bus commands) m := by
  unfold oledWriteCommands
  rw [if_neg (by rw [hbus]; decide)]
  unfold oledWritePackets
  apply heard_loop
  rw [if_neg hne]
  exact heard_bind (i2cBusWrite_heard hopen _)

theorem oledRefresh_heard {bus : I2cBus} {oled : Oled} (hopen : 0 ≤ bus.fd) (hbus : oled.bus = true) :
    Reaches (oledRefresh oled bus) m := by
  unfold oledRefresh
  rw [if_neg (by rw [hbus]; decide)]
  exact heard_bind (oledWriteCommands_heard hopen hbus (by decide))

theorem sysfsReadText_heard {path : List Byte} {size : ℕ} (hsize : 2 ≤ size) : Reaches (sysfsReadText path size) m := by
  unfold sysfsReadText
  rw [if_neg (Nat.not_lt.mpr hsize)]
  exact heard_call id

theorem sysfsReadLong_heard (path : List Byte) : Reaches (sysfsReadLong path) m := by
  unfold sysfsReadLong
  exact heard_bind (sysfsReadText_heard (by decide))

theorem ledWriteTrigger_heard {name trigger path : List Byte}
    (hpath : ledBuildPath LED_PATH_SIZE name (text "trigger") = .ok path) (htrigger : trigger ≠ []) :
    Reaches (ledWriteTrigger name trigger) m := by
  unfold ledWriteTrigger
  rw [hpath]
  apply heard_bind
  unfold sysfsWriteText
  rw [if_neg htrigger]
  exact heard_call id

theorem ledReadMaxBrightness_heard {name path : List Byte}
    (hpath : ledBuildPath LED_PATH_SIZE name (text "max_brightness") = .ok path) :
    Reaches (ledReadMaxBrightness name) m := by
  unfold ledReadMaxBrightness
  rw [hpath]
  exact heard_bind (sysfsReadLong_heard path)

/-- The functions of an LED with a name that is configured. -/
structure LedNamed (name : List Byte) : Prop where
  valid : ledNameValid name = true
  path : ∀ attr ∈ ledAttributes, ∃ path, ledBuildPath LED_PATH_SIZE name attr = .ok path

theorem ledSet_heard {d : Device} (h : LedNamed d.config.ledName) {value : ℤ} (hvalue : value = 0 ∨ value = 1) :
    Reaches (ledSet d value) m := by
  have hname : ¬ (!ledNameValid d.config.ledName) = true := by
    rw [h.valid]
    decide
  unfold ledSet
  rcases hvalue with rfl | rfl
  · obtain ⟨path, hpath⟩ := h.path (text "trigger") (by decide)
    rw [if_neg (by decide), if_pos rfl]
    apply heard_bind
    unfold ledControlSetOff
    rw [if_neg hname]
    exact heard_bind (ledWriteTrigger_heard hpath (by decide))
  · obtain ⟨path, hpath⟩ := h.path (text "max_brightness") (by decide)
    rw [if_pos rfl]
    apply heard_bind
    unfold ledControlSetOn
    rw [if_neg hname]
    exact heard_bind (ledReadMaxBrightness_heard hpath)

theorem ledControlSetTrigger_heard {name trigger : List Byte} (h : LedNamed name)
    (htrigger : ledTriggerValid trigger = true) (errno : ℕ) : Reaches (ledControlSetTrigger name trigger errno) m := by
  have hvalid : ¬ ((!ledNameValid name) = true ∨ (!ledTriggerValid trigger) = true) := by
    rw [h.valid, htrigger]
    decide
  have hne : trigger ≠ [] := by
    rintro rfl
    cases htrigger
  obtain ⟨path, hpath⟩ := h.path (text "trigger") (by decide)
  unfold ledControlSetTrigger
  rw [if_neg hvalid]
  exact heard_bind (ledWriteTrigger_heard hpath hne)

/-- The log may leave no `errno`, and `EIO` is reported. -/
theorem ledControlSetTrigger_broken {name trigger : List Byte} (htrigger : ledTriggerValid trigger = false) :
    ¬ Unheard (fun r => r.ret < 0 ∧ transientErrno r.errno = true)
      ((ledControlSetTrigger name trigger 0).bind fun r => .ret (ledResult r)) m := by
  have hinvalid : (!ledNameValid name) = true ∨ (!ledTriggerValid trigger) = true := by
    rw [htrigger]
    exact .inr rfl
  unfold ledControlSetTrigger
  rw [if_pos hinvalid]
  intro h
  have hlog := (unheard_log.mp h) 0
  have hresult := unheard_ret.mp hlog
  exact absurd hresult.2 (by decide)

theorem pollFd_heard {fd timeoutMs : ℤ} (event : PollEvent) (htimeout : 0 ≤ timeoutMs) :
    Reaches ((pollFd fd event timeoutMs).link serialCall) m := by
  unfold pollFd
  rw [if_neg (Int.not_lt.mpr htimeout)]
  unfold pollNow
  by_cases hpos : timeoutMs > 0
  · rw [if_pos hpos]
    exact heard_call id
  · rw [if_neg hpos]
    apply heard_loop
    unfold pollTurn pollNow
    rw [if_neg hpos]
    simp only [Prog.bind_eq, Prog.ret_bind, hpos, false_and, if_false, lt_self_iff_false]
    exact heard_call id

theorem serialPortRead_heard {port : SerialPort} (hopen : 0 ≤ port.fd) (size : ℕ) :
    Reaches ((serialPortRead port size).link serialCall) m := by
  unfold serialPortRead
  rw [if_neg (Int.not_lt.mpr hopen)]
  exact heard_loop (heard_call id)

theorem serialPortWrite_heard {port : SerialPort} (hopen : 0 ≤ port.fd) (data : List Byte) :
    Reaches ((serialPortWrite port data).link serialCall) m := by
  unfold serialPortWrite
  rw [if_neg (Int.not_lt.mpr hopen)]
  exact heard_loop (heard_call id)

theorem serialPortFlushInput_heard {port : SerialPort} (hopen : 0 ≤ port.fd) :
    Reaches ((serialPortFlushInput port).link serialCall) m := by
  unfold serialPortFlushInput
  rw [if_neg (Int.not_lt.mpr hopen)]
  exact heard_loop (heard_call id)

end Drivers

/-! ### The requests -/

/-- The backend of a device, for a request. -/
def backendRequest (font : OledFont) (d : Device) : DeviceRequest → HardwareProg CallResult
  | .read _ size => (hardwareBackend font d.config.type (.backendRead d size)).bind fun r => .ret r.1
  | .write data => hardwareBackend font d.config.type (.backendWrite d (data.getD []))
  | .control request argument => hardwareBackend font d.config.type (.backendControl d request argument)

/-- A failure that is on the list of `device_result`. -/
def TransientFailure (r : CallResult) : Prop := r.ret < 0 ∧ transientErrno r.errno = true

section Requests

variable {d : Device} {m : Memory} {font : OledFont}

theorem OpenDevice.ready (h : OpenDevice d m) : deviceReady d = none := by
  rw [deviceReady_eq_none, h.ops, h.opened, h.state]
  exact ⟨by simp, h.enabled, by decide, by decide⟩

theorem OpenDevice.staysOpen (h : OpenDevice d m) (errno : ℕ) : StaysOpen (deviceFailure d errno) := by
  refine ⟨deviceFailure_ret d errno, h.opened, h.state, ?_⟩
  have hready := h.ready
  rw [deviceReady_eq_none] at hready ⊢
  exact hready

theorem OpenDevice.return_staysOpen (h : OpenDevice d m) (r : CallResult) :
    StaysOpen (deviceReturn d r) ↔ TransientFailure r := by
  unfold deviceReturn deviceResult
  by_cases hneg : r.ret < 0
  · rw [if_neg (not_not.mpr hneg)]
    by_cases htransient : transientErrno r.errno = true
    · rw [if_pos htransient]
      have hstays := h.staysOpen r.errno
      exact ⟨fun _ => ⟨hneg, htransient⟩, fun _ => ⟨hneg, hstays.opened, hstays.state, hstays.ready⟩⟩
    · rw [if_neg htransient]
      constructor
      · intro hstays
        cases hstays.state
      · intro hfailure
        exact absurd hfailure.2 htransient
  · exact ⟨fun hstays => absurd hstays.failed hneg, fun hfailure => absurd hfailure.1 hneg⟩

/-- A type whose requests may break the device has a control. -/
theorem OpenDevice.hasControl (h : OpenDevice d m) {q : DeviceRequest} (hq : Breaks d q) :
    d.ops.all (fun ops => !ops.hasControl) = false := by
  have htype : d.config.type = .led ∨ d.config.type = .oled := by
    unfold Breaks at hq
    split at hq
    · exact .inl hq
    · exact .inr hq.1
    · exact hq.elim
  rw [h.ops]
  rcases htype with htype | htype <;> rw [htype] <;> rfl

/-- The device layer refuses a request, or hands it to the backend. -/
theorem perform_cases (h : OpenDevice d m) (q : DeviceRequest) :
    (¬ Breaks d q ∧ ∃ errno, onHardware font d.config.type (perform d q) = .ret (deviceFailure d errno)) ∨
      onHardware font d.config.type (perform d q) =
        (backendRequest font d q).bind fun r => .ret (deviceReturn d r) := by
  have hready := h.ready
  cases q with
  | read buffer size =>
    by_cases hargs : (!buffer) = true ∨ size = 0
    · left
      refine ⟨id, EINVAL, ?_⟩
      unfold perform deviceRead
      dsimp only
      rw [hready, if_pos (by simpa using hargs)]
      rfl
    have hnot := hargs
    rw [not_or, Bool.not_eq_true, Bool.not_eq_false'] at hnot
    obtain ⟨rfl, hsize⟩ := hnot
    by_cases hread : d.ops.all (fun ops => !ops.hasRead) = true
    · left
      refine ⟨id, ENOTSUP, ?_⟩
      unfold perform deviceRead
      dsimp only
      rw [hready, if_neg (by simpa using hsize), if_pos hread]
      rfl
    · right
      unfold perform
      dsimp only
      rw [deviceRead_ready hready (by simpa using hread) hsize]
      unfold onHardware backendRequest
      simp only [Prog.call_bind, Prog.ret_bind, Prog.link_call, Prog.link_ret, Prog.bind_assoc]
  | write buffer =>
    unfold perform deviceWrite
    dsimp only
    rw [hready]
    cases buffer with
    | none => exact .inl ⟨id, EINVAL, rfl⟩
    | some data =>
      dsimp only
      by_cases hempty : data.length = 0
      · rw [if_pos hempty]
        exact .inl ⟨id, EINVAL, rfl⟩
      rw [if_neg hempty]
      by_cases hwrite : d.ops.all (fun ops => !ops.hasWrite) = true
      · rw [if_pos hwrite]
        exact .inl ⟨id, ENOTSUP, rfl⟩
      · rw [if_neg hwrite]
        exact .inr rfl
  | control request argument =>
    unfold perform deviceControl
    dsimp only
    rw [hready]
    dsimp only
    by_cases hcontrol : d.ops.all (fun ops => !ops.hasControl) = true
    · rw [if_pos hcontrol]
      refine .inl ⟨fun hq => ?_, ENOTSUP, rfl⟩
      rw [h.hasControl hq] at hcontrol
      cases hcontrol
    · rw [if_neg hcontrol]
      exact .inr rfl

theorem transient_einval : TransientFailure ⟨-1, EINVAL⟩ := ⟨by decide, by decide⟩

theorem transient_enotsup : TransientFailure ⟨-1, ENOTSUP⟩ := ⟨by decide, by decide⟩

theorem transient_emsgsize : TransientFailure ⟨-1, EMSGSIZE⟩ := ⟨by decide, by decide⟩

/-- The failures of a serial port that it does not see are on the list. -/
theorem uart_rejection (h : OpenDevice d m) (htype : d.config.type = .uart) (q : DeviceRequest)
    (hq : Unheard (fun r => r.ret < 0) (backendRequest font d q) m) :
    Unheard TransientFailure (backendRequest font d q) m := by
  have hopen : 0 ≤ (m .uart).fd := by
    have hcontext := h.context
    rw [htype] at hcontext
    exact hcontext
  unfold backendRequest at hq ⊢
  rw [htype] at hq ⊢
  cases q with
  | read buffer size => exact absurd hq (Reaches.not (heard_bind (heard_load (serialPortRead_heard hopen size))))
  | write data => exact absurd hq (Reaches.not (heard_load (serialPortWrite_heard hopen _)))
  | control request argument =>
    replace hq := unheard_load.mp hq
    apply unheard_load.mpr
    simp only [Prog.ret_bind] at hq ⊢
    split at hq
    · next ms =>
      unfold serialPortWaitReadable at hq ⊢
      by_cases hms : (m .uart).fd < 0 ∨ ms < 0
      · rw [if_pos hms]
        exact unheard_ret.mpr transient_einval
      · rw [if_neg hms] at hq
        exact absurd hq (pollFd_heard _ (by omega)).not
    · exact unheard_ret.mpr transient_einval
    · next request =>
      unfold serialPortWriteAll at hq ⊢
      by_cases hms : (m .uart).fd < 0 ∨ request.timeoutMs < 0
      · rw [if_pos hms]
        exact unheard_ret.mpr transient_einval
      rw [if_neg hms] at hq
      by_cases hempty : request.data.length = 0
      · rw [if_pos hempty] at hq
        have hzero : (0 : ℤ) < 0 := (@unheard_ret CallResult (fun r => r.ret < 0) m ⟨0, 0⟩).mp hq
        exact absurd hzero (by decide)
      · rw [if_neg hempty] at hq
        exact absurd hq (heard_call id).not
    · exact unheard_ret.mpr transient_einval
    · exact absurd hq (serialPortFlushInput_heard hopen).not
    · exact unheard_ret.mpr transient_enotsup

theorem i2c_rejection (h : OpenDevice d m) (htype : d.config.type = .i2c) (q : DeviceRequest)
    (hq : Unheard (fun r => r.ret < 0) (backendRequest font d q) m) :
    Unheard TransientFailure (backendRequest font d q) m := by
  have hopen : 0 ≤ (m .i2c).fd := by
    have hcontext := h.context
    rw [htype] at hcontext
    exact hcontext
  unfold backendRequest at hq ⊢
  rw [htype] at hq ⊢
  cases q with
  | read buffer size =>
    by_cases hsize : size > SSIZE_MAX
    · simp only [hardwareBackend, i2cRead, if_pos hsize]
      exact unheard_ret.mpr transient_emsgsize
    · simp only [hardwareBackend, i2cRead, if_neg hsize] at hq
      exact absurd hq (Reaches.not (heard_bind (heard_loaded (heard_bind (i2cBusRead_heard hopen size)))))
  | write data =>
    by_cases hsize : (data.getD []).length > SSIZE_MAX
    · simp only [hardwareBackend, i2cWrite, if_pos hsize]
      exact unheard_ret.mpr transient_emsgsize
    · simp only [hardwareBackend, i2cWrite, if_neg hsize] at hq
      exact absurd hq (Reaches.not (heard_loaded (heard_bind (i2cBusWrite_heard hopen _))))
  | control request argument => exact unheard_ret.mpr transient_enotsup

theorem gpio_rejection (h : OpenDevice d m) (htype : d.config.type = .gpio) (q : DeviceRequest)
    (hq : Unheard (fun r => r.ret < 0) (backendRequest font d q) m) :
    Unheard TransientFailure (backendRequest font d q) m := by
  have hopen : ¬ (m .gpio).fd < 0 := by
    have hcontext := h.context
    rw [htype] at hcontext
    exact Int.not_lt.mpr hcontext
  unfold backendRequest at hq ⊢
  rw [htype] at hq ⊢
  cases q with
  | read buffer size =>
    by_cases hsize : size ≠ INT_SIZE
    · simp only [hardwareBackend, gpioRead, if_pos hsize]
      exact unheard_ret.mpr transient_einval
    · simp only [hardwareBackend, gpioRead, if_neg hsize] at hq
      have hvalue : Reaches (gpioLineGetValue (m .gpio)) m := by
        unfold gpioLineGetValue
        rw [if_neg hopen]
        exact heard_call id
      exact absurd hq (Reaches.not (heard_bind (heard_loaded (heard_bind hvalue))))
  | write data =>
    simp only [hardwareBackend, gpioWrite] at hq ⊢
    by_cases hsize : (data.getD []).length ≠ INT_SIZE
    · rw [if_pos hsize]
      exact unheard_ret.mpr transient_einval
    rw [if_neg hsize] at hq ⊢
    by_cases hinput : d.config.gpioOutput = 0
    · rw [if_pos hinput]
      exact unheard_ret.mpr transient_enotsup
    rw [if_neg hinput] at hq ⊢
    replace hq := unheard_loaded.mp hq
    apply unheard_loaded.mpr
    unfold gpioLineSetValue at hq ⊢
    by_cases hvalue : (m .gpio).fd < 0 ∨ (intOfBytes (data.getD []) ≠ 0 ∧ intOfBytes (data.getD []) ≠ 1)
    · rw [if_pos hvalue]
      exact unheard_ret.mpr transient_einval
    · rw [if_neg hvalue] at hq
      exact absurd hq (heard_call id).not
  | control request argument => exact unheard_ret.mpr transient_enotsup

/-- A control that breaks the device is of its type. -/
theorem Breaks.request {request : DeviceControl} {argument : ControlArgument} (h : Breaks d (.control request argument)) :
    (request = .ledTrigger ∧ d.config.type = .led ∧ ∃ name, argument = .trigger name) ∨
      (request = .oledText ∧ d.config.type = .oled ∧ ∃ t, argument = .text t) := by
  unfold Breaks at h
  split at h
  · next heq =>
    cases heq
    exact .inl ⟨rfl, h, _, rfl⟩
  · next heq =>
    cases heq
    exact .inr ⟨rfl, h.1, _, rfl⟩
  · exact h.elim

theorem utf8Next_error {s : List Byte} {errno : ℕ} (h : utf8Next s = .error errno) : errno = EILSEQ := by
  unfold utf8Next at h
  dsimp only at h
  split_ifs at h
  all_goals exact (Except.error.inj h).symm

/-- A text is drawn, or what is left of it is not UTF-8. -/
theorem textLoop_result {x cursorX cursorY : ℤ} {s : List Byte} {drawn : List Cell} {r : CallResult × List Cell}
    (h : textLoop x cursorX cursorY s drawn = some r) : r.1 = ⟨0, 0⟩ ∨ r.1 = ⟨-1, EILSEQ⟩ := by
  fun_induction textLoop x cursorX cursorY s drawn with
  | case1 _ _ _ _ errno herror =>
    obtain rfl := Option.some.inj h
    rw [utf8Next_error herror]
    exact .inr rfl
  | case2 =>
    obtain rfl := Option.some.inj h
    exact .inl rfl
  | case3 => cases h
  | case4 _ _ _ _ _ _ _ _ _ ih => exact ih h
  | case5 =>
    obtain rfl := Option.some.inj h
    exact .inl rfl
  | case6 _ _ _ _ _ _ _ _ _ _ ih => exact ih h

/-- The failures of a text: outside of the screen, or not UTF-8. -/
theorem oledDrawTextUtf8_failed {oled display : Oled} {x y : ℤ} {s : List Byte} {r : CallResult}
    (h : oledDrawTextUtf8 font oled x y s = some (r, display)) (hneg : r.ret < 0) :
    TransientFailure r ↔ ¬ ((0 ≤ x ∧ x < OLED_WIDTH) ∧ 0 ≤ y ∧ y < OLED_HEIGHT) := by
  unfold oledDrawTextUtf8 textCells at h
  by_cases houtside : x < 0 ∨ x ≥ OLED_WIDTH ∨ y < 0 ∨ y ≥ OLED_HEIGHT
  · rw [if_pos houtside] at h
    obtain rfl : ⟨-1, EINVAL⟩ = r := (Prod.ext_iff.mp (Option.some.inj h)).1
    exact ⟨fun _ => by omega, fun _ => transient_einval⟩
  · rw [if_neg houtside] at h
    obtain ⟨⟨r', cells⟩, hloop, hr⟩ := Option.map_eq_some_iff.mp h
    obtain rfl : r' = r := (Prod.ext_iff.mp hr).1
    have hinside : (0 ≤ x ∧ x < OLED_WIDTH) ∧ 0 ≤ y ∧ y < OLED_HEIGHT := by omega
    rcases textLoop_result hloop with hr | hr
    · obtain rfl : r' = ⟨0, 0⟩ := hr
      exact absurd hneg (by decide)
    · obtain rfl : r' = ⟨-1, EILSEQ⟩ := hr
      exact ⟨fun htransient => absurd htransient.2 (by decide), fun hnot => absurd hinside hnot⟩

theorem oled_rejection (h : OpenDevice d m) (htype : d.config.type = .oled) (q : DeviceRequest)
    (hq : Unheard (fun r => r.ret < 0) (backendRequest font d q) m) :
    Unheard TransientFailure (backendRequest font d q) m ↔ ¬ Breaks d q := by
  obtain ⟨hopen, hbus⟩ : 0 ≤ (m .oled).bus.fd ∧ (m .oled).display.bus = true := by
    have hcontext := h.context
    rw [htype] at hcontext
    exact hcontext
  unfold backendRequest at hq ⊢
  rw [htype] at hq ⊢
  cases q with
  | read buffer size => exact ⟨fun _ => id, fun _ => unheard_ret.mpr transient_enotsup⟩
  | write data => exact ⟨fun _ => id, fun _ => unheard_ret.mpr transient_enotsup⟩
  | control request argument =>
    replace hq := unheard_loaded.mp hq
    rw [show Unheard TransientFailure (hardwareBackend font .oled (.backendControl d request argument)) m ↔ _ from
      unheard_loaded]
    split at hq
    · have hzero : (0 : ℤ) < 0 :=
        (@unheard_ret CallResult (fun r => r.ret < 0) _ ⟨0, 0⟩).mp (unheard_stored.mp hq)
      exact absurd hzero (by decide)
    · next t =>
      cases hdraw : oledDrawTextUtf8 font (m .oled).display t.x t.y t.text with
      | none =>
        rw [hdraw] at hq
        exact absurd hq (heard_call id).not
      | some r =>
        obtain ⟨r, display⟩ := r
        rw [hdraw] at hq
        have hneg : r.ret < 0 := (@unheard_ret CallResult (fun r => r.ret < 0) _ r).mp (unheard_stored.mp hq)
        have hstored : Unheard TransientFailure
            ((storeContext .oled { m .oled with display := display }).bind fun _ => .ret r) m ↔ TransientFailure r :=
          unheard_stored.trans unheard_ret
        refine hstored.trans ((oledDrawTextUtf8_failed hdraw hneg).trans (not_congr ?_))
        exact ⟨fun hinside => ⟨htype, hinside⟩, fun hbreaks => hbreaks.2⟩
    · next hnone =>
      have hnot : ¬ Breaks d (.control .oledText argument) := by
        intro hbreaks
        rcases hbreaks.request with ⟨hother, -⟩ | ⟨-, -, t, ht⟩
        · cases hother
        · exact hnone t ht
      exact ⟨fun _ => hnot, fun _ => unheard_ret.mpr transient_einval⟩
    · exact absurd hq (oledRefresh_heard hopen hbus).not
    · exact absurd hq (oledWriteCommands_heard hopen hbus (by decide)).not
    · exact absurd hq (oledWriteCommands_heard hopen hbus (by decide)).not
    · next hnone _ _ _ _ =>
      have hnot : ¬ Breaks d (.control request argument) := by
        intro hbreaks
        rcases hbreaks.request with ⟨-, hother, -⟩ | ⟨htext, -⟩
        · rw [htype] at hother
          cases hother
        · exact hnone htext
      exact ⟨fun _ => hnot, fun _ => unheard_ret.mpr transient_enotsup⟩

theorem led_rejection (h : OpenDevice d m) (htype : d.config.type = .led) (q : DeviceRequest)
    (hq : Unheard (fun r => r.ret < 0) (backendRequest font d q) m) :
    Unheard TransientFailure (backendRequest font d q) m ↔ ¬ Breaks d q := by
  have hpre := validate_preconditions h.valid
  have hnamed : LedNamed d.config.ledName := ⟨hpre.led_name htype, hpre.led_path htype⟩
  unfold backendRequest at hq ⊢
  rw [htype] at hq ⊢
  cases q with
  | read buffer size =>
    refine ⟨fun _ => id, fun _ => ?_⟩
    by_cases hsize : size ≠ INT_SIZE
    · simp only [hardwareBackend, ledRead, if_pos hsize]
      exact unheard_ret.mpr transient_einval
    · simp only [hardwareBackend, ledRead, if_neg hsize] at hq
      exact absurd hq (Reaches.not (heard_bind (heard_loaded (heard_bind (sysfsReadLong_heard _)))))
  | write data =>
    refine ⟨fun _ => id, fun _ => ?_⟩
    simp only [hardwareBackend, ledWrite] at hq ⊢
    by_cases hsize : (data.getD []).length ≠ INT_SIZE
    · rw [if_pos hsize]
      exact unheard_ret.mpr transient_einval
    rw [if_neg hsize] at hq ⊢
    by_cases hvalue : intOfBytes (data.getD []) = 0 ∨ intOfBytes (data.getD []) = 1
    · exact absurd hq (Reaches.not (heard_bind (ledSet_heard hnamed hvalue)))
    · rw [not_or] at hvalue
      unfold ledSet
      rw [if_neg hvalue.2, if_neg hvalue.1]
      exact unheard_ret.mpr transient_einval
  | control request argument =>
    simp only [hardwareBackend, ledControl] at hq ⊢
    split at hq
    · exact absurd hq (ledSet_heard hnamed (.inr rfl)).not
    · exact absurd hq (ledSet_heard hnamed (.inl rfl)).not
    · next trigger =>
      cases htrigger : ledTriggerValid trigger with
      | true => exact absurd hq (Reaches.not (heard_bind (ledControlSetTrigger_heard hnamed htrigger 0)))
      | false => exact ⟨fun h => absurd h (ledControlSetTrigger_broken htrigger), fun hnot => absurd htype hnot⟩
    · next hnone =>
      have hnot : ¬ Breaks d (.control .ledTrigger argument) := by
        intro hbreaks
        rcases hbreaks.request with ⟨-, -, name, hname⟩ | ⟨hother, -⟩
        · exact hnone name hname
        · cases hother
      exact ⟨fun _ => hnot, fun _ => unheard_ret.mpr transient_einval⟩
    · next hnone _ =>
      have hnot : ¬ Breaks d (.control request argument) := by
        intro hbreaks
        rcases hbreaks.request with ⟨htrigger, -⟩ | ⟨-, hother, -⟩
        · exact hnone htrigger
        · rw [htype] at hother
          cases hother
      exact ⟨fun _ => hnot, fun _ => unheard_ret.mpr transient_enotsup⟩

theorem not_breaks (huart : d.config.type ≠ .led) (holed : d.config.type ≠ .oled) (q : DeviceRequest) : ¬ Breaks d q := by
  intro hq
  unfold Breaks at hq
  split at hq
  · exact huart hq
  · exact holed hq.1
  · exact hq

/-- What the backend rejects is on the list of `device_result`, or breaks the
device. -/
theorem backend_rejection (h : OpenDevice d m) (q : DeviceRequest)
    (hq : Unheard (fun r => r.ret < 0) (backendRequest font d q) m) :
    Unheard TransientFailure (backendRequest font d q) m ↔ ¬ Breaks d q := by
  cases htype : d.config.type with
  | uart => exact ⟨fun _ => not_breaks (by simp [htype]) (by simp [htype]) q, fun _ => uart_rejection h htype q hq⟩
  | i2c => exact ⟨fun _ => not_breaks (by simp [htype]) (by simp [htype]) q, fun _ => i2c_rejection h htype q hq⟩
  | oled => exact oled_rejection h htype q hq
  | gpio => exact ⟨fun _ => not_breaks (by simp [htype]) (by simp [htype]) q, fun _ => gpio_rejection h htype q hq⟩
  | led => exact led_rejection h htype q hq

theorem rejection_harmless (h : OpenDevice d m) (q : DeviceRequest) (hq : Rejected font d q m) :
    LeavesReady font d q m ↔ ¬ Breaks d q := by
  unfold Rejected at hq
  unfold LeavesReady
  rcases perform_cases h q with ⟨hnot, errno, hrefused⟩ | hbackend
  · rw [hrefused]
    exact ⟨fun _ => hnot, fun _ => unheard_ret.mpr (h.staysOpen errno)⟩
  · rw [hbackend] at hq ⊢
    have hmap := @unheard_map DeviceResult CallResult (fun r => r.ret < 0) m (deviceReturn d) (backendRequest font d q)
    rw [unheard_map, ← backend_rejection h q (hmap.mp hq)]
    simp only [h.return_staysOpen]

/-- What the backend rejects is rejected. -/
theorem rejected_of_backend (h : OpenDevice d m) {q : DeviceRequest}
    (hq : Unheard (fun r => r.ret < 0) (backendRequest font d q) m) : Rejected font d q m := by
  unfold Rejected
  rcases perform_cases h q with ⟨-, errno, hrefused⟩ | hbackend
  · rw [hrefused]
    exact unheard_ret.mpr (deviceFailure_ret d errno)
  · have hmap := @unheard_map DeviceResult CallResult (fun r => r.ret < 0) m (deviceReturn d) (backendRequest font d q)
    rw [hbackend]
    exact hmap.mpr hq

/-- An invalid trigger is rejected. -/
theorem trigger_rejected (h : OpenDevice d m) (htype : d.config.type = .led) {trigger : List Byte}
    (htrigger : ledTriggerValid trigger = false) : Rejected font d (.control .ledTrigger (.trigger trigger)) m := by
  have hinvalid : (!ledNameValid d.config.ledName) = true ∨ (!ledTriggerValid trigger) = true := by
    rw [htrigger]
    exact .inr rfl
  apply rejected_of_backend h
  unfold backendRequest
  rw [htype]
  simp only [hardwareBackend, ledControl, ledControlSetTrigger, if_pos hinvalid]
  apply unheard_log.mpr
  intro errno
  apply unheard_ret.mpr
  show (-1 : ℤ) < 0
  decide

/-- A rejected request leaves the device open and ready, but for a trigger of
an LED and a text that begins on the screen. -/
theorem rejected_argument (font : OledFont) (d : Device) (m : Memory) (h : OpenDevice d m) (q : DeviceRequest)
    (hq : Rejected font d q m) : LeavesReady font d q m ↔ ¬ Breaks d q := rejection_harmless h q hq

/-- The LED after an open. -/
def blueDevice : Device := { backendDevice blueLed 0 with opened := 1, state := .opened }

def blankFont : OledFont := ⟨fun _ => Vector.replicate 16 0, fun _ => none⟩

theorem blueDevice_open : OpenDevice blueDevice (backendContext blueLed) where
  valid := by decide +kernel
  ops := rfl
  enabled := by decide
  opened := rfl
  state := rfl
  context := trivial

theorem rejected_argument_null :
    LeavesReady blankFont blueDevice (.control .ledTrigger .null) (backendContext blueLed) ↔
      ¬ Breaks blueDevice (.control .ledTrigger .null) := by
  apply rejected_argument blankFont blueDevice (backendContext blueLed) blueDevice_open
  exact unheard_ret.mpr (by decide)

/-- A trigger with a blank in it breaks the LED. -/
theorem rejected_trigger : OpenDevice blueDevice (backendContext blueLed) ∧
    Rejected blankFont blueDevice (.control .ledTrigger (.trigger (text "bad trigger"))) (backendContext blueLed) ∧
    ¬ LeavesReady blankFont blueDevice (.control .ledTrigger (.trigger (text "bad trigger"))) (backendContext blueLed) := by
  have hrejected := @trigger_rejected blueDevice (backendContext blueLed) blankFont blueDevice_open rfl
    (text "bad trigger") (by decide)
  refine ⟨blueDevice_open, hrejected, ?_⟩
  rw [rejection_harmless blueDevice_open _ hrejected]
  exact not_not.mpr rfl

end Requests

end DeviceRuntime
