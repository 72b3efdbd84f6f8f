/-
# What a device command may do

Every run of `cmd_device`, for any words and any answers of the backends. A
command makes only calls whose arguments a backend of that type takes, on a
device that is open and not in `error` (`DeviceUse`); it calls no backend but
that of the device it names, and leaves the other devices as they are. What is
rejected with the usage message has called nothing.

The functions of the device layer are looked at first, in a world of their own
(`Touched`); then the actions, and then commands in sequence.

Key definitions: `DeviceUse`, `DeviceCommandState`, `deviceCommandWatch`,
`Consistent`, `Touched`, `ActionOver`, `ManagerOk`, `DeviceCommandOver`.
Key theorems: `uartProtocolRequest_touches`, `deviceAction_action`,
`cmdDevice_safe`, `device_command`.
-/
import DeviceRuntime.DeviceCommand
import DeviceRuntime.DeviceLifecycle
import DeviceRuntime.DeviceRegistry

namespace DeviceRuntime

open Prog

/-! ### Calls -/

/-- Open, enabled and not in `error`. -/
def Usable (d : Device) : Prop := d.opened = 1 ∧ d.config.enabled ≠ 0 ∧ d.state ≠ .error

/-- What a backend takes, request by request. -/
def ControlUse (type : DeviceType) (request : DeviceControl) (argument : ControlArgument) : Prop :=
  match request, argument with
  | .uartWait, .timeout ms => type = .uart ∧ 0 < ms ∧ ms ≤ INT_MAX
  | .uartWriteAll, .write r =>
    type = .uart ∧ 0 < r.data.length ∧ r.data.length ≤ DEVICE_COMMAND_BUFFER_SIZE ∧
      0 < r.timeoutMs ∧ r.timeoutMs ≤ INT_MAX
  | .uartFlush, .null => type = .uart
  | .oledText, .text t =>
    type = .oled ∧ (0 ≤ t.x ∧ t.x ≤ 127) ∧ (0 ≤ t.y ∧ t.y ≤ 63) ∧ t.text.length < DEVICE_COMMAND_BUFFER_SIZE
  | .oledClear, .null => type = .oled
  | .oledRefresh, .null => type = .oled
  | .oledOn, .null => type = .oled
  | .oledOff, .null => type = .oled
  | .ledOn, .null => type = .led
  | .ledOff, .null => type = .led
  | .ledTrigger, .trigger _ => type = .led
  | _, _ => False

def ReadUse (type : DeviceType) (size : ℕ) : Prop :=
  ((type = .gpio ∨ type = .led) ∧ size = INT_SIZE) ∨
    ((type = .uart ∨ type = .i2c) ∧ 0 < size ∧ size ≤ DEVICE_COMMAND_BUFFER_SIZE)

def WriteUse (type : DeviceType) (data : List Byte) : Prop :=
  ((type = .gpio ∨ type = .led) ∧ (data = intBytes 0 ∨ data = intBytes 1)) ∨
    (type = .i2c ∧ 0 < data.length ∧ data.length ≤ DEVICE_COMMAND_BUFFER_SIZE)

/-- The calls of a command that does not load the devices anew. -/
def DeviceUse : DeviceCall → Prop
  | .backendOpen d => d.opened = 0 ∧ d.config.enabled ≠ 0
  | .backendRead d size => Usable d ∧ ReadUse d.config.type size
  | .backendWrite d data => Usable d ∧ WriteUse d.config.type data
  | .backendControl d request argument => Usable d ∧ ControlUse d.config.type request argument
  | .backendClose d => d.opened = 1
  | .backendDestroy _ => False
  | .clockGettime => True

/-- The name of the device whose backend is called. -/
def DeviceCall.deviceName : DeviceCall → Option (List Byte)
  | .backendOpen d | .backendRead d _ | .backendWrite d _ | .backendControl d _ _ | .backendClose d
  | .backendDestroy d => some d.config.name
  | .clockGettime => none

/-- `called` are the names of the devices whose backends were called. -/
structure DeviceCommandState where
  heap : Heap
  called : List (List Byte)

def DeviceCommandState.call (w : DeviceCommandState) (c : DeviceCall) : DeviceCommandState :=
  { w with called := w.called ++ c.deviceName.toList }

/-- The device layer by itself. -/
abbrev touchWorld : World DeviceCall DeviceCall.Ret DeviceCommandState := World.alone fun w c _ w' => w' = w.call c

def touchWatch : Watch DeviceCall DeviceCommandState := ⟨fun _ => True, fun c _ => DeviceUse c⟩

def deviceCommandSem (w : DeviceCommandState) : (c : DeviceCommandCall) → c.Ret → DeviceCommandState → Prop
  | .manager (.device c), _, w' => w' = w.call c
  | .manager (.calloc type), r, w' => ∃ heap, heapSem w.heap (.calloc type) r heap ∧ w' = { w with heap := heap }
  | .manager (.free context), r, w' => ∃ heap, heapSem w.heap (.free context) r heap ∧ w' = { w with heap := heap }
  | .strerror _, _, w' => w' = w
  | .print _, _, w' => w' = w
  | .complain _, _, w' => w' = w

abbrev deviceCommandWorld : World DeviceCommandCall DeviceCommandCall.Ret DeviceCommandState :=
  World.alone deviceCommandSem

/-- `device reload` closes and destroys devices, and opens and uses none. -/
def ReloadUse : DeviceCall → Prop
  | .backendClose _ | .backendDestroy _ => True
  | _ => False

/-- The backends are called as `U` says, and a context is released if it was
created and not released before. -/
def deviceCommandWatch (U : DeviceCall → Prop) : Watch DeviceCommandCall DeviceCommandState where
  always := fun _ => True
  atCall c w := match c with
    | .manager (.device c) => U c
    | .manager c => managerWatch.atCall c w.heap
    | _ => True

/-! ### The device layer -/

/-- The state is one that `opened` and `enabled` allow. -/
def Consistent (d : Device) : Prop := ∃ w, Lifecycle d w

/-- A function of the device layer has called only the backend of its device. -/
structure Touched (d : Device) (w : DeviceCommandState) (d' : Device) (w' : DeviceCommandState) : Prop where
  same : Same d d'
  consistent : Consistent d'
  heap : w'.heap = w.heap
  called : ∃ n, w'.called = w.called ++ List.replicate n d.config.name

section Touch

variable {d d' d'' : Device} {w w' w'' : DeviceCommandState}

theorem Same.refl (d : Device) : Same d d := ⟨rfl, rfl, rfl⟩

theorem Same.trans (h : Same d d') (h' : Same d' d'') : Same d d'' :=
  ⟨h'.config.trans h.config, h'.ops.trans h.ops, h'.context.trans h.context⟩

/-- `opened` is written. -/
theorem Same.opened (opened : ℤ) (h : Same { d with opened := opened } d') : Same d d' :=
  ⟨h.config, h.ops, h.context⟩

theorem Touched.refl (h : Consistent d) : Touched d w d w :=
  ⟨Same.refl d, h, rfl, 0, by simp⟩

theorem Touched.trans (h : Touched d w d' w') (h' : Touched d' w' d'' w'') : Touched d w d'' w'' := by
  refine ⟨h.same.trans h'.same, h'.consistent, h'.heap.trans h.heap, ?_⟩
  obtain ⟨n, hn⟩ := h.called
  obtain ⟨m, hm⟩ := h'.called
  refine ⟨n + m, ?_⟩
  rw [hm, hn, h.same.config, List.append_assoc, ← List.replicate_add]

/-- `last_errno` is written. -/
theorem Touched.errno (h : Touched d w d' w') (errno : ℕ) : Touched d w { d' with lastErrno := errno } w' := by
  obtain ⟨ledger, hledger⟩ := h.consistent
  exact ⟨⟨h.same.config, h.same.ops, h.same.context⟩, ⟨ledger, hledger.errno errno⟩, h.heap, h.called⟩

theorem Consistent.failure (h : Consistent d) (errno : ℕ) : Touched d w (deviceFailure d errno).device w :=
  (Touched.refl h).errno errno

/-- One call of the backend of `d`. -/
theorem Touched.call (hsame : Same d d') (h : Consistent d') {c : DeviceCall} (hc : c.deviceName = some d.config.name) :
    Touched d w d' (w.call c) := by
  refine ⟨hsame, h, rfl, 1, ?_⟩
  show w.called ++ c.deviceName.toList = _
  rw [hc]
  rfl

theorem Consistent.usable (h : Consistent d) (hready : deviceReady d = none) : Usable d := by
  obtain ⟨ledger, hledger⟩ := h
  exact hledger.ready hready

theorem Consistent.callback (h : Consistent d) (hready : deviceReady d = none) (r : CallResult) :
    Consistent (deviceReturn d r).device := by
  obtain ⟨ledger, hledger⟩ := h
  exact ⟨ledger, (Kept.callback hledger hready r).lifecycle⟩

theorem deviceReturn_same (d : Device) (r : CallResult) : Same d (deviceReturn d r).device := deviceResult_same d r

theorem deviceResult_opened (d : Device) (r : CallResult) : (deviceResult d r).opened = d.opened := by
  unfold deviceResult
  split_ifs
  · rfl
  · rfl
  · rfl
  · rfl

theorem deviceControl_touches (h : Consistent d) {request : DeviceControl} {argument : ControlArgument}
    (huse : ControlUse d.config.type request argument) :
    Safe touchWorld touchWatch (fun r w' => Touched d w r.device w') (deviceControl d request argument) w := by
  cases hready : deviceReady d with
  | some failure =>
    obtain ⟨errno, rfl⟩ := deviceReady_failure hready
    simp only [deviceControl, hready]
    exact Safe.ret_alone trivial (h.failure errno)
  | none =>
    by_cases hcontrol : d.ops.all (fun ops => !ops.hasControl) = true
    · simp only [deviceControl, hready, hcontrol, if_true]
      exact Safe.ret_alone trivial (h.failure _)
    · rw [deviceControl_ready hready (Bool.eq_false_iff.mpr hcontrol)]
      have hcall : DeviceUse (.backendControl d request argument) := ⟨h.usable hready, huse⟩
      apply Safe.call_alone trivial hcall
      rintro r _ rfl
      exact Safe.ret_alone trivial (Touched.call (deviceReturn_same d r) (h.callback hready r) rfl)

/-- After a read; if it has not failed the device is open. -/
def DeviceReadOver (d : Device) (w : DeviceCommandState) (r : DeviceResult × List Byte)
    (w' : DeviceCommandState) : Prop :=
  Touched d w r.1.device w' ∧ (¬ r.1.ret < 0 → r.1.device.opened = 1 ∧ r.1.device.config.enabled ≠ 0)

theorem deviceRead_touches (h : Consistent d) {size : ℕ} (huse : ReadUse d.config.type size) :
    Safe touchWorld touchWatch (DeviceReadOver d w) (deviceRead d true size) w := by
  have hsize : size ≠ 0 := by
    rcases huse with ⟨-, hint⟩ | ⟨-, hpos, -⟩
    · rw [hint]
      decide
    · omega
  have hfailed : ∀ errno, Safe touchWorld touchWatch (DeviceReadOver d w) (.ret (deviceFailure d errno, [])) w := by
    intro errno
    have hnegative : (deviceFailure d errno).ret < 0 := deviceFailure_ret d errno
    exact Safe.ret_alone trivial ⟨h.failure errno, fun hpos => absurd hnegative hpos⟩
  cases hready : deviceReady d with
  | some failure =>
    obtain ⟨errno, rfl⟩ := deviceReady_failure hready
    simp only [deviceRead, hready]
    exact hfailed errno
  | none =>
    by_cases hread : d.ops.all (fun ops => !ops.hasRead) = true
    · simp only [deviceRead, hready, hread, if_true, hsize, Bool.not_true, decide_false, Bool.or_self]
      exact hfailed _
    · rw [deviceRead_ready hready (Bool.eq_false_iff.mpr hread) hsize]
      obtain ⟨hopen, henabled, hstate⟩ := h.usable hready
      have hcall : DeviceUse (.backendRead d size) := ⟨⟨hopen, henabled, hstate⟩, huse⟩
      apply Safe.call_alone trivial hcall
      rintro r _ rfl
      have hsame : Same d (deviceReturn d r.1).device := deviceReturn_same d r.1
      refine Safe.ret_alone trivial ⟨Touched.call hsame (h.callback hready r.1) rfl, fun _ => ?_⟩
      refine ⟨(deviceResult_opened d r.1).trans hopen, ?_⟩
      show (deviceReturn d r.1).device.config.enabled ≠ 0
      rw [hsame.config]
      exact henabled

theorem deviceWrite_touches (h : Consistent d) {data : List Byte} (huse : WriteUse d.config.type data) :
    Safe touchWorld touchWatch (fun r w' => Touched d w r.device w') (deviceWrite d (some data)) w := by
  have hlength : data.length ≠ 0 := by
    rcases huse with ⟨-, rfl | rfl⟩ | ⟨-, hpos, -⟩
    · decide
    · decide
    · omega
  cases hready : deviceReady d with
  | some failure =>
    obtain ⟨errno, rfl⟩ := deviceReady_failure hready
    simp only [deviceWrite, hready]
    exact Safe.ret_alone trivial (h.failure errno)
  | none =>
    simp only [deviceWrite, hready, if_neg hlength]
    by_cases hwrite : d.ops.all (fun ops => !ops.hasWrite) = true
    · rw [if_pos hwrite]
      exact Safe.ret_alone trivial (h.failure _)
    · rw [if_neg hwrite]
      have hcall : DeviceUse (.backendWrite d data) := ⟨h.usable hready, huse⟩
      apply Safe.call_alone trivial hcall
      rintro r _ rfl
      exact Safe.ret_alone trivial (Touched.call (deviceReturn_same d r) (h.callback hready r) rfl)

/-- What `opened` and `enabled` allow is consistent. -/
theorem Consistent.of_state (hrange : d.opened = 0 ∨ d.opened = 1)
    (hon : d.opened = 1 → d.config.enabled ≠ 0 ∧ (d.state = .opened ∨ d.state = .error))
    (hoff : d.opened = 0 → (d.state = .closed ∨ d.state = .error ∨ d.state = .disabled) ∧
      (d.state = .disabled ↔ d.config.enabled = 0)) : Consistent d :=
  ⟨⟨d.opened, 0, none⟩, (sub_zero d.opened).symm, hrange, hon, hoff⟩

/-- A closed, enabled device whose state says that it is closed. -/
theorem Consistent.closed (hclosed : d.opened = 0) (henabled : d.config.enabled ≠ 0)
    (hstate : d.state = .closed ∨ d.state = .error) : Consistent d := by
  have hnot : d.state ≠ .disabled := by
    rcases hstate with hstate | hstate
    · simp [hstate]
    · simp [hstate]
  refine Consistent.of_state (.inl hclosed) (fun hopen => ?_) fun _ => ⟨?_, ?_⟩
  · rw [hclosed] at hopen
    exact absurd hopen zero_ne_one
  · rcases hstate with hstate | hstate
    · exact .inl hstate
    · exact .inr (.inl hstate)
  · exact ⟨fun hdisabled => absurd hdisabled hnot, fun hdisabled => absurd hdisabled henabled⟩

/-- An open, enabled device whose state says that it is open. -/
theorem Consistent.opened (hopen : d.opened = 1) (henabled : d.config.enabled ≠ 0)
    (hstate : d.state = .opened ∨ d.state = .error) : Consistent d := by
  refine Consistent.of_state (.inr hopen) (fun _ => ⟨henabled, hstate⟩) fun hclosed => ?_
  rw [hopen] at hclosed
  exact absurd hclosed one_ne_zero

/-- The state after a callback is what `opened` says, or `error`, or what it
was before. -/
theorem deviceResult_state (d : Device) (r : CallResult) :
    (deviceResult d r).state = (if d.opened ≠ 0 then .opened else .closed) ∨ (deviceResult d r).state = .error ∨
      (r.ret ≠ 0 ∧ (deviceResult d r).state = d.state) := by
  unfold deviceResult
  by_cases hfailed : r.ret < 0
  · rw [if_neg (not_not.mpr hfailed)]
    by_cases htransient : transientErrno r.errno = true
    · rw [if_pos htransient]
      exact .inr (.inr ⟨by omega, rfl⟩)
    · rw [if_neg htransient]
      exact .inr (.inl rfl)
  · rw [if_pos hfailed]
    exact .inl rfl

theorem deviceOpen_touches (h : Consistent d) :
    Safe touchWorld touchWatch (fun r w' => Touched d w r.device w') (deviceOpen d) w := by
  unfold deviceOpen
  by_cases hops : (d.ops.all fun ops => !ops.hasOpen) = true
  · rw [if_pos hops]
    exact Safe.ret_alone trivial (h.failure _)
  rw [if_neg hops]
  by_cases henabled : d.config.enabled = 0
  · rw [if_pos henabled]
    exact Safe.ret_alone trivial (h.failure _)
  rw [if_neg henabled]
  by_cases hopened : d.opened ≠ 0
  · rw [if_pos hopened]
    by_cases herror : d.state = .error
    · rw [if_pos herror]
      exact Safe.ret_alone trivial (h.failure _)
    · rw [if_neg herror]
      exact Safe.ret_alone trivial ((Touched.refl h).errno 0)
  rw [if_neg hopened]
  have hclosed : d.opened = 0 := not_not.mp hopened
  have hcall : DeviceUse (.backendOpen d) := ⟨hclosed, henabled⟩
  apply Safe.call_alone trivial hcall
  rintro r _ rfl
  rw [ret_bind]
  by_cases hzero : r.ret = 0
  · rw [if_pos hzero]
    have hsame : Same d (deviceResult { d with opened := 1 } r) := Same.opened 1 (deviceResult_same _ r)
    have hopen : (deviceResult { d with opened := 1 } r).opened = 1 := deviceResult_opened _ r
    have hstate := deviceResult_state { d with opened := 1 } r
    refine Safe.ret_alone trivial (Touched.call hsame (Consistent.opened hopen (?_ : _ ≠ _) ?_) rfl)
    · rw [hsame.config]
      exact henabled
    · rcases hstate with hstate | hstate | ⟨hne, -⟩
      · exact .inl hstate
      · exact .inr hstate
      · exact absurd hzero hne
  · rw [if_neg hzero]
    have hsame : Same d (deviceResult d r) := deviceResult_same d r
    have hopen : (deviceResult d r).opened = 0 := (deviceResult_opened d r).trans hclosed
    refine Safe.ret_alone trivial (Touched.call hsame (Consistent.closed hopen (?_ : _ ≠ _) ?_) rfl)
    · rw [hsame.config]
      exact henabled
    · obtain ⟨ledger, hledger⟩ := h
      obtain ⟨hoff, hdisabled⟩ := hledger.off hclosed
      have hnot : d.state ≠ .disabled := fun hd => henabled (hdisabled.mp hd)
      rcases deviceResult_state d r with hstate | hstate | ⟨-, hstate⟩
      · rw [if_neg (not_not.mpr hclosed)] at hstate
        exact .inl hstate
      · exact .inr hstate
      · rw [hstate]
        exact hoff.imp_right fun hoff => hoff.resolve_right hnot

theorem deviceClose_touches (h : Consistent d) :
    Safe touchWorld touchWatch (fun r w' => Touched d w r.device w') (deviceClose d) w := by
  unfold deviceClose
  by_cases hops : d.ops = none
  · rw [if_pos hops]
    exact Safe.ret_alone trivial (h.failure _)
  rw [if_neg hops]
  by_cases hopened : d.opened = 0
  · rw [if_pos hopened]
    refine Safe.ret_alone trivial ⟨⟨rfl, rfl, rfl⟩, ?_, rfl, 0, by simp⟩
    refine Consistent.of_state (.inl hopened) (fun hopen => ?_) fun _ => ?_
    · rw [show d.opened = 1 from hopen] at hopened
      exact absurd hopened one_ne_zero
    · by_cases henabled : d.config.enabled = 0
      · simp [henabled]
      · simp [henabled]
  rw [if_neg hopened]
  by_cases hclose : (d.ops.all fun ops => !ops.hasClose) = true
  · rw [if_pos hclose]
    exact Safe.ret_alone trivial (h.failure _)
  rw [if_neg hclose]
  obtain ⟨ledger, hledger⟩ := h
  have hopen : d.opened = 1 := hledger.range.resolve_left hopened
  obtain ⟨henabled, hstate⟩ := hledger.on hopen
  have hcall : DeviceUse (.backendClose d) := hopen
  apply Safe.call_alone trivial hcall
  rintro r _ rfl
  rw [ret_bind]
  by_cases hzero : r.ret = 0
  · rw [if_pos hzero]
    have hsame : Same d (deviceResult { d with opened := 0 } r) := Same.opened 0 (deviceResult_same _ r)
    have hclosed : (deviceResult { d with opened := 0 } r).opened = 0 := deviceResult_opened _ r
    refine Safe.ret_alone trivial (Touched.call hsame (Consistent.closed hclosed (?_ : _ ≠ _) ?_) rfl)
    · rw [hsame.config]
      exact henabled
    · rcases deviceResult_state { d with opened := 0 } r with hstate | hstate | ⟨hne, -⟩
      · exact .inl hstate
      · exact .inr hstate
      · exact absurd hzero hne
  · rw [if_neg hzero]
    have hsame : Same d (deviceResult d r) := deviceResult_same d r
    have hkept : (deviceResult d r).opened = 1 := (deviceResult_opened d r).trans hopen
    refine Safe.ret_alone trivial (Touched.call hsame (Consistent.opened hkept (?_ : _ ≠ _) ?_) rfl)
    · rw [hsame.config]
      exact henabled
    · rcases deviceResult_state d r with hopened' | herror | ⟨-, hkeeps⟩
      · rw [if_pos hopened] at hopened'
        exact .inl hopened'
      · exact .inr herror
      · rw [hkeeps]
        exact hstate

/-! ### The serial request -/

/-- The clock is read. -/
theorem monotonicMs_touches (w : DeviceCommandState) :
    Safe touchWorld touchWatch (fun _ w' => w' = w) monotonicMs w := by
  unfold monotonicMs DeviceCall.callClock
  apply Safe.call_alone trivial trivial
  intro r w' hstep
  have hsame : w' = w := by
    rw [show w' = w.call .clockGettime from hstep]
    simp [DeviceCommandState.call, DeviceCall.deviceName]
  cases r with
  | error errno => exact Safe.ret_alone trivial hsame
  | ok now => exact Safe.ret_alone trivial hsame

/-- A time that is left is one `poll` takes. -/
theorem remainingMs_touches (deadline : ℤ) (w : DeviceCommandState) :
    Safe touchWorld touchWatch (fun r w' => w' = w ∧ (¬ r.ret < 0 → 0 < r.ret ∧ r.ret ≤ INT_MAX))
      (remainingMs deadline) w := by
  unfold remainingMs
  rw [bind_eq]
  refine Safe.bind (monotonicMs_touches w) ?_
  rintro now w' rfl -
  by_cases hnow : now.ret < 0
  · rw [if_pos hnow]
    exact Safe.ret_alone trivial ⟨rfl, fun hpos => absurd (by decide : (-1 : ℤ) < 0) hpos⟩
  rw [if_neg hnow]
  by_cases hleft : deadline - now.ret ≤ 0
  · simp only [if_pos hleft]
    exact Safe.ret_alone trivial ⟨rfl, fun hpos => absurd (by decide : (-1 : ℤ) < 0) hpos⟩
  · simp only [if_neg hleft]
    refine Safe.ret_alone trivial ⟨rfl, fun _ => ?_⟩
    have hmax : (0 : ℤ) < INT_MAX := by decide
    by_cases hlong : deadline - now.ret > INT_MAX
    · simp [hlong, hmax]
    · simp only [if_neg hlong]
      omega

/-- An open device put into `error`. -/
theorem Touched.error (h : Touched d w d' w') (hopen : d'.opened = 1 ∧ d'.config.enabled ≠ 0) :
    Touched d w { d' with state := .error } w' :=
  ⟨⟨h.same.config, h.same.ops, h.same.context⟩, Consistent.opened hopen.1 hopen.2 (.inr rfl), h.heap, h.called⟩

theorem receiveByte_touches {s : Receiving} (huart : d.config.type = .uart) (h : Touched d w s.device w')
    (deadline : ℤ) :
    Safe touchWorld touchWatch (fun x v => Touched d w (receivedDevice x) v) (receiveByte deadline s) w' := by
  unfold receiveByte
  rw [bind_eq]
  refine Safe.bind (remainingMs_touches deadline w') ?_
  rintro timeout _ ⟨rfl, htimeout⟩ -
  by_cases hexpired : timeout.ret < 0
  · rw [if_pos hexpired]
    exact Safe.ret_alone trivial h
  rw [if_neg hexpired, bind_eq]
  have htype : s.device.config.type = .uart := by
    rw [h.same.config]
    exact huart
  have hwait : ControlUse s.device.config.type .uartWait (.timeout timeout.ret) := ⟨htype, htimeout hexpired⟩
  refine Safe.bind (deviceControl_touches h.consistent hwait) fun ready w₁ hready _ => ?_
  have hready : Touched d w ready.device w₁ := h.trans hready
  by_cases hfailed : ready.ret < 0
  · rw [if_pos hfailed]
    exact Safe.ret_alone trivial hready
  rw [if_neg hfailed]
  by_cases hzero : ready.ret = 0
  · rw [if_pos hzero]
    exact Safe.ret_alone trivial hready
  rw [if_neg hzero, bind_eq]
  have htype : ready.device.config.type = .uart := by
    rw [hready.same.config]
    exact huart
  have hread : ReadUse ready.device.config.type 1 := .inr ⟨.inl htype, by decide, by decide⟩
  refine Safe.bind (deviceRead_touches hready.consistent hread) fun result w₂ hresult _ => ?_
  obtain ⟨hresult, hopen⟩ := hresult
  have hresult : Touched d w result.1.device w₂ := hready.trans hresult
  by_cases hnegative : result.1.ret < 0
  · rw [if_pos hnegative]
    by_cases hagain : result.1.errno = EAGAIN ∨ result.1.errno = EWOULDBLOCK
    · rw [if_pos hagain]
      exact Safe.ret_alone trivial hresult
    · rw [if_neg hagain]
      exact Safe.ret_alone trivial hresult
  rw [if_neg hnegative]
  by_cases heof : result.1.ret = 0
  · rw [if_pos heof]
    exact Safe.ret_alone trivial (hresult.error (hopen hnegative))
  · rw [if_neg heof]
    rcases acceptByte_device { s with device := result.1.device } (result.2.headD 0) with
      ⟨s', hs', hdevice⟩ | ⟨r, hr, hdevice⟩
    · rw [hs']
      refine Safe.ret_alone trivial (show Touched d w s'.device w₂ from ?_)
      rw [hdevice]
      exact hresult
    · rw [hr]
      refine Safe.ret_alone trivial (show Touched d w r.device w₂ from ?_)
      rw [hdevice]
      exact hresult

/-- The loop that receives the reply. -/
theorem receiveLine_touches {s : Receiving} (huart : d.config.type = .uart) (h : Touched d w s.device w')
    (deadline : ℤ) :
    Safe touchWorld touchWatch (fun r v => Touched d w r.device v) (.iter (receiveByte deadline) s) w' := by
  refine Safe.iter (I := fun s v => Touched d w s.device v) (fun _ => stable_alone _) (fun _ => stable_alone _)
    (fun _ _ _ => trivial) (fun _ _ _ => trivial) (fun s v hs => ?_) h
  refine (receiveByte_touches huart hs deadline).weaken fun x v' _ hx => ?_
  cases x with
  | inl s' => exact hx
  | inr r => exact hx

/-- At most a line and its line feed are sent, and only while there is time
left. -/
theorem uartProtocolRequest_touches (h : Consistent d) (request reply : List Byte) (size : ℕ) (timeoutMs : ℤ) :
    Safe touchWorld touchWatch (fun r w' => Touched d w r.device w')
      (uartProtocolRequest d request reply size timeoutMs) w := by
  unfold uartProtocolRequest requestFailure
  have hd : Touched d w d w := Touched.refl h
  by_cases harguments : d.config.type ≠ .uart ∨ size = 0 ∨ timeoutMs < 0
  · rw [if_pos harguments]
    exact Safe.ret_alone trivial (hd.errno _)
  rw [if_neg harguments]
  have huart : d.config.type = .uart := by
    by_contra hother
    exact harguments (.inl hother)
  by_cases henabled : d.config.enabled = 0
  · rw [if_pos henabled]
    exact Safe.ret_alone trivial (hd.errno _)
  rw [if_neg henabled]
  by_cases hclosed : d.opened = 0
  · rw [if_pos hclosed]
    exact Safe.ret_alone trivial (hd.errno _)
  rw [if_neg hclosed]
  by_cases hlong : request.length ≥ UART_PROTOCOL_LINE_SIZE
  · rw [if_pos hlong]
    exact Safe.ret_alone trivial (hd.errno _)
  rw [if_neg hlong]
  cases parseRequest request with
  | none => exact Safe.ret_alone trivial (hd.errno _)
  | some parsed =>
    obtain ⟨requestType, heartbeat⟩ := parsed
    dsimp only
    by_cases hnow : timeoutMs = 0
    · rw [if_pos hnow]
      exact Safe.ret_alone trivial (hd.errno _)
    rw [if_neg hnow, bind_eq]
    refine Safe.bind (monotonicMs_touches w) ?_
    rintro now w' rfl -
    by_cases hclock : now.ret < 0
    · rw [if_pos hclock]
      exact Safe.ret_alone trivial (hd.errno _)
    rw [if_neg hclock, bind_eq]
    have hflush : ControlUse d.config.type .uartFlush .null := huart
    refine Safe.bind (deviceControl_touches h hflush) fun flush w₁ hflushed _ => ?_
    by_cases hfailed : flush.ret < 0
    · rw [if_pos hfailed]
      exact Safe.ret_alone trivial (hflushed.errno _)
    rw [if_neg hfailed, bind_eq]
    refine Safe.bind (remainingMs_touches _ w₁) ?_
    rintro timeout w₂ ⟨rfl, htimeout⟩ -
    by_cases hexpired : timeout.ret < 0
    · rw [if_pos hexpired]
      exact Safe.ret_alone trivial (hflushed.errno _)
    rw [if_neg hexpired, bind_eq]
    have htype : flush.device.config.type = .uart := by
      rw [hflushed.same.config]
      exact huart
    have hlength : 0 < (request ++ [LF]).length ∧ (request ++ [LF]).length ≤ DEVICE_COMMAND_BUFFER_SIZE := by
      have hline : (request ++ [LF]).length = request.length + 1 := by simp
      have hsize : UART_PROTOCOL_LINE_SIZE ≤ DEVICE_COMMAND_BUFFER_SIZE := by decide
      omega
    have hwriteAll : ControlUse flush.device.config.type .uartWriteAll (.write ⟨request ++ [LF], timeout.ret⟩) :=
      ⟨htype, hlength.1, hlength.2, htimeout hexpired⟩
    refine Safe.bind (deviceControl_touches hflushed.consistent hwriteAll) fun write w₃ hwritten _ => ?_
    have hwritten : Touched d w' write.device w₃ := hflushed.trans hwritten
    by_cases hfailed : write.ret < 0
    · rw [if_pos hfailed]
      exact Safe.ret_alone trivial (hwritten.errno _)
    rw [if_neg hfailed, bind_eq]
    refine Safe.bind (receiveLine_touches huart hwritten _) fun received w₄ hreceived _ => ?_
    cases received.line with
    | error errno => exact Safe.ret_alone trivial (hreceived.errno _)
    | ok line =>
      dsimp only
      rw [bind_eq]
      refine Safe.bind (remainingMs_touches _ w₄) ?_
      rintro left w₅ ⟨rfl, -⟩ -
      by_cases hlate : left.ret < 0
      · rw [if_pos hlate]
        exact Safe.ret_alone trivial (hreceived.errno _)
      rw [if_neg hlate]
      by_cases hinvalid : (!validateReply requestType heartbeat line) = true
      · rw [if_pos hinvalid]
        exact Safe.ret_alone trivial (hreceived.errno _)
      rw [if_neg hinvalid]
      by_cases hbig : line.length ≥ size
      · rw [if_pos hbig]
        exact Safe.ret_alone trivial (hreceived.errno _)
      · rw [if_neg hbig]
        exact Safe.ret_alone trivial (hreceived.errno 0)

end Touch

/-! ### In the command -/

/-- A call of the device layer in the command. -/
theorem deviceCall_safe {w : DeviceCommandState} (c : DeviceCall) (huse : DeviceUse c) :
    Safe deviceCommandWorld (deviceCommandWatch DeviceUse) (Happens touchWorld w c)
      (.call (.manager (.device c)) fun r => .ret r) w := by
  exact Safe.happens deviceCommandWorld (DeviceCommandCall.manager (.device c)) (fun r => r) (fun _ _ h => h)
    (fun _ _ _ hstep => hstep) (fun _ _ => ⟨trivial, huse⟩) (fun _ _ _ => trivial)

/-- A function of the device layer that is safe by itself is safe in the
command. -/
theorem runDevice_safe {α : Type} {Q : α → DeviceCommandState → Prop} {p : DeviceProg α} {w : DeviceCommandState}
    (h : Safe touchWorld touchWatch Q p w) :
    Safe deviceCommandWorld (deviceCommandWatch DeviceUse) Q (runDevice p) w := by
  unfold runDevice onCommand onDevices
  rw [link_link]
  refine Safe.link ?_ ?_ (fun c w hbefore _ => ?_) h
  · exact fun _ _ henv => henv
  · exact fun _ _ => trivial
  have huse : DeviceUse c := (hbefore w .refl).2
  cases c with
  | backendDestroy d => exact huse.elim
  | backendOpen d => exact deviceCall_safe _ huse
  | backendRead d size => exact deviceCall_safe _ huse
  | backendWrite d data => exact deviceCall_safe _ huse
  | backendControl d request argument => exact deviceCall_safe _ huse
  | backendClose d => exact deviceCall_safe _ huse
  | clockGettime => exact deviceCall_safe _ huse

section Print

variable {w : DeviceCommandState}

/-- Something is printed and a status returned, and nothing else happens. -/
def Printing (w : DeviceCommandState) (p : DeviceCommandProg ℤ) (A : ℤ → Prop) : Prop :=
  ∀ U, Safe deviceCommandWorld (deviceCommandWatch U) (fun status w' => A status ∧ w' = w) p w

theorem deviceUsage_printing : Printing w deviceUsage fun status => status = MiniShell_ERR_PARSE := by
  intro U
  unfold deviceUsage
  apply Safe.call_alone trivial trivial
  rintro _ _ rfl
  exact Safe.ret_alone trivial ⟨rfl, rfl⟩

theorem deviceCommandError_printing (action name : List Byte) (errno : ℕ) :
    Printing w (deviceCommandError action name errno) fun status => status = MiniShell_ERR_UNKNOWN := by
  intro U
  unfold deviceCommandError
  apply Safe.call_alone trivial trivial
  rintro message _ rfl
  apply Safe.call_alone trivial trivial
  rintro _ _ rfl
  exact Safe.ret_alone trivial ⟨rfl, rfl⟩

theorem printed_printing (line : List Byte) (status : ℤ) : Printing w (printed line status) fun r => r = status := by
  intro U
  unfold printed
  apply Safe.call_alone trivial trivial
  rintro _ _ rfl
  exact Safe.ret_alone trivial ⟨rfl, rfl⟩

theorem printLines_printing (lines : List (List Byte)) :
    Printing w (printLines lines) fun status => status = MiniShell_OK := by
  intro U
  induction lines with
  | nil => exact Safe.ret_alone trivial ⟨rfl, rfl⟩
  | cons line lines ih =>
    apply Safe.call_alone trivial trivial
    rintro _ _ rfl
    exact ih

theorem deviceCommandInfo_printing (d : Device) :
    Printing w (deviceCommandInfo d) fun status => status = MiniShell_OK := by
  intro U
  unfold deviceCommandInfo
  by_cases hlast : d.lastErrno ≠ 0
  · rw [if_pos hlast]
    apply Safe.call_alone trivial trivial
    rintro lastError _ rfl
    exact printLines_printing _ U
  · rw [if_neg hlast]
    exact printLines_printing _ U

theorem deviceCommandList_printing (m : DeviceManager) :
    Printing w (deviceCommandList m) fun status => status = MiniShell_OK := by
  unfold deviceCommandList
  by_cases hempty : m.devices = []
  · rw [if_pos hempty]
    exact printed_printing _ _
  · rw [if_neg hempty]
    exact printLines_printing _

end Print

/-! ### The actions -/

/-- An action is over: it has called the backend of its device only, and
nothing at all if it ends with the usage message. -/
def ActionOver (d : Device) (w : DeviceCommandState) (r : ℤ × Device) (w' : DeviceCommandState) : Prop :=
  Touched d w r.2 w' ∧ (r.1 = MiniShell_ERR_PARSE → r.2 = d ∧ w' = w)

/-- An action on `d` is safe. -/
abbrev ActionSafe (d : Device) (w : DeviceCommandState) (p : DeviceAction) : Prop :=
  Safe deviceCommandWorld (deviceCommandWatch DeviceUse) (ActionOver d w) p w

section Actions

variable {d d' : Device} {w w' : DeviceCommandState}

theorem unknown_ne_parse : MiniShell_ERR_UNKNOWN ≠ MiniShell_ERR_PARSE := by decide

theorem timeout_bounds : 0 < DEVICE_COMMAND_TIMEOUT_MS ∧ DEVICE_COMMAND_TIMEOUT_MS ≤ INT_MAX := by decide

theorem ok_ne_parse : MiniShell_OK ≠ MiniShell_ERR_PARSE := by decide

/-- The usage message, before anything was called. -/
theorem leaving_usage (h : Consistent d) : ActionSafe d w (leaving d deviceUsage) := by
  refine Safe.map (deviceUsage_printing DeviceUse) fun status w' hstatus => ?_
  obtain ⟨-, rfl⟩ := hstatus
  exact ⟨Touched.refl h, fun _ => ⟨rfl, rfl⟩⟩

/-- The end of an action that does not end with the usage message. -/
theorem leaving_printing {p : DeviceCommandProg ℤ} {A : ℤ → Prop} (h : Touched d w d' w') (hp : Printing w' p A)
    (hA : ∀ status, A status → status ≠ MiniShell_ERR_PARSE) :
    Safe deviceCommandWorld (deviceCommandWatch DeviceUse) (ActionOver d w) (leaving d' p) w' := by
  refine Safe.map (hp DeviceUse) fun status v hstatus => ?_
  obtain ⟨hstatus, rfl⟩ := hstatus
  exact ⟨h, fun hparse => absurd hparse (hA status hstatus)⟩

theorem leaving_error (h : Touched d w d' w') (action name : List Byte) (errno : ℕ) :
    Safe deviceCommandWorld (deviceCommandWatch DeviceUse) (ActionOver d w)
      (leaving d' (deviceCommandError action name errno)) w' := by
  refine leaving_printing h (deviceCommandError_printing action name errno) fun status hstatus => ?_
  rw [hstatus]
  exact unknown_ne_parse

theorem leaving_printed (h : Touched d w d' w') (line : List Byte) :
    Safe deviceCommandWorld (deviceCommandWatch DeviceUse) (ActionOver d w)
      (leaving d' (printed line MiniShell_OK)) w' := by
  refine leaving_printing h (printed_printing line MiniShell_OK) fun status hstatus => ?_
  rw [hstatus]
  exact ok_ne_parse

/-- An error message if a function of the device layer has failed, and a line
otherwise. -/
theorem leaving_result (h : Touched d w d' w') (failed : Prop) [Decidable failed] (action name line : List Byte)
    (errno : ℕ) :
    Safe deviceCommandWorld (deviceCommandWatch DeviceUse) (ActionOver d w)
      (if failed then leaving d' (deviceCommandError action name errno)
        else leaving d' (printed line MiniShell_OK)) w' := by
  by_cases hfailed : failed
  · rw [if_pos hfailed]
    exact leaving_error h action name errno
  · rw [if_neg hfailed]
    exact leaving_printed h line

theorem deviceCommandInfo_action (h : Consistent d) : ActionSafe d w (leaving d (deviceCommandInfo d)) := by
  refine leaving_printing (Touched.refl h) (deviceCommandInfo_printing d) fun status hstatus => ?_
  rw [hstatus]
  exact ok_ne_parse

theorem deviceCommandOpen_action (h : Consistent d) : ActionSafe d w (deviceCommandOpen d) := by
  unfold deviceCommandOpen
  refine Safe.bind (runDevice_safe (deviceOpen_touches h)) fun r w' hr _ => ?_
  exact leaving_result hr _ _ _ _ _

theorem deviceCommandClose_action (h : Consistent d) : ActionSafe d w (deviceCommandClose d) := by
  unfold deviceCommandClose
  refine Safe.bind (runDevice_safe (deviceClose_touches h)) fun r w' hr _ => ?_
  exact leaving_result hr _ _ _ _ _

theorem controlAction_action (h : Consistent d) {request : DeviceControl} {argument : ControlArgument}
    (huse : ControlUse d.config.type request argument) (action shown : List Byte) :
    ActionSafe d w (controlAction d request argument action shown) := by
  unfold controlAction
  refine Safe.bind (runDevice_safe (deviceControl_touches h huse)) fun r w' hr _ => ?_
  exact leaving_result hr _ _ _ _ _

theorem deviceCommandUart_action (h : Consistent d) (request : List Byte) :
    ActionSafe d w (deviceCommandUart d request) := by
  unfold deviceCommandUart
  by_cases htype : d.config.type ≠ .uart
  · rw [if_pos htype]
    exact leaving_usage h
  rw [if_neg htype]
  refine Safe.bind (runDevice_safe (uartProtocolRequest_touches h request [] _ _)) fun r w' hr _ => ?_
  exact leaving_result hr _ _ _ _ _

/-- The bytes of a device that is ready are read. -/
theorem readBytes_action (h : Touched d w d' w') {count : ℕ} (huse : ReadUse d'.config.type count) :
    Safe deviceCommandWorld (deviceCommandWatch DeviceUse) (ActionOver d w) (readBytes d' count) w' := by
  unfold readBytes
  refine Safe.bind (runDevice_safe (deviceRead_touches h.consistent huse)) fun r v hr _ => ?_
  exact leaving_result (h.trans hr.1) _ _ _ _ _

/-- A number is accepted up to the maximum. -/
theorem deviceNumber_le {word : List Byte} {maximum base number : ℕ}
    (h : deviceNumber word maximum base = some number) : number ≤ maximum := by
  unfold deviceNumber at h
  dsimp only at h
  split_ifs at h with hsign hbad
  obtain rfl := Option.some.inj h
  by_contra hlarge
  exact hbad (.inr (.inr (.inr (not_le.mp hlarge))))

/-- A count that is accepted is one the buffer takes. -/
theorem readCount_bounds {argv : List (List Byte)} {count : ℕ} (h : readCount argv = some count) :
    0 < count ∧ count ≤ DEVICE_COMMAND_BUFFER_SIZE := by
  unfold readCount at h
  cases hwords : argv.drop 3 with
  | nil =>
    rw [hwords] at h
    obtain rfl : 16 = count := Option.some.inj h
    decide
  | cons word words =>
    rw [hwords] at h
    obtain ⟨hnumber, hzero⟩ := Option.filter_eq_some_iff.mp h
    have hle : count ≤ DEVICE_COMMAND_BUFFER_SIZE := deviceNumber_le hnumber
    have hzero : count ≠ 0 := of_decide_eq_true hzero
    omega

theorem deviceCommandRead_action (h : Consistent d) (argv : List (List Byte)) :
    ActionSafe d w (deviceCommandRead argv d) := by
  unfold deviceCommandRead
  by_cases hvalue : d.config.type = .gpio ∨ d.config.type = .led
  · rw [if_pos hvalue]
    by_cases hcount : argv.length ≠ 3
    · rw [if_pos hcount]
      exact leaving_usage h
    rw [if_neg hcount]
    refine Safe.bind (runDevice_safe (deviceRead_touches h (.inl ⟨hvalue, rfl⟩))) fun r w' hr _ => ?_
    exact leaving_result hr.1 _ _ _ _ _
  rw [if_neg hvalue]
  by_cases hother : (d.config.type ≠ .uart ∧ d.config.type ≠ .i2c) ∨ argv.length > 4
  · rw [if_pos hother]
    exact leaving_usage h
  rw [if_neg hother]
  cases hcount : readCount argv with
  | none => exact leaving_usage h
  | some count =>
    have hbounds := readCount_bounds hcount
    dsimp only
    by_cases huart : d.config.type = .uart
    · rw [if_pos huart]
      have hwait : ControlUse d.config.type .uartWait (.timeout DEVICE_COMMAND_TIMEOUT_MS) :=
        ⟨huart, timeout_bounds⟩
      refine Safe.bind (runDevice_safe (deviceControl_touches h hwait)) fun ready w' hready _ => ?_
      by_cases hfailed : ready.ret ≤ 0
      · rw [if_pos hfailed]
        by_cases hzero : ready.ret = 0
        · rw [if_pos hzero]
          exact leaving_error (hready.errno ETIMEDOUT) _ _ _
        · rw [if_neg hzero]
          exact leaving_error hready _ _ _
      · rw [if_neg hfailed]
        have huse : ReadUse ready.device.config.type count := by
          rw [hready.same.config]
          exact .inr ⟨.inl huart, hbounds⟩
        exact readBytes_action hready huse
    · rw [if_neg huart]
      have hi2c : d.config.type = .i2c := by
        by_contra hi2c
        exact hother (.inl ⟨huart, hi2c⟩)
      exact readBytes_action (Touched.refl h) (.inr ⟨.inr hi2c, hbounds⟩)

/-- As many bytes as words. -/
theorem writeBytes_length : ∀ {words : List (List Byte)} {buffer : List Byte}, writeBytes words = some buffer →
    buffer.length = words.length
  | [], buffer, h => by
    obtain rfl : [] = buffer := Option.some.inj h
    rfl
  | word :: words, buffer, h => by
    unfold writeBytes at h
    obtain ⟨number, -, h⟩ := Option.bind_eq_some_iff.mp h
    obtain ⟨rest, hrest, rfl⟩ := Option.map_eq_some_iff.mp h
    simp [writeBytes_length hrest]

theorem wroteBytes_action {r : DeviceResult} (h : Touched d w r.device w') (size : ℕ) :
    Safe deviceCommandWorld (deviceCommandWatch DeviceUse) (ActionOver d w) (wroteBytes size r) w' :=
  leaving_result h _ _ _ _ _

/-- A number that is not more than 1 is written as 0 or 1. -/
theorem writeUse_number {type : DeviceType} (htype : type = .gpio ∨ type = .led) {number : ℕ} (hle : number ≤ 1) :
    WriteUse type (intBytes number) := by
  refine .inl ⟨htype, ?_⟩
  obtain rfl | rfl : number = 0 ∨ number = 1 := by omega
  · exact .inl rfl
  · exact .inr rfl

theorem deviceCommandWrite_action (h : Consistent d) (argv : List (List Byte)) :
    ActionSafe d w (deviceCommandWrite argv d) := by
  unfold deviceCommandWrite
  cases argv.drop 3 with
  | nil => exact leaving_usage h
  | cons word words =>
    dsimp only
    by_cases hvalue : d.config.type = .gpio ∨ d.config.type = .led
    · rw [if_pos hvalue]
      cases words with
      | cons second rest => exact leaving_usage h
      | nil =>
        cases hnumber : deviceNumber word 1 0 with
        | none => exact leaving_usage h
        | some number =>
          have huse := writeUse_number hvalue (deviceNumber_le hnumber)
          refine Safe.bind (runDevice_safe (deviceWrite_touches h huse)) fun r w' hr _ => ?_
          exact leaving_result hr _ _ _ _ _
    rw [if_neg hvalue]
    by_cases hother : d.config.type ≠ .uart ∧ d.config.type ≠ .i2c
    · rw [if_pos hother]
      exact leaving_usage h
    rw [if_neg hother]
    by_cases hmany : (word :: words).length > DEVICE_COMMAND_BUFFER_SIZE
    · rw [if_pos hmany]
      exact leaving_usage h
    rw [if_neg hmany]
    cases hbytes : writeBytes (word :: words) with
    | none => exact leaving_usage h
    | some buffer =>
      have hlength : buffer.length = words.length + 1 := writeBytes_length hbytes
      have hbounds : 0 < buffer.length ∧ buffer.length ≤ DEVICE_COMMAND_BUFFER_SIZE := by
        rw [List.length_cons] at hmany
        omega
      dsimp only
      by_cases huart : d.config.type = .uart
      · rw [if_pos huart]
        have huse : ControlUse d.config.type .uartWriteAll (.write ⟨buffer, DEVICE_COMMAND_TIMEOUT_MS⟩) :=
          ⟨huart, hbounds.1, hbounds.2, timeout_bounds⟩
        refine Safe.bind (runDevice_safe (deviceControl_touches h huse)) fun r w' hr _ => ?_
        exact wroteBytes_action hr _
      · rw [if_neg huart]
        have hi2c : d.config.type = .i2c := by
          by_contra hi2c
          exact hother ⟨huart, hi2c⟩
        refine Safe.bind (runDevice_safe (deviceWrite_touches h (.inr ⟨hi2c, hbounds⟩))) fun r w' hr _ => ?_
        exact wroteBytes_action hr _

theorem ledAction_action (h : Consistent d) (action : List Byte) (rest : List (List Byte)) :
    ActionSafe d w (ledAction d action rest) := by
  unfold ledAction
  by_cases htype : d.config.type ≠ .led
  · rw [if_pos htype]
    exact leaving_usage h
  rw [if_neg htype]
  have hled : d.config.type = .led := not_not.mp htype
  by_cases hon : action = text "on" ∧ rest = []
  · rw [if_pos hon]
    exact controlAction_action h (show ControlUse d.config.type .ledOn .null from hled) _ _
  rw [if_neg hon]
  by_cases hoff : action = text "off" ∧ rest = []
  · rw [if_pos hoff]
    exact controlAction_action h (show ControlUse d.config.type .ledOff .null from hled) _ _
  rw [if_neg hoff]
  cases rest with
  | nil => exact leaving_usage h
  | cons trigger more =>
    cases more with
    | cons second more => exact leaving_usage h
    | nil =>
      dsimp only
      by_cases htrigger : action = text "trigger"
      · rw [if_pos htrigger]
        exact controlAction_action h (show ControlUse d.config.type .ledTrigger (.trigger trigger) from hled) _ _
      · rw [if_neg htrigger]
        exact leaving_usage h

theorem deviceCommandLed_action (h : Consistent d) (argv : List (List Byte)) :
    ActionSafe d w (deviceCommandLed argv d) := by
  unfold deviceCommandLed
  cases argv.drop 3 with
  | nil => exact leaving_usage h
  | cons action rest =>
    dsimp only
    by_cases hon : d.config.type = .uart ∧ rest = [] ∧ action = text "on"
    · rw [if_pos hon]
      exact deviceCommandUart_action h _
    rw [if_neg hon]
    by_cases hoff : d.config.type = .uart ∧ rest = [] ∧ action = text "off"
    · rw [if_pos hoff]
      exact deviceCommandUart_action h _
    · rw [if_neg hoff]
      exact ledAction_action h action rest

/-- The text fits into the buffer. -/
theorem joinWords_length : ∀ (words : List (List Byte)) {buffer line : List Byte},
    buffer.length < DEVICE_COMMAND_BUFFER_SIZE → joinWords buffer words = some line →
    line.length < DEVICE_COMMAND_BUFFER_SIZE
  | [], buffer, line, hbuffer, h => by
    obtain rfl : buffer = line := Option.some.inj h
    exact hbuffer
  | word :: words, buffer, line, hbuffer, h => by
    unfold joinWords at h
    by_cases hlong : (text " " ++ word).length ≥ DEVICE_COMMAND_BUFFER_SIZE - buffer.length
    · rw [if_pos hlong] at h
      exact absurd h (by simp)
    · rw [if_neg hlong] at h
      have hfits : (buffer ++ (text " " ++ word)).length < DEVICE_COMMAND_BUFFER_SIZE := by
        rw [List.length_append]
        omega
      exact joinWords_length words hfits h

theorem oledText_length {word : List Byte} {words : List (List Byte)} {line : List Byte}
    (h : oledText word words = some line) : line.length < DEVICE_COMMAND_BUFFER_SIZE := by
  unfold oledText at h
  by_cases hlong : word.length ≥ DEVICE_COMMAND_BUFFER_SIZE
  · rw [if_pos hlong] at h
    exact absurd h (by simp)
  · rw [if_neg hlong] at h
    exact joinWords_length words (not_le.mp hlong) h

theorem oledRequest_use {action : List Byte} {request : DeviceControl} (h : oledRequest action = some request) :
    ControlUse .oled request .null := by
  unfold oledRequest at h
  split_ifs at h
  · obtain rfl := Option.some.inj h
    rfl
  · obtain rfl := Option.some.inj h
    rfl
  · obtain rfl := Option.some.inj h
    rfl
  · obtain rfl := Option.some.inj h
    rfl

/-- `device oled <oled> text`. -/
theorem oledText_action (h : Consistent d) (holed : d.config.type = .oled) {first second : List Byte}
    {line : List Byte} {x y : ℕ} (hx : deviceNumber first 127 0 = some x) (hy : deviceNumber second 63 0 = some y)
    (hline : line.length < DEVICE_COMMAND_BUFFER_SIZE) (action : List Byte) :
    ActionSafe d w (controlAction d .oledText (.text ⟨x, y, line⟩) action action) := by
  have hxle : x ≤ 127 := deviceNumber_le hx
  have hyle : y ≤ 63 := deviceNumber_le hy
  have huse : ControlUse d.config.type .oledText (.text ⟨x, y, line⟩) :=
    ⟨holed, ⟨Int.natCast_nonneg x, Int.ofNat_le.mpr hxle⟩, ⟨Int.natCast_nonneg y, Int.ofNat_le.mpr hyle⟩, hline⟩
  exact controlAction_action h huse action action

theorem deviceCommandOled_action (h : Consistent d) (argv : List (List Byte)) :
    ActionSafe d w (deviceCommandOled argv d) := by
  unfold deviceCommandOled
  by_cases htype : d.config.type ≠ .oled
  · rw [if_pos htype]
    exact leaving_usage h
  rw [if_neg htype]
  have holed : d.config.type = .oled := not_not.mp htype
  split
  · rename_i action hwords
    cases hrequest : oledRequest action with
    | none => exact leaving_usage h
    | some request =>
      have huse : ControlUse d.config.type request .null := by
        rw [holed]
        exact oledRequest_use hrequest
      exact controlAction_action h huse action action
  · rename_i action first second word words hwords
    by_cases htext : action ≠ text "text"
    · rw [if_pos htext]
      exact leaving_usage h
    rw [if_neg htext]
    cases hx : deviceNumber first 127 0 with
    | none => exact leaving_usage h
    | some x =>
      cases hy : deviceNumber second 63 0 with
      | none => exact leaving_usage h
      | some y =>
        cases hline : oledText word words with
        | none => exact leaving_usage h
        | some line => exact oledText_action h holed hx hy (oledText_length hline) action
  · exact leaving_usage h

/-- Any action, with any words. -/
theorem deviceAction_action (h : Consistent d) (argv : List (List Byte)) (action : List Byte) :
    ActionSafe d w (deviceAction argv action d) := by
  unfold deviceAction
  split_ifs
  · exact deviceCommandInfo_action h
  · exact deviceCommandOpen_action h
  · exact deviceCommandClose_action h
  · exact deviceCommandRead_action h argv
  · exact deviceCommandWrite_action h argv
  · exact deviceCommandUart_action h _
  · exact deviceCommandUart_action h _
  · cases deviceHeartbeat (argv.getD 3 []) with
    | none => exact leaving_usage h
    | some request => exact deviceCommandUart_action h request
  · exact deviceCommandLed_action h argv
  · exact deviceCommandOled_action h argv
  · exact leaving_usage h

end Actions

/-! ### Reload -/

/-- The calls of `device_manager_load`. -/
def LoadUse : ManagerCall → Prop
  | .device c => ReloadUse c
  | .calloc _ | .free _ => True

theorem backendDestroy_only (d : Device) : (backendDestroy d).Only LoadUse := by
  unfold backendDestroy
  by_cases hclose : d.ops.any (·.hasClose) = true
  · rw [if_pos hclose]
    exact ⟨trivial, fun _ => ⟨trivial, fun _ => trivial⟩⟩
  · rw [if_neg hclose]
    exact ⟨trivial, fun _ => trivial⟩

theorem deviceCallback_only (c : DeviceCall) (hc : ReloadUse c) : (deviceCallback c).Only LoadUse := by
  cases c with
  | backendClose d => exact ⟨trivial, fun _ => trivial⟩
  | backendDestroy d =>
    simp only [deviceCallback]
    by_cases hcaller : d.ops.all (·.table.isCaller) = true
    · rw [if_pos hcaller]
      exact ⟨trivial, fun _ => trivial⟩
    · rw [if_neg hcaller]
      exact backendDestroy_only d
  | backendOpen d => exact hc.elim
  | backendRead d size => exact hc.elim
  | backendWrite d data => exact hc.elim
  | backendControl d request argument => exact hc.elim
  | clockGettime => exact hc.elim

theorem deviceClose_only (d : Device) : (deviceClose d).Only ReloadUse := by
  unfold deviceClose
  by_cases hops : d.ops = none
  · rw [if_pos hops]
    trivial
  rw [if_neg hops]
  by_cases hopened : d.opened = 0
  · rw [if_pos hopened]
    trivial
  rw [if_neg hopened]
  by_cases hclose : (d.ops.all fun ops => !ops.hasClose) = true
  · rw [if_pos hclose]
    trivial
  · rw [if_neg hclose]
    exact ⟨trivial, fun _ => trivial⟩

theorem deviceDestroy_only (d : Device) : (deviceDestroy d).Only ReloadUse := by
  unfold deviceDestroy
  by_cases hops : d.ops.isSome = true
  · rw [if_pos hops]
    refine (deviceClose_only d).bind fun r => ?_
    by_cases hdestroy : r.device.ops.any (·.hasDestroy) = true
    · rw [if_pos hdestroy]
      exact ⟨trivial, fun _ => trivial⟩
    · rw [if_neg hdestroy]
      trivial
  · rw [if_neg hops]
    trivial

theorem destroyDevices_only (ds : List Device) : (destroyDevices ds).Only LoadUse := by
  induction ds with
  | nil => trivial
  | cons d ds ih => exact (Only.linked deviceCallback_only (deviceDestroy_only d)).bind fun _ => ih

theorem deviceManagerDestroy_only (m : DeviceManager) : (deviceManagerDestroy m).Only LoadUse :=
  (destroyDevices_only m.devices).bind fun _ => trivial

theorem deviceBackendInit_only (config : DeviceConfig) : (deviceBackendInit config).Only LoadUse := by
  unfold deviceBackendInit
  by_cases hvalid : (!deviceConfigValidate config) = true
  · rw [if_pos hvalid]
    trivial
  rw [if_neg hvalid]
  refine ⟨trivial, fun r => ?_⟩
  cases r with
  | error errno => trivial
  | ok context =>
    show Only LoadUse (if _ then _ else _)
    by_cases hlong : config.type = .led ∧ (brightnessPath config.ledName).length ≥ BRIGHTNESS_PATH_SIZE
    · rw [if_pos hlong]
      exact ⟨trivial, fun _ => trivial⟩
    · rw [if_neg hlong]
      trivial

theorem loadDevices_only : ∀ (configs : List DeviceConfig) (temporary : DeviceManager)
    (h : temporary.devices.length + configs.length ≤ DEVICE_MAX_COUNT), (loadDevices temporary configs h).Only LoadUse
  | [], _, _ => trivial
  | config :: configs, temporary, h => by
    unfold loadDevices
    refine (deviceBackendInit_only config).bind fun r => ?_
    cases r with
    | error errno => exact (deviceManagerDestroy_only temporary).bind fun _ => trivial
    | ok d => exact loadDevices_only configs _ _

theorem deviceManagerLoad_only (m : DeviceManager) (files : List Byte → Except ℕ ConfigFile) (filename : List Byte) :
    (deviceManagerLoad m files filename).Only LoadUse := by
  unfold deviceManagerLoad
  by_cases hopen : m.devices.any (fun device => device.opened ≠ 0) = true
  · rw [if_pos hopen]
    trivial
  rw [if_neg hopen]
  dsimp only
  by_cases hloaded : (deviceConfigLoad files ⟨[], Nat.zero_le _⟩ filename).ret < 0
  · rw [if_pos hloaded]
    trivial
  rw [if_neg hloaded]
  refine (loadDevices_only _ _ _).bind fun temporary => ?_
  cases temporary with
  | error errno => trivial
  | ok temporary => exact (deviceManagerDestroy_only m).bind fun _ => trivial

/-- Only an `errno` comes back from a load that fails. -/
def LoadReturned (r : CallResult × DeviceManager) : Prop := r.1.ret = 0 ∨ r.1.ret < 0

theorem deviceManagerLoad_returned (m : DeviceManager) (files : List Byte → Except ℕ ConfigFile)
    (filename : List Byte) (w : Heap) :
    Safe heap Watch.idle (fun r _ => LoadReturned r) (deviceManagerLoad m files filename) w := by
  have hfailed : ∀ (errno : ℕ) (w : Heap),
      Safe heap Watch.idle (fun r _ => LoadReturned r) (.ret (⟨-1, errno⟩, m)) w := by
    intro errno w
    exact Safe.ret_alone trivial (.inr (by decide : (-1 : ℤ) < 0))
  have hany : ∀ {α : Type} {p : ManagerProg α} (w : Heap), p.Only LoadUse →
      Safe heap Watch.idle (fun _ _ => True) p w := by
    intro α p w hp
    exact Only.safe (stable_alone _) (fun _ _ => trivial) (fun _ _ _ _ => trivial) (fun _ _ _ _ _ _ _ => trivial)
      hp trivial
  unfold deviceManagerLoad
  by_cases hopen : m.devices.any (fun device => device.opened ≠ 0) = true
  · rw [if_pos hopen]
    exact hfailed _ w
  rw [if_neg hopen]
  dsimp only
  by_cases hloaded : (deviceConfigLoad files ⟨[], Nat.zero_le _⟩ filename).ret < 0
  · rw [if_pos hloaded]
    exact hfailed _ w
  rw [if_neg hloaded]
  refine Safe.bind (hany w (loadDevices_only _ _ _)) fun temporary w' _ _ => ?_
  cases temporary with
  | error errno => exact hfailed errno w'
  | ok temporary =>
    refine Safe.bind (hany w' (deviceManagerDestroy_only m)) fun _ _ _ _ => ?_
    exact Safe.ret_alone trivial (.inl rfl)

def managerCommandSem (w : DeviceCommandState) (c : ManagerCall) (r : c.Ret) (w' : DeviceCommandState) : Prop :=
  deviceCommandSem w (.manager c) r w'

/-- The calls of the manager, in the state of the command. -/
abbrev managerCommandWorld : World ManagerCall ManagerCall.Ret DeviceCommandState := World.alone managerCommandSem

theorem managerCommandSem_heap (w : DeviceCommandState) (c : ManagerCall) (r : c.Ret) (w' : DeviceCommandState)
    (h : managerCommandSem w c r w') : heapSem w.heap c r w'.heap := by
  cases c with
  | device c =>
    have hstep : w' = w.call c := h
    rw [hstep]
    rfl
  | calloc type =>
    obtain ⟨heap', hheap, rfl⟩ := h
    exact hheap
  | free context =>
    obtain ⟨heap', hheap, rfl⟩ := h
    exact hheap

/-- A function of the manager that only loads and destroys, in the command. -/
theorem onCommand_safe {α : Type} {Q : α → Heap → Prop} {p : ManagerProg α} {w : DeviceCommandState}
    (h : Safe heap managerWatch Q p w.heap) (honly : p.Only LoadUse) :
    Safe deviceCommandWorld (deviceCommandWatch ReloadUse) (fun a w' => Q a w'.heap) (onCommand p) w := by
  have hheap := Safe.project (M := managerCommandWorld) (N := heap) DeviceCommandState.heap (fun _ _ henv => henv.elim)
    managerCommandSem_heap h
  have huse : Safe managerCommandWorld ⟨fun _ => True, fun c _ => LoadUse c⟩ (fun _ _ => True) p w :=
    Only.safe (stable_alone _) (fun _ _ => trivial) (fun _ _ huse _ => huse) (fun _ _ _ _ _ _ _ => trivial) honly
      trivial
  have hboth := (hheap.and huse).weaken (fun a w' _ hq => hq.1)
  refine Safe.embed DeviceCommandCall.manager (fun _ r => r) ?_ ?_ ?_ ?_ hboth
  · exact fun _ _ henv => henv
  · exact fun _ _ _ _ hstep => hstep
  · exact fun _ _ => trivial
  · intro c w' hcall
    obtain ⟨hfree, huse⟩ := hcall
    cases c with
    | device c => exact huse
    | calloc type => exact hfree
    | free context => exact hfree

/-! ### The command -/

/-- The manager is consistent with the heap, and each of its devices in
itself. -/
structure ManagerOk (m : DeviceManager) (w : DeviceCommandState) : Prop where
  registry : Registry m w.heap
  devices : ∀ d ∈ m.devices, Consistent d

/-- `device reload` is over. -/
structure ReloadOver (m : DeviceManager) (files : List Byte → Except ℕ ConfigFile) (devicesFile : List Byte)
    (r : ℤ × DeviceManager) : Prop where
  failed : r.1 ≠ MiniShell_OK → r.2 = m
  busy : (∃ d ∈ m.devices, d.opened ≠ 0) → r.1 ≠ MiniShell_OK
  loaded : r.1 = MiniShell_OK → ∃ content list, files devicesFile = .ok ⟨content, false, none⟩ ∧
    FileOk content list ∧ Loaded list r.2.devices

/-- A command about the device `name` is over: the others are what they were. -/
structure DeviceOver (m : DeviceManager) (name : List Byte) (w : DeviceCommandState) (m' : DeviceManager)
    (w' : DeviceCommandState) : Prop where
  configs : m'.devices.map Device.config = m.devices.map Device.config
  others : ∀ i d, deviceManagerGet m i = some d → d.config.name ≠ name → deviceManagerGet m' i = some d
  called : ∃ n, w'.called = w.called ++ List.replicate n name
  heap : w'.heap = w.heap

/-- A command is over. -/
structure DeviceCommandOver (m : DeviceManager) (files : List Byte → Except ℕ ConfigFile) (devicesFile : List Byte)
    (argv : List (List Byte)) (w : DeviceCommandState) (r : ℤ × DeviceManager) (w' : DeviceCommandState) : Prop where
  ok : ManagerOk r.2 w'
  usage : r.1 = MiniShell_ERR_PARSE → r.2 = m ∧ w' = w
  reload : argv.drop 1 = [text "reload"] → ReloadOver m files devicesFile r
  device : argv.drop 1 ≠ [text "reload"] → DeviceOver m (argv.getD 2 []) w r.2 w'

/-- The calls of a command. -/
def CommandUse (argv : List (List Byte)) (c : DeviceCall) : Prop :=
  if argv.drop 1 = [text "reload"] then ReloadUse c else DeviceUse c

section Command

variable {m : DeviceManager} {w : DeviceCommandState}

theorem Consistent.loaded {d : Device} (hopened : d.opened = 0)
    (hstate : d.state = if d.config.enabled ≠ 0 then .closed else .disabled) : Consistent d := by
  by_cases henabled : d.config.enabled ≠ 0
  · rw [if_pos henabled] at hstate
    exact Consistent.closed hopened henabled (.inl hstate)
  · rw [if_neg henabled] at hstate
    refine Consistent.of_state (.inl hopened) (fun hopen => ?_) fun _ => ?_
    · rw [hopened] at hopen
      exact absurd hopen zero_ne_one
    · exact ⟨.inr (.inr hstate), fun _ => not_not.mp henabled, fun _ => hstate⟩

/-- Nothing was called and the manager is as it was. -/
theorem DeviceOver.refl (m : DeviceManager) (name : List Byte) (w : DeviceCommandState) : DeviceOver m name w m w :=
  ⟨rfl, fun _ _ hget _ => hget, ⟨0, by simp⟩, rfl⟩

/-- `device_manager_find` and the index of what it finds. -/
theorem deviceManagerFind_get {name : List Byte} {d : Device} (h : deviceManagerFind m name = some d) :
    deviceManagerGet m (m.indexOf name) = some d ∧ d.config.name = name := by
  have hname := List.find?_some h
  have hindex : m.devices.find? (fun device => device.config.name = name) = deviceManagerGet m (m.indexOf name) :=
    List.find?_eq_getElem?_findIdx
  exact ⟨hindex.symm.trans h, of_decide_eq_true hname⟩

/-- The device that was found is replaced by what an action has left of it. -/
theorem DeviceOver.set {name : List Byte} {d d' : Device} {w' : DeviceCommandState}
    (hfind : deviceManagerFind m name = some d) (h : Touched d w d' w') :
    DeviceOver m name w (m.set (m.indexOf name) d') w' := by
  obtain ⟨hget, hname⟩ := deviceManagerFind_get hfind
  obtain ⟨hindex, helem⟩ := List.getElem?_eq_some_iff.mp hget
  refine ⟨?_, fun i other hother hne => ?_, ?_, h.heap⟩
  · show (m.devices.set (m.indexOf name) d').map Device.config = m.devices.map Device.config
    have hmap : (m.devices.set (m.indexOf name) d').map Device.config =
        (m.devices.set (m.indexOf name) m.devices[m.indexOf name]).map Device.config := by
      rw [List.map_set, List.map_set, h.same.config, helem]
    rw [hmap, List.set_getElem_self]
  · show (m.devices.set (m.indexOf name) d')[i]? = some other
    have hi : m.indexOf name ≠ i := by
      intro hi
      rw [← hi, hget] at hother
      obtain rfl := Option.some.inj hother
      exact hne hname
    rw [List.getElem?_set_ne hi]
    exact hother
  · obtain ⟨n, hcalled⟩ := h.called
    exact ⟨n, by rw [hcalled, hname]⟩

theorem ManagerOk.set {name : List Byte} {d d' : Device} {w' : DeviceCommandState} (h : ManagerOk m w)
    (hfind : deviceManagerFind m name = some d) (ht : Touched d w d' w') :
    ManagerOk (m.set (m.indexOf name) d') w' := by
  obtain ⟨hget, -⟩ := deviceManagerFind_get hfind
  refine ⟨?_, fun other hother => ?_⟩
  · rw [ht.heap]
    exact h.registry.set hget ht.same
  · rcases List.mem_or_eq_of_mem_set hother with hmem | rfl
    · exact h.devices other hmem
    · exact ht.consistent

/-- `device_manager_load` in the command. -/
def DeviceLoadOver (m : DeviceManager) (files : List Byte → Except ℕ ConfigFile) (filename : List Byte)
    (r : CallResult × DeviceManager) (w : DeviceCommandState) : Prop :=
  ManagerOk r.2 w ∧ Outcome m (.load files filename) r.1 r.2 w.heap ∧ LoadReturned r

theorem deviceManagerLoad_over (h : ManagerOk m w) (files : List Byte → Except ℕ ConfigFile) (filename : List Byte) :
    Safe deviceCommandWorld (deviceCommandWatch ReloadUse) (DeviceLoadOver m files filename)
      (onCommand (deviceManagerLoad m files filename)) w := by
  have hload : Safe heap managerWatch (fun r w' => Managed m (.load files filename) r w' ∧ LoadReturned r)
      (deviceManagerLoad m files filename) w.heap :=
    ((deviceManagerLoad_safe h.registry files filename).and
      (deviceManagerLoad_returned m files filename w.heap)).mono (fun _ _ => trivial) (fun _ _ hcall => hcall.1)
      (fun _ _ _ hq => hq)
  refine (onCommand_safe hload (deviceManagerLoad_only m files filename)).weaken fun r w' _ hr => ?_
  obtain ⟨⟨hregistry, houtcome⟩, hreturned⟩ := hr
  refine ⟨⟨hregistry, fun d hd => ?_⟩, houtcome, hreturned⟩
  obtain ⟨hfailed, -, hloaded⟩ := houtcome
  by_cases hzero : r.1.ret = 0
  · obtain ⟨content, list, -, -, hdevices⟩ := hloaded hzero
    obtain ⟨hopened, hstate⟩ := hdevices.closed d hd
    exact Consistent.loaded hopened hstate
  · rw [hfailed hzero] at hd
    exact h.devices d hd

theorem deviceReload_safe (h : ManagerOk m w) (files : List Byte → Except ℕ ConfigFile) (devicesFile : List Byte) :
    Safe deviceCommandWorld (deviceCommandWatch ReloadUse)
      (fun r w' => ManagerOk r.2 w' ∧ r.1 ≠ MiniShell_ERR_PARSE ∧ ReloadOver m files devicesFile r)
      (deviceReload m files devicesFile) w := by
  have hunknown : MiniShell_ERR_UNKNOWN ≠ MiniShell_OK := by decide
  unfold deviceReload
  by_cases hfile : devicesFile = []
  · rw [if_pos hfile]
    refine Safe.map (deviceCommandError_printing _ _ _ ReloadUse) fun status w' hstatus => ?_
    obtain ⟨rfl, rfl⟩ := hstatus
    exact ⟨h, unknown_ne_parse, fun _ => rfl, fun _ => hunknown, fun hok => absurd hok hunknown⟩
  rw [if_neg hfile]
  refine Safe.bind (deviceManagerLoad_over h files devicesFile) fun r w' hr _ => ?_
  obtain ⟨hmanager, ⟨hfailed, hbusy, hloaded⟩, hreturned⟩ := hr
  by_cases hret : r.1.ret < 0
  · rw [if_pos hret]
    have hsame : r.2 = m := hfailed (by omega)
    refine Safe.map (deviceCommandError_printing _ _ _ ReloadUse) fun status w'' hstatus => ?_
    obtain ⟨rfl, rfl⟩ := hstatus
    exact ⟨hmanager, unknown_ne_parse, fun _ => hsame, fun _ => hunknown, fun hok => absurd hok hunknown⟩
  · rw [if_neg hret]
    have hzero : r.1.ret = 0 := hreturned.resolve_right hret
    refine Safe.map (printed_printing _ _ ReloadUse) fun status w'' hstatus => ?_
    obtain ⟨rfl, rfl⟩ := hstatus
    exact ⟨hmanager, ok_ne_parse, fun hne => absurd rfl hne, fun hopen => absurd hzero (hbusy hopen),
      fun _ => hloaded hzero⟩

/-- Something is printed, and the manager is as it was. -/
theorem Printing.over {p : DeviceCommandProg ℤ} {A : ℤ → Prop} (h : ManagerOk m w) (hp : Printing w p A)
    {files : List Byte → Except ℕ ConfigFile} {devicesFile : List Byte} {argv : List (List Byte)}
    (hreload : argv.drop 1 ≠ [text "reload"]) :
    Safe deviceCommandWorld (deviceCommandWatch DeviceUse) (DeviceCommandOver m files devicesFile argv w)
      (p.bind fun status => .ret (status, m)) w := by
  refine Safe.map (hp DeviceUse) fun status w' hstatus => ?_
  obtain ⟨-, rfl⟩ := hstatus
  exact ⟨h, fun _ => ⟨rfl, rfl⟩, fun hr => absurd hr hreload, fun _ => DeviceOver.refl m _ _⟩

/-- A command that names a device. -/
theorem cmdDevice_named (h : ManagerOk m w) (files : List Byte → Except ℕ ConfigFile) (devicesFile : List Byte)
    {argv : List (List Byte)} {action name : List Byte} {rest : List (List Byte)}
    (hwords : argv.drop 1 = action :: name :: rest) :
    Safe deviceCommandWorld (deviceCommandWatch DeviceUse) (DeviceCommandOver m files devicesFile argv w)
      (match deviceManagerFind m name with
        | none => (cmdDevice.printedError name).bind fun status => .ret (status, m)
        | some device => (deviceAction argv action device).bind fun r => .ret (r.1, m.set (m.indexOf name) r.2)) w := by
  have hreload : argv.drop 1 ≠ [text "reload"] := by simp [hwords]
  have hname : argv.getD 2 [] = name := by
    have hget : (argv.drop 1)[1]? = some name := by simp [hwords]
    rw [List.getElem?_drop] at hget
    rw [List.getD_eq_getElem?_getD, hget]
    rfl
  cases hfind : deviceManagerFind m name with
  | none =>
    have hprinting : Printing w (cmdDevice.printedError name) fun status => status = MiniShell_ERR_UNKNOWN := by
      intro U
      apply Safe.call_alone trivial trivial
      rintro _ _ rfl
      exact Safe.ret_alone trivial ⟨rfl, rfl⟩
    exact Printing.over h hprinting hreload
  | some device =>
    have hmem : device ∈ m.devices := List.mem_of_find?_eq_some hfind
    obtain ⟨hget, -⟩ := deviceManagerFind_get hfind
    refine Safe.map (deviceAction_action (h.devices device hmem) argv action) fun r w' hr => ?_
    obtain ⟨htouched, husage⟩ := hr
    refine ⟨h.set hfind htouched, fun hparse => ?_, fun hr => absurd hr hreload, fun _ => ?_⟩
    · obtain ⟨hdevice, hstate⟩ := husage hparse
      refine ⟨?_, hstate⟩
      obtain ⟨hindex, helem⟩ := List.getElem?_eq_some_iff.mp hget
      simp only [DeviceManager.set, hdevice, ← helem, List.set_getElem_self]
    · rw [hname]
      exact DeviceOver.set hfind htouched

/-- Any command. -/
theorem cmdDevice_safe (h : ManagerOk m w) (files : List Byte → Except ℕ ConfigFile) (devicesFile : List Byte)
    (argv : List (List Byte)) :
    Safe deviceCommandWorld (deviceCommandWatch (CommandUse argv)) (DeviceCommandOver m files devicesFile argv w)
      (cmdDevice m files devicesFile argv) w := by
  by_cases hreload : argv.drop 1 = [text "reload"]
  · have huse : CommandUse argv = ReloadUse := by
      funext c
      exact if_pos hreload
    have hrun : cmdDevice m files devicesFile argv = deviceReload m files devicesFile := by
      unfold cmdDevice
      rw [hreload]
      dsimp only
      rw [if_neg (by decide), if_pos (by decide)]
    rw [huse, hrun]
    refine (deviceReload_safe h files devicesFile).weaken fun r w' _ hr => ?_
    obtain ⟨hok, hparse, hover⟩ := hr
    exact ⟨hok, fun hp => absurd hp hparse, fun _ => hover, fun hne => absurd hreload hne⟩
  · have huse : CommandUse argv = DeviceUse := by
      funext c
      exact if_neg hreload
    rw [huse]
    unfold cmdDevice
    cases hwords : argv.drop 1 with
    | nil => exact Printing.over h deviceUsage_printing hreload
    | cons action rest =>
      dsimp only
      by_cases hlist : action = text "list" ∧ rest = []
      · rw [if_pos hlist]
        exact Printing.over h (deviceCommandList_printing m) hreload
      rw [if_neg hlist]
      have hnot : ¬ (action = text "reload" ∧ rest = []) := by
        intro hwas
        obtain ⟨rfl, rfl⟩ := hwas
        exact hreload hwords
      rw [if_neg hnot]
      cases rest with
      | nil => exact Printing.over h deviceUsage_printing hreload
      | cons name rest => exact cmdDevice_named h files devicesFile hwords

end Command

/-! ### Sessions -/

/-- A command, with the file system and the path it is run with. -/
structure DeviceCommandLine where
  files : List Byte → Except ℕ ConfigFile
  devicesFile : List Byte
  argv : List (List Byte)

def DeviceCommandLine.run (m : DeviceManager) (line : DeviceCommandLine) : DeviceCommandProg DeviceManager :=
  (cmdDevice m line.files line.devicesFile line.argv).bind fun r => .ret r.2

/-- Command after command. -/
def deviceCommands (m : DeviceManager) (lines : List DeviceCommandLine) : DeviceCommandProg DeviceManager :=
  lines.foldlM DeviceCommandLine.run m

/-- The calls of a session. -/
def SessionUse (c : DeviceCall) : Prop := DeviceUse c ∨ ReloadUse c

theorem deviceCommandWatch_mono {U V : DeviceCall → Prop} (huv : ∀ c, U c → V c) (c : DeviceCommandCall)
    (w : DeviceCommandState) (h : (deviceCommandWatch U).atCall c w) : (deviceCommandWatch V).atCall c w := by
  cases c with
  | manager c =>
    cases c with
    | device c => exact huv c h
    | calloc type => exact h
    | free context => exact h
  | strerror errno => trivial
  | print line => trivial
  | complain line => trivial

theorem commandUse_session (argv : List (List Byte)) (c : DeviceCall) (h : CommandUse argv c) : SessionUse c := by
  unfold CommandUse at h
  by_cases hreload : argv.drop 1 = [text "reload"]
  · rw [if_pos hreload] at h
    exact .inr h
  · rw [if_neg hreload] at h
    exact .inl h

theorem deviceCommandLine_safe {m : DeviceManager} {w : DeviceCommandState} (h : ManagerOk m w)
    (line : DeviceCommandLine) :
    Safe deviceCommandWorld (deviceCommandWatch SessionUse) ManagerOk (line.run m) w := by
  have hcommand := (cmdDevice_safe h line.files line.devicesFile line.argv).mono (fun _ _ => trivial)
    (deviceCommandWatch_mono (commandUse_session line.argv)) (fun _ _ _ hover => hover)
  exact Safe.map hcommand fun r w' hover => hover.ok

theorem deviceCommands_safe (lines : List DeviceCommandLine) {m : DeviceManager} {w : DeviceCommandState}
    (h : ManagerOk m w) :
    Safe deviceCommandWorld (deviceCommandWatch SessionUse) ManagerOk (deviceCommands m lines) w :=
  Safe.foldlM (fun _ => stable_alone _) (fun _ _ _ => trivial) (fun _ line _ hm => deviceCommandLine_safe hm line)
    lines h

/-- At the start there are no devices. -/
theorem ManagerOk.init (called : List (List Byte)) : ManagerOk deviceManagerInit ⟨⟨[], []⟩, called⟩ := by
  have hnone : ∀ {P : Device → Prop}, ∀ d ∈ deviceManagerInit.devices, P d := fun d hd => absurd hd List.not_mem_nil
  exact ⟨⟨List.nodup_nil, hnone, hnone, List.nodup_nil, List.Perm.refl []⟩, hnone⟩

/-- Every context that was created has been released once. -/
theorem deviceManagerDestroy_over {m : DeviceManager} {w : DeviceCommandState} (h : ManagerOk m w) :
    Safe deviceCommandWorld (deviceCommandWatch ReloadUse)
      (fun m w => m = deviceManagerInit ∧ w.heap.created.Nodup ∧ w.heap.released.Perm w.heap.created)
      (onCommand (deviceManagerDestroy m)) w := by
  have hall : Owned (owned m.devices ++ []) w.heap := by
    rw [List.append_nil]
    exact h.registry.contexts
  have hdestroy := onCommand_safe (deviceManagerDestroy_safe h.registry.backed hall) (deviceManagerDestroy_only m)
  refine hdestroy.weaken fun m' w' _ hr => ?_
  obtain ⟨hinit, howned⟩ := hr
  have hperm : (w'.heap.released ++ []).Perm w'.heap.created := howned.perm
  rw [List.append_nil] at hperm
  exact ⟨hinit, howned.fresh, hperm⟩

/-- The device command after any other device commands: it calls only what a
backend of the type takes, on a device that is ready for it, and only the
device it names is touched. A reload puts all devices of a correct file in
place of those there were, none of which is open, or leaves them alone. -/
theorem device_command (lines : List DeviceCommandLine) (next : DeviceCommandLine) :
    Safe deviceCommandWorld (deviceCommandWatch SessionUse)
      (fun m w => Safe deviceCommandWorld (deviceCommandWatch (CommandUse next.argv))
        (DeviceCommandOver m next.files next.devicesFile next.argv w)
        (cmdDevice m next.files next.devicesFile next.argv) w)
      (deviceCommands deviceManagerInit lines) ⟨⟨[], []⟩, []⟩ :=
  (deviceCommands_safe lines (ManagerOk.init [])).weaken fun _ _ _ hm =>
    cmdDevice_safe hm next.files next.devicesFile next.argv

end DeviceRuntime
