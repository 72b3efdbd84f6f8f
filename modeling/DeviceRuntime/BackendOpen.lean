/-
# What is validated can be opened

The rules of a configuration are written twice: in `device_config_validate`
and, with other types, in the drivers. A configuration that is validated gets
a backend unless `calloc` fails, and the open of the device fails only when
the hardware or the kernel refused something (`trouble`), or when the device
is disabled.

The world of the hardware gives any answers. A refusal is a call that fails,
a write that is not complete, or an attribute of sysfs that is no number;
`EINTR` is none. What a refusal leaves is of no interest: `Blameless` is about
the runs without one.

Key definitions: `HardwareState`, `Refuses`, `hardwareSem`, `Blameless`,
`Preconditions`, `backendDevice`.
Key theorems: `blame_call`, `sysfsReadLong_blame`, `validate_preconditions`,
`backendOpen_blame`, `deviceBackendInit_valid`, `validated_opens`.
-/
import DeviceRuntime.Backend
import DeviceRuntime.Lib.Safe

namespace DeviceRuntime

/-! ### The world of the hardware -/

/-- `left` is what is still to be read of the attribute that holds `content`. -/
structure HardwareState where
  memory : (type : DeviceType) → BackendContext type
  content : List Byte
  left : List Byte
  trouble : Prop

/-- An attribute is a number and a line feed. -/
def Attribute (content : List Byte) : Prop :=
  ∃ i : ℤ, LONG_MIN ≤ i ∧ i ≤ LONG_MAX ∧ content = decimalInt i ++ [LF]

def SerialRefuses : (c : SerialCall) → c.Ret → Prop
  | .open _ _, r => r.ret < 0
  | .tcgetattr _, r => r.ret < 0
  | .tcsetattr _ _ _, r => r.ret < 0
  | .tcflush _ _, r => r.ret < 0
  | .close _, r => r.ret < 0
  | _, _ => False

/-- An answer for which the program is not to blame. -/
def Refuses (content : List Byte) : (o : HardwareCall) → o.Ret → Prop
  | .serial c, r => SerialRefuses c r
  | .open _ _, r => r.ret < 0
  | .close _, r => r.ret < 0
  | .read _ _, r => (r.1.ret < 0 ∧ r.1.errno ≠ EINTR) ∨ ¬ Attribute content
  | .write _ data, r => (r.ret < 0 ∧ r.errno ≠ EINTR) ∨ (0 ≤ r.ret ∧ r.ret ≠ data.length)
  | .i2cSlave _ _, r => r.ret < 0
  | .getLinehandle _ _, r => r.1.ret < 0
  | .getLineValues _, r => r.1.ret < 0
  | .setLineValues _ _, r => r.ret < 0
  | _, _ => False

/-- What `read` gives: something of what is left, nothing only at the end. -/
structure ReadsLeft (left : List Byte) (size : ℕ) (r : CallResult × List Byte) : Prop where
  some_of : r.2 <+: left
  count : 0 ≤ r.1.ret → r.1.ret = r.2.length
  room : r.2.length ≤ size
  failed : r.1.ret < 0 → r.2 = []
  ended : r.1.ret = 0 → 0 < size → left = []

/-- What a call does to all but `trouble`. -/
def HardwareMoves (w : HardwareState) : (o : HardwareCall) → o.Ret → HardwareState → Prop
  | .load type, r, w' => r = w.memory type ∧ w' = w
  | .store type context, _, w' => w' = { w with memory := Function.update w.memory type context }
  | .open _ _, _, w' => ∃ content, w' = { w with content := content, left := content }
  | .read _ size, r, w' => ReadsLeft w.left size r ∧ w' = { w with left := w.left.drop r.2.length }
  | _, _, w' => w' = w

def hardwareSem (w : HardwareState) (o : HardwareCall) (r : o.Ret) (w' : HardwareState) : Prop :=
  ∃ v, HardwareMoves w o r v ∧ w' = { v with trouble := w.trouble ∨ Refuses w.content o r }

abbrev hardware : World HardwareCall HardwareCall.Ret HardwareState := Prog.World.alone hardwareSem

/-- The hardware refused something, or it is as wanted. -/
def Blame {α : Type} (Q : α → HardwareState → Prop) (a : α) (w : HardwareState) : Prop := w.trouble ∨ Q a w

/-- `p` is as wanted unless the hardware refuses something. -/
abbrev Blameless {α : Type} (Q : α → HardwareState → Prop) (p : HardwareProg α) (w : HardwareState) : Prop :=
  Prog.Safe hardware .idle (Blame Q) p w

section Blame

variable {α β : Type} {Q : α → HardwareState → Prop} {R : β → HardwareState → Prop} {w w' : HardwareState}

theorem trouble_stays {o : HardwareCall} {r : o.Ret} (h : w.trouble) (hs : hardwareSem w o r w') : w'.trouble := by
  obtain ⟨v, -, rfl⟩ := hs
  exact .inl h

/-- After a refusal everything goes. -/
theorem blame_trouble (p : HardwareProg α) (h : w.trouble) : Blameless Q p w := by
  have hidle : Prog.Safe hardware .idle (fun (_ : α) _ => True) p w := by
    apply Prog.Safe.coind fun _ _ => True
    · intro q v _
      cases q with
      | ret a => exact ⟨trivial, trivial⟩
      | call o k => exact ⟨trivial, trivial⟩
      | loop body s k => trivial
    · intro _ _ _ _ _ _
      trivial
    · trivial
  have hkept := Prog.Safe.invariant (M := hardware) (I := HardwareState.trouble) (fun _ _ _ _ he => False.elim he)
    (fun _ _ _ _ _ _ ht hs => trouble_stays ht hs) hidle h
  exact hkept.mono (fun _ _ => trivial) (fun _ _ _ => trivial) fun _ _ hv _ => .inl hv.2

theorem blame_ret {a : α} (h : Q a w) : Blameless Q (.ret a) w := Prog.Safe.ret_alone trivial (.inr h)

theorem blame_call {o : HardwareCall} {k : o.Ret → HardwareProg α}
    (hk : ∀ r w', hardwareSem w o r w' → ¬ Refuses w.content o r → Blameless Q (k r) w') :
    Blameless Q (.call o k) w := by
  apply Prog.Safe.call_alone trivial trivial
  intro r w' hs
  by_cases hr : Refuses w.content o r
  · apply blame_trouble
    obtain ⟨v, -, rfl⟩ := hs
    exact .inr hr
  · exact hk r w' hs hr

theorem blame_bind {p : HardwareProg β} {f : β → HardwareProg α} (hp : Blameless R p w)
    (hf : ∀ b w, R b w → Blameless Q (f b) w) : Blameless Q (p.bind f) w := by
  apply Prog.Safe.bind hp
  intro b v hb _
  rcases hb with ht | hb
  · exact blame_trouble _ ht
  · exact hf b v hb

/-- A loop, with what holds before each turn. -/
theorem blame_iter {σ : Type} {I : σ → HardwareState → Prop} {body : σ → HardwareProg (σ ⊕ α)} {s : σ}
    (hbody : ∀ s w, I s w → Blameless (Sum.elim I Q) (body s) w) (h : I s w) : Blameless Q (.iter body s) w := by
  apply Prog.Safe.iter (I := fun s v => v.trouble ∨ I s v) (fun _ => Prog.stable_alone _)
    (fun _ => Prog.stable_alone _) (fun _ _ _ => trivial) (fun _ _ _ => trivial) ?_ (.inr h)
  intro s v hs
  rcases hs with ht | hs
  · have hany := blame_trouble (Q := Sum.elim I Q) (body s) ht
    refine hany.weaken fun x v _ hx => ?_
    cases x <;> exact hx
  · refine (hbody s v hs).weaken fun x v _ hx => ?_
    cases x <;> exact hx

end Blame

/-! ### The drivers -/

open HardwareCall

section Drivers

variable {w : HardwareState} {path : List Byte}

theorem hwClose_blame (fd : ℤ) : Blameless (fun r _ => 0 ≤ r.ret) (hwClose fd) w := by
  apply blame_call
  intro r v _ hr
  exact blame_ret (Int.not_lt.mp hr)

theorem i2cBusOpen_blame {bus : I2cBus} {address : UInt8} (hpath : path ≠ []) (haddress : address ≤ 0x7F)
    (hclosed : bus.fd < 0) :
    Blameless (fun r _ => r.1.ret = 0 ∧ 0 ≤ r.2.fd) (i2cBusOpen bus path address) w := by
  have hargs : ¬ (path = [] ∨ address > 0x7F) := by
    rw [not_or]
    exact ⟨hpath, UInt8.not_lt.mpr haddress⟩
  unfold i2cBusOpen
  rw [if_neg hargs, if_neg (Int.not_le.mpr hclosed)]
  apply blame_call
  intro fd v _ (hfd : ¬ fd.ret < 0)
  rw [Prog.ret_bind, if_neg hfd]
  apply blame_call
  intro slave v _ (hslave : ¬ slave.ret < 0)
  rw [Prog.ret_bind, if_neg hslave]
  exact blame_ret ⟨rfl, Int.not_lt.mp hfd⟩

theorem i2cBusWrite_blame {bus : I2cBus} (hopen : 0 ≤ bus.fd) (data : List Byte) :
    Blameless (fun r _ => r.ret = 0) (i2cBusWrite bus data) w := by
  unfold i2cBusWrite
  rw [if_neg (Int.not_lt.mpr hopen)]
  apply blame_iter (I := fun _ _ => True) ?_ trivial
  intro _ v _
  apply blame_call
  intro ret v _ hret
  have hret : ¬ ((ret.ret < 0 ∧ ret.errno ≠ EINTR) ∨ (0 ≤ ret.ret ∧ ret.ret ≠ data.length)) := hret
  rw [not_or, not_and, not_and, not_not, not_not] at hret
  rw [Prog.ret_bind]
  by_cases hintr : ret.ret < 0 ∧ ret.errno = EINTR
  · rw [if_pos hintr]
    exact blame_ret trivial
  · have hpos : ¬ ret.ret < 0 := fun hneg => hintr ⟨hneg, hret.1 hneg⟩
    have hwhole : ret.ret = data.length := hret.2 (Int.not_lt.mp hpos)
    rw [if_neg hintr, if_neg hpos, if_neg (not_not.mpr hwhole)]
    exact blame_ret rfl

theorem oledWritePackets_blame {bus : I2cBus} (hopen : 0 ≤ bus.fd) (control : Byte) (chunk : ℕ) (data : List Byte) :
    Blameless (fun r _ => r.ret = 0) (oledWritePackets bus control chunk data) w := by
  unfold oledWritePackets
  apply blame_iter (I := fun _ _ => True) ?_ trivial
  intro data v _
  by_cases hdone : data.length = 0
  · rw [if_pos hdone]
    exact blame_ret rfl
  rw [if_neg hdone]
  apply blame_bind (i2cBusWrite_blame hopen _)
  intro written v hwritten
  rw [if_neg (by omega)]
  exact blame_ret trivial

theorem oledWriteCommands_blame {bus : I2cBus} {oled : Oled} (hopen : 0 ≤ bus.fd) (hbus : oled.bus = true)
    (commands : List Byte) : Blameless (fun r _ => r.ret = 0) (oledWriteCommands oled bus commands) w := by
  unfold oledWriteCommands
  rw [if_neg (by rw [hbus]; decide)]
  exact oledWritePackets_blame hopen _ _ _

theorem oledRefresh_blame {bus : I2cBus} {oled : Oled} (hopen : 0 ≤ bus.fd) (hbus : oled.bus = true) :
    Blameless (fun r _ => r.ret = 0) (oledRefresh oled bus) w := by
  have hnull : ¬ (!oled.bus) = true := by
    rw [hbus]
    decide
  unfold oledRefresh
  rw [if_neg hnull]
  apply blame_bind (oledWriteCommands_blame hopen hbus _)
  intro commands v hcommands
  unfold oledWriteData
  rw [if_neg (by omega), if_neg hnull]
  exact oledWritePackets_blame hopen _ _ _

theorem oledInit_blame {bus : I2cBus} {oled : Oled} (hopen : 0 ≤ bus.fd) :
    Blameless (fun r _ => r.1.ret = 0 ∧ r.2.bus = true) (oledInit oled bus) w := by
  unfold oledInit
  rw [if_neg (Int.not_lt.mpr hopen)]
  apply blame_bind (oledWriteCommands_blame hopen rfl _)
  intro commands v hcommands
  rw [if_neg (by omega)]
  apply blame_bind (oledRefresh_blame hopen rfl)
  intro refreshed v hrefreshed
  exact blame_ret ⟨hrefreshed, rfl⟩

theorem gpioLineRequest_blame {line : GpioLine} (hpath : path ≠ []) (hclosed : line.fd < 0) (offset flags : ℕ)
    (defaultValue : ℤ) :
    Blameless (fun r _ => r.1.ret = 0) (gpioLineRequest line path offset flags defaultValue) w := by
  unfold gpioLineRequest
  rw [if_neg hpath, if_neg (Int.not_le.mpr hclosed)]
  apply blame_call
  intro chip v _ (hchip : ¬ chip.ret < 0)
  rw [Prog.ret_bind, if_neg hchip]
  apply blame_call
  intro request v _ (hrequest : ¬ request.1.ret < 0)
  rw [Prog.ret_bind, if_neg hrequest]
  apply blame_bind (hwClose_blame _)
  intro closed v hclosed
  rw [if_neg (Int.not_lt.mpr hclosed)]
  exact blame_ret rfl

theorem serialPortOpen_blame {port : SerialPort} {baudrate speed : ℤ} (hpath : path ≠ []) (hclosed : port.fd < 0)
    (hbaud : baudToSpeed baudrate = some speed) (nonblocking : Bool) :
    Blameless (fun r _ => r.1.ret = 0) ((serialPortOpen port path baudrate nonblocking).link serialCall) w := by
  unfold serialPortOpen
  rw [if_neg hpath, if_neg (Int.not_le.mpr hclosed)]
  apply blame_call
  intro fd v _ (hfd : ¬ fd.ret < 0)
  simp only [Prog.ret_bind]
  rw [if_neg hfd]
  unfold configureSerial
  rw [hbaud]
  apply blame_call
  intro get v _ (hget : ¬ get.ret < 0)
  simp only [Prog.ret_bind]
  rw [if_neg hget]
  apply blame_call
  intro set v _ (hset : ¬ set.ret < 0)
  simp only [Prog.ret_bind]
  rw [if_neg hset]
  apply blame_call
  intro flush v _ (hflush : ¬ flush.ret < 0)
  simp only [Prog.ret_bind]
  rw [if_neg hflush]
  exact blame_ret rfl

/-- A number is printed with digits and a minus. -/
theorem mem_decimalInt {i : ℤ} {c : Byte} (h : c ∈ decimalInt i) : isdigit c = true ∨ c = '-'.toUInt8 := by
  unfold decimalInt at h
  split_ifs at h
  · rcases List.mem_cons.mp h with rfl | h
    · exact .inr rfl
    · exact .inl (isdigit_of_mem_decimal c h)
  · exact .inl (isdigit_of_mem_decimal c h)

theorem not_mem_decimalInt {i : ℤ} {c : Byte} (hdigit : isdigit c = false) (hminus : c ≠ '-'.toUInt8) :
    c ∉ decimalInt i := by
  intro h
  rcases mem_decimalInt h with h | h
  · rw [hdigit] at h
    cases h
  · exact hminus h

/-- The string of an attribute. -/
theorem attribute_string (i : ℤ) :
    cstr ((decimalInt i ++ [LF]).rdropWhile fun c => c = LF || c = CR) = decimalInt i := by
  have hend : (decimalInt i).rdropWhile (fun c => c = LF || c = CR) = decimalInt i := by
    rw [List.rdropWhile_eq_self_iff]
    intro hne hlast
    have hmem := List.getLast_mem hne
    simp only [Bool.or_eq_true, decide_eq_true_eq] at hlast
    rcases hlast with hlast | hlast
    · exact not_mem_decimalInt (c := LF) (by decide) (by decide) (hlast ▸ hmem)
    · exact not_mem_decimalInt (c := CR) (by decide) (by decide) (hlast ▸ hmem)
  rw [List.rdropWhile_concat_pos _ _ _ (by decide), hend]
  exact cstr_line (not_mem_decimalInt (by decide) (by decide))

theorem attribute_length {content : List Byte} (h : Attribute content) : content.length ≤ 21 := by
  obtain ⟨i, hmin, hmax, rfl⟩ := h
  have hlen := length_decimalInt_le hmin hmax
  rw [List.length_append, List.length_singleton]
  omega

/-- What is in the buffer and what is left make up the attribute. -/
structure ReadPart (buffer : List Byte) (v : HardwareState) : Prop where
  whole : buffer ++ v.left = v.content
  attribute_of : buffer = [] ∨ Attribute v.content

/-- The attribute is read to its end. -/
def ReadAll (r : Except ℕ (List Byte)) (v : HardwareState) : Prop := r = .ok v.content ∧ Attribute v.content

theorem sysfsReadTurn_blame {fd : ℤ} {buffer : List Byte} (h : ReadPart buffer w) :
    Blameless (Sum.elim ReadPart ReadAll) (sysfsReadTurn fd 64 buffer) w := by
  have hroom : buffer.length < 63 := by
    rcases h.attribute_of with hnil | hattribute
    · rw [hnil]
      decide
    · have hlen := attribute_length hattribute
      rw [← h.whole, List.length_append] at hlen
      omega
  unfold sysfsReadTurn
  rw [if_neg (not_not.mpr hroom)]
  apply blame_call
  intro count v hs (hcount : ¬ ((count.1.ret < 0 ∧ count.1.errno ≠ EINTR) ∨ ¬ Attribute w.content))
  rw [not_or, not_not, not_and, not_not] at hcount
  obtain ⟨hintr, hattribute⟩ := hcount
  obtain ⟨v, ⟨hread, rfl⟩, rfl⟩ := hs
  rw [Prog.ret_bind]
  by_cases hneg : count.1.ret < 0
  · rw [if_pos hneg, if_pos (hintr hneg)]
    apply blame_ret
    refine ⟨?_, .inr hattribute⟩
    dsimp only
    rw [hread.failed hneg, List.length_nil, List.drop_zero]
    exact h.whole
  rw [if_neg hneg]
  by_cases hzero : count.1.ret = 0
  · have hempty : count.2.length = 0 := by
      have hcount := hread.count (by omega)
      omega
    have hleft := hread.ended hzero (by omega)
    rw [if_pos hzero]
    apply blame_ret
    refine ⟨?_, hattribute⟩
    dsimp only
    rw [← h.whole, hleft, List.append_nil]
  · rw [if_neg hzero]
    apply blame_ret
    refine ⟨?_, .inr hattribute⟩
    obtain ⟨rest, hrest⟩ := hread.some_of
    dsimp only
    rw [← hrest, List.drop_left, List.append_assoc, hrest]
    exact h.whole

/-- An attribute that can be read is a number. -/
theorem sysfsReadLong_blame : Blameless (fun r _ => ∃ i, r = .ok i) (sysfsReadLong path) w := by
  have htext : Blameless (fun r _ => ∃ i, LONG_MIN ≤ i ∧ i ≤ LONG_MAX ∧ r = .ok (decimalInt i))
      (sysfsReadText path 64) w := by
    unfold sysfsReadText
    rw [if_neg (by decide)]
    apply blame_call
    intro fd v hs (hfd : ¬ fd.ret < 0)
    rw [Prog.ret_bind, if_neg hfd]
    obtain ⟨v, ⟨content, rfl⟩, rfl⟩ := hs
    apply blame_bind (R := ReadAll)
    · apply blame_iter (I := ReadPart)
      · intro buffer v h
        exact sysfsReadTurn_blame h
      · exact ⟨rfl, .inl rfl⟩
    · rintro r v ⟨rfl, i, hmin, hmax, hcontent⟩
      dsimp only
      apply blame_bind (hwClose_blame _)
      intro closed _ hclosed
      rw [if_neg (Int.not_lt.mpr hclosed)]
      apply blame_ret
      refine ⟨i, hmin, hmax, ?_⟩
      rw [hcontent, attribute_string]
  unfold sysfsReadLong
  apply blame_bind htext
  rintro r v ⟨i, hmin, hmax, rfl⟩
  have hne : decimalInt i ≠ [] := by
    unfold decimalInt
    split_ifs
    · exact List.cons_ne_nil _ _
    · exact decimal_ne_nil _
  have hgood : ¬ ((strtol (decimalInt i)).erange = true ∨ (strtol (decimalInt i)).rest = decimalInt i ∨
      (strtol (decimalInt i)).rest ≠ []) := by
    rw [strtol_decimalInt hmin hmax]
    simp [hne.symm]
  dsimp only
  rw [if_neg hgood]
  exact blame_ret ⟨_, rfl⟩

end Drivers

/-! ### The checks of the drivers -/

/-- The attributes of an LED that are used. -/
def ledAttributes : List (List Byte) := [text "trigger", text "max_brightness", text "brightness"]

/-- What the drivers ask of a configuration. -/
structure Preconditions (config : DeviceConfig) : Prop where
  path : config.type ≠ .led → config.path ≠ []
  baudrate : config.type = .uart → ∃ speed, baudToSpeed config.baudrate = some speed
  address_kept : config.type = .i2c ∨ config.type = .oled → (UInt8.ofNat config.address).toNat = config.address
  address_small : config.type = .i2c ∨ config.type = .oled → UInt8.ofNat config.address ≤ 0x7F
  bias : config.type = .gpio → ∃ flags, gpioBiasFlags config.bias = some flags
  initial_value : config.type = .gpio → config.initialValue = 0 ∨ config.initialValue = 1
  led_name : config.type = .led → ledNameValid config.ledName = true
  brightness_path : config.type = .led → (brightnessPath config.ledName).length < BRIGHTNESS_PATH_SIZE
  led_path : config.type = .led → ∀ attr ∈ ledAttributes,
    ∃ path, ledBuildPath LED_PATH_SIZE config.ledName attr = .ok path

section Validate

variable {config : DeviceConfig}

theorem validate_ledName (h : deviceConfigValidate config = true) (htype : config.type = .led) :
    config.ledName.length < DEVICE_NAME_SIZE ∧ configLedNameValid config.ledName = true := by
  unfold deviceConfigValidate at h
  split_ifs at h with hlength hname
  exact ⟨by omega, h⟩

/-- The other types have a path, and the checks of their own. -/
theorem validate_path (h : deviceConfigValidate config = true) (htype : config.type ≠ .led) :
    config.path ≠ [] ∧
      (config.type = .uart → config.baudrate ∈ ([9600, 19200, 38400, 57600, 115200, 230400] : List ℤ)) ∧
      (config.type = .i2c ∨ config.type = .oled → 3 ≤ config.address ∧ config.address ≤ 0x77) ∧
      (config.type = .gpio →
        (config.initialValue = 0 ∨ config.initialValue = 1) ∧ 0 ≤ config.bias ∧ config.bias ≤ 3) := by
  have hpath : ¬ (config.path.getD 0 0 ≠ '/'.toUInt8 ∨ config.path.getD 1 0 = 0) → config.path ≠ [] := by
    rintro hslash hnil
    rw [hnil] at hslash
    exact hslash (.inr rfl)
  unfold deviceConfigValidate at h
  split_ifs at h with hlength hname hslash huart haddress hgpio
  · refine ⟨hpath hslash, fun _ => of_decide_eq_true h, ?_, ?_⟩
    · rintro (h' | h') <;> simp [huart] at h'
    · intro h'
      simp [huart] at h'
  · refine ⟨hpath hslash, fun h' => absurd h' huart, ?_, ?_⟩
    · intro hbus
      rw [not_and, not_or, not_lt, not_lt] at haddress
      exact haddress hbus
    · intro hline
      rw [not_and] at hgpio
      have hgpio := hgpio hline
      omega

theorem configLedNameValid_led {name : List Byte} (h : configLedNameValid name = true) : ledNameValid name = true := by
  unfold configLedNameValid at h
  unfold ledNameValid
  simp only [Bool.and_eq_true, List.all_eq_true, Bool.not_eq_true', Bool.or_eq_false_iff] at h ⊢
  refine ⟨h.1, fun c hc => ?_⟩
  obtain ⟨⟨⟨hslash, -⟩, hcontrol⟩, hdelete⟩ := h.2 c hc
  exact ⟨⟨hslash, hcontrol⟩, hdelete⟩

theorem ledBuildPath_short {name attr : List Byte} (hname : ledNameValid name = true)
    (hlength : name.length < DEVICE_NAME_SIZE) (hattr : attr ∈ ledAttributes) :
    ∃ path, ledBuildPath LED_PATH_SIZE name attr = .ok path := by
  have hshape : attr ≠ [] ∧ attr.length ≤ 14 := by
    simp only [ledAttributes, List.mem_cons, List.not_mem_nil, or_false] at hattr
    rcases hattr with rfl | rfl | rfl <;> decide
  have hbase : LED_SYSFS_BASE.length = 15 := by decide
  have hargs : ¬ (LED_PATH_SIZE = 0 ∨ (!ledNameValid name) = true ∨ attr = []) := by
    rw [hname]
    simp [hshape.1]
  have hfits : ¬ (LED_SYSFS_BASE ++ '/'.toUInt8 :: name ++ '/'.toUInt8 :: attr).length ≥ LED_PATH_SIZE := by
    simp only [List.length_append, List.length_cons, hbase]
    unfold DEVICE_NAME_SIZE at hlength
    unfold LED_PATH_SIZE
    omega
  refine ⟨LED_SYSFS_BASE ++ '/'.toUInt8 :: name ++ '/'.toUInt8 :: attr, ?_⟩
  unfold ledBuildPath
  rw [if_neg hargs]
  exact if_neg hfits

theorem brightnessPath_fits {name : List Byte} (hlength : name.length < DEVICE_NAME_SIZE) :
    (brightnessPath name).length < BRIGHTNESS_PATH_SIZE := by
  have hbase : (text "/sys/class/leds/").length = 16 := by decide
  have hattr : (text "/brightness").length = 11 := by decide
  unfold brightnessPath
  rw [List.length_append, List.length_append, hbase, hattr]
  unfold DEVICE_NAME_SIZE at hlength
  unfold BRIGHTNESS_PATH_SIZE DEVICE_PATH_SIZE DEVICE_NAME_SIZE
  omega

/-- What is validated passes the checks of the drivers. -/
theorem validate_preconditions (h : deviceConfigValidate config = true) : Preconditions config := by
  have haddress : config.type = .i2c ∨ config.type = .oled → config.address ≤ 0x77 := by
    intro htype
    have hled : config.type ≠ .led := by
      rintro hled
      rw [hled] at htype
      simp at htype
    exact ((validate_path h hled).2.2.1 htype).2
  have hkept : config.type = .i2c ∨ config.type = .oled → (UInt8.ofNat config.address).toNat = config.address := by
    intro htype
    have hsmall := haddress htype
    rw [UInt8.toNat_ofNat']
    omega
  constructor
  case path => exact fun htype => (validate_path h htype).1
  case baudrate =>
    intro htype
    have hled : config.type ≠ .led := by simp [htype]
    exact ⟨config.baudrate, if_pos ((validate_path h hled).2.1 htype)⟩
  case address_kept => exact hkept
  case address_small =>
    intro htype
    have hsmall := haddress htype
    rw [UInt8.le_iff_toNat_le, hkept htype]
    show config.address ≤ 127
    omega
  case bias =>
    intro htype
    have hled : config.type ≠ .led := by simp [htype]
    obtain ⟨-, hmin, hmax⟩ := (validate_path h hled).2.2.2 htype
    have hcases : config.bias = 0 ∨ config.bias = 1 ∨ config.bias = 2 ∨ config.bias = 3 := by omega
    rcases hcases with hb | hb | hb | hb <;> rw [hb] <;> exact ⟨_, rfl⟩
  case initial_value =>
    intro htype
    have hled : config.type ≠ .led := by simp [htype]
    exact ((validate_path h hled).2.2.2 htype).1
  case led_name => exact fun htype => configLedNameValid_led (validate_ledName h htype).2
  case brightness_path => exact fun htype => brightnessPath_fits (validate_ledName h htype).1
  case led_path =>
    intro htype attr hattr
    obtain ⟨hlength, hvalid⟩ := validate_ledName h htype
    exact ledBuildPath_short (configLedNameValid_led hvalid) hlength hattr

end Validate

/-! ### The open of a device -/

section Open

variable {w : HardwareState} {d : Device} {config : DeviceConfig}

theorem blame_load {α : Type} {type : DeviceType} {k : BackendContext type → HardwareProg α}
    {Q : α → HardwareState → Prop} (h : ∀ v, Blameless Q (k (w.memory type)) v) :
    Blameless Q (.call (HardwareCall.load type) k) w := by
  apply blame_call
  intro r v hs _
  obtain ⟨v, ⟨rfl, rfl⟩, rfl⟩ := hs
  exact h _

theorem blame_store {α : Type} {type : DeviceType} {context : BackendContext type} {k : Unit → HardwareProg α}
    {Q : α → HardwareState → Prop} (h : ∀ v, Blameless Q (k ()) v) :
    Blameless Q (.call (HardwareCall.store type context) k) w := by
  apply blame_call
  intro _ v _ _
  exact h v

theorem uartOpen_blame (h : Preconditions d.config) (htype : d.config.type = .uart)
    (hclosed : w.memory .uart = serialPortInit) :
    Blameless (fun r _ => r.ret = 0) ((uartOpen d).link serialCall) w := by
  obtain ⟨speed, hbaud⟩ := h.baudrate htype
  have hpath : d.config.path ≠ [] := h.path (by simp [htype])
  apply blame_load
  intro v
  rw [hclosed]
  simp only [Prog.ret_bind, Prog.bind_eq, Prog.link_bind]
  apply blame_bind (serialPortOpen_blame hpath (by decide) hbaud true)
  intro r v hr
  apply blame_store
  intro v
  exact blame_ret hr

theorem i2cOpen_blame (h : Preconditions d.config) (htype : d.config.type = .i2c)
    (hclosed : w.memory .i2c = i2cBusInit) : Blameless (fun r _ => r.ret = 0) (i2cOpen d) w := by
  apply blame_load
  intro v
  rw [hclosed, Prog.ret_bind]
  apply blame_bind (i2cBusOpen_blame (h.path (by simp [htype])) (h.address_small (.inl htype)) (by decide))
  rintro r v ⟨hr, -⟩
  apply blame_store
  intro v
  exact blame_ret hr

theorem oledOpen_blame (h : Preconditions d.config) (htype : d.config.type = .oled)
    (hclosed : (w.memory .oled).bus = i2cBusInit) : Blameless (fun r _ => r.ret = 0) (oledOpen d) w := by
  apply blame_load
  intro v
  rw [Prog.ret_bind, hclosed]
  apply blame_bind (i2cBusOpen_blame (h.path (by simp [htype])) (h.address_small (.inr htype)) (by decide))
  rintro bus v ⟨hbus, hopen⟩
  apply blame_store
  intro v
  rw [Prog.ret_bind, if_neg (by omega)]
  apply blame_bind (oledInit_blame hopen)
  rintro display v ⟨hdisplay, -⟩
  apply blame_store
  intro v
  rw [Prog.ret_bind, if_neg (by omega)]
  exact blame_ret rfl

theorem gpioOpenLine_blame (h : Preconditions config) (htype : config.type = .gpio) :
    Blameless (fun r _ => r.1.ret = 0) (gpioOpenLine gpioLineInit config) w := by
  have hpath : config.path ≠ [] := h.path (by simp [htype])
  unfold gpioOpenLine
  by_cases houtput : config.gpioOutput ≠ 0
  · have hvalue : ¬ (config.initialValue ≠ 0 ∧ config.initialValue ≠ 1) := by
      have hinitial := h.initial_value htype
      omega
    rw [if_pos houtput]
    unfold gpioLineOpenOutput
    rw [if_neg hvalue]
    exact gpioLineRequest_blame hpath (by decide) _ _ _
  · obtain ⟨flags, hflags⟩ := h.bias htype
    rw [if_neg houtput]
    unfold gpioLineOpenInput
    rw [hflags]
    exact gpioLineRequest_blame hpath (by decide) _ _ _

theorem gpioOpen_blame (h : Preconditions d.config) (htype : d.config.type = .gpio)
    (hclosed : w.memory .gpio = gpioLineInit) : Blameless (fun r _ => r.ret = 0) (gpioOpen d) w := by
  apply blame_load
  intro v
  rw [hclosed, Prog.ret_bind]
  apply blame_bind (gpioOpenLine_blame h htype)
  intro r v hr
  apply blame_store
  intro v
  exact blame_ret hr

theorem ledOpen_blame : Blameless (fun r _ => r.ret = 0) ledOpen w := by
  apply blame_load
  intro v
  rw [Prog.ret_bind]
  apply blame_bind sysfsReadLong_blame
  rintro r v ⟨i, rfl⟩
  exact blame_ret rfl

/-- The open of the backend of a validated device. -/
theorem backendOpen_blame (font : OledFont) (h : Preconditions d.config)
    (hclosed : w.memory = backendContext d.config) :
    Blameless (fun r _ => r.ret = 0) (hardwareBackend font d.config.type (.backendOpen d)) w := by
  cases htype : d.config.type with
  | uart => exact uartOpen_blame h htype (by rw [hclosed]; rfl)
  | i2c => exact i2cOpen_blame h htype (by rw [hclosed]; rfl)
  | oled => exact oledOpen_blame h htype (by rw [hclosed]; rfl)
  | gpio => exact gpioOpen_blame h htype (by rw [hclosed]; rfl)
  | led => exact ledOpen_blame

/-- The device that `device_backend_init` makes. -/
def backendDevice (config : DeviceConfig) (context : ℕ) : Device :=
  deviceInit (some config) (some (backendOps config.type)) (some context)

theorem backendOps_open (type : DeviceType) : (backendOps type).hasOpen = true := by
  cases type <;> rfl

/-- An enabled device is open after the open, unless the hardware refused
something. -/
theorem deviceOpen_blame (font : OledFont) (h : Preconditions config) (henabled : config.enabled ≠ 0) (context : ℕ)
    (hclosed : w.memory = backendContext config) :
    Blameless (fun r _ => r.ret = 0 ∧ r.device.opened = 1 ∧ r.device.state = .opened)
      (onHardware font config.type (deviceOpen (backendDevice config context))) w := by
  have hops : ¬ (backendDevice config context).ops.all (fun ops => !ops.hasOpen) = true := by
    show ¬ (!(backendOps config.type).hasOpen) = true
    rw [backendOps_open]
    decide
  have hconfig : (backendDevice config context).config.enabled ≠ 0 := henabled
  have hopened : ¬ (backendDevice config context).opened ≠ 0 := not_not.mpr rfl
  unfold onHardware deviceOpen
  rw [if_neg hops, if_neg hconfig, if_neg hopened]
  apply blame_bind (@backendOpen_blame w (backendDevice config context) font h hclosed)
  intro r v hr
  simp only [Prog.ret_bind, hr]
  apply blame_ret
  refine ⟨hr, ?_⟩
  unfold deviceReturn deviceResult
  rw [if_pos (by omega)]
  exact ⟨rfl, rfl⟩

theorem deviceBackendInit_valid (h : deviceConfigValidate config = true) :
    deviceBackendInit config = .call (.calloc config.type) fun
      | .error errno => .ret (.error errno)
      | .ok context => .ret (.ok (backendDevice config context)) := by
  have hfits : ¬ (config.type = .led ∧ (brightnessPath config.ledName).length ≥ BRIGHTNESS_PATH_SIZE) := by
    rintro ⟨htype, hlong⟩
    have hshort := (validate_preconditions h).brightness_path htype
    omega
  unfold deviceBackendInit
  rw [if_neg (by rw [h]; decide)]
  simp only [Prog.bind_eq, Prog.call_bind, Prog.ret_bind, if_neg hfits]
  congr 1
  funext r
  cases r <;> rfl

/-- A validated configuration passes the checks of the drivers, gets a backend
unless `calloc` fails, and the device can be opened unless the hardware refuses
something. -/
theorem validated_opens (config : DeviceConfig) (h : deviceConfigValidate config = true) :
    Preconditions config ∧
    (deviceBackendInit config = .call (.calloc config.type) fun
      | .error errno => .ret (.error errno)
      | .ok context => .ret (.ok (backendDevice config context))) ∧
    ∀ (font : OledFont) (context : ℕ) (w : HardwareState), w.memory = backendContext config →
      Blameless (fun r _ => r.ret = 0) (hardwareBackend font config.type (.backendOpen (backendDevice config context))) w ∧
      (config.enabled ≠ 0 →
        Blameless (fun r _ => r.ret = 0 ∧ r.device.opened = 1 ∧ r.device.state = .opened)
          (onHardware font config.type (deviceOpen (backendDevice config context))) w) := by
  have hpre := validate_preconditions h
  refine ⟨hpre, deviceBackendInit_valid h, fun font context w hclosed => ⟨?_, fun henabled => ?_⟩⟩
  · exact @backendOpen_blame w (backendDevice config context) font hpre hclosed
  · exact deviceOpen_blame font hpre henabled context hclosed

/-- An LED. -/
def blueLed : DeviceConfig := { deviceConfigInit with name := text "blue", type := .led, ledName := text "blue_led" }

theorem validated_opens_led : Preconditions blueLed ∧ ∀ (font : OledFont) (context : ℕ) (w : HardwareState),
    w.memory = backendContext blueLed →
      Blameless (fun r _ => r.ret = 0) (hardwareBackend font .led (.backendOpen (backendDevice blueLed context))) w := by
  obtain ⟨hpre, -, hopen⟩ := validated_opens blueLed (by decide +kernel)
  exact ⟨hpre, fun font context w hclosed => (hopen font context w hclosed).1⟩

end Open

end DeviceRuntime
