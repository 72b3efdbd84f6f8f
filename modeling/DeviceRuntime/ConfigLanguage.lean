/-
# The language of the device configuration file

A file is its lines, a line is blank or a comment, a header or a key with its
value, and the lines are the sections, each with the values of its keys.
`SectionOk` says which configuration a section stands for, by what its keys
mean and without their order. `deviceConfigLoad` accepts exactly the files
whose sections all stand for something, and returns that
(`device_config_language`).

The loop lemma `loop_language` follows the lines: `Open` relates the section
being read to the keys it has so far, and the bits of `fields` to their set.

Key definitions: `fileLines`, `ConfigLine`, `sectionsOf`, `Means`, `SectionOk`,
`Sections`.
Key theorems: `configField_sound`, `configField_complete`, `loop_language`,
`device_config_language`.
-/
import Mathlib.Data.List.Forall2
import Mathlib.Data.List.Nodup
import DeviceRuntime.DeviceConfig

namespace DeviceRuntime

/-! ### Lines and sections -/

/-- The lines of a file, without their line feeds. -/
def fileLines : List Byte → List (List Byte)
  | [] => []
  | c :: cs =>
    if c = LF then [] :: fileLines cs
    else
      match fileLines cs with
      | [] => [[c]]
      | l :: ls => (c :: l) :: ls

inductive ConfigKey
  | type | path | enabled | baudrate | address | offset | direction | bias | initialValue | ledName
deriving DecidableEq, Repr

def ConfigKey.index : ConfigKey → ℕ
  | .type => 0
  | .path => 1
  | .enabled => 2
  | .baudrate => 3
  | .address => 4
  | .offset => 5
  | .direction => 6
  | .bias => 7
  | .initialValue => 8
  | .ledName => 9

/-- How the key is written. -/
def ConfigKey.text (k : ConfigKey) : List Byte := configKeys.getD k.index []

inductive ConfigLine
  | blank
  | header (name : List Byte)
  | assign (key : ConfigKey) (value : List Byte)

/-- What a trimmed line is: blank, a comment, `[name]` or `key = value`. -/
inductive Reads : List Byte → ConfigLine → Prop
  | blank : Reads [] .blank
  | comment {c t} (h : c = '#'.toUInt8 ∨ c = ';'.toUInt8) : Reads (c :: t) .blank
  | header {name} (h : name ≠ []) : Reads ('['.toUInt8 :: (name ++ [']'.toUInt8])) (.header name)
  | assign {k key value} (hk : '='.toUInt8 ∉ key) (hkey : configTrim key = k.text)
      (hfirst : (key ++ ['='.toUInt8]).headD 0 ∉ ['#'.toUInt8, ';'.toUInt8, '['.toUInt8]) :
      Reads (key ++ '='.toUInt8 :: value) (.assign k (configTrim value))

/-- A section: its name, and its keys with their values. -/
structure Section where
  name : List Byte
  keys : List (ConfigKey × List Byte)

/-- The keys before the first header, and the sections. -/
def sectionsOf : List ConfigLine → List (ConfigKey × List Byte) × List Section
  | [] => ([], [])
  | .blank :: ls => sectionsOf ls
  | .header name :: ls => ([], ⟨name, (sectionsOf ls).1⟩ :: (sectionsOf ls).2)
  | .assign k v :: ls => ((k, v) :: (sectionsOf ls).1, (sectionsOf ls).2)

/-! ### What a section stands for -/

inductive FieldValue
  | type (t : DeviceType)
  | string (s : List Byte)
  | int (z : ℤ)
  | nat (n : ℕ)

/-- The member of a configuration that a key sets. -/
def ConfigKey.get (c : DeviceConfig) : ConfigKey → FieldValue
  | .type => .type c.type
  | .path => .string c.path
  | .enabled => .int c.enabled
  | .baudrate => .int c.baudrate
  | .address => .nat c.address
  | .offset => .nat c.offset
  | .direction => .int c.gpioOutput
  | .bias => .int c.bias
  | .initialValue => .int c.initialValue
  | .ledName => .string c.ledName

/-- The value of a key as it is written, and what it means. -/
inductive Means : ConfigKey → List Byte → FieldValue → Prop
  | type (t : DeviceType) : Means .type (deviceTypeString t) (.type t)
  | path {v} (h : v ≠ []) (hlen : v.length < DEVICE_PATH_SIZE) : Means .path v (.string v)
  | enabled {v n} (h : IsNumber v n) (hn : n ≤ 1) : Means .enabled v (.int n)
  | baudrate {v n} (h : IsNumber v n) (hn : n ≤ 2147483647) : Means .baudrate v (.int n)
  | address {v n} (h : IsNumber v n) (hn : n ≤ UINT_MAX) : Means .address v (.nat n)
  | offset {v n} (h : IsNumber v n) (hn : n ≤ UINT_MAX) : Means .offset v (.nat n)
  | input : Means .direction (DeviceRuntime.text "input") (.int 0)
  | output : Means .direction (DeviceRuntime.text "output") (.int 1)
  | bias {v} (h : v ∈ biases) : Means .bias v (.int (biases.idxOf v))
  | initialValue {v n} (h : IsNumber v n) (hn : n ≤ 1) : Means .initialValue v (.int n)
  | ledName {v} (h : v ≠ []) (hlen : v.length < DEVICE_NAME_SIZE) : Means .ledName v (.string v)

/-- The keys a device of the type of `c` must have. -/
def ConfigKey.required (c : DeviceConfig) : ConfigKey → Bool
  | .type => true
  | .path => c.type ≠ .led
  | .address => c.type = .i2c || c.type = .oled
  | .offset => c.type = .gpio
  | .ledName => c.type = .led
  | _ => false

/-- The keys it may have: the bias is for inputs, the initial value for
outputs. -/
def ConfigKey.allowed (c : DeviceConfig) : ConfigKey → Bool
  | .type | .enabled => true
  | .path => c.type ≠ .led
  | .baudrate => c.type = .uart
  | .address => c.type = .i2c || c.type = .oled
  | .offset | .direction => c.type = .gpio
  | .bias => c.type = .gpio && c.gpioOutput = 0
  | .initialValue => c.type = .gpio && c.gpioOutput ≠ 0
  | .ledName => c.type = .led

def Section.keySet (s : Section) : List ConfigKey := s.keys.map Prod.fst

/-- The defaults overridden by the keys, in whatever order these stand. -/
structure SectionPart (s : Section) (c : DeviceConfig) : Prop where
  name : c.name = s.name
  once : s.keySet.Nodup
  value : ∀ k v, (k, v) ∈ s.keys → Means k v (k.get c)
  absent : ∀ k, k ∉ s.keySet → k.get c = k.get deviceConfigInit

/-- The section stands for the configuration `c`. -/
structure SectionOk (s : Section) (c : DeviceConfig) : Prop extends SectionPart s c where
  name_ok : configNameValid s.name = true ∧ s.name.length < DEVICE_NAME_SIZE
  required : ∀ k, k.required c = true → k ∈ s.keySet
  allowed : ∀ k ∈ s.keySet, k.allowed c = true
  valid : deviceConfigValidate c = true

/-- The sections of a file stand for the configurations of a list. -/
structure Sections (ss : List Section) (cs : List DeviceConfig) : Prop where
  count : ss.length ≤ DEVICE_MAX_COUNT
  distinct : (ss.map Section.name).Nodup
  ok : List.Forall₂ SectionOk ss cs

/-- What is said of a line as it stands in the file. -/
def LineOk (l : List Byte) : Prop := l.length < DEVICE_CONFIG_LINE_SIZE ∧ 0 ∉ l

/-- The file stands for a list of configurations. -/
def FileOk (content : List Byte) (cs : List DeviceConfig) : Prop :=
  ∃ ls ss, (∀ l ∈ fileLines content, LineOk l) ∧
    List.Forall₂ (fun l cl => Reads (configTrim l) cl) (fileLines content) ls ∧
    sectionsOf ls = ([], ss) ∧ Sections ss cs

/-! ### Keys and values -/

theorem ConfigKey.idxOf_text (k : ConfigKey) : configKeys.idxOf k.text = k.index := by
  cases k <;> rfl

theorem ConfigKey.index_lt (k : ConfigKey) : k.index < configKeys.length := by
  cases k <;> decide

theorem ConfigKey.index_injective {k k' : ConfigKey} (h : k.index = k'.index) : k = k' := by
  cases k <;> cases k' <;> first | rfl | cases h

theorem ConfigKey.text_injective {k k' : ConfigKey} (h : k.text = k'.text) : k = k' := by
  refine index_injective ?_
  rw [← idxOf_text k, ← idxOf_text k', h]

theorem exists_key {key : List Byte} (h : configKeys.idxOf key < configKeys.length) :
    ∃ k : ConfigKey, key = k.text := by
  have hmem : key ∈ configKeys := List.idxOf_lt_length_iff.mp h
  simp only [configKeys, List.mem_cons, List.not_mem_nil, or_false] at hmem
  rcases hmem with rfl | rfl | rfl | rfl | rfl | rfl | rfl | rfl | rfl | rfl
  · exact ⟨.type, rfl⟩
  · exact ⟨.path, rfl⟩
  · exact ⟨.enabled, rfl⟩
  · exact ⟨.baudrate, rfl⟩
  · exact ⟨.address, rfl⟩
  · exact ⟨.offset, rfl⟩
  · exact ⟨.direction, rfl⟩
  · exact ⟨.bias, rfl⟩
  · exact ⟨.initialValue, rfl⟩
  · exact ⟨.ledName, rfl⟩

/-- A configuration is its name and what its keys set. -/
theorem DeviceConfig.ext_get {c c' : DeviceConfig} (hname : c.name = c'.name)
    (h : ∀ k : ConfigKey, k.get c = k.get c') : c = c' := by
  obtain ⟨name, type, path, enabled, baudrate, address, offset, output, initial, bias, led⟩ := c
  obtain ⟨name', type', path', enabled', baudrate', address', offset', output', initial', bias', led'⟩ := c'
  obtain rfl : name = name' := hname
  have h1 := h .type
  have h2 := h .path
  have h3 := h .enabled
  have h4 := h .baudrate
  have h5 := h .address
  have h6 := h .offset
  have h7 := h .direction
  have h8 := h .bias
  have h9 := h .initialValue
  have h10 := h .ledName
  simp only [ConfigKey.get, FieldValue.type.injEq, FieldValue.string.injEq, FieldValue.int.injEq,
    FieldValue.nat.injEq] at h1 h2 h3 h4 h5 h6 h7 h8 h9 h10
  rw [h1, h2, h3, h4, h5, h6, h7, h8, h9, h10]

theorem configUnsigned_iff {v : List Byte} {max n : ℕ} (hmax : max ≤ ULONG_MAX) :
    configUnsigned v max = some n ↔ IsNumber v n ∧ n ≤ max := by
  unfold configUnsigned
  constructor
  · intro h
    by_cases h1 : v = [] ∨ v.headD 0 = '-'.toUInt8 ∨ v.headD 0 = '+'.toUInt8 ∨ isspace (v.headD 0) = true
    · rw [if_pos h1] at h
      cases h
    rw [if_neg h1] at h
    dsimp only at h
    by_cases h2 : (strtoul v).erange = true ∨ (strtoul v).rest ≠ [] ∨ (strtoul v).parsed > max
    · rw [if_pos h2] at h
      cases h
    rw [if_neg h2] at h
    simp only [not_or, not_not, Bool.not_eq_true, gt_iff_lt, not_lt] at h2
    obtain rfl : (strtoul v).parsed = n := Option.some.inj h
    exact ⟨(strtoul_isNumber (le_trans h2.2.2 hmax)).mp ⟨fun hv => h1 (.inl hv), h2.2.1, h2.1, rfl⟩, h2.2.2⟩
  · rintro ⟨hv, hn⟩
    obtain ⟨h1, h2, h3, h4⟩ := (strtoul_isNumber (le_trans hn hmax)).mpr hv
    have hhead : ¬ (v = [] ∨ v.headD 0 = '-'.toUInt8 ∨ v.headD 0 = '+'.toUInt8 ∨ isspace (v.headD 0) = true) := by
      have hdigit : isDigitIn 10 (v.headD 0) = true := hv.head
      rintro (hnil | hm | hp | hs)
      · exact h1 hnil
      · rw [hm] at hdigit
        exact absurd hdigit (by decide)
      · rw [hp] at hdigit
        exact absurd hdigit (by decide)
      · rw [isspace_of_isdigit (isdigit_of_isDigitIn hdigit)] at hs
        cases hs
    rw [if_neg hhead]
    dsimp only
    rw [if_neg, h4]
    rw [h2, h3, h4]
    simp only [Bool.false_eq_true, ne_eq, not_true_eq_false, false_or, not_lt, gt_iff_lt]
    exact hn

/-- `c'` is `c` with the key `k` set to what `v` means. -/
structure KeySet (k : ConfigKey) (v : List Byte) (c c' : DeviceConfig) : Prop where
  means : Means k v (k.get c')
  others : ∀ k', k' ≠ k → k'.get c' = k'.get c
  name : c'.name = c.name

theorem configCopy_eq_some {size : ℕ} {v s : List Byte} :
    configCopy size v = some s ↔ v ≠ [] ∧ v.length < size ∧ s = v := by
  unfold configCopy
  split_ifs with h
  · constructor
    · intro h'
      cases h'
    · rintro ⟨h1, h2, -⟩
      rcases h with h | h
      · exact absurd (List.length_eq_zero_iff.mp h) h1
      · omega
  · rw [not_or, List.length_eq_zero_iff, not_le] at h
    constructor
    · intro h'
      exact ⟨h.1, h.2, (Option.some.inj h').symm⟩
    · rintro ⟨-, -, rfl⟩
      rfl

/-- The switch sets the key and nothing else. -/
theorem configValue_sound {c c' : DeviceConfig} {k : ConfigKey} {v : List Byte}
    (h : configValue c k.index v = some c') : KeySet k v c c' := by
  cases k with
  | type =>
    obtain ⟨t, ht, rfl⟩ := Option.map_eq_some_iff.mp h
    have hv := List.find?_some ht
    simp only [decide_eq_true_eq] at hv
    subst hv
    exact ⟨.type t, fun k' hk' => by cases k' <;> first | rfl | exact absurd rfl hk', rfl⟩
  | path =>
    obtain ⟨p, hp, rfl⟩ := Option.map_eq_some_iff.mp h
    obtain ⟨h1, h2, rfl⟩ := configCopy_eq_some.mp hp
    exact ⟨.path h1 h2, fun k' hk' => by cases k' <;> first | rfl | exact absurd rfl hk', rfl⟩
  | enabled =>
    obtain ⟨n, hn, rfl⟩ := Option.map_eq_some_iff.mp h
    obtain ⟨h1, h2⟩ := (configUnsigned_iff (by decide)).mp hn
    exact ⟨.enabled h1 h2, fun k' hk' => by cases k' <;> first | rfl | exact absurd rfl hk', rfl⟩
  | baudrate =>
    obtain ⟨n, hn, rfl⟩ := Option.map_eq_some_iff.mp h
    obtain ⟨h1, h2⟩ := (configUnsigned_iff (by decide)).mp hn
    exact ⟨.baudrate h1 h2, fun k' hk' => by cases k' <;> first | rfl | exact absurd rfl hk', rfl⟩
  | address =>
    obtain ⟨n, hn, rfl⟩ := Option.map_eq_some_iff.mp h
    obtain ⟨h1, h2⟩ := (configUnsigned_iff (by decide)).mp hn
    exact ⟨.address h1 h2, fun k' hk' => by cases k' <;> first | rfl | exact absurd rfl hk', rfl⟩
  | offset =>
    obtain ⟨n, hn, rfl⟩ := Option.map_eq_some_iff.mp h
    obtain ⟨h1, h2⟩ := (configUnsigned_iff (by decide)).mp hn
    exact ⟨.offset h1 h2, fun k' hk' => by cases k' <;> first | rfl | exact absurd rfl hk', rfl⟩
  | direction =>
    simp only [configValue, ConfigKey.index] at h
    by_cases h1 : v ≠ text "input" ∧ v ≠ text "output"
    · rw [if_pos h1] at h
      cases h
    rw [if_neg h1] at h
    obtain rfl := Option.some.inj h
    refine ⟨?_, fun k' hk' => by cases k' <;> first | rfl | exact absurd rfl hk', rfl⟩
    by_cases hout : v = text "output"
    · subst hout
      exact .output
    · obtain rfl : v = text "input" := by
        by_contra hin
        exact h1 ⟨hin, hout⟩
      exact .input
  | bias =>
    simp only [configValue, ConfigKey.index] at h
    by_cases h1 : biases.idxOf v = biases.length
    · rw [if_pos h1] at h
      cases h
    rw [if_neg h1] at h
    obtain rfl := Option.some.inj h
    have hmem : v ∈ biases := List.idxOf_lt_length_iff.mp (lt_of_le_of_ne List.idxOf_le_length h1)
    exact ⟨.bias hmem, fun k' hk' => by cases k' <;> first | rfl | exact absurd rfl hk', rfl⟩
  | initialValue =>
    obtain ⟨n, hn, rfl⟩ := Option.map_eq_some_iff.mp h
    obtain ⟨h1, h2⟩ := (configUnsigned_iff (by decide)).mp hn
    exact ⟨.initialValue h1 h2, fun k' hk' => by cases k' <;> first | rfl | exact absurd rfl hk', rfl⟩
  | ledName =>
    obtain ⟨p, hp, rfl⟩ := Option.map_eq_some_iff.mp h
    obtain ⟨h1, h2, rfl⟩ := configCopy_eq_some.mp hp
    exact ⟨.ledName h1 h2, fun k' hk' => by cases k' <;> first | rfl | exact absurd rfl hk', rfl⟩

/-- The switch takes every value that means something. -/
theorem configValue_complete {k : ConfigKey} {v : List Byte} {x : FieldValue} (h : Means k v x)
    (c : DeviceConfig) : (configValue c k.index v).isSome = true := by
  cases h with
  | type t => cases t <;> rfl
  | path h1 h2 =>
    simp only [configValue, ConfigKey.index, Option.isSome_map, configCopy_eq_some.mpr ⟨h1, h2, rfl⟩,
      Option.isSome_some]
  | enabled h1 h2 =>
    simp only [configValue, ConfigKey.index, (configUnsigned_iff (by decide)).mpr ⟨h1, h2⟩, Option.isSome_map,
      Option.isSome_some]
  | baudrate h1 h2 =>
    simp only [configValue, ConfigKey.index, (configUnsigned_iff (by decide)).mpr ⟨h1, h2⟩, Option.isSome_map,
      Option.isSome_some]
  | address h1 h2 =>
    simp only [configValue, ConfigKey.index, (configUnsigned_iff (by decide)).mpr ⟨h1, h2⟩, Option.isSome_map,
      Option.isSome_some]
  | offset h1 h2 =>
    simp only [configValue, ConfigKey.index, (configUnsigned_iff (by decide)).mpr ⟨h1, h2⟩, Option.isSome_map,
      Option.isSome_some]
  | input => rfl
  | output => rfl
  | bias hmem =>
    simp only [configValue, ConfigKey.index]
    rw [if_neg (ne_of_lt (List.idxOf_lt_length_iff.mpr hmem))]
    rfl
  | initialValue h1 h2 =>
    simp only [configValue, ConfigKey.index, (configUnsigned_iff (by decide)).mpr ⟨h1, h2⟩, Option.isSome_map,
      Option.isSome_some]
  | ledName h1 h2 =>
    simp only [configValue, ConfigKey.index, Option.isSome_map, configCopy_eq_some.mpr ⟨h1, h2, rfl⟩,
      Option.isSome_some]

theorem Means.ne_nil {k : ConfigKey} {v : List Byte} {x : FieldValue} (h : Means k v x) : v ≠ [] := by
  have hnumber : ∀ {n}, IsNumber v n → v ≠ [] := by
    intro n hn
    cases hn <;> exact List.cons_ne_nil _ _
  cases h with
  | type t => cases t <;> exact List.cons_ne_nil _ _
  | path h1 => exact h1
  | enabled h1 => exact hnumber h1
  | baudrate h1 => exact hnumber h1
  | address h1 => exact hnumber h1
  | offset h1 => exact hnumber h1
  | input => exact List.cons_ne_nil _ _
  | output => exact List.cons_ne_nil _ _
  | bias h1 =>
    rintro rfl
    exact absurd h1 (by decide)
  | initialValue h1 => exact hnumber h1
  | ledName h1 => exact h1

/-- A value means one thing. -/
theorem Means.unique {k : ConfigKey} {v : List Byte} {x y : FieldValue} (h : Means k v x) (h' : Means k v y) :
    x = y := by
  have hnumber : ∀ {n m max : ℕ}, max ≤ ULONG_MAX → IsNumber v n → n ≤ max → IsNumber v m → m ≤ max → n = m :=
    fun hmax hn h1 hm h2 => hn.unique (le_trans h1 hmax) (le_trans h2 hmax) hm
  cases h with
  | type t =>
    generalize hv : deviceTypeString t = v at h'
    cases h' with
    | type t' => cases t <;> cases t' <;> first | rfl | cases hv
  | path => cases h'; rfl
  | enabled h1 h2 => cases h' with | enabled h3 h4 => rw [hnumber (by decide) h1 h2 h3 h4]
  | baudrate h1 h2 => cases h' with | baudrate h3 h4 => rw [hnumber (by decide) h1 h2 h3 h4]
  | address h1 h2 => cases h' with | address h3 h4 => rw [hnumber (by decide) h1 h2 h3 h4]
  | offset h1 h2 => cases h' with | offset h3 h4 => rw [hnumber (by decide) h1 h2 h3 h4]
  | input =>
    generalize hv : text "input" = v at h'
    cases h' with
    | input => rfl
    | output => exact absurd hv (by decide)
  | output =>
    generalize hv : text "output" = v at h'
    cases h' with
    | input => exact absurd hv (by decide)
    | output => rfl
  | bias => cases h'; rfl
  | initialValue h1 h2 => cases h' with | initialValue h3 h4 => rw [hnumber (by decide) h1 h2 h3 h4]
  | ledName => cases h'; rfl

/-- What a section stands for is unique. -/
theorem SectionPart.unique {s : Section} {c c' : DeviceConfig} (h : SectionPart s c) (h' : SectionPart s c') :
    c = c' := by
  refine DeviceConfig.ext_get (h.name.trans h'.name.symm) fun k => ?_
  by_cases hk : k ∈ s.keySet
  · obtain ⟨⟨k', v⟩, hmem, rfl⟩ := List.mem_map.mp hk
    exact (h.value _ _ hmem).unique (h'.value _ _ hmem)
  · exact (h.absent k hk).trans (h'.absent k hk).symm

/-! ### The bits of `fields` -/

/-- The bits that are set are those of the keys in `p`. -/
def Bits (fields : BitVec 32) (p : ConfigKey → Prop) : Prop :=
  ∀ i, fields.getLsbD i = true ↔ ∃ k : ConfigKey, k.index = i ∧ p k

theorem Bits.key {fields : BitVec 32} {p : ConfigKey → Prop} (h : Bits fields p) (k : ConfigKey) :
    fields.getLsbD k.index = true ↔ p k := by
  rw [h k.index]
  constructor
  · rintro ⟨k', hk', hp⟩
    rwa [← ConfigKey.index_injective hk']
  · exact fun hp => ⟨k, rfl, hp⟩

theorem getLsbD_bit (i j : ℕ) (hi : i < 32) : (1#32 <<< i).getLsbD j = decide (i = j) := by
  rw [BitVec.getLsbD_shiftLeft, BitVec.getLsbD_one]
  by_cases hij : i = j
  · subst hij
    simp [hi]
  · rcases Nat.lt_or_ge j i with hlt | hge
    · simp [hij, hlt]
    · have hne : ¬ j - i = 0 := by omega
      simp [hij, hne]

theorem ConfigKey.index_lt_32 (k : ConfigKey) : k.index < 32 := lt_trans k.index_lt (by decide)

theorem bits_zero : Bits 0 fun _ => False := by
  intro i
  constructor
  · intro h
    rw [show (0 : BitVec 32).getLsbD i = false from BitVec.getLsbD_zero] at h
    cases h
  · rintro ⟨k, -, hk⟩
    exact hk.elim

/-- A key is entered. -/
theorem Bits.insert {fields : BitVec 32} {p : ConfigKey → Prop} (h : Bits fields p) (k : ConfigKey) :
    Bits (fields ||| (1#32 <<< k.index)) fun k' => p k' ∨ k' = k := by
  intro i
  rw [BitVec.getLsbD_or, getLsbD_bit _ _ k.index_lt_32, Bool.or_eq_true, h i, decide_eq_true_eq]
  constructor
  · rintro (⟨k', hi, hp⟩ | hi)
    · exact ⟨k', hi, .inl hp⟩
    · exact ⟨k, hi, .inr rfl⟩
  · rintro ⟨k', hi, hp | rfl⟩
    · exact .inl ⟨k', hi, hp⟩
    · exact .inr hi

/-- The test of one bit. -/
theorem Bits.test {fields : BitVec 32} {p : ConfigKey → Prop} (h : Bits fields p) (k : ConfigKey) :
    fields &&& (1#32 <<< k.index) ≠ 0 ↔ p k := by
  rw [← h.key k]
  constructor
  · intro hne
    by_contra hbit
    refine hne (BitVec.eq_of_getLsbD_eq fun i hi => ?_)
    rw [BitVec.getLsbD_and, getLsbD_bit _ _ k.index_lt_32]
    by_cases hki : k.index = i
    · subst hki
      rw [Bool.not_eq_true] at hbit
      rw [hbit, Bool.false_and]
      exact BitVec.getLsbD_zero.symm
    · simp [hki]
  · intro hbit hzero
    have := congrArg (BitVec.getLsbD · k.index) hzero
    rw [BitVec.getLsbD_and, getLsbD_bit _ _ k.index_lt_32] at this
    simp [hbit] at this

theorem Bits.subset {fields mask : BitVec 32} {p q : ConfigKey → Prop} (h : Bits fields p) (hm : Bits mask q) :
    fields &&& mask = mask ↔ ∀ k, q k → p k := by
  constructor
  · intro heq k hk
    rw [← h.key]
    have hbit := (hm.key k).mpr hk
    rw [← heq, BitVec.getLsbD_and, Bool.and_eq_true] at hbit
    exact hbit.1
  · intro hall
    refine BitVec.eq_of_getLsbD_eq fun i hi => ?_
    rw [BitVec.getLsbD_and]
    by_cases hbit : mask.getLsbD i = true
    · obtain ⟨k, hki, hk⟩ := (hm i).mp hbit
      rw [hbit, (h i).mpr ⟨k, hki, hall k hk⟩]
      rfl
    · rw [Bool.not_eq_true] at hbit
      rw [hbit, Bool.and_false]

theorem Bits.disjoint {fields mask : BitVec 32} {p q : ConfigKey → Prop} (h : Bits fields p) (hm : Bits mask q) :
    fields &&& ~~~mask = 0 ↔ ∀ k, p k → q k := by
  constructor
  · intro heq k hk
    rw [← hm.key]
    by_contra hbit
    have := congrArg (BitVec.getLsbD · k.index) heq
    rw [Bool.not_eq_true] at hbit
    rw [BitVec.getLsbD_and, BitVec.getLsbD_not, (h.key k).mpr hk, hbit] at this
    simp [k.index_lt_32] at this
  · intro hall
    refine BitVec.eq_of_getLsbD_eq fun i hi => ?_
    rw [BitVec.getLsbD_and, BitVec.getLsbD_not, show (0 : BitVec 32).getLsbD i = false from BitVec.getLsbD_zero]
    by_cases hbit : fields.getLsbD i = true
    · obtain ⟨k, hki, hk⟩ := (h i).mp hbit
      rw [(hm i).mpr ⟨k, hki, hall k hk⟩]
      simp
    · rw [Bool.not_eq_true] at hbit
      rw [hbit, Bool.false_and]

theorem Bits.or {a b : BitVec 32} {p q : ConfigKey → Prop} (ha : Bits a p) (hb : Bits b q) :
    Bits (a ||| b) fun k => p k ∨ q k := by
  intro i
  rw [BitVec.getLsbD_or, Bool.or_eq_true, ha i, hb i]
  constructor
  · rintro (⟨k, hi, hk⟩ | ⟨k, hi, hk⟩)
    · exact ⟨k, hi, .inl hk⟩
    · exact ⟨k, hi, .inr hk⟩
  · rintro ⟨k, hi, hk | hk⟩
    · exact .inl ⟨k, hi, hk⟩
    · exact .inr ⟨k, hi, hk⟩

theorem Bits.one (k : ConfigKey) : Bits (1#32 <<< k.index) (· = k) := by
  intro i
  rw [getLsbD_bit _ _ k.index_lt_32, decide_eq_true_eq]
  constructor
  · exact fun hi => ⟨k, hi, rfl⟩
  · rintro ⟨k', hi, rfl⟩
    exact hi

theorem Bits.congr {a : BitVec 32} {p q : ConfigKey → Prop} (h : Bits a p) (hpq : ∀ k, p k ↔ q k) : Bits a q := by
  intro i
  rw [h i]
  exact exists_congr fun k => and_congr_right fun _ => hpq k

theorem bits_required (c : DeviceConfig) : Bits (configRequired c) fun k => k.required c = true := by
  have htype := Bits.one .type
  have hpath := Bits.one .path
  unfold configRequired
  cases ht : c.type with
  | uart => exact (htype.or hpath).congr fun k => by cases k <;> simp [ConfigKey.required, ht]
  | i2c =>
    exact (htype.or (hpath.or (Bits.one .address))).congr fun k => by cases k <;> simp [ConfigKey.required, ht]
  | oled =>
    exact (htype.or (hpath.or (Bits.one .address))).congr fun k => by cases k <;> simp [ConfigKey.required, ht]
  | gpio =>
    exact (htype.or (hpath.or (Bits.one .offset))).congr fun k => by cases k <;> simp [ConfigKey.required, ht]
  | led => exact (htype.or (Bits.one .ledName)).congr fun k => by cases k <;> simp [ConfigKey.required, ht]

theorem bits_allowed (c : DeviceConfig) : Bits (configAllowed c) fun k => k.allowed c = true := by
  have hcommon := (Bits.one .type).or (Bits.one .enabled)
  have hpath := Bits.one .path
  unfold configAllowed
  cases ht : c.type with
  | uart =>
    exact (hcommon.or (hpath.or (Bits.one .baudrate))).congr fun k => by cases k <;> simp [ConfigKey.allowed, ht]
  | i2c =>
    exact (hcommon.or (hpath.or (Bits.one .address))).congr fun k => by cases k <;> simp [ConfigKey.allowed, ht]
  | oled =>
    exact (hcommon.or (hpath.or (Bits.one .address))).congr fun k => by cases k <;> simp [ConfigKey.allowed, ht]
  | gpio =>
    have hgpio := hcommon.or ((hpath.or (Bits.one .offset)).or (Bits.one .direction))
    by_cases ho : c.gpioOutput = 0
    · simp only [ho, ne_eq, not_true_eq_false, if_false]
      exact (hgpio.or (Bits.one .bias)).congr fun k => by cases k <;> simp [ConfigKey.allowed, ht, ho]
    · simp only [ho, ne_eq, not_false_eq_true, if_true]
      exact (hgpio.or (Bits.one .initialValue)).congr fun k => by cases k <;> simp [ConfigKey.allowed, ht, ho]
  | led => exact (hcommon.or (Bits.one .ledName)).congr fun k => by cases k <;> simp [ConfigKey.allowed, ht]

theorem configSectionValidate_iff {c : DeviceConfig} {fields : BitVec 32} {p : ConfigKey → Prop}
    (h : Bits fields p) : configSectionValidate c fields = true ↔
      (∀ k : ConfigKey, k.required c = true → p k) ∧ (∀ k : ConfigKey, p k → k.allowed c = true) ∧
        deviceConfigValidate c = true := by
  have h1 := h.subset (bits_required c)
  have h2 := h.disjoint (bits_allowed c)
  unfold configSectionValidate
  by_cases hbad : fields &&& configRequired c ≠ configRequired c ∨ fields &&& ~~~configAllowed c ≠ 0
  · rw [if_pos hbad]
    constructor
    · intro h
      cases h
    · rintro ⟨hr, ha, -⟩
      rcases hbad with hbad | hbad
      · exact absurd (h1.mpr hr) hbad
      · exact absurd (h2.mpr ha) hbad
  · rw [if_neg hbad]
    rw [not_or, not_not, not_not] at hbad
    constructor
    · exact fun hv => ⟨h1.mp hbad.1, h2.mp hbad.2, hv⟩
    · exact fun h => h.2.2

/-! ### One key -/

theorem configField_sound {c c' : DeviceConfig} {fields fields' : BitVec 32} {key v : List Byte}
    {p : ConfigKey → Prop} (hb : Bits fields p) (h : configField c fields key v = some (c', fields')) :
    ∃ k : ConfigKey, key = k.text ∧ ¬ p k ∧ KeySet k v c c' ∧ Bits fields' fun k' => p k' ∨ k' = k := by
  unfold configField at h
  dsimp only at h
  by_cases hbad : configKeys.idxOf key = configKeys.length ∨
      fields &&& (1#32 <<< configKeys.idxOf key) ≠ 0 ∨ v = []
  · rw [if_pos hbad] at h
    cases h
  rw [if_neg hbad] at h
  rw [not_or, not_or] at hbad
  obtain ⟨k, rfl⟩ := exists_key (lt_of_le_of_ne List.idxOf_le_length hbad.1)
  rw [k.idxOf_text] at h hbad
  obtain ⟨c₁, hc₁, heq⟩ := Option.map_eq_some_iff.mp h
  obtain ⟨rfl, rfl⟩ := Prod.mk.inj heq
  exact ⟨k, rfl, (hb.test k).not.mp hbad.2.1, configValue_sound hc₁, hb.insert k⟩

theorem configField_complete {c : DeviceConfig} {fields : BitVec 32} {v : List Byte} {p : ConfigKey → Prop}
    {k : ConfigKey} {x : FieldValue} (hb : Bits fields p) (hk : ¬ p k) (h : Means k v x) :
    ∃ c' fields', configField c fields k.text v = some (c', fields') := by
  obtain ⟨c', hc'⟩ := Option.isSome_iff_exists.mp (configValue_complete h c)
  refine ⟨c', fields ||| (1#32 <<< k.index), ?_⟩
  unfold configField
  dsimp only
  rw [k.idxOf_text, if_neg, hc']
  · rfl
  · rintro (h1 | h1 | h1)
    · exact absurd h1 (ne_of_lt k.index_lt)
    · exact hk ((hb.test k).mp h1)
    · exact h.ne_nil h1

theorem SectionPart.assign {s : Section} {c c' : DeviceConfig} {k : ConfigKey} {v : List Byte}
    (h : SectionPart s c) (hk : k ∉ s.keySet) (hset : KeySet k v c c') :
    SectionPart ⟨s.name, s.keys ++ [(k, v)]⟩ c' := by
  have hkeys : Section.keySet ⟨s.name, s.keys ++ [(k, v)]⟩ = s.keySet ++ [k] := List.map_append
  refine ⟨hset.name.trans h.name, ?_, ?_, ?_⟩
  · rw [hkeys, List.nodup_append]
    refine ⟨h.once, List.nodup_singleton k, fun a ha b hb hab => ?_⟩
    rw [hab, List.mem_singleton.mp hb] at ha
    exact hk ha
  · intro k' v' hmem
    rcases List.mem_append.mp hmem with hmem | hmem
    · have hne : k' ≠ k := fun heq => hk (List.mem_map.mpr ⟨(k', v'), hmem, heq⟩)
      rw [hset.others k' hne]
      exact h.value k' v' hmem
    · obtain ⟨rfl, rfl⟩ := Prod.mk.inj (List.mem_singleton.mp hmem)
      exact hset.means
  · intro k' hk'
    rw [hkeys, List.mem_append, not_or, List.mem_singleton] at hk'
    rw [hset.others k' hk'.2]
    exact h.absent k' hk'.1

/-! ### One line -/

/-- What a line that reads as `cl` does. -/
def lineStep (s : Option Loading) : ConfigLine → Except ℕ (Option Loading)
  | .blank => .ok s
  | .header name => configHeader s ('['.toUInt8 :: (name ++ [']'.toUInt8]))
  | .assign k v =>
    match s with
    | none => .error EINVAL
    | some s =>
      match configField s.current s.fields k.text v with
      | none => .error EINVAL
      | some (config, fields) => .ok (some { s with current := config, fields := fields })

theorem takeWhile_ne_append {a : Byte} {l r : List Byte} (h : a ∉ l) :
    (l ++ a :: r).takeWhile (· ≠ a) = l ∧ (l ++ a :: r).dropWhile (· ≠ a) = a :: r := by
  have hall : ∀ x ∈ l, decide (x ≠ a) = true := fun x hx => by
    rw [decide_eq_true_eq]
    rintro rfl
    exact h hx
  constructor
  · rw [List.takeWhile_append_of_pos hall, List.takeWhile_cons_of_neg (by simp), List.append_nil]
  · rw [List.dropWhile_append_of_pos hall, List.dropWhile_cons_of_neg (by simp)]

theorem dropWhile_ne_head {a c : Byte} {l r : List Byte} (h : l.dropWhile (· ≠ a) = c :: r) : c = a := by
  induction l with
  | nil => cases h
  | cons b l ih =>
    by_cases hb : b = a
    · rw [List.dropWhile_cons_of_neg (by simpa using hb)] at h
      obtain ⟨rfl, -⟩ := List.cons.inj h
      exact hb
    · rw [List.dropWhile_cons_of_pos (by simpa using hb)] at h
      exact ih h

/-- A line does what it reads as. -/
theorem configLine_reads {line : List Byte} {cl : ConfigLine} (h : Reads (configTrim line) cl)
    (s : Option Loading) : configLine s line = lineStep s cl := by
  unfold configLine
  generalize configTrim line = t at h ⊢
  dsimp only
  cases h with
  | blank => rfl
  | @comment c t hc => rw [if_pos (.inr hc)]; rfl
  | @header name hname =>
    have hnot : ¬ ('['.toUInt8 :: (name ++ [']'.toUInt8]) = [] ∨ '['.toUInt8 = '#'.toUInt8 ∨
        '['.toUInt8 = ';'.toUInt8) := by
      rw [not_or, not_or]
      exact ⟨List.cons_ne_nil _ _, by decide, by decide⟩
    rw [List.headD_cons, if_neg hnot, if_pos rfl]
    rfl
  | @assign k key value hk hkey hfirst =>
    have hhead : (key ++ '='.toUInt8 :: value).headD 0 = (key ++ ['='.toUInt8]).headD 0 := by
      cases key <;> rfl
    have hne : key ++ '='.toUInt8 :: value ≠ [] := by
      intro h
      have := congrArg List.length h
      simp at this
    simp only [List.mem_cons, List.not_mem_nil, or_false, not_or] at hfirst
    rw [← hhead] at hfirst
    rw [if_neg (by rintro (h | h | h); exacts [hne h, hfirst.1 h, hfirst.2.1 h]), if_neg hfirst.2.2]
    obtain ⟨htake, hdrop⟩ := @takeWhile_ne_append _ _ value hk
    rw [hdrop, htake, hkey]
    cases s with
    | none => rfl
    | some s => rfl

/-- A line that is taken reads as something. -/
theorem configLine_ok {line : List Byte} {s s' : Option Loading} (h : configLine s line = .ok s')
    (hfields : ∀ l, s = some l → ∃ p, Bits l.fields p) : ∃ cl, Reads (configTrim line) cl := by
  unfold configLine at h
  generalize configTrim line = t at h ⊢
  dsimp only at h
  by_cases hblank : t = [] ∨ t.headD 0 = '#'.toUInt8 ∨ t.headD 0 = ';'.toUInt8
  · cases t with
    | nil => exact ⟨_, .blank⟩
    | cons c t => exact ⟨_, .comment (hblank.resolve_left (List.cons_ne_nil _ _))⟩
  rw [if_neg hblank] at h
  by_cases hheader : t.headD 0 = '['.toUInt8
  · rw [if_pos hheader] at h
    unfold configHeader at h
    by_cases hbad : t.length < 3 ∨ t.getLast? ≠ some ']'.toUInt8 ∨ (!lastSectionValid s) = true
    · rw [if_pos hbad] at h
      cases h
    rw [not_or, not_or, not_not] at hbad
    obtain ⟨hlen, hlast, -⟩ := hbad
    cases t with
    | nil => exact absurd hlen (by decide)
    | cons c t =>
      obtain rfl : c = '['.toUInt8 := hheader
      rcases List.eq_nil_or_concat t with rfl | ⟨name, d, rfl⟩
      · exact absurd hlen (by decide)
      · rw [List.concat_eq_append] at hlast hlen ⊢
        rw [← List.cons_append, List.getLast?_concat] at hlast
        obtain rfl := Option.some.inj hlast
        refine ⟨_, @Reads.header name ?_⟩
        rintro rfl
        exact absurd hlen (by decide)
  rw [if_neg hheader] at h
  cases s with
  | none => cases h
  | some s =>
    cases hdrop : t.dropWhile (· ≠ '='.toUInt8) with
    | nil => rw [hdrop] at h; cases h
    | cons c value =>
      rw [hdrop] at h
      dsimp only at h
      have hsplit := @List.takeWhile_append_dropWhile _ (fun x : Byte => decide (x ≠ '='.toUInt8)) t
      obtain rfl : c = '='.toUInt8 := dropWhile_ne_head hdrop
      rw [hdrop] at hsplit
      cases hfield : configField s.current s.fields (configTrim (t.takeWhile (· ≠ '='.toUInt8)))
          (configTrim value) with
      | none => rw [hfield] at h; cases h
      | some r =>
        obtain ⟨p, hp⟩ := hfields s rfl
        obtain ⟨k, hkey, -⟩ := @configField_sound _ r.1 _ r.2 _ _ _ hp hfield
        refine ⟨.assign k (configTrim value), ?_⟩
        rw [← hsplit]
        refine .assign ?_ hkey ?_
        · intro hmem
          have := List.mem_takeWhile_imp hmem
          simp at this
        · have hhead : (t.takeWhile (· ≠ '='.toUInt8) ++ ['='.toUInt8]).headD 0 = t.headD 0 := by
            conv_rhs => rw [← hsplit]
            cases t.takeWhile (· ≠ '='.toUInt8) <;> rfl
          rw [hhead]
          simp only [List.mem_cons, List.not_mem_nil, or_false, not_or]
          rw [not_or, not_or] at hblank
          exact ⟨hblank.2.1, hblank.2.2, hheader⟩

/-! ### The lines of a file -/

instance (l : List Byte) : Decidable (LineOk l) := inferInstanceAs (Decidable (_ ∧ _))

theorem fileLines_nonempty : ∀ {l : List Byte}, LF ∉ l → l ≠ [] → fileLines l = [l]
  | [], _, hne => absurd rfl hne
  | c :: l, h, _ => by
    rw [List.mem_cons, not_or] at h
    rw [fileLines, if_neg (Ne.symm h.1)]
    cases l with
    | nil => rfl
    | cons d l => rw [fileLines_nonempty h.2 (List.cons_ne_nil _ _)]

theorem fileLines_append : ∀ {l : List Byte} (rest : List Byte), LF ∉ l →
    fileLines (l ++ LF :: rest) = l :: fileLines rest
  | [], rest, _ => by rw [List.nil_append, fileLines, if_pos rfl]
  | c :: l, rest, h => by
    rw [List.mem_cons, not_or] at h
    rw [List.cons_append, fileLines, if_neg (Ne.symm h.1), fileLines_append rest h.2]

/-- A byte that ends no line is in one. -/
theorem mem_fileLines {b : Byte} (hb : b ≠ LF) : ∀ {bytes : List Byte}, b ∈ bytes → ∃ l ∈ fileLines bytes, b ∈ l
  | c :: cs, h => by
    unfold fileLines
    by_cases hc : c = LF
    · have hcs : b ∈ cs := (List.mem_cons.mp h).resolve_left fun hbc => hb (hbc.trans hc)
      obtain ⟨l, hl, hmem⟩ := mem_fileLines hb hcs
      rw [if_pos hc]
      exact ⟨l, List.mem_cons_of_mem _ hl, hmem⟩
    rw [if_neg hc]
    have hrest : b ∈ cs → ∃ l ∈ fileLines cs, b ∈ l := mem_fileLines hb
    cases hlines : fileLines cs with
    | nil =>
      rw [hlines] at hrest
      rcases List.mem_cons.mp h with rfl | hcs
      · exact ⟨[b], List.mem_cons_self, List.mem_cons_self⟩
      · obtain ⟨l, hl, -⟩ := hrest hcs
        exact absurd hl List.not_mem_nil
    | cons l ls =>
      rw [hlines] at hrest
      rcases List.mem_cons.mp h with rfl | hcs
      · exact ⟨b :: l, List.mem_cons_self, List.mem_cons_self⟩
      · obtain ⟨l', hl', hmem⟩ := hrest hcs
        rcases List.mem_cons.mp hl' with rfl | hl'
        · exact ⟨c :: l', List.mem_cons_self, List.mem_cons_of_mem _ hmem⟩
        · exact ⟨l', List.mem_cons_of_mem _ hl', hmem⟩

/-- The characters of a line, up to what ends it. -/
theorem configReadLine_append {e : Bool} {t rest : List Byte} : ∀ {l line : List Byte}, LF ∉ l → LineOk line →
    configReadLine e t (line ++ l) = .ok (some (line ++ l, rest)) →
    configReadLine e (l ++ t) line = if LineOk (line ++ l) then .ok (some (line ++ l, rest)) else .error EINVAL
  | [], line, _, hok, hend => by
    rw [List.append_nil] at hend ⊢
    rw [List.nil_append, hend, if_pos hok]
  | c :: l, line, hlf, hok, hend => by
    rw [List.mem_cons, not_or] at hlf
    rw [List.cons_append, configReadLine, if_neg (Ne.symm hlf.1)]
    have hassoc : line ++ c :: l = line ++ [c] ++ l := by rw [List.append_assoc, List.singleton_append]
    by_cases hbad : c = 0 ∨ line.length + 1 ≥ DEVICE_CONFIG_LINE_SIZE
    · rw [if_pos hbad, if_neg]
      rintro ⟨hlen, hzero⟩
      rw [List.length_append, List.length_cons] at hlen
      rcases hbad with rfl | hbad
      · exact hzero (List.mem_append_right _ List.mem_cons_self)
      · omega
    · rw [if_neg hbad]
      rw [not_or, not_le] at hbad
      have hok' : LineOk (line ++ [c]) := by
        refine ⟨by rw [List.length_append]; exact hbad.2, fun hmem => ?_⟩
        rcases List.mem_append.mp hmem with hmem | hmem
        · exact hok.2 hmem
        · exact hbad.1 (List.mem_singleton.mp hmem).symm
      rw [hassoc] at hend ⊢
      exact configReadLine_append hlf.2 hok' hend

/-- The first line of a file is read. -/
theorem configReadLine_fileLines {bytes : List Byte} (h : bytes ≠ []) :
    ∃ l rest, fileLines bytes = l :: fileLines rest ∧
      configReadLine false bytes [] = if LineOk l then .ok (some (l, rest)) else .error EINVAL := by
  have hnil : LineOk [] := ⟨by decide, List.not_mem_nil⟩
  have hsplit := @List.takeWhile_append_dropWhile _ (fun x : Byte => decide (x ≠ LF)) bytes
  have hlf : LF ∉ bytes.takeWhile (· ≠ LF) := by
    intro hmem
    have := List.mem_takeWhile_imp hmem
    simp at this
  cases hdrop : bytes.dropWhile (· ≠ LF) with
  | nil =>
    rw [hdrop, List.append_nil] at hsplit
    rw [hsplit] at hlf
    refine ⟨bytes, [], fileLines_nonempty hlf h, ?_⟩
    have hend : configReadLine false [] ([] ++ bytes) = .ok (some ([] ++ bytes, [])) := by
      rw [List.nil_append, configReadLine, if_neg (by decide), if_neg (List.length_eq_zero_iff.not.mpr h)]
    have hread := configReadLine_append hlf hnil hend
    rwa [List.append_nil, List.nil_append] at hread
  | cons c rest =>
    obtain rfl : c = LF := dropWhile_ne_head hdrop
    rw [hdrop] at hsplit
    refine ⟨bytes.takeWhile (· ≠ LF), rest, ?_, ?_⟩
    · conv_lhs => rw [← hsplit]
      exact fileLines_append rest hlf
    · conv_lhs => rw [← hsplit]
      refine configReadLine_append hlf hnil ?_
      rw [configReadLine, if_pos rfl]

/-- The loop takes the lines one by one. -/
theorem configLoop_fileLines (bytes : List Byte) : ∀ (s s' : Option Loading),
    configLoop false bytes s = .ok s' ↔
      (∀ l ∈ fileLines bytes, LineOk l) ∧ (fileLines bytes).foldlM configLine s = .ok s' := by
  induction hn : bytes.length using Nat.strong_induction_on generalizing bytes with
  | _ n ih =>
    intro s s'
    by_cases hnil : bytes = []
    · subst hnil
      rw [configLoop]
      exact ⟨fun h => ⟨fun l hl => absurd hl List.not_mem_nil, h⟩, fun h => h.2⟩
    obtain ⟨l, rest, hlines, hread⟩ := configReadLine_fileLines hnil
    rw [hlines, List.forall_mem_cons, List.foldlM_cons, configLoop]
    by_cases hl : LineOk l
    · rw [if_pos hl] at hread
      have hlt : rest.length < n := by
        rw [← hn]
        exact (configReadLine_length hread).resolve_right fun hne => hne.2.2 rfl
      split
      · next hr => rw [hread] at hr; cases hr
      · next hr => rw [hread] at hr; cases hr
      · next line rest' hr =>
        rw [hread] at hr
        simp only [Except.ok.injEq, Option.some.injEq, Prod.mk.injEq] at hr
        obtain ⟨rfl, rfl⟩ := hr
        cases hline : configLine s l with
        | error e =>
          constructor
          · intro h
            cases h
          · rintro ⟨-, h⟩
            cases h
        | ok s₁ =>
          refine (ih _ hlt rest rfl s₁ s').trans ⟨fun h => ⟨⟨hl, h.1⟩, h.2⟩, fun h => ⟨h.1.2, h.2⟩⟩
    · rw [if_neg hl] at hread
      split
      · constructor
        · intro h
          cases h
        · exact fun h => absurd h.1.1 hl
      · next hr => rw [hread] at hr; cases hr
      · next hr => rw [hread] at hr; cases hr

/-- The fields of the section being read are those of some keys. -/
def FieldsKnown (s : Option Loading) : Prop := ∀ l, s = some l → ∃ p, Bits l.fields p

theorem configHeader_fields {s s' : Option Loading} {line : List Byte} (h : configHeader s line = .ok s') :
    FieldsKnown s' := by
  unfold configHeader at h
  dsimp only at h
  split_ifs at h
  obtain rfl := Except.ok.inj h
  intro l hl
  obtain rfl := Option.some.inj hl
  exact ⟨_, bits_zero⟩

theorem lineStep_fields {s s' : Option Loading} {cl : ConfigLine} (hs : FieldsKnown s)
    (h : lineStep s cl = .ok s') : FieldsKnown s' := by
  cases cl with
  | blank =>
    obtain rfl := Except.ok.inj h
    exact hs
  | header name => exact configHeader_fields h
  | assign k v =>
    cases s with
    | none => cases h
    | some s =>
      simp only [lineStep] at h
      cases hfield : configField s.current s.fields k.text v with
      | none => rw [hfield] at h; cases h
      | some r =>
        rw [hfield] at h
        obtain rfl := Except.ok.inj h
        obtain ⟨p, hp⟩ := hs s rfl
        obtain ⟨k', hk', hnew, hset, hbits⟩ := @configField_sound _ r.1 _ r.2 _ _ _ hp hfield
        intro l hl
        obtain rfl := Option.some.inj hl
        exact ⟨_, hbits⟩

/-- The lines are taken as what they read as. -/
theorem foldlM_reads : ∀ (ls : List (List Byte)) {s s' : Option Loading}, FieldsKnown s →
    (ls.foldlM configLine s = .ok s' ↔
      ∃ cls, List.Forall₂ (fun l cl => Reads (configTrim l) cl) ls cls ∧ cls.foldlM lineStep s = .ok s')
  | [], s, s', _ => by
    constructor
    · exact fun h => ⟨[], .nil, h⟩
    · rintro ⟨cls, hcls, h⟩
      cases hcls
      exact h
  | l :: ls, s, s', hs => by
    rw [List.foldlM_cons]
    constructor
    · intro h
      cases hline : configLine s l with
      | error e => rw [hline] at h; cases h
      | ok s₁ =>
        rw [hline] at h
        obtain ⟨cl, hcl⟩ := configLine_ok hline hs
        rw [configLine_reads hcl] at hline
        obtain ⟨cls, hcls, hfold⟩ := (foldlM_reads ls (lineStep_fields hs hline)).mp h
        refine ⟨cl :: cls, .cons hcl hcls, ?_⟩
        rw [List.foldlM_cons, hline]
        exact hfold
    · rintro ⟨_, hcls, hfold⟩
      cases hcls with
      | @cons _ cl _ cls hcl hcls =>
        rw [List.foldlM_cons] at hfold
        rw [configLine_reads hcl]
        cases hline : lineStep s cl with
        | error e => rw [hline] at hfold; cases hfold
        | ok s₁ =>
          rw [hline] at hfold
          exact (foldlM_reads ls (lineStep_fields hs hline)).mpr ⟨cls, hcls, hfold⟩

/-! ### Sections as they are read -/

theorem SectionOk.name_eq {ss : List Section} {cs : List DeviceConfig} (h : List.Forall₂ SectionOk ss cs) :
    cs.map DeviceConfig.name = ss.map Section.name := by
  induction h with
  | nil => rfl
  | cons hc _ ih => rw [List.map_cons, List.map_cons, ih, hc.name]

/-- Sections stand for one list. -/
theorem SectionOk.unique {ss : List Section} {cs cs' : List DeviceConfig} (h : List.Forall₂ SectionOk ss cs)
    (h' : List.Forall₂ SectionOk ss cs') : cs = cs' := by
  induction h generalizing cs' with
  | nil => cases h'; rfl
  | cons hc _ ih =>
    cases h' with
    | cons hc' h' => rw [hc.toSectionPart.unique hc'.toSectionPart, ih h']

/-- The loop is in the section `cur`, after the sections `ds`. -/
structure Open (s : Loading) (ds : List Section) (cur : Section) : Prop where
  done : List.Forall₂ SectionOk ds s.done
  distinct : ((ds ++ [cur]).map Section.name).Nodup
  name_ok : configNameValid cur.name = true ∧ cur.name.length < DEVICE_NAME_SIZE
  part : SectionPart cur s.current
  bits : Bits s.fields (· ∈ cur.keySet)

/-- The check of the section that ends. -/
theorem Open.valid_iff {s : Loading} {ds : List Section} {cur : Section} (h : Open s ds cur) :
    configSectionValidate s.current s.fields = true ↔ SectionOk cur s.current := by
  rw [configSectionValidate_iff h.bits]
  constructor
  · rintro ⟨hr, ha, hv⟩
    exact ⟨h.part, h.name_ok, hr, ha, hv⟩
  · exact fun hok => ⟨hok.required, hok.allowed, hok.valid⟩

theorem Open.close {s : Loading} {ds : List Section} {cur : Section} (h : Open s ds cur)
    (hok : SectionOk cur s.current) : List.Forall₂ SectionOk (ds ++ [cur]) s.devices :=
  List.rel_append h.done (.cons hok .nil)

/-- A header begins a section, after sections that were all checked. -/
theorem configHeader_sound {s s' : Option Loading} {ss : List Section} {name : List Byte}
    (hok : lastSectionValid s = true → List.Forall₂ SectionOk ss (loadedDevices s))
    (hdis : (ss.map Section.name).Nodup)
    (h : configHeader s ('['.toUInt8 :: (name ++ [']'.toUInt8])) = .ok s') :
    lastSectionValid s = true ∧ ∃ s₁, s' = some s₁ ∧ Open s₁ ss ⟨name, []⟩ := by
  unfold configHeader at h
  by_cases h1 : ('['.toUInt8 :: (name ++ [']'.toUInt8])).length < 3 ∨
      ('['.toUInt8 :: (name ++ [']'.toUInt8])).getLast? ≠ some ']'.toUInt8 ∨ (!lastSectionValid s) = true
  · rw [if_pos h1] at h
    cases h
  rw [if_neg h1] at h
  have hvalid : lastSectionValid s = true := by simpa using (not_or.mp (not_or.mp h1).2).2
  dsimp only at h
  rw [List.tail_cons, List.dropLast_concat] at h
  by_cases h2 : (!configNameValid name) = true ∨ name.length ≥ DEVICE_NAME_SIZE
  · rw [if_pos h2] at h
    cases h
  rw [if_neg h2] at h
  by_cases h3 : ((loadedDevices s).any fun device => decide (device.name = name)) = true
  · rw [if_pos h3] at h
    cases h
  rw [if_neg h3] at h
  by_cases h4 : (loadedDevices s).length < DEVICE_MAX_COUNT
  · rw [dif_pos h4] at h
    obtain rfl := Except.ok.inj h
    rw [not_or, not_le] at h2
    have hnew : name ∉ ss.map Section.name := by
      rw [← SectionOk.name_eq (hok hvalid)]
      simpa using h3
    refine ⟨hvalid, _, rfl, hok hvalid, ?_, ⟨by simpa using h2.1, h2.2⟩, ⟨rfl, List.nodup_nil, ?_, ?_⟩, ?_⟩
    · rw [List.map_append, List.nodup_append]
      refine ⟨hdis, List.nodup_singleton name, fun a ha b hb hab => hnew ?_⟩
      rw [hab, List.mem_singleton.mp hb] at ha
      exact ha
    · exact fun k v hmem => absurd hmem List.not_mem_nil
    · intro k _
      cases k <;> rfl
    · exact bits_zero.congr fun k => (iff_false_intro List.not_mem_nil).symm
  · rw [dif_neg h4] at h
    cases h

theorem configHeader_complete {s : Option Loading} {ss : List Section} {name : List Byte}
    (hvalid : lastSectionValid s = true) (hok : List.Forall₂ SectionOk ss (loadedDevices s))
    (hname : configNameValid name = true ∧ name.length < DEVICE_NAME_SIZE)
    (hnew : name ∉ ss.map Section.name) (hlen : ss.length < DEVICE_MAX_COUNT) :
    ∃ s', configHeader s ('['.toUInt8 :: (name ++ [']'.toUInt8])) = .ok s' := by
  have hne : name ≠ [] := by
    rintro rfl
    exact absurd hname.1 (by decide)
  have hlength : 0 < name.length := List.length_pos_of_ne_nil hne
  unfold configHeader
  rw [if_neg]
  · dsimp only
    rw [List.tail_cons, List.dropLast_concat, if_neg, if_neg, dif_pos (hok.length_eq ▸ hlen)]
    · exact ⟨_, rfl⟩
    · rw [← SectionOk.name_eq hok] at hnew
      simpa using hnew
    · rw [hname.1, not_or, not_le]
      exact ⟨by decide, hname.2⟩
  · rw [hvalid, ← List.cons_append, List.getLast?_concat, List.length_append, List.length_cons,
      List.length_singleton]
    rintro (h | h | h)
    · omega
    · exact h rfl
    · cases h

/-- A key of the section that is open. -/
theorem Open.assign {s : Loading} {ds : List Section} {cur : Section} {k : ConfigKey} {v : List Byte}
    {s' : Option Loading} (h : Open s ds cur) (hstep : lineStep (some s) (.assign k v) = .ok s') :
    ∃ s₁, s' = some s₁ ∧ Open s₁ ds ⟨cur.name, cur.keys ++ [(k, v)]⟩ := by
  simp only [lineStep] at hstep
  cases hfield : configField s.current s.fields k.text v with
  | none => rw [hfield] at hstep; cases hstep
  | some r =>
    rw [hfield] at hstep
    obtain rfl := Except.ok.inj hstep
    obtain ⟨k', hk', hnew, hset, hbits⟩ := @configField_sound _ r.1 _ r.2 _ _ _ h.bits hfield
    obtain rfl := ConfigKey.text_injective hk'
    refine ⟨_, rfl, h.done, ?_, h.name_ok, h.part.assign hnew hset, hbits.congr fun k' => ?_⟩
    · rw [List.map_append, List.map_singleton] at *
      have hdis := h.distinct
      rwa [List.map_append, List.map_singleton] at hdis
    · simp only [Section.keySet, List.map_append, List.map_singleton, List.mem_append, List.mem_singleton]

theorem Sections.append_iff {ds ss : List Section} {cur : Section} {cs : List DeviceConfig} :
    Sections (ds ++ cur :: ss) cs → ∃ done c rest, cs = done ++ c :: rest ∧ List.Forall₂ SectionOk ds done ∧
      SectionOk cur c ∧ List.Forall₂ SectionOk ss rest := by
  intro h
  have htake := List.forall₂_take_append cs ds (cur :: ss) (List.Forall₂.flip h.ok)
  have hdrop := List.forall₂_drop_append cs ds (cur :: ss) (List.Forall₂.flip h.ok)
  cases hrest : cs.drop ds.length with
  | nil => rw [hrest] at hdrop; cases hdrop
  | cons c rest =>
    rw [hrest] at hdrop
    cases hdrop with
    | cons hc hss =>
      refine ⟨cs.take ds.length, c, rest, ?_, htake.flip, hc, hss.flip⟩
      rw [← hrest, List.take_append_drop]

/-- What follows an open section: its other keys and the other sections. -/
theorem loop_language : ∀ (cls : List ConfigLine) {s : Loading} {ds : List Section} {cur : Section},
    Open s ds cur → ∀ cs,
      ((∃ s', cls.foldlM lineStep (some s) = .ok s' ∧ lastSectionValid s' = true ∧ loadedDevices s' = cs) ↔
        Sections (ds ++ ⟨cur.name, cur.keys ++ (sectionsOf cls).1⟩ :: (sectionsOf cls).2) cs)
  | [], s, ds, cur, h, cs => by
    have hcur : (⟨cur.name, cur.keys ++ (sectionsOf []).1⟩ : Section) = cur := by
      rw [sectionsOf, List.append_nil]
    rw [hcur]
    constructor
    · rintro ⟨s', hs', hvalid, rfl⟩
      obtain rfl := Except.ok.inj hs'
      have hok := h.close (h.valid_iff.mp hvalid)
      refine ⟨?_, h.distinct, hok⟩
      have hfit := loadedDevices_length (some s)
      rwa [show (loadedDevices (some s)).length = s.devices.length from rfl, ← hok.length_eq] at hfit
    · intro hs
      obtain ⟨done, c, rest, rfl, hdone, hc, hrest⟩ := hs.append_iff
      obtain rfl := SectionOk.unique h.done hdone
      obtain rfl := h.part.unique hc.toSectionPart
      cases hrest
      exact ⟨some s, rfl, h.valid_iff.mpr hc, rfl⟩
  | .blank :: cls, s, ds, cur, h, cs => loop_language cls h cs
  | .header name :: cls, s, ds, cur, h, cs => by
    have hcur : (⟨cur.name, cur.keys ++ (sectionsOf (.header name :: cls)).1⟩ : Section) = cur := by
      rw [sectionsOf, List.append_nil]
    have hstep : ∀ s', configHeader (some s) ('['.toUInt8 :: (name ++ [']'.toUInt8])) = .ok s' →
        SectionOk cur s.current ∧ ∃ s₁, s' = some s₁ ∧ Open s₁ (ds ++ [cur]) ⟨name, []⟩ := by
      intro s' hs'
      have hclose : lastSectionValid (some s) = true → List.Forall₂ SectionOk (ds ++ [cur]) s.devices :=
        fun hv => h.close (h.valid_iff.mp hv)
      obtain ⟨hvalid, hopen⟩ := configHeader_sound hclose h.distinct hs'
      exact ⟨h.valid_iff.mp hvalid, hopen⟩
    have hsections : ds ++ cur :: (sectionsOf (.header name :: cls)).2 =
        (ds ++ [cur]) ++ ⟨name, [] ++ (sectionsOf cls).1⟩ :: (sectionsOf cls).2 := by
      rw [sectionsOf, List.append_assoc, List.singleton_append, List.nil_append]
    rw [hcur, hsections]
    cases hheader : configHeader (some s) ('['.toUInt8 :: (name ++ [']'.toUInt8])) with
    | ok s' =>
      obtain ⟨-, s₁, rfl, hopen⟩ := hstep s' hheader
      have ih := loop_language cls hopen cs
      rwa [show (ConfigLine.header name :: cls).foldlM lineStep (some s) = cls.foldlM lineStep (some s₁) by
        rw [List.foldlM_cons, lineStep, hheader]; rfl]
    | error e =>
      constructor
      · rintro ⟨s', hs', -⟩
        rw [List.foldlM_cons, lineStep, hheader] at hs'
        cases hs'
      · intro hs
        exfalso
        have hcount := hs.count
        have hdis := hs.distinct
        obtain ⟨done, c, rest, rfl, hdone, hc, -⟩ := hs.append_iff
        obtain ⟨done', c', rest', hcs, hdone', hc', -⟩ := (hsections ▸ hs).append_iff
        obtain rfl := SectionOk.unique h.done hdone'
        obtain rfl := h.part.unique hc'.toSectionPart
        rw [List.map_append, List.map_cons, List.nodup_append] at hdis
        rw [List.length_append, List.length_cons] at hcount
        obtain ⟨s', hs'⟩ := @configHeader_complete (some s) (ds ++ [cur]) name (h.valid_iff.mpr hc') (h.close hc')
          hc.name_ok (fun hmem => hdis.2.2 name hmem name List.mem_cons_self rfl) (by omega)
        rw [hheader] at hs'
        cases hs'
  | .assign k v :: cls, s, ds, cur, h, cs => by
    have hcur : cur.keys ++ (sectionsOf (.assign k v :: cls)).1 = cur.keys ++ [(k, v)] ++ (sectionsOf cls).1 := by
      rw [sectionsOf, List.append_assoc, List.singleton_append]
    have hsections : (sectionsOf (.assign k v :: cls)).2 = (sectionsOf cls).2 := rfl
    rw [hcur, hsections]
    cases hassign : lineStep (some s) (.assign k v) with
    | ok s' =>
      obtain ⟨s₁, rfl, hopen⟩ := h.assign hassign
      have ih := loop_language cls hopen cs
      rwa [show (ConfigLine.assign k v :: cls).foldlM lineStep (some s) = cls.foldlM lineStep (some s₁) by
        rw [List.foldlM_cons, hassign]; rfl]
    | error e =>
      constructor
      · rintro ⟨s', hs', -⟩
        rw [List.foldlM_cons, hassign] at hs'
        cases hs'
      · intro hs
        exfalso
        obtain ⟨done, c, rest, rfl, hdone, hc, -⟩ := hs.append_iff
        have hnew : k ∉ cur.keySet := by
          have hnodup := hc.once
          rw [Section.keySet, List.map_append, List.map_append, List.nodup_append, List.nodup_append] at hnodup
          exact fun hmem => hnodup.1.2.2 k hmem k List.mem_cons_self rfl
        have hmem : (k, v) ∈ cur.keys ++ [(k, v)] ++ (sectionsOf cls).1 :=
          List.mem_append_left _ (List.mem_append_right _ List.mem_cons_self)
        obtain ⟨c', fields', hfield⟩ := @configField_complete s.current _ _ _ _ _ h.bits hnew (hc.value k v hmem)
        simp only [lineStep, hfield] at hassign
        cases hassign

/-- The lines before the first section, and the sections. -/
theorem start_language : ∀ (cls : List ConfigLine) (cs : List DeviceConfig),
    (∃ s', cls.foldlM lineStep none = .ok s' ∧ lastSectionValid s' = true ∧ loadedDevices s' = cs) ↔
      (sectionsOf cls).1 = [] ∧ Sections (sectionsOf cls).2 cs
  | [], cs => by
    constructor
    · rintro ⟨s', hs', -, rfl⟩
      obtain rfl := Except.ok.inj hs'
      exact ⟨rfl, Nat.zero_le _, List.nodup_nil, .nil⟩
    · rintro ⟨-, hs⟩
      have hok := hs.ok
      rw [sectionsOf, List.forall₂_nil_left_iff] at hok
      exact ⟨none, rfl, rfl, hok.symm⟩
  | .blank :: cls, cs => start_language cls cs
  | .header name :: cls, cs => by
    cases hheader : configHeader none ('['.toUInt8 :: (name ++ [']'.toUInt8])) with
    | ok s' =>
      obtain ⟨-, s₁, rfl, hopen⟩ := @configHeader_sound none _ [] name (fun _ => .nil) List.nodup_nil hheader
      have ih := loop_language cls hopen cs
      rw [show (ConfigLine.header name :: cls).foldlM lineStep none = cls.foldlM lineStep (some s₁) by
        rw [List.foldlM_cons, lineStep, hheader]; rfl, ih]
      exact ⟨fun h => ⟨rfl, h⟩, fun h => h.2⟩
    | error e =>
      constructor
      · rintro ⟨s', hs', -⟩
        rw [List.foldlM_cons, lineStep, hheader] at hs'
        cases hs'
      · rintro ⟨-, hs⟩
        exfalso
        cases hs.ok with
        | cons hc _ =>
          obtain ⟨s', hs'⟩ := @configHeader_complete none [] name rfl .nil hc.name_ok List.not_mem_nil (by decide)
          rw [hheader] at hs'
          cases hs'
  | .assign k v :: cls, cs => by
    constructor
    · rintro ⟨s', hs', -⟩
      cases hs'
    · rintro ⟨h, -⟩
      cases h

/-! ### The loader -/

/-- What a line reads as, from its first character. -/
theorem Reads.shape {l : List Byte} {cl : ConfigLine} (h : Reads l cl) :
    (cl = .blank ∧ (l = [] ∨ l.headD 0 = '#'.toUInt8 ∨ l.headD 0 = ';'.toUInt8)) ∨
    (cl = .header l.tail.dropLast ∧ l ≠ [] ∧ l.headD 0 = '['.toUInt8) ∨
    (∃ k : ConfigKey, cl = .assign k (configTrim (l.dropWhile (· ≠ '='.toUInt8)).tail) ∧
      configTrim (l.takeWhile (· ≠ '='.toUInt8)) = k.text ∧ l ≠ [] ∧ l.headD 0 ≠ '#'.toUInt8 ∧
      l.headD 0 ≠ ';'.toUInt8 ∧ l.headD 0 ≠ '['.toUInt8) := by
  cases h with
  | blank => exact .inl ⟨rfl, .inl rfl⟩
  | comment hc => exact .inl ⟨rfl, .inr hc⟩
  | header hname =>
    refine .inr (.inl ⟨?_, List.cons_ne_nil _ _, rfl⟩)
    rw [List.tail_cons, List.dropLast_concat]
  | @assign k key value hk hkey hfirst =>
    obtain ⟨htake, hdrop⟩ := @takeWhile_ne_append _ _ value hk
    have hhead : (key ++ '='.toUInt8 :: value).headD 0 = (key ++ ['='.toUInt8]).headD 0 := by
      cases key <;> rfl
    rw [← hhead] at hfirst
    simp only [List.mem_cons, List.not_mem_nil, or_false, not_or] at hfirst
    refine .inr (.inr ⟨k, by rw [hdrop, List.tail_cons], by rw [htake, hkey], ?_, hfirst⟩)
    exact List.append_ne_nil_of_right_ne_nil _ (List.cons_ne_nil _ _)

/-- A line reads as one thing. -/
theorem Reads.unique {l : List Byte} {cl cl' : ConfigLine} (h : Reads l cl) (h' : Reads l cl') : cl = cl' := by
  have hopen : ∀ {c : Byte}, l.headD 0 = '['.toUInt8 → l.headD 0 = c → c ≠ '['.toUInt8 → False :=
    fun h1 h2 hne => hne (h2.symm.trans h1)
  rcases h.shape with ⟨rfl, hb⟩ | ⟨rfl, hne, hh⟩ | ⟨k, rfl, hk, hne, h1, h2, h3⟩ <;>
    rcases h'.shape with ⟨rfl, hb'⟩ | ⟨rfl, hne', hh'⟩ | ⟨k', rfl, hk', hne', h1', h2', h3'⟩
  · rfl
  · rcases hb with hb | hb | hb
    · exact absurd hb hne'
    · exact (hopen hh' hb (by decide)).elim
    · exact (hopen hh' hb (by decide)).elim
  · exact (hb.elim hne' fun hb => hb.elim h1' h2').elim
  · rcases hb' with hb | hb | hb
    · exact absurd hb hne
    · exact (hopen hh hb (by decide)).elim
    · exact (hopen hh hb (by decide)).elim
  · rfl
  · exact absurd hh h3'
  · exact (hb'.elim hne fun hb => hb.elim h1 h2).elim
  · exact absurd hh' h3
  · rw [ConfigKey.text_injective (hk.symm.trans hk')]

theorem reads_unique {ls : List (List Byte)} {cls cls' : List ConfigLine}
    (h : List.Forall₂ (fun l cl => Reads (configTrim l) cl) ls cls)
    (h' : List.Forall₂ (fun l cl => Reads (configTrim l) cl) ls cls') : cls = cls' := by
  induction h generalizing cls' with
  | nil => cases h'; rfl
  | cons hc _ ih =>
    cases h' with
    | cons hc' h' => rw [hc.unique hc', ih h']

/-- The loop and the check of the last section take the files that stand for a
list. -/
theorem configLoop_language (content : List Byte) (cs : List DeviceConfig) :
    (∃ s, configLoop false content none = .ok s ∧ lastSectionValid s = true ∧ loadedDevices s = cs) ↔
      FileOk content cs := by
  have hnone : FieldsKnown none := fun l hl => by cases hl
  constructor
  · rintro ⟨s, hloop, hvalid, hdevices⟩
    obtain ⟨hlines, hfold⟩ := (configLoop_fileLines content none s).mp hloop
    obtain ⟨cls, hreads, hsteps⟩ := (foldlM_reads _ hnone).mp hfold
    obtain ⟨hfirst, hsections⟩ := (start_language cls cs).mp ⟨s, hsteps, hvalid, hdevices⟩
    exact ⟨cls, (sectionsOf cls).2, hlines, hreads, by rw [← hfirst], hsections⟩
  · rintro ⟨cls, ss, hlines, hreads, hof, hsections⟩
    have hstart : (sectionsOf cls).1 = [] ∧ Sections (sectionsOf cls).2 cs := by
      rw [hof]
      exact ⟨rfl, hsections⟩
    obtain ⟨s, hsteps, hvalid, hdevices⟩ := (start_language cls cs).mpr hstart
    refine ⟨s, (configLoop_fileLines content none s).mpr ⟨hlines, ?_⟩, hvalid, hdevices⟩
    exact (foldlM_reads _ hnone).mpr ⟨cls, hreads, hsteps⟩

/-- The same section with its keys in another order. -/
def SameKeys (s s' : Section) : Prop := s.name = s'.name ∧ s.keys.Perm s'.keys

/-- Two files, readable line by line, whose sections have the same keys. -/
def Reordered (content content' : List Byte) : Prop :=
  ∃ ls ls' ss ss', (∀ l ∈ fileLines content, LineOk l) ∧ (∀ l ∈ fileLines content', LineOk l) ∧
    List.Forall₂ (fun l cl => Reads (configTrim l) cl) (fileLines content) ls ∧
    List.Forall₂ (fun l cl => Reads (configTrim l) cl) (fileLines content') ls' ∧
    sectionsOf ls = ([], ss) ∧ sectionsOf ls' = ([], ss') ∧ List.Forall₂ SameKeys ss ss'

theorem SameKeys.symm {s s' : Section} (h : SameKeys s s') : SameKeys s' s := ⟨h.1.symm, h.2.symm⟩

theorem SectionOk.perm {s s' : Section} {c : DeviceConfig} (h : SectionOk s c) (hs : SameKeys s s') :
    SectionOk s' c := by
  have hset : s.keySet.Perm s'.keySet := hs.2.map Prod.fst
  refine ⟨⟨h.name.trans hs.1, hset.nodup_iff.mp h.once, fun k v hmem => h.value k v (hs.2.mem_iff.mpr hmem),
    fun k hk => h.absent k fun hmem => hk (hset.mem_iff.mp hmem)⟩, ?_, ?_, ?_, h.valid⟩
  · rw [← hs.1]
    exact h.name_ok
  · exact fun k hk => hset.mem_iff.mp (h.required k hk)
  · exact fun k hk => h.allowed k (hset.mem_iff.mpr hk)

theorem Sections.perm {ss ss' : List Section} {cs : List DeviceConfig} (h : Sections ss cs)
    (hs : List.Forall₂ SameKeys ss ss') : Sections ss' cs := by
  have hnames : ss.map Section.name = ss'.map Section.name := by
    have hdis := h.distinct
    clear h hdis
    induction hs with
    | nil => rfl
    | cons hc _ ih => rw [List.map_cons, List.map_cons, hc.1, ih]
  refine ⟨hs.length_eq ▸ h.count, hnames ▸ h.distinct, ?_⟩
  have hok := h.ok
  clear h hnames
  induction hs generalizing cs with
  | nil => exact hok
  | cons hc _ ih =>
    cases hok with
    | cons hd hok => exact .cons (hd.perm hc) (ih hok)

theorem Reordered.symm {content content' : List Byte} (h : Reordered content content') :
    Reordered content' content := by
  obtain ⟨ls, ls', ss, ss', hlines, hlines', hreads, hreads', hof, hof', hss⟩ := h
  exact ⟨ls', ls, ss', ss, hlines', hlines, hreads', hreads, hof', hof, hss.flip.imp fun _ _ h => SameKeys.symm h⟩

theorem FileOk.reordered {content content' : List Byte} {cs : List DeviceConfig} (h : FileOk content cs)
    (hr : Reordered content content') : FileOk content' cs := by
  obtain ⟨ls₁, ss₁, -, hreads₁, hof₁, hsections⟩ := h
  obtain ⟨ls, ls', ss, ss', -, hlines', hreads, hreads', hof, hof', hss⟩ := hr
  obtain rfl := reads_unique hreads₁ hreads
  obtain ⟨-, rfl⟩ := Prod.mk.inj (hof₁.symm.trans hof)
  exact ⟨ls', ss', hlines', hreads', hof', hsections.perm hss⟩

/-- The loader on a file that can be read and closed. -/
theorem deviceConfigLoad_file {files : List Byte → Except ℕ ConfigFile} {filename content : List Byte}
    (list : DeviceConfigList) (hname : filename ≠ []) (hfile : files filename = .ok ⟨content, false, none⟩) :
    ((deviceConfigLoad files list filename).ret = 0 ∧
      FileOk content (deviceConfigLoad files list filename).list.devices) ∨
    ((deviceConfigLoad files list filename).ret = -1 ∧ (deviceConfigLoad files list filename).list = list ∧
      ∀ cs, ¬ FileOk content cs) := by
  have hlanguage := configLoop_language content
  unfold deviceConfigLoad
  rw [if_neg hname, hfile]
  dsimp only
  cases hloop : configLoop false content none with
  | error e =>
    refine .inr ⟨rfl, rfl, fun cs hcs => ?_⟩
    obtain ⟨s, hs, -⟩ := (hlanguage cs).mpr hcs
    rw [hloop] at hs
    cases hs
  | ok s =>
    dsimp only
    by_cases hvalid : lastSectionValid s = true
    · rw [if_neg (by rw [hvalid]; decide)]
      exact .inl ⟨rfl, (hlanguage _).mp ⟨s, hloop, hvalid, rfl⟩⟩
    · rw [if_pos (by rw [Bool.not_eq_true] at hvalid; rw [hvalid]; rfl)]
      refine .inr ⟨rfl, rfl, fun cs hcs => ?_⟩
      obtain ⟨s', hs', hvalid', -⟩ := (hlanguage cs).mpr hcs
      obtain rfl := Except.ok.inj (hloop.symm.trans hs')
      exact hvalid hvalid'

theorem configReadLine_readError : ∀ (bytes line : List Byte), configReadLine true bytes line ≠ .ok none
  | [], line, h => by
    rw [configReadLine, if_pos rfl] at h
    cases h
  | c :: bytes, line, h => by
    rw [configReadLine] at h
    by_cases hlf : c = LF
    · rw [if_pos hlf] at h
      cases h
    rw [if_neg hlf] at h
    by_cases hbad : c = 0 ∨ line.length + 1 ≥ DEVICE_CONFIG_LINE_SIZE
    · rw [if_pos hbad] at h
      cases h
    · rw [if_neg hbad] at h
      exact configReadLine_readError bytes _ h

/-- A read error is never overlooked. -/
theorem configLoop_readError (bytes : List Byte) : ∀ s s', configLoop true bytes s ≠ .ok s' := by
  induction hn : bytes.length using Nat.strong_induction_on generalizing bytes with
  | _ n ih =>
    intro s s' h
    rw [configLoop] at h
    split at h
    · cases h
    · next hread => exact configReadLine_readError bytes [] hread
    · next line rest hread =>
      have hlt : rest.length < n := by
        rw [← hn]
        exact (configReadLine_length hread).resolve_right fun hne => hne.2.2 rfl
      cases hline : configLine s line with
      | error e => rw [hline] at h; cases h
      | ok s₁ =>
        rw [hline] at h
        exact ih _ hlt rest rfl s₁ s' h

/-- Whatever the file: -1, or the list that the file stands for. -/
theorem deviceConfigLoad_cases (files : List Byte → Except ℕ ConfigFile) (list : DeviceConfigList)
    (filename : List Byte) :
    ((deviceConfigLoad files list filename).ret = -1 ∧ (deviceConfigLoad files list filename).list = list) ∨
    ((deviceConfigLoad files list filename).ret = 0 ∧ ∃ content, files filename = .ok ⟨content, false, none⟩ ∧
      FileOk content (deviceConfigLoad files list filename).list.devices) := by
  unfold deviceConfigLoad
  by_cases hname : filename = []
  · rw [if_pos hname]
    exact .inl ⟨rfl, rfl⟩
  rw [if_neg hname]
  cases hfile : files filename with
  | error e => exact .inl ⟨rfl, rfl⟩
  | ok file =>
    obtain ⟨content, readError, closeErrno⟩ := file
    dsimp only
    cases hloop : configLoop readError content none with
    | error e => exact .inl ⟨rfl, rfl⟩
    | ok s =>
      dsimp only
      by_cases hvalid : (!lastSectionValid s) = true
      · rw [if_pos hvalid]
        exact .inl ⟨rfl, rfl⟩
      rw [if_neg hvalid]
      cases closeErrno with
      | some e => exact .inl ⟨rfl, rfl⟩
      | none =>
        cases readError with
        | true => exact absurd hloop (configLoop_readError content none s)
        | false =>
          refine .inr ⟨rfl, content, rfl, (configLoop_language content _).mp ⟨s, hloop, ?_, rfl⟩⟩
          simpa using hvalid

/-- A file stands for one list. -/
theorem FileOk.unique {content : List Byte} {cs cs' : List DeviceConfig} (h : FileOk content cs)
    (h' : FileOk content cs') : cs = cs' := by
  obtain ⟨ls, ss, -, hreads, hof, hsections⟩ := h
  obtain ⟨ls', ss', -, hreads', hof', hsections'⟩ := h'
  obtain rfl := reads_unique hreads hreads'
  obtain ⟨-, rfl⟩ := Prod.mk.inj (hof.symm.trans hof')
  exact SectionOk.unique hsections.ok hsections'.ok

theorem FileOk.distinct {content : List Byte} {cs : List DeviceConfig} (h : FileOk content cs) :
    (cs.map DeviceConfig.name).Nodup := by
  obtain ⟨ls, ss, -, -, -, hsections⟩ := h
  rw [SectionOk.name_eq hsections.ok]
  exact hsections.distinct

/-- The loader accepts exactly the files that stand for a list and returns that
list, or leaves `list` as it was; the order of the keys in a section does not
matter. -/
theorem device_config_language {files : List Byte → Except ℕ ConfigFile} {filename content : List Byte}
    (hname : filename ≠ []) (hfile : files filename = .ok ⟨content, false, none⟩) (list : DeviceConfigList) :
    (∀ cs, ((deviceConfigLoad files list filename).ret = 0 ∧
        (deviceConfigLoad files list filename).list.devices = cs) ↔ FileOk content cs) ∧
    ((deviceConfigLoad files list filename).ret ≠ 0 →
      (deviceConfigLoad files list filename).ret = -1 ∧ (deviceConfigLoad files list filename).list = list) ∧
    ∀ filename' content', filename' ≠ [] → files filename' = .ok ⟨content', false, none⟩ →
      Reordered content content' →
        (deviceConfigLoad files list filename').ret = (deviceConfigLoad files list filename).ret ∧
          (deviceConfigLoad files list filename').list = (deviceConfigLoad files list filename).list := by
  refine ⟨fun cs => ?_, ?_, ?_⟩
  · rcases deviceConfigLoad_file list hname hfile with ⟨hret, hok⟩ | ⟨hret, -, hnot⟩
    · exact ⟨fun h => h.2 ▸ hok, fun h => ⟨hret, hok.unique h⟩⟩
    · constructor
      · rintro ⟨h, -⟩
        rw [hret] at h
        cases h
      · exact fun h => absurd h (hnot cs)
  · intro hne
    rcases deviceConfigLoad_file list hname hfile with ⟨hret, -⟩ | ⟨hret, hlist, -⟩
    · exact absurd hret hne
    · exact ⟨hret, hlist⟩
  · intro filename' content' hname' hfile' hr
    rcases deviceConfigLoad_file list hname hfile with ⟨hret, hok⟩ | ⟨hret, hlist, hnot⟩ <;>
      rcases deviceConfigLoad_file list hname' hfile' with ⟨hret', hok'⟩ | ⟨hret', hlist', hnot'⟩
    · refine ⟨hret'.trans hret.symm, ?_⟩
      have hdevices := hok'.unique (hok.reordered hr)
      revert hdevices
      generalize (deviceConfigLoad files list filename').list = l'
      generalize (deviceConfigLoad files list filename).list = l
      intro hdevices
      cases l; cases l'
      cases hdevices
      rfl
    · exact absurd (hok.reordered hr) (hnot' _)
    · exact absurd (hok'.reordered hr.symm) (hnot _)
    · exact ⟨hret'.trans hret.symm, hlist'.trans hlist.symm⟩

/-- A file of one LED. -/
theorem device_config_language_led :
    (deviceConfigLoad (fun _ => .ok ⟨text "[a]\ntype=led\nled_name = l0", false, none⟩) ⟨[], by decide⟩
      (text "d")).ret = 0 := by
  have hreads : List.Forall₂ (fun l cl => Reads (configTrim l) cl)
      [text "[a]", text "type=led", text "led_name = l0"]
      [.header (text "a"), .assign .type (configTrim (text "led")), .assign .ledName (configTrim (text " l0"))] :=
    .cons (@Reads.header (text "a") (by decide))
      (.cons (@Reads.assign .type (text "type") (text "led") (by decide) (by decide) (by decide))
        (.cons (@Reads.assign .ledName (text "led_name ") (text " l0") (by decide) (by decide) (by decide)) .nil))
  have hsection : SectionOk ⟨text "a", [(.type, text "led"), (.ledName, text "l0")]⟩
      { deviceConfigInit with name := text "a", type := .led, ledName := text "l0" } := by
    refine ⟨⟨rfl, by decide, ?_, ?_⟩, by decide, ?_, by decide, by decide⟩
    · intro k v hmem
      rcases List.mem_cons.mp hmem with hmem | hmem
      · obtain ⟨rfl, rfl⟩ := Prod.mk.inj hmem
        exact .type .led
      · obtain ⟨rfl, rfl⟩ := Prod.mk.inj (List.mem_singleton.mp hmem)
        exact .ledName (by decide) (by decide)
    · intro k hk
      cases k <;> first | rfl | exact absurd (by decide) hk
    · intro k hk
      cases k <;> first | decide | exact absurd hk (by decide)
  have hof : sectionsOf [.header (text "a"), .assign .type (configTrim (text "led")),
      .assign .ledName (configTrim (text " l0"))] =
      ([], [⟨text "a", [(.type, text "led"), (.ledName, text "l0")]⟩]) := by
    rw [show configTrim (text "led") = text "led" by decide, show configTrim (text " l0") = text "l0" by decide]
    rfl
  have hok : FileOk (text "[a]\ntype=led\nled_name = l0")
      [{ deviceConfigInit with name := text "a", type := .led, ledName := text "l0" }] :=
    ⟨_, _, by decide, hreads, hof, by decide, by decide, .cons hsection .nil⟩
  exact (((device_config_language (by decide) rfl ⟨[], by decide⟩).1 _).mpr hok).1

end DeviceRuntime
