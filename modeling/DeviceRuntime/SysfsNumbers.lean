/-
# Unsigned numbers of sysfs

`sysfs_read_ulong` and `sysfs_read_ull` read a file of any content in any parts
into a buffer of 64 bytes and take the string in it for a number. The string
may begin with blanks, and a minus after them is read: the test for it is of
the first byte only. What does not fit the buffer is cut, and so is what comes
after a NUL.

Key definitions: `sysfsReadUlong`, `sysfsReadUllInto`, `SignedText`,
`UnsignedText`, `ExactNumber`, `PlainContent`.
Key theorems: `strtoull_signed`, `signedText_of_strtoull`, `ullOf_iff`,
`plain_iff`, `sysfs_unsigned_numbers`.
-/
import DeviceRuntime.SysfsFiles

namespace DeviceRuntime

open Prog HardwareCall

/-! ### The readers -/

/-- The result, and `*value` after it. -/
def sysfsReadUlong (path : List Byte) (value : ℕ) : HardwareProg (CallResult × ℕ) := do
  match ← sysfsReadText path 64 with
  | .error errno => return (⟨-1, errno⟩, value)
  | .ok buffer =>
    if buffer.head? = some '-'.toUInt8 then return (⟨-1, EINVAL⟩, value)
    let result := strtoulBase 10 buffer
    if result.erange ∨ result.rest = buffer ∨ result.rest ≠ [] then return (⟨-1, EINVAL⟩, value)
    return (⟨0, 0⟩, result.parsed)

/-- What is returned, and `*value`. -/
def numberResult (value : ℕ) : Except ℕ ℕ → CallResult × ℕ
  | .error errno => (⟨-1, errno⟩, value)
  | .ok result => (⟨0, 0⟩, result)

/-- `sysfs_read_ull` with `*value`. -/
def sysfsReadUllInto (path : List Byte) (value : ℕ) : HardwareProg (CallResult × ℕ) :=
  (sysfsReadUll path).bind fun result => .ret (numberResult value result)

/-! ### Numerals -/

/-- Blanks, then the sign, then the digits of `n`. -/
structure SignedText (s sign : List Byte) (n : ℕ) : Prop where
  parts : ∃ blanks digits, s = blanks ++ (sign ++ digits) ∧ (∀ c ∈ blanks, isspace c = true) ∧ digits ≠ [] ∧
    (∀ c ∈ digits, isdigit c = true) ∧ n = numberOf digits
  sign : sign = [] ∨ sign = ['+'.toUInt8] ∨ sign = ['-'.toUInt8]
  range : n ≤ ULONG_MAX

/-- Blanks, a plus or none, and a numeral that fits `unsigned long`. -/
def UnsignedText (s : List Byte) (n : ℕ) : Prop := ∃ sign, sign ≠ ['-'.toUInt8] ∧ SignedText s sign n

/-- Without the CR and LF at the end. -/
def trimmed (content : List Byte) : List Byte := content.rdropWhile fun c => c = LF || c = CR

/-- The whole content is a number. -/
def ExactNumber (content : List Byte) (n : ℕ) : Prop := content.length ≤ 63 ∧ UnsignedText (trimmed content) n

/-- The string that is in the buffer. -/
def bufferOf (content : List Byte) : List Byte := sysfsString (content.take 63)

/-- The content is not one of those that are misread: where the buffer has a
number that does not begin with a minus, the content fits the buffer, has no
NUL and no minus after its blanks. -/
def PlainContent (content : List Byte) : Prop :=
  ∀ sign n, SignedText (bufferOf content) sign n → (bufferOf content).head? ≠ some '-'.toUInt8 →
    content.length ≤ 63 ∧ 0 ∉ trimmed content ∧ sign ≠ ['-'.toUInt8]

section Numerals

variable {s sign : List Byte} {n : ℕ}

/-- A sign or a digit is no blank. -/
theorem sign_head {digits : List Byte} (hsign : sign = [] ∨ sign = ['+'.toUInt8] ∨ sign = ['-'.toUInt8])
    (hne : digits ≠ []) (hall : ∀ c ∈ digits, isdigit c = true) : ∀ c ∈ (sign ++ digits).head?, isspace c = false := by
  intro c hc
  obtain ⟨d, ds, rfl⟩ := List.exists_cons_of_ne_nil hne
  rcases hsign with rfl | rfl | rfl
  · rw [← Option.some.inj hc]
    exact isspace_of_isdigit (hall d List.mem_cons_self)
  · rw [← Option.some.inj hc]
    decide
  · rw [← Option.some.inj hc]
    decide

/-- The sign is what comes after the blanks. -/
theorem strtolSign_signed {blanks digits : List Byte} (hblanks : ∀ c ∈ blanks, isspace c = true)
    (hsign : sign = [] ∨ sign = ['+'.toUInt8] ∨ sign = ['-'.toUInt8]) (hne : digits ≠ [])
    (hall : ∀ c ∈ digits, isdigit c = true) :
    strtolSign (blanks ++ (sign ++ digits)) = (decide (sign = ['-'.toUInt8]), digits) := by
  have hdrop := dropWhile_stop hblanks (sign_head hsign hne hall)
  have hdigits : strtolSign digits = (false, digits) := by
    obtain ⟨d, ds, rfl⟩ := List.exists_cons_of_ne_nil hne
    exact strtolSign_digit (hall d List.mem_cons_self)
  have hskip : digits.dropWhile isspace = digits := by
    obtain ⟨d, ds, rfl⟩ := List.exists_cons_of_ne_nil hne
    rw [List.dropWhile_cons_of_neg]
    rw [isspace_of_isdigit (hall d List.mem_cons_self)]
    decide
  unfold strtolSign at hdigits ⊢
  rw [hdrop]
  rw [hskip] at hdigits
  rcases hsign with rfl | rfl | rfl
  · exact hdigits
  · rfl
  · rfl

/-- `strtoull` reads a number to its end; a minus wraps it. -/
theorem strtoull_signed (h : SignedText s sign n) :
    strtoull s = ⟨if sign = ['-'.toUInt8] then (ULONG_MAX + 1 - n) % (ULONG_MAX + 1) else n, [], false⟩ := by
  obtain ⟨blanks, digits, rfl, hblanks, hne, hall, rfl⟩ := h.parts
  have htake : digits.takeWhile isdigit = digits := List.takeWhile_eq_self_iff.mpr hall
  have hdrop : digits.dropWhile isdigit = [] := List.dropWhile_eq_nil_iff.mpr hall
  unfold strtoull
  rw [strtolSign_signed hblanks h.sign hne hall]
  dsimp only
  rw [htake, hdrop, if_neg hne]
  unfold strtoullValue
  rw [if_neg (not_lt.mpr h.range)]
  simp

/-- What comes before the digits. -/
theorem strtolSign_split (s : List Byte) : ∃ blanks sign, s = blanks ++ (sign ++ (strtolSign s).2) ∧
    (∀ c ∈ blanks, isspace c = true) ∧ (sign = [] ∨ sign = ['+'.toUInt8] ∨ sign = ['-'.toUInt8]) := by
  have hsplit : s = s.takeWhile isspace ++ s.dropWhile isspace := List.takeWhile_append_dropWhile.symm
  have hblanks : ∀ c ∈ s.takeWhile isspace, isspace c = true := fun c hc => List.mem_takeWhile_imp hc
  unfold strtolSign
  cases hdrop : s.dropWhile isspace with
  | nil =>
    rw [hdrop] at hsplit
    exact ⟨s.takeWhile isspace, [], hsplit, hblanks, Or.inl rfl⟩
  | cons c rest =>
    rw [hdrop] at hsplit
    dsimp only
    by_cases hminus : c = '-'.toUInt8
    · rw [if_pos hminus]
      refine ⟨s.takeWhile isspace, ['-'.toUInt8], ?_, hblanks, Or.inr (Or.inr rfl)⟩
      rw [← hminus]
      exact hsplit
    · rw [if_neg hminus]
      by_cases hplus : c = '+'.toUInt8
      · rw [if_pos hplus]
        refine ⟨s.takeWhile isspace, ['+'.toUInt8], ?_, hblanks, Or.inr (Or.inl rfl)⟩
        rw [← hplus]
        exact hsplit
      · rw [if_neg hplus]
        exact ⟨s.takeWhile isspace, [], hsplit, hblanks, Or.inl rfl⟩

/-- What `strtoull` reads to the end is a number. -/
theorem signedText_of_strtoull (herange : (strtoull s).erange = false) (hsome : (strtoull s).rest ≠ s)
    (hrest : (strtoull s).rest = []) : ∃ sign n, SignedText s sign n := by
  obtain ⟨blanks, sign, hsplit, hblanks, hsign⟩ := strtolSign_split s
  unfold strtoull at herange hsome hrest
  dsimp only at herange hsome hrest
  by_cases hnil : (strtolSign s).2.takeWhile isdigit = []
  · rw [if_pos hnil] at hsome
    exact absurd rfl hsome
  rw [if_neg hnil] at herange hrest
  unfold strtoullValue at herange hrest
  by_cases hbig : numberOf ((strtolSign s).2.takeWhile isdigit) > ULONG_MAX
  · rw [if_pos hbig] at herange
    cases herange
  rw [if_neg hbig] at hrest
  have hall : ∀ c ∈ (strtolSign s).2, isdigit c = true := List.dropWhile_eq_nil_iff.mp hrest
  have htake := List.takeWhile_eq_self_iff.mpr hall
  rw [htake] at hnil hbig
  exact ⟨sign, numberOf (strtolSign s).2, ⟨blanks, _, hsplit, hblanks, hnil, hall, rfl⟩, hsign, not_lt.mp hbig⟩

/-- A text has one sign, and one number. -/
theorem SignedText.unique {sign' : List Byte} {n' : ℕ} (h : SignedText s sign n) (h' : SignedText s sign' n') :
    (sign = ['-'.toUInt8] ↔ sign' = ['-'.toUInt8]) ∧ n = n' := by
  obtain ⟨blanks, digits, hs, hblanks, hne, hall, rfl⟩ := h.parts
  obtain ⟨blanks', digits', hs', hblanks', hne', hall', rfl⟩ := h'.parts
  have hsigns := strtolSign_signed hblanks h.sign hne hall
  rw [← hs, hs', strtolSign_signed hblanks' h'.sign hne' hall', Prod.mk.injEq] at hsigns
  refine ⟨?_, by rw [hsigns.2]⟩
  rw [← decide_eq_true_eq (p := sign = ['-'.toUInt8]), ← hsigns.1, decide_eq_true_eq]

/-- A number has no NUL, and begins with a minus only if that is its sign. -/
theorem SignedText.clean (h : SignedText s sign n) :
    0 ∉ s ∧ (sign ≠ ['-'.toUInt8] → s.head? ≠ some '-'.toUInt8) ∧ s ≠ [] := by
  obtain ⟨blanks, digits, rfl, hblanks, hne, hall, -⟩ := h.parts
  have hzero : (0 : Byte) ∉ digits := fun hmem => absurd (hall 0 hmem) (by decide)
  have hzero' : (0 : Byte) ∉ blanks := fun hmem => absurd (hblanks 0 hmem) (by decide)
  refine ⟨?_, ?_, ?_⟩
  · rw [List.mem_append, List.mem_append, not_or, not_or]
    refine ⟨hzero', ?_, hzero⟩
    rcases h.sign with rfl | rfl | rfl
    · exact List.not_mem_nil
    · decide
    · decide
  · intro hsign hhead
    cases blanks with
    | cons b blanks =>
      have hb : b = '-'.toUInt8 := Option.some.inj hhead
      have hspace := hblanks b List.mem_cons_self
      rw [hb] at hspace
      exact absurd hspace (by decide)
    | nil =>
      obtain ⟨d, ds, rfl⟩ := List.exists_cons_of_ne_nil hne
      rcases h.sign with rfl | rfl | rfl
      · have hd : d = '-'.toUInt8 := Option.some.inj hhead
        have hdigit := hall d List.mem_cons_self
        rw [hd] at hdigit
        exact absurd hdigit (by decide)
      · have hplus : '+'.toUInt8 = '-'.toUInt8 := Option.some.inj hhead
        exact absurd hplus (by decide)
      · exact hsign rfl
  · intro hnil
    rw [List.append_eq_nil_iff, List.append_eq_nil_iff] at hnil
    exact hne hnil.2.2

/-- The number that is read from the string in the buffer. -/
theorem ullOf_iff {v : ℕ} : ullOf s = .ok v ↔ s.head? ≠ some '-'.toUInt8 ∧ ∃ sign n, SignedText s sign n ∧
    v = if sign = ['-'.toUInt8] then (ULONG_MAX + 1 - n) % (ULONG_MAX + 1) else n := by
  unfold ullOf
  constructor
  · intro h
    by_cases hhead : s.head? = some '-'.toUInt8
    · rw [if_pos hhead] at h
      cases h
    rw [if_neg hhead] at h
    split_ifs at h with hbad
    rw [not_or, not_or, not_not, Bool.not_eq_true] at hbad
    obtain ⟨sign, n, hsigned⟩ := signedText_of_strtoull hbad.1 hbad.2.1 hbad.2.2
    rw [strtoull_signed hsigned] at h
    exact ⟨hhead, sign, n, hsigned, (Except.ok.inj h).symm⟩
  · rintro ⟨hhead, sign, n, hsigned, rfl⟩
    have hne : ([] : List Byte) ≠ s := Ne.symm hsigned.clean.2.2
    rw [if_neg hhead, strtoull_signed hsigned]
    dsimp only
    rw [if_neg]
    rintro (h | h | h)
    · cases h
    · exact hne h
    · exact h rfl

end Numerals

/-! ### Contents -/

section Contents

variable {content : List Byte}

/-- A content that fits the buffer and has no NUL is in it as a whole. -/
theorem bufferOf_whole (hlength : content.length ≤ 63) (hnul : 0 ∉ trimmed content) :
    bufferOf content = trimmed content := by
  unfold bufferOf sysfsString
  rw [List.take_of_length_le hlength]
  exact cstr_line hnul

theorem signedText_whole {sign : List Byte} {n : ℕ} (hlength : content.length ≤ 63)
    (h : SignedText (trimmed content) sign n) : SignedText (bufferOf content) sign n := by
  rw [bufferOf_whole hlength h.clean.1]
  exact h

/-- Exactly the numbers are read if and only if the content is plain. -/
theorem plain_iff : (∀ v, ullOf (bufferOf content) = .ok v ↔ ExactNumber content v) ↔ PlainContent content := by
  constructor
  · intro hexact sign n hsigned hhead
    obtain ⟨hlength, sign', hsign', hwhole⟩ := (hexact _).mp (ullOf_iff.mpr ⟨hhead, sign, n, hsigned, rfl⟩)
    refine ⟨hlength, hwhole.clean.1, ?_⟩
    intro hminus
    exact hsign' ((hsigned.unique (signedText_whole hlength hwhole)).1.mp hminus)
  · intro hplain v
    constructor
    · intro hread
      obtain ⟨hhead, sign, n, hsigned, hv⟩ := ullOf_iff.mp hread
      obtain ⟨hlength, hnul, hsign⟩ := hplain sign n hsigned hhead
      rw [if_neg hsign] at hv
      rw [bufferOf_whole hlength hnul] at hsigned
      rw [hv]
      exact ⟨hlength, sign, hsign, hsigned⟩
    · rintro ⟨hlength, sign, hsign, hwhole⟩
      have hsigned := signedText_whole hlength hwhole
      refine ullOf_iff.mpr ⟨hsigned.clean.2.1 hsign, sign, v, hsigned, ?_⟩
      rw [if_neg hsign]

end Contents

/-! ### The result and `*value` -/

section Results

variable {tree : List Byte → SysfsFile} {w : FilesState} {path : List Byte} {value : ℕ}

theorem sysfsReadUlong_total (hw : w.current = none) :
    Prog.Total (files tree) (HasRead (numberResult value (tree path).ull)) (sysfsReadUlong path value) w := by
  unfold sysfsReadUlong
  apply (sysfsReadText_total (by decide) hw).bind
  intro r w' ⟨hr, hw'⟩
  unfold SysfsFile.ull
  rw [hr]
  cases (tree path).string 64 with
  | error errno => exact Prog.Total.ret ⟨rfl, hw'⟩
  | ok buffer =>
    have hbase : strtoulBase 10 buffer = strtoull buffer := if_pos rfl
    dsimp only [Except.bind]
    rw [hbase]
    unfold ullOf
    split_ifs
    · exact Prog.Total.ret ⟨rfl, hw'⟩
    · exact Prog.Total.ret ⟨rfl, hw'⟩
    · exact Prog.Total.ret ⟨rfl, hw'⟩

theorem sysfsReadUllInto_total (hw : w.current = none) :
    Prog.Total (files tree) (HasRead (numberResult value (tree path).ull)) (sysfsReadUllInto path value) w := by
  unfold sysfsReadUllInto
  apply (sysfsReadUll_total hw).bind
  intro r w' ⟨hr, hw'⟩
  rw [hr]
  exact Prog.Total.ret ⟨rfl, hw'⟩

/-- The call succeeds with the number that the content is, and fails with
`*value` as it was. -/
structure ReadsNumber (content : List Byte) (value : ℕ) (r : CallResult × ℕ) : Prop where
  success : ∀ v, (r.1.ret = 0 ∧ r.2 = v) ↔ ExactNumber content v
  failure : r.1.ret ≠ 0 → r.1.ret = -1 ∧ r.2 = value

theorem readsNumber_iff {content : List Byte} : ReadsNumber content value (numberResult value (ullOf (bufferOf content))) ↔
    PlainContent content := by
  rw [← plain_iff]
  cases hread : ullOf (bufferOf content) with
  | error errno =>
    unfold numberResult
    constructor
    · intro h v
      rw [← h.success v]
      constructor
      · intro herror
        cases herror
      · intro hzero
        cases hzero.1
    · intro h
      refine ⟨fun v => ?_, fun _ => ⟨rfl, rfl⟩⟩
      rw [← h v]
      constructor
      · intro hzero
        cases hzero.1
      · intro herror
        cases herror
  | ok number =>
    unfold numberResult
    constructor
    · intro h v
      rw [← h.success v, Except.ok.injEq]
      exact ⟨fun hv => ⟨rfl, hv⟩, fun hv => hv.2⟩
    · intro h
      refine ⟨fun v => ?_, fun hne => absurd rfl hne⟩
      rw [← h v, Except.ok.injEq]
      exact ⟨fun hv => hv.2, fun hv => ⟨rfl, hv⟩⟩

end Results

/-- Both functions read every file with the content in this way. -/
def ReadExactly (content : List Byte) : Prop :=
  ∀ (tree : List Byte → SysfsFile) (path : List Byte) (w : FilesState) (value : ℕ),
    tree path = .file content none → w.current = none →
      Prog.Total (files tree) (fun r _ => ReadsNumber content value r) (sysfsReadUlong path value) w ∧
      Prog.Total (files tree) (fun r _ => ReadsNumber content value r) (sysfsReadUllInto path value) w

/-- A run of the first function on the content, and what it returns. -/
theorem plain_of_readExactly {content : List Byte} (h : ReadExactly content) : PlainContent content := by
  have hnone : (⟨none, 0⟩ : FilesState).current = none := rfl
  have hread := @sysfsReadUlong_total (fun _ => .file content none) ⟨none, 0⟩ [] 0 hnone
  obtain ⟨r, w', hreach, hr, _⟩ := hread.returns
  have hall := (h (fun _ => .file content none) [] ⟨none, 0⟩ 0 rfl hnone).1
  have hresult := (hall.safe (fun _ _ he => he) _ _ hreach).2
  have hull : (SysfsFile.file content none).ull = ullOf (bufferOf content) := rfl
  rw [hr, hull] at hresult
  exact readsNumber_iff.mp hresult

/-- The two functions read the unsigned numbers exactly, if the content is
plain, and only then. -/
theorem sysfs_unsigned_numbers (content : List Byte) : ReadExactly content ↔ PlainContent content := by
  refine ⟨plain_of_readExactly, fun hplain tree path w value hpath hw => ?_⟩
  have hull : (tree path).ull = ullOf (bufferOf content) := by
    rw [hpath]
    rfl
  have hresult : ReadsNumber content value (numberResult value (tree path).ull) := by
    rw [hull]
    exact readsNumber_iff.mpr hplain
  constructor
  · apply (sysfsReadUlong_total hw).mono
    intro r _ hr
    rw [hr.1]
    exact hresult
  · apply (sysfsReadUllInto_total hw).mono
    intro r _ hr
    rw [hr.1]
    exact hresult

/-- A minus after a blank is read, and the number wraps. -/
theorem sysfs_minus_wraps : ¬ ∀ content, ReadExactly content := by
  intro hall
  have hsigned : SignedText (bufferOf (text " -5\n")) ['-'.toUInt8] 5 :=
    ⟨⟨text " ", text "5", by decide, by decide +kernel, by decide, by decide +kernel, by decide⟩, Or.inr (Or.inr rfl),
      by decide⟩
  exact (plain_of_readExactly (hall (text " -5\n")) _ _ hsigned (by decide)).2.2 rfl

end DeviceRuntime
