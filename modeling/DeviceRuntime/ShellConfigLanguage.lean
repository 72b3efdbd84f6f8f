/-
# The language of the shell's configuration file

A file is its lines, and a line is blank, a comment, or sets the prompt, the
number of jobs or the debug flag. The last setting of each kind counts, over
the defaults. A file without a NUL byte is loaded exactly so. A NUL hides what
follows it from the loader: a piece that begins with one is taken for blank,
and so is what follows a NUL in a last line that is not ended.

Key definitions: `Setting`, `ReadsAs`, `ShellLineOk`, `overridden`,
`ExactLoad`, `Tolerated`, `Mistaken`.
Key theorems: `configParseLine_reads`, `configPieces_lines`,
`configPieces_tolerated`, `shell_config_exact`, `shell_config_nul`.
-/
import DeviceRuntime.ConfigLanguage
import DeviceRuntime.ShellConfig

namespace DeviceRuntime

/-! ### Settings -/

inductive Setting
  | prompts (value : List Byte)
  | maxJob (n : ℕ)
  | debug (on : Bool)
deriving DecidableEq, Repr

/-- Digits with an optional `+`, and their value. -/
def IsDecimal (value : List Byte) (n : ℕ) : Prop :=
  ∃ digits, digits ≠ [] ∧ (∀ c ∈ digits, isdigit c = true) ∧ (value = digits ∨ value = '+'.toUInt8 :: digits) ∧
    n = numberOf digits

/-- A key with its value, and what it sets. -/
inductive Sets : List Byte → List Byte → Setting → Prop
  | prompts {v} (hne : v ≠ []) (hlen : v.length < PROMPTS_SIZE) : Sets (text "prompts") v (.prompts v)
  | maxJob {v n} (h : IsDecimal v n) (hpos : 1 ≤ n) (hmax : (n : ℤ) ≤ INT_MAX) : Sets (text "max_job") v (.maxJob n)
  | debug (on : Bool) : Sets (text "debug") (if on then text "1" else text "0") (.debug on)

/-- What a trimmed line is: blank, a comment, or `key = value`. -/
inductive ReadsAs : List Byte → Option Setting → Prop
  | blank : ReadsAs [] none
  | comment {t} : ReadsAs ('#'.toUInt8 :: t) none
  | sets {key value s} (hk : '='.toUInt8 ∉ key) (h : Sets (trimSpace key) (trimSpace value) s) :
      ReadsAs (key ++ '='.toUInt8 :: value) (some s)

/-- A line of the file, and what it sets. -/
structure ShellLine (line : List Byte) (s : Option Setting) : Prop where
  length : line.length ≤ CONFIG_LINE_SIZE - 2
  nul : (0 : Byte) ∉ line
  reads : ReadsAs (trimSpace line) s

def ShellLineOk (line : List Byte) : Prop := ∃ s, ShellLine line s

def Setting.prompts? : Option Setting → Option (List Byte)
  | some (.prompts value) => some value
  | _ => none

def Setting.maxJob? : Option Setting → Option ℕ
  | some (.maxJob n) => some n
  | _ => none

def Setting.debug? : Option Setting → Option Bool
  | some (.debug on) => some on
  | _ => none

/-- The defaults, with the last setting of each kind. -/
def overridden (settings : List (Option Setting)) : MiniShellConfig where
  prompts := (settings.filterMap Setting.prompts?).getLast?.getD (text "MiniShell")
  maxJob := (settings.filterMap Setting.maxJob?).getLast?.getD 64
  debug := if (settings.filterMap Setting.debug?).getLast?.getD false then 1 else 0

/-- The result for a file with these bytes; `before` is `*configs` before. -/
structure ExactLoad (bytes : List Byte) (before : MiniShellConfig) (r : ℤ × MiniShellConfig) : Prop where
  ok : r.1 = MiniShell_OK ↔ ∀ line ∈ fileLines bytes, ShellLineOk line
  loaded : ∀ settings, List.Forall₂ ShellLine (fileLines bytes) settings → r.2 = overridden settings
  failed : ¬ (∀ line ∈ fileLines bytes, ShellLineOk line) → r.2 = before

/-! ### One line -/

section Line

variable {v : List Byte} {configs : MiniShellConfig}

/-- Set what a line sets. -/
def Setting.apply (configs : MiniShellConfig) : Option Setting → MiniShellConfig
  | none => configs
  | some (.prompts value) => { configs with prompts := value }
  | some (.maxJob n) => { configs with maxJob := n }
  | some (.debug on) => { configs with debug := if on then 1 else 0 }

/-- A number is read to its end. -/
theorem strtol_decimal {n : ℕ} (h : IsDecimal v n) (hmax : (n : ℤ) ≤ INT_MAX) : strtol v = ⟨n, [], false⟩ := by
  obtain ⟨digits, hne, hall, hv, rfl⟩ := h
  have hlong : (numberOf digits : ℤ) ≤ LONG_MAX := by
    unfold LONG_MAX
    unfold INT_MAX at hmax
    omega
  unfold strtol
  rcases hv with rfl | rfl
  · obtain ⟨c, ds, rfl⟩ := List.exists_cons_of_ne_nil hne
    rw [strtolSign_digit (hall c List.mem_cons_self)]
    exact strtolDigits_all hne hall hlong
  · have hsign : strtolSign ('+'.toUInt8 :: digits) = (false, digits) := rfl
    rw [hsign]
    exact strtolDigits_all hne hall hlong

/-- The checks that are made of what `strtol` leaves. -/
structure GoodNumber (v : List Byte) : Prop where
  erange : (strtol v).erange = false
  some_digit : (strtol v).rest ≠ v
  whole : (strtol v).rest = []
  positive : 0 < (strtol v).number
  small : (strtol v).number ≤ INT_MAX

/-- What passes the checks is a number. -/
theorem decimal_of_good (hspace : v.dropWhile isspace = v) (h : GoodNumber v) :
    ∃ n : ℕ, IsDecimal v n ∧ (strtol v).number = n := by
  obtain ⟨herange, hsome, hwhole, hpos, -⟩ := h
  unfold strtol strtolDigits at herange hsome hwhole hpos ⊢
  by_cases hnone : (strtolSign v).2.takeWhile isdigit = []
  · rw [if_pos hnone] at hsome
    exact absurd rfl hsome
  rw [if_neg hnone] at herange hsome hwhole hpos ⊢
  cases hnegative : (strtolSign v).1 with
  | true =>
    rw [hnegative] at hpos
    unfold strtolValue at hpos
    rw [if_pos rfl] at hpos
    split_ifs at hpos <;> dsimp only at hpos
    · exact absurd hpos (by decide)
    · omega
  | false =>
    rw [hnegative] at herange hwhole
    unfold strtolValue at herange hwhole ⊢
    rw [if_neg (by decide)] at herange hwhole ⊢
    by_cases hbig : (numberOf ((strtolSign v).2.takeWhile isdigit) : ℤ) > LONG_MAX
    · rw [if_pos hbig] at herange
      cases herange
    rw [if_neg hbig] at hwhole ⊢
    have hall : ∀ c ∈ (strtolSign v).2, isdigit c = true := List.dropWhile_eq_nil_iff.mp hwhole
    have htake : (strtolSign v).2.takeWhile isdigit = (strtolSign v).2 := List.takeWhile_eq_self_iff.mpr hall
    rw [htake] at hnone ⊢
    refine ⟨_, ⟨(strtolSign v).2, hnone, hall, ?_, rfl⟩, rfl⟩
    unfold strtolSign at hnegative ⊢
    rw [hspace] at hnegative ⊢
    cases v with
    | nil => exact .inl rfl
    | cons c t =>
      dsimp only at hnegative ⊢
      split_ifs at hnegative ⊢ with hminus hplus
      · exact .inr (by rw [hplus])
      · exact .inl rfl

theorem good_of_decimal {n : ℕ} (h : IsDecimal v n) (hpos : 1 ≤ n) (hmax : (n : ℤ) ≤ INT_MAX) : GoodNumber v := by
  have hne : v ≠ [] := by
    obtain ⟨digits, hne, -, hv, -⟩ := h
    rcases hv with rfl | rfl
    · exact hne
    · exact List.cons_ne_nil _ _
  have heq := strtol_decimal h hmax
  refine ⟨?_, ?_, ?_, ?_, ?_⟩
  · rw [heq]
  · rw [heq]
    exact hne.symm
  · rw [heq]
  · rw [heq]
    dsimp only
    omega
  · rw [heq]
    exact hmax

/-- A trimmed line begins with no blank. -/
theorem trimSpace_head (text : List Byte) : (trimSpace text).dropWhile isspace = trimSpace text := by
  have hprefix : trimSpace text <+: text.dropWhile isspace := List.rdropWhile_prefix _ _
  cases htrim : trimSpace text with
  | nil => rfl
  | cons c t =>
    rw [htrim] at hprefix
    obtain ⟨rest, hrest⟩ := hprefix
    have hc : isspace c = false := dropWhile_head c (by rw [← hrest]; rfl)
    exact List.dropWhile_cons_of_neg (by rw [hc]; decide)

theorem mem_dropWhile_space {c : Byte} {l : List Byte} (hc : c ∈ l) (hspace : isspace c = false) :
    c ∈ l.dropWhile isspace := by
  rw [← List.takeWhile_append_dropWhile (p := isspace) (l := l)] at hc
  rcases List.mem_append.mp hc with hc | hc
  · rw [List.mem_takeWhile_imp hc] at hspace
    cases hspace
  · exact hc

/-- Only blanks are trimmed. -/
theorem mem_trimSpace {c : Byte} {l : List Byte} (hc : c ∈ l) (hspace : isspace c = false) : c ∈ trimSpace l := by
  have hdrop := mem_dropWhile_space hc hspace
  unfold trimSpace configTrim List.rdropWhile
  rw [List.mem_reverse]
  exact mem_dropWhile_space (List.mem_reverse.mpr hdrop) hspace

/-- What a key sets, as `config_parse_line` does it. -/
def configSet (key value : List Byte) (configs : MiniShellConfig) : Option MiniShellConfig :=
  if key = [] then none
  else if key = text "prompts" then
    if value = [] ∨ value.length ≥ PROMPTS_SIZE then none else some { configs with prompts := value }
  else if key = text "max_job" then
    let r := strtol value
    if r.erange ∨ r.rest = value ∨ r.rest ≠ [] ∨ r.number ≤ 0 ∨ r.number > INT_MAX then none
    else some { configs with maxJob := r.number }
  else if key = text "debug" then
    if value = text "0" then some { configs with debug := 0 }
    else if value = text "1" then some { configs with debug := 1 }
    else none
  else none

theorem configSet_sets {key value : List Byte} {s : Setting} (h : Sets key value s) :
    configSet key value configs = some (Setting.apply configs (some s)) := by
  cases h with
  | prompts hne hlen =>
    unfold configSet
    rw [if_neg (by decide), if_pos rfl, if_neg (by rw [not_or]; exact ⟨hne, Nat.not_le.mpr hlen⟩)]
    rfl
  | maxJob h hpos hmax =>
    obtain ⟨herange, hsome, hwhole, hpositive, hsmall⟩ := good_of_decimal h hpos hmax
    have hgood : ¬ ((strtol value).erange = true ∨ (strtol value).rest = value ∨ (strtol value).rest ≠ [] ∨
        (strtol value).number ≤ 0 ∨ (strtol value).number > INT_MAX) := by
      rw [herange]
      push Not
      exact ⟨by decide, hsome, hwhole, hpositive, hsmall⟩
    unfold configSet
    rw [if_neg (by decide), if_neg (by decide), if_pos rfl]
    dsimp only
    rw [if_neg hgood, strtol_decimal h hmax]
    rfl
  | debug on =>
    cases on <;> rfl

theorem sets_of_configSet {key value : List Byte} (hspace : value.dropWhile isspace = value) {c : MiniShellConfig}
    (h : configSet key value configs = some c) : ∃ s, Sets key value s := by
  unfold configSet at h
  split_ifs at h with hempty hprompts hbad hjob hdebug hzero hone
  · subst hprompts
    rw [not_or] at hbad
    exact ⟨_, .prompts hbad.1 (Nat.lt_of_not_ge hbad.2)⟩
  · subst hjob
    dsimp only at h
    split_ifs at h with hbad
    simp only [not_or, not_not, not_le, not_lt, gt_iff_lt, Bool.not_eq_true] at hbad
    obtain ⟨herange, hsome, hwhole, hpos, hsmall⟩ := hbad
    obtain ⟨n, hdecimal, hn⟩ := decimal_of_good hspace ⟨herange, hsome, hwhole, hpos, hsmall⟩
    rw [hn] at hpos hsmall
    exact ⟨_, .maxJob hdecimal (by omega) hsmall⟩
  · subst hdebug hzero
    exact ⟨_, .debug false⟩
  · subst hdebug hone
    exact ⟨_, .debug true⟩

/-- A line does what it reads as, and one that reads as nothing is refused. -/
theorem configParseLine_reads (line : List Byte) (configs c : MiniShellConfig) :
    configParseLine line configs = some c ↔ ∃ s, ReadsAs (trimSpace line) s ∧ c = Setting.apply configs s := by
  unfold configParseLine
  generalize trimSpace line = t
  dsimp only
  constructor
  · intro h
    by_cases hblank : t = [] ∨ t.headD 0 = '#'.toUInt8
    · rw [if_pos hblank] at h
      obtain rfl := Option.some.inj h
      refine ⟨none, ?_, rfl⟩
      cases t with
      | nil => exact .blank
      | cons d t =>
        obtain rfl : d = '#'.toUInt8 := hblank.resolve_left (List.cons_ne_nil _ _)
        exact .comment
    rw [if_neg hblank] at h
    cases hdrop : t.dropWhile (· ≠ '='.toUInt8) with
    | nil =>
      rw [hdrop] at h
      cases h
    | cons d after =>
      rw [hdrop] at h
      have hset : configSet (trimSpace (t.takeWhile (· ≠ '='.toUInt8))) (trimSpace after) configs = some c := h
      obtain rfl : d = '='.toUInt8 := dropWhile_ne_head hdrop
      obtain ⟨s, hs⟩ := sets_of_configSet (trimSpace_head after) hset
      have hkey : '='.toUInt8 ∉ t.takeWhile (· ≠ '='.toUInt8) := by
        intro hmem
        have hne := List.mem_takeWhile_imp hmem
        exact absurd rfl (of_decide_eq_true hne)
      have hreads := ReadsAs.sets hkey hs
      rw [← hdrop, List.takeWhile_append_dropWhile] at hreads
      refine ⟨some s, hreads, ?_⟩
      rw [configSet_sets hs] at hset
      exact (Option.some.inj hset).symm
  · rintro ⟨s, hreads, rfl⟩
    cases hreads with
    | blank => rfl
    | comment => rfl
    | @sets key value s hkey hs =>
      have hfirst : ¬ (key ++ '='.toUInt8 :: value = [] ∨ (key ++ '='.toUInt8 :: value).headD 0 = '#'.toUInt8) := by
        rintro (hnil | hhash)
        · exact absurd hnil (by simp)
        · cases key with
          | nil =>
            have hequal : '='.toUInt8 = '#'.toUInt8 := hhash
            exact absurd hequal (by decide)
          | cons d key =>
            obtain rfl : d = '#'.toUInt8 := hhash
            have hmem : '#'.toUInt8 ∈ trimSpace ('#'.toUInt8 :: key) := mem_trimSpace List.mem_cons_self (by decide)
            generalize trimSpace ('#'.toUInt8 :: key) = k at hs hmem
            generalize trimSpace value = v at hs
            cases hs with
            | prompts | maxJob | debug => exact absurd hmem (by decide)
      obtain ⟨htake, hdrop⟩ := takeWhile_ne_append (r := value) hkey
      rw [if_neg hfirst, htake, hdrop]
      exact configSet_sets hs

end Line

/-! ### Pieces and lines -/

section Pieces

variable {bytes line rest : List Byte} {configs : MiniShellConfig}

/-- A line feed at the end is trimmed. -/
theorem trimSpace_lf (l : List Byte) : trimSpace (l ++ [LF]) = trimSpace l := by
  have hlf : isspace LF = true := by decide
  unfold trimSpace configTrim
  by_cases hall : ∀ c ∈ l, isspace c = true
  · have hnil : l.dropWhile isspace = [] := List.dropWhile_eq_nil_iff.mpr hall
    rw [List.dropWhile_append_of_pos hall, hnil, List.dropWhile_cons_of_pos hlf]
    rfl
  · have hne : l.dropWhile isspace ≠ [] := fun hnil => hall (List.dropWhile_eq_nil_iff.mp hnil)
    have happend : (l ++ [LF]).dropWhile isspace = l.dropWhile isspace ++ [LF] := by
      rw [List.dropWhile_append, if_neg]
      rwa [List.isEmpty_iff]
    rw [happend, List.rdropWhile_concat_pos _ _ _ hlf]

theorem configParseLine_lf (l : List Byte) : configParseLine (l ++ [LF]) configs = configParseLine l configs := by
  unfold configParseLine
  rw [trimSpace_lf]

/-- A line that ends and fits. -/
theorem fgets_ended : ∀ {n : ℕ} {l : List Byte} (rest : List Byte), LF ∉ l → l.length < n →
    fgets n (l ++ LF :: rest) = ⟨l ++ [LF], rest, false⟩
  | 0, l, _, _, hlen => absurd hlen (Nat.not_lt_zero _)
  | n + 1, [], rest, _, _ => by
    unfold fgets
    rw [List.nil_append]
    dsimp only
    rw [if_pos rfl]
    rfl
  | n + 1, c :: l, rest, hlf, hlen => by
    rw [List.mem_cons, not_or] at hlf
    rw [List.cons_append]
    unfold fgets
    rw [if_neg (Ne.symm hlf.1), fgets_ended rest hlf.2 (Nat.lt_of_succ_lt_succ hlen)]
    rfl

/-- A last line that does not end and fits. -/
theorem fgets_last : ∀ {n : ℕ} {l : List Byte}, LF ∉ l → l.length < n → fgets n l = ⟨l, [], true⟩
  | 0, l, _, hlen => absurd hlen (Nat.not_lt_zero _)
  | n + 1, [], _, _ => rfl
  | n + 1, c :: l, hlf, hlen => by
    rw [List.mem_cons, not_or] at hlf
    unfold fgets
    rw [if_neg (Ne.symm hlf.1), fgets_last hlf.2 (Nat.lt_of_succ_lt_succ hlen)]

/-- The beginning of a line that does not fit. -/
theorem fgets_full : ∀ {n : ℕ} {l : List Byte} (rest : List Byte), LF ∉ l → n ≤ l.length →
    (fgets n (l ++ rest)).line = l.take n ∧ (fgets n (l ++ rest)).eof = false
  | 0, l, rest, _, _ => ⟨by rw [List.take_zero]; rfl, rfl⟩
  | n + 1, [], _, _, hlen => absurd hlen (Nat.not_succ_le_zero _)
  | n + 1, c :: l, rest, hlf, hlen => by
    rw [List.mem_cons, not_or] at hlf
    obtain ⟨hline, heof⟩ := fgets_full rest hlf.2 (Nat.le_of_succ_le_succ hlen)
    rw [List.cons_append]
    unfold fgets
    rw [if_neg (Ne.symm hlf.1), List.take_succ_cons]
    exact ⟨congrArg (c :: ·) hline, heof⟩

theorem configPieces_nil (readError : Bool) (configs : MiniShellConfig) :
    configPieces readError [] configs = some configs := by
  unfold configPieces
  rw [dif_pos rfl]

/-- One piece, then the rest. -/
theorem configPieces_piece (h : bytes ≠ []) (configs : MiniShellConfig) :
    configPieces false bytes configs =
      (configPiece (fgets (CONFIG_LINE_SIZE - 1) bytes) configs).bind
        (configPieces false (fgets (CONFIG_LINE_SIZE - 1) bytes).rest) := by
  rw [configPieces, dif_neg h, if_neg (by simp)]
  cases configPiece (fgets (CONFIG_LINE_SIZE - 1) bytes) configs with
  | none => rfl
  | some c => rfl

/-- A piece is looked at as a string. -/
theorem configPiece_cstr {piece : Fgets} (hline : cstr piece.line = line)
    (hend : line = [] ∨ line.getLast? = some LF ∨ piece.eof = true) :
    configPiece piece configs = configParseLine line configs := by
  unfold configPiece
  rw [hline, if_neg]
  rintro ⟨hlen, hlf, heof⟩
  rcases hend with rfl | hend | hend
  · exact absurd hlen (Nat.lt_irrefl 0)
  · exact hlf hend
  · rw [hend] at heof
    cases heof

/-- A string that is no whole line is refused. -/
theorem configPiece_cut {piece : Fgets} (hline : cstr piece.line = line) (hne : line ≠ [])
    (hlf : line.getLast? ≠ some LF) (heof : piece.eof = false) : configPiece piece configs = none := by
  unfold configPiece
  rw [hline, heof]
  exact if_pos ⟨List.length_pos_iff.mpr hne, hlf, rfl⟩

/-- What the first line of a file without a NUL does. -/
theorem configPieces_line (h : bytes ≠ []) (hnul : (0 : Byte) ∉ bytes) :
    ∃ l rest, fileLines bytes = l :: fileLines rest ∧ rest.length < bytes.length ∧ (∀ c ∈ rest, c ∈ bytes) ∧
      (0 : Byte) ∉ l ∧
      (l.length ≤ CONFIG_LINE_SIZE - 2 → ∀ configs,
        configPieces false bytes configs = (configParseLine l configs).bind (configPieces false rest)) ∧
      (¬ l.length ≤ CONFIG_LINE_SIZE - 2 → ∀ configs, configPieces false bytes configs = none) := by
  have hsplit := List.takeWhile_append_dropWhile (p := (· ≠ LF)) (l := bytes)
  have hlf : LF ∉ bytes.takeWhile (· ≠ LF) := by
    intro hmem
    have hne := List.mem_takeWhile_imp hmem
    exact absurd rfl (of_decide_eq_true hne)
  have hl : (0 : Byte) ∉ bytes.takeWhile (· ≠ LF) := fun hmem => hnul ((List.takeWhile_prefix _).subset hmem)
  -- a line that does not fit is cut by `fgets`, whatever comes after it
  have hfull : ¬ (bytes.takeWhile (· ≠ LF)).length ≤ CONFIG_LINE_SIZE - 2 → ∀ configs,
      configPieces false bytes configs = none := by
    intro hlen configs
    obtain ⟨hline, heof⟩ := fgets_full (n := CONFIG_LINE_SIZE - 1) (bytes.dropWhile (· ≠ LF)) hlf
      (by unfold CONFIG_LINE_SIZE at hlen ⊢; omega)
    rw [hsplit] at hline heof
    have htake : ∀ c ∈ (bytes.takeWhile (· ≠ LF)).take (CONFIG_LINE_SIZE - 1), c ∈ bytes.takeWhile (· ≠ LF) :=
      fun c hc => List.mem_of_mem_take hc
    have hcstr : cstr (fgets (CONFIG_LINE_SIZE - 1) bytes).line =
        (bytes.takeWhile (· ≠ LF)).take (CONFIG_LINE_SIZE - 1) := by
      rw [hline]
      exact cstr_line fun hmem => hl (htake 0 hmem)
    have hne : (bytes.takeWhile (· ≠ LF)).take (CONFIG_LINE_SIZE - 1) ≠ [] := by
      rw [← List.length_pos_iff, List.length_take]
      unfold CONFIG_LINE_SIZE at hlen ⊢
      omega
    have hlast : ((bytes.takeWhile (· ≠ LF)).take (CONFIG_LINE_SIZE - 1)).getLast? ≠ some LF :=
      fun hlast => hlf (htake LF (List.mem_of_getLast? hlast))
    rw [configPieces_piece h, configPiece_cut hcstr hne hlast heof]
    rfl
  cases hdrop : bytes.dropWhile (· ≠ LF) with
  | nil =>
    rw [hdrop, List.append_nil] at hsplit
    rw [hsplit] at hlf hl hfull
    refine ⟨bytes, [], fileLines_nonempty hlf h, List.length_pos_iff.mpr h, List.forall_mem_nil _, hl, ?_,
      hfull⟩
    intro hlen configs
    rw [configPieces_piece h, fgets_last hlf (by unfold CONFIG_LINE_SIZE at hlen ⊢; omega),
      configPiece_cstr (cstr_line hl) (.inr (.inr rfl))]
  | cons c rest =>
    obtain rfl : c = LF := dropWhile_ne_head hdrop
    rw [hdrop] at hsplit
    generalize bytes.takeWhile (· ≠ LF) = l at hsplit hlf hl hfull
    subst hsplit
    refine ⟨l, rest, fileLines_append rest hlf, ?_, ?_, hl, ?_, hfull⟩
    · rw [List.length_append, List.length_cons]
      omega
    · intro c hc
      exact List.mem_append_right _ (List.mem_cons_of_mem _ hc)
    · intro hlen configs
      have hline : (0 : Byte) ∉ l ++ [LF] := by
        rw [List.mem_append, not_or]
        exact ⟨hl, by decide⟩
      have hend : (l ++ [LF]).getLast? = some LF := List.getLast?_concat
      rw [configPieces_piece h, fgets_ended rest hlf (by unfold CONFIG_LINE_SIZE at hlen ⊢; omega),
        configPiece_cstr (cstr_line hline) (.inr (.inl hend)), configParseLine_lf]

/-- A file without a NUL is read line by line. -/
theorem configPieces_lines : ∀ {bytes : List Byte} (_ : (0 : Byte) ∉ bytes) (configs c : MiniShellConfig),
    configPieces false bytes configs = some c ↔
      ∃ settings, List.Forall₂ ShellLine (fileLines bytes) settings ∧ c = settings.foldl Setting.apply configs := by
  intro bytes
  induction hn : bytes.length using Nat.strong_induction_on generalizing bytes with
  | _ n ih =>
    subst hn
    intro hnul configs c
    by_cases hnil : bytes = []
    · subst hnil
      rw [configPieces_nil]
      constructor
      · intro h
        exact ⟨[], .nil, (Option.some.inj h).symm⟩
      · rintro ⟨settings, hall, rfl⟩
        cases hall
        rfl
    obtain ⟨l, rest, hlines, hlt, hmem, hl, hfits, hfull⟩ := configPieces_line hnil hnul
    have ihrest := ih _ hlt rfl fun hc => hnul (hmem 0 hc)
    rw [hlines]
    by_cases hlen : l.length ≤ CONFIG_LINE_SIZE - 2
    · rw [hfits hlen, Option.bind_eq_some_iff]
      constructor
      · rintro ⟨c₁, hparse, htail⟩
        obtain ⟨s, hreads, rfl⟩ := (configParseLine_reads l configs c₁).mp hparse
        obtain ⟨settings, hall, rfl⟩ := (ihrest _ c).mp htail
        exact ⟨s :: settings, .cons ⟨hlen, hl, hreads⟩ hall, rfl⟩
      · rintro ⟨settings, hall, rfl⟩
        cases hall with
        | @cons _ s _ settings hline hall =>
          refine ⟨Setting.apply configs s, ?_, (ihrest _ _).mpr ⟨settings, hall, rfl⟩⟩
          exact (configParseLine_reads l configs _).mpr ⟨s, hline.reads, rfl⟩
    · rw [hfull hlen]
      constructor
      · intro h
        cases h
      · rintro ⟨settings, hall, -⟩
        cases hall with
        | cons hline hall => exact absurd hline.length hlen

end Pieces

/-! ### What a NUL hides -/

/-- The pieces of a file. -/
def pieces (bytes : List Byte) : List Fgets :=
  if _h : bytes = [] then []
  else fgets (CONFIG_LINE_SIZE - 1) bytes :: pieces (fgets (CONFIG_LINE_SIZE - 1) bytes).rest
termination_by bytes.length
decreasing_by exact fgets_shorter _h

/-- What stands before the first NUL of a piece is a line or nothing, and reads
as something. -/
structure Tolerated (piece : Fgets) : Prop where
  whole : cstr piece.line = [] ∨ (cstr piece.line).getLast? = some LF ∨ piece.eof = true
  reads : ∃ s, ReadsAs (trimSpace (cstr piece.line)) s

/-- A file with a NUL that is taken for one without. -/
structure Mistaken (bytes : List Byte) : Prop where
  nul : (0 : Byte) ∈ bytes
  tolerated : ∀ piece ∈ pieces bytes, Tolerated piece

section Tolerated

variable {bytes : List Byte}

theorem configPiece_tolerated (piece : Fgets) (configs : MiniShellConfig) :
    (∃ c, configPiece piece configs = some c) ↔ Tolerated piece := by
  by_cases hwhole : cstr piece.line = [] ∨ (cstr piece.line).getLast? = some LF ∨ piece.eof = true
  · rw [configPiece_cstr rfl hwhole]
    constructor
    · rintro ⟨c, hc⟩
      obtain ⟨s, hreads, -⟩ := (configParseLine_reads _ _ _).mp hc
      exact ⟨hwhole, s, hreads⟩
    · rintro ⟨-, s, hreads⟩
      exact ⟨_, (configParseLine_reads _ _ _).mpr ⟨s, hreads, rfl⟩⟩
  · have hcut := hwhole
    rw [not_or, not_or, Bool.not_eq_true] at hcut
    rw [configPiece_cut rfl hcut.1 hcut.2.1 hcut.2.2]
    constructor
    · rintro ⟨c, hc⟩
      cases hc
    · intro h
      exact absurd h.whole hwhole

/-- A file is loaded when each piece is tolerated. -/
theorem configPieces_tolerated (bytes : List Byte) : ∀ configs,
    (∃ c, configPieces false bytes configs = some c) ↔ ∀ piece ∈ pieces bytes, Tolerated piece := by
  induction hn : bytes.length using Nat.strong_induction_on generalizing bytes with
  | _ n ih =>
    subst hn
    intro configs
    unfold pieces
    by_cases hnil : bytes = []
    · subst hnil
      rw [dif_pos rfl]
      exact ⟨fun _ piece hpiece => (nomatch hpiece), fun _ => ⟨configs, configPieces_nil false configs⟩⟩
    have ihrest := ih _ (fgets_shorter (n := CONFIG_LINE_SIZE - 2) hnil) _ rfl
    rw [dif_neg hnil, configPieces_piece hnil, List.forall_mem_cons]
    constructor
    · rintro ⟨c, hc⟩
      obtain ⟨c₁, hpiece, hrest⟩ := Option.bind_eq_some_iff.mp hc
      exact ⟨(configPiece_tolerated _ configs).mp ⟨c₁, hpiece⟩, (ihrest c₁).mp ⟨c, hrest⟩⟩
    · rintro ⟨hpiece, hrest⟩
      obtain ⟨c₁, hc₁⟩ := (configPiece_tolerated _ configs).mpr hpiece
      obtain ⟨c, hc⟩ := (ihrest c₁).mpr hrest
      exact ⟨c, Option.bind_eq_some_iff.mpr ⟨c₁, hc₁, hc⟩⟩

/-- A NUL is in some line. -/
theorem nul_not_ok (hnul : (0 : Byte) ∈ bytes) : ¬ ∀ line ∈ fileLines bytes, ShellLineOk line := by
  intro hall
  obtain ⟨l, hl, hmem⟩ := mem_fileLines (by decide) hnul
  obtain ⟨s, hline⟩ := hall l hl
  exact hline.nul hmem

end Tolerated

/-! ### The loader -/

section Loader

variable {bytes : List Byte}

/-- The setting of each kind that counts is the last one. -/
theorem overridden_snoc (settings : List (Option Setting)) (s : Option Setting) :
    overridden (settings ++ [s]) = Setting.apply (overridden settings) s := by
  unfold overridden Setting.apply
  rw [List.filterMap_append, List.filterMap_append, List.filterMap_append]
  match s with
  | none => simp [Setting.prompts?, Setting.maxJob?, Setting.debug?]
  | some (.prompts value) => simp [Setting.prompts?, Setting.maxJob?, Setting.debug?]
  | some (.maxJob n) => simp [Setting.prompts?, Setting.maxJob?, Setting.debug?]
  | some (.debug on) => simp [Setting.prompts?, Setting.maxJob?, Setting.debug?]

theorem foldl_apply (settings : List (Option Setting)) :
    settings.foldl Setting.apply configInit = overridden settings := by
  induction settings using List.reverseRecOn with
  | nil => rfl
  | append_singleton settings s ih =>
    rw [List.foldl_append, ih, overridden_snoc]
    rfl

/-- What is loaded from lines that are right. -/
theorem overridden_eq {settings : List (Option Setting)} (hnul : (0 : Byte) ∉ bytes)
    (h : List.Forall₂ ShellLine (fileLines bytes) settings) :
    configPieces false bytes configInit = some (overridden settings) :=
  (configPieces_lines hnul configInit _).mpr ⟨settings, h, (foldl_apply settings).symm⟩

theorem shellLines_iff :
    (∀ line ∈ fileLines bytes, ShellLineOk line) ↔ ∃ settings, List.Forall₂ ShellLine (fileLines bytes) settings := by
  generalize fileLines bytes = lines
  induction lines with
  | nil => exact ⟨fun _ => ⟨[], .nil⟩, fun _ line hline => (nomatch hline)⟩
  | cons l lines ih =>
    rw [List.forall_mem_cons, ih]
    constructor
    · rintro ⟨⟨s, hs⟩, settings, hall⟩
      exact ⟨s :: settings, .cons hs hall⟩
    · rintro ⟨settings, hall⟩
      cases hall with
      | cons hs hall => exact ⟨⟨_, hs⟩, _, hall⟩

/-- A file that is read and closed without an error. -/
def onlyFile (bytes : List Byte) : List Byte → Except ℕ ConfigFile := fun _ => .ok ⟨bytes, false, none⟩

theorem configLoad_refused (before : MiniShellConfig) (filename : List Byte)
    (h : configPieces false bytes configInit = none) :
    configLoad (onlyFile bytes) before filename = (MiniShell_ERR_PARSE, before) := by
  unfold configLoad onlyFile
  dsimp only
  rw [h]

theorem configLoad_loaded (before : MiniShellConfig) (filename : List Byte) {c : MiniShellConfig}
    (h : configPieces false bytes configInit = some c) :
    configLoad (onlyFile bytes) before filename = (MiniShell_OK, c) := by
  unfold configLoad onlyFile
  dsimp only
  rw [h]
  rfl

/-- A refused file is as it should be when a line is not right. -/
theorem exactLoad_refused {before : MiniShellConfig} (h : ¬ ∀ line ∈ fileLines bytes, ShellLineOk line) :
    ExactLoad bytes before (MiniShell_ERR_PARSE, before) := by
  refine ⟨?_, ?_, fun _ => rfl⟩
  · constructor
    · intro hok
      have hne : MiniShell_ERR_PARSE ≠ MiniShell_OK := by decide
      exact absurd hok hne
    · intro hall
      exact absurd hall h
  · intro settings hall
    exact absurd (shellLines_iff.mpr ⟨settings, hall⟩) h

/-- Loading is exact, and transactional, unless the file is mistaken for one
without a NUL. -/
theorem shell_config_exact (bytes filename : List Byte) (before : MiniShellConfig) :
    ExactLoad bytes before (configLoad (onlyFile bytes) before filename) ↔ ¬ Mistaken bytes := by
  by_cases hnul : (0 : Byte) ∈ bytes
  · have hbad := nul_not_ok hnul
    have hmistaken : Mistaken bytes ↔ ∃ c, configPieces false bytes configInit = some c := by
      rw [configPieces_tolerated]
      exact ⟨Mistaken.tolerated, fun h => ⟨hnul, h⟩⟩
    cases hload : configPieces false bytes configInit with
    | none =>
      rw [configLoad_refused before filename hload, hmistaken, hload]
      refine ⟨fun _ ⟨c, hc⟩ => (nomatch hc), fun _ => exactLoad_refused hbad⟩
    | some c =>
      rw [configLoad_loaded before filename hload, hmistaken, hload]
      constructor
      · intro hexact
        exact absurd (hexact.ok.mp rfl) hbad
      · intro hnone
        exact absurd ⟨c, rfl⟩ hnone
  · have hright : ¬ Mistaken bytes := fun h => hnul h.nul
    refine ⟨fun _ => hright, fun _ => ?_⟩
    by_cases hall : ∀ line ∈ fileLines bytes, ShellLineOk line
    · obtain ⟨settings, hsettings⟩ := shellLines_iff.mp hall
      rw [configLoad_loaded before filename (overridden_eq hnul hsettings)]
      refine ⟨⟨fun _ => hall, fun _ => rfl⟩, ?_, fun hnot => absurd hall hnot⟩
      intro others hothers
      have hsame := (overridden_eq hnul hsettings).symm.trans (overridden_eq hnul hothers)
      exact Option.some.inj hsame
    · have hload : configPieces false bytes configInit = none := by
        by_contra hsome
        obtain ⟨c, hc⟩ := Option.ne_none_iff_exists'.mp hsome
        obtain ⟨settings, hsettings, -⟩ := (configPieces_lines hnul configInit c).mp hc
        exact hall (shellLines_iff.mpr ⟨settings, hsettings⟩)
      rw [configLoad_refused before filename hload]
      exact exactLoad_refused hall

/-- A NUL before a line that is not right: the file is loaded. -/
theorem shell_config_nul : ∃ bytes, ∀ filename before,
    ¬ ExactLoad bytes before (configLoad (onlyFile bytes) before filename) := by
  refine ⟨[0, 'x'.toUInt8, LF], fun filename before hexact => ?_⟩
  have hload : configPieces false [0, 'x'.toUInt8, LF] configInit = some configInit := by
    rw [configPieces_piece (by decide)]
    exact configPieces_nil false configInit
  rw [configLoad_loaded before filename hload] at hexact
  exact nul_not_ok (by decide) (hexact.ok.mp rfl)

end Loader

end DeviceRuntime
