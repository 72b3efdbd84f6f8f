/-
# The tokens of a line

How the tokens lie in the line that was cut into them (`Layout`): blanks
between them, each a word or an operator, as long as it can be. A line has one
layout, and `tokenize` without its limits finds it (`layout_iff`). With the
limits it pushes the same tokens one after the other until one of them does not
fit (`pushTokens_eq`).

Key definitions: `TokenOk`, `Layout`, `unlimited`, `pushTokens`, `Canonical`.
Key theorems: `nextToken_gap`, `nextToken_token`, `layout_iff`,
`pushTokens_eq`, `Layout.spaced`, `tokenize_canonical`.
-/
import DeviceRuntime.Parser

namespace DeviceRuntime

/-! ### Layouts -/

/-- The text of an operator. -/
def TokenType.operator : TokenType → List Byte
  | .word => []
  | .redirectOut => text ">"
  | .redirectAppend => text ">>"
  | .redirectIn => text "<"
  | .pipe => text "|"
  | .background => text "&"

structure TokenOk (t : Token) : Prop where
  nonempty : t.type = .word → t.text ≠ []
  word : t.type = .word → ∀ c ∈ t.text, isspace c = false ∧ isSpecial c = false
  operator : t.type ≠ .word → t.text = t.type.operator

def Blank (gap : List Byte) : Prop := ∀ c ∈ gap, isspace c = true

/-- The tokens in the order they have in the line. Between two words there is a
blank, and what looks like `>>` is no `>`. -/
inductive Layout : List Byte → List Token → Prop
  | nil {gap} (hgap : Blank gap) : Layout gap []
  | cons {gap t rest ts} (hgap : Blank gap) (ht : TokenOk t)
      (hword : t.type = .word → (∃ u ∈ ts.head?, u.type = .word) → ∃ c ∈ rest.head?, isspace c = true)
      (hout : t.type = .redirectOut → rest.head? ≠ some '>'.toUInt8) (h : Layout rest ts) :
      Layout (gap ++ (t.text ++ rest)) (t :: ts)

/-- `tokenize` without limits. -/
def unlimited (p : List Byte) : List Token :=
  match _h : nextToken p with
  | none => []
  | some (type, text, rest) => ⟨type, text⟩ :: unlimited rest
termination_by p.length
decreasing_by exact nextToken_length _h

/-- The list of `tokenize` as one token after the other is pushed. -/
def pushTokens (list : List Token) (ts : List Token) : Except TokenizeError (List Token) :=
  ts.foldlM (fun list t => tokenPush list t.type t.text) list

/-- What holds of the tokens of a line. -/
structure Canonical (line : List Byte) (list : List Token) : Prop where
  lossless : list.flatMap Token.text = line.filter fun c => !isspace c
  tokens : ∀ t ∈ list, TokenOk t
  short : ∀ t ∈ list, t.type = .word → t.text.length < TOKEN_SIZE
  layout : Layout line list
  again : tokenize (List.intercalate (text " ") (list.map Token.text)) = .ok list

/-! ### The next token -/

section Next

variable {p gap rest : List Byte} {t : Token}

/-- The token cannot be made longer by what follows it. -/
structure Longest (t : Token) (rest : List Byte) : Prop where
  word : t.type = .word → ∀ c ∈ rest.head?, inWord c = false
  out : t.type = .redirectOut → rest.head? ≠ some '>'.toUInt8

theorem nextToken_gap (hgap : Blank gap) (p : List Byte) : nextToken (gap ++ p) = nextToken p := by
  unfold nextToken
  rw [List.dropWhile_append_of_pos hgap]

theorem nextToken_blank (hgap : Blank gap) : nextToken gap = none := by
  have hnil : gap.dropWhile isspace = [] := List.dropWhile_eq_nil_iff.mpr hgap
  unfold nextToken
  rw [hnil]

theorem inWord_iff {c : Byte} : inWord c = true ↔ isspace c = false ∧ isSpecial c = false := by
  simp [inWord]

/-- A word is found where it stands. -/
theorem nextToken_word {c : Byte} {word : List Byte} (hword : ∀ d ∈ c :: word, inWord d = true)
    (hstop : ∀ d ∈ rest.head?, inWord d = false) :
    nextToken (c :: word ++ rest) = some (.word, c :: word, rest) := by
  obtain ⟨hspace, hspecial⟩ := inWord_iff.mp (hword c List.mem_cons_self)
  have hin : ∀ d ∈ word, inWord d = true := fun d hd => hword d (List.mem_cons_of_mem _ hd)
  simp only [isSpecial, Bool.or_eq_false_iff, decide_eq_false_iff_not] at hspecial
  obtain ⟨⟨⟨hout, hinput⟩, hpipe⟩, hbackground⟩ := hspecial
  unfold nextToken
  rw [List.cons_append, List.dropWhile_cons_of_neg (by rw [hspace]; decide)]
  dsimp only
  rw [if_neg hout, if_neg hinput, if_neg hpipe, if_neg hbackground]
  rw [takeWhile_stop hin hstop, dropWhile_stop hin hstop]

/-- An operator is found where it stands. -/
theorem nextToken_operator {type : TokenType} (htype : type ≠ .word)
    (hout : type = .redirectOut → rest.head? ≠ some '>'.toUInt8) :
    nextToken (type.operator ++ rest) = some (type, type.operator, rest) := by
  cases type with
  | word => exact absurd rfl htype
  | redirectOut =>
    change nextToken ('>'.toUInt8 :: rest) = _
    unfold nextToken
    rw [List.dropWhile_cons_of_neg (by decide)]
    dsimp only
    rw [if_pos rfl, if_neg (hout rfl)]
    rfl
  | redirectAppend | redirectIn | pipe | background => rfl

/-- A token is found where it stands. -/
theorem nextToken_token (ht : TokenOk t) (hlongest : Longest t rest) :
    nextToken (t.text ++ rest) = some (t.type, t.text, rest) := by
  obtain ⟨type, txt⟩ := t
  by_cases htype : type = .word
  · subst htype
    obtain ⟨c, word, rfl⟩ := List.exists_cons_of_ne_nil (ht.nonempty rfl)
    exact nextToken_word (fun d hd => inWord_iff.mpr (ht.word rfl d hd)) (hlongest.word rfl)
  · obtain rfl : txt = type.operator := ht.operator htype
    exact nextToken_operator htype hlongest.out

/-- Where the next token stands. -/
structure Stands (p : List Byte) (t : Token) (rest : List Byte) : Prop where
  place : ∃ gap, Blank gap ∧ p = gap ++ (t.text ++ rest)
  ok : TokenOk t
  longest : Longest t rest

theorem nextToken_stands {type : TokenType} {txt : List Byte} (h : nextToken p = some (type, txt, rest)) :
    Stands p ⟨type, txt⟩ rest := by
  have hsplit : p = p.takeWhile isspace ++ p.dropWhile isspace := List.takeWhile_append_dropWhile.symm
  have hgap : Blank (p.takeWhile isspace) := fun c hc => List.mem_takeWhile_imp hc
  have hstands : ∀ {t : Token} {after : List Byte}, p.dropWhile isspace = t.text ++ after → TokenOk t →
      Longest t after → Stands p t after := fun hp hok hlongest => ⟨⟨_, hgap, hp ▸ hsplit⟩, hok, hlongest⟩
  have hoperator : ∀ {op : TokenType} {after : List Byte}, op ≠ .word → p.dropWhile isspace = op.operator ++ after →
      (op = .redirectOut → after.head? ≠ some '>'.toUInt8) → Stands p ⟨op, op.operator⟩ after :=
    fun hop hp hout => hstands hp ⟨fun h => absurd h hop, fun h => absurd h hop, fun _ => rfl⟩
      ⟨fun h => absurd h hop, hout⟩
  have hhead : ∀ c ∈ (p.dropWhile isspace).head?, isspace c = false := dropWhile_head
  unfold nextToken at h
  cases hp : p.dropWhile isspace with
  | nil => rw [hp] at h; cases h
  | cons c after =>
    rw [hp] at hhead
    simp only [hp] at h
    split_ifs at h with h1 h2 h3 h4 h5
    · obtain ⟨tail, rfl⟩ : ∃ tail, after = '>'.toUInt8 :: tail := List.head?_eq_some_iff.mp h2
      cases h
      exact hoperator (by decide) (by rw [hp, h1]; rfl) (fun h => absurd h (by decide))
    · cases h
      rw [h1] at hp ⊢
      exact hoperator (by decide) hp fun _ => h2
    · cases h
      rw [h3] at hp ⊢
      exact hoperator (by decide) hp fun h => absurd h (by decide)
    · cases h
      rw [h4] at hp ⊢
      exact hoperator (by decide) hp fun h => absurd h (by decide)
    · cases h
      rw [h5] at hp ⊢
      exact hoperator (by decide) hp fun h => absurd h (by decide)
    · cases h
      have hspecial : isSpecial c = false := by simp [isSpecial, h1, h3, h4, h5]
      refine hstands ?_ ⟨fun _ => List.cons_ne_nil _ _, fun _ d hd => ?_, fun h => absurd rfl h⟩
        ⟨fun _ => dropWhile_head, fun h => by cases h⟩
      · rw [hp, List.cons_append, List.takeWhile_append_dropWhile]
      · rcases List.mem_cons.mp hd with rfl | hd
        · exact ⟨hhead d rfl, hspecial⟩
        · exact inWord_iff.mp (List.mem_takeWhile_imp hd)

end Next

/-! ### The tokens of a line without limits -/

section Layouts

variable {p gap rest : List Byte} {t : Token} {ts : List Token}

theorem unlimited_none (h : nextToken p = none) : unlimited p = [] := by
  rw [unlimited]
  split
  · rfl
  · rename_i hsome
    rw [h] at hsome
    cases hsome

theorem unlimited_some {type : TokenType} {txt : List Byte} (h : nextToken p = some (type, txt, rest)) :
    unlimited p = ⟨type, txt⟩ :: unlimited rest := by
  rw [unlimited]
  split
  · rename_i hnone
    rw [h] at hnone
    cases hnone
  · rename_i hsome
    rw [h] at hsome
    cases hsome
    rfl

theorem blank_of_none (h : nextToken p = none) : Blank p := by
  have hnil : p.dropWhile isspace = [] := by
    unfold nextToken at h
    cases hp : p.dropWhile isspace with
    | nil => rfl
    | cons c after =>
      simp only [hp] at h
      split_ifs at h
  exact List.dropWhile_eq_nil_iff.mp hnil

theorem operator_head {type : TokenType} (htype : type ≠ .word) :
    ∃ c word, type.operator = c :: word ∧ isspace c = false ∧ isSpecial c = true := by
  cases type with
  | word => exact absurd rfl htype
  | redirectOut | redirectAppend | redirectIn | pipe | background => exact ⟨_, _, rfl, by decide +kernel, by decide +kernel⟩

theorem operator_no_blank (type : TokenType) : ∀ c ∈ type.operator, isspace c = false := by
  cases type <;> decide +kernel

/-- A token begins with no blank. -/
theorem TokenOk.head (ht : TokenOk t) : ∃ c word, t.text = c :: word ∧ isspace c = false ∧
    (t.type = .word → inWord c = true) ∧ (t.type ≠ .word → isSpecial c = true) := by
  by_cases htype : t.type = .word
  · obtain ⟨c, word, htext⟩ := List.exists_cons_of_ne_nil (ht.nonempty htype)
    have hc := ht.word htype c (by rw [htext]; exact List.mem_cons_self)
    exact ⟨c, word, htext, hc.1, fun _ => inWord_iff.mpr hc, fun h => absurd htype h⟩
  · obtain ⟨c, word, hoperator, hspace, hspecial⟩ := operator_head htype
    exact ⟨c, word, (ht.operator htype).trans hoperator, hspace, fun h => absurd h htype, fun _ => hspecial⟩

/-- What follows a token in a layout does not make it longer. -/
theorem Layout.longest
    (hword : t.type = .word → (∃ u ∈ ts.head?, u.type = .word) → ∃ c ∈ rest.head?, isspace c = true)
    (hout : t.type = .redirectOut → rest.head? ≠ some '>'.toUInt8) (h : Layout rest ts) : Longest t rest := by
  refine ⟨fun htype c hc => ?_, hout⟩
  have hspace : isspace c = true → inWord c = false := fun hc => by simp [inWord, hc]
  cases h with
  | nil hgap => exact hspace (hgap c (List.mem_of_mem_head? hc))
  | @cons gap u after us hgap hu _ _ _ =>
    obtain ⟨d, word, htext, -, -, hspecial⟩ := hu.head
    by_cases hutype : u.type = .word
    · obtain ⟨d, hd, hblank⟩ := hword htype ⟨u, rfl, hutype⟩
      obtain rfl : d = c := Option.some.inj (hd.symm.trans hc)
      exact hspace hblank
    · cases gap with
      | nil =>
        rw [htext] at hc
        obtain rfl : d = c := Option.some.inj hc
        simp [inWord, hspecial hutype]
      | cons b gap =>
        obtain rfl : b = c := Option.some.inj hc
        exact hspace (hgap b List.mem_cons_self)

theorem unlimited_of_layout (h : Layout p ts) : unlimited p = ts := by
  induction h with
  | nil hgap => exact unlimited_none (nextToken_blank hgap)
  | cons hgap ht hword hout h ih =>
    have hnext := nextToken_token ht (Layout.longest hword hout h)
    rw [unlimited_some ((nextToken_gap hgap _).trans hnext), ih]

/-- Between two words there is a blank. -/
theorem Longest.separated (hlongest : Longest t rest) (h : Layout rest ts) (htype : t.type = .word)
    (hnext : ∃ u ∈ ts.head?, u.type = .word) : ∃ c ∈ rest.head?, isspace c = true := by
  obtain ⟨u, hu, hutype⟩ := hnext
  cases h with
  | nil hgap => cases hu
  | @cons gap u' after us hgap hok _ _ _ =>
    obtain rfl : u' = u := Option.some.inj hu
    cases gap with
    | nil =>
      obtain ⟨d, word, htext, -, hin, -⟩ := hok.head
      have hstop := hlongest.word htype d (by rw [htext]; rfl)
      rw [hin hutype] at hstop
      cases hstop
    | cons b gap => exact ⟨b, rfl, hgap b List.mem_cons_self⟩

theorem layout_unlimited (p : List Byte) : Layout p (unlimited p) := by
  cases hnext : nextToken p with
  | none =>
    rw [unlimited_none hnext]
    exact .nil (blank_of_none hnext)
  | some x =>
    obtain ⟨type, txt, rest⟩ := x
    have hshorter : rest.length < p.length := nextToken_length hnext
    obtain ⟨⟨gap, hgap, hplace⟩, hok, hlongest⟩ := nextToken_stands hnext
    have hrest := layout_unlimited rest
    rw [unlimited_some hnext]
    have hlayout := Layout.cons hgap hok (hlongest.separated hrest) hlongest.out hrest
    rwa [← hplace] at hlayout
termination_by p.length

/-- A line has one layout, which `tokenize` without limits finds. -/
theorem layout_iff : Layout p ts ↔ ts = unlimited p :=
  ⟨fun h => (unlimited_of_layout h).symm, fun h => h ▸ layout_unlimited p⟩

theorem Layout.ok (h : Layout p ts) : ∀ t ∈ ts, TokenOk t := by
  induction h with
  | nil => exact fun t ht => absurd ht List.not_mem_nil
  | cons _ ht _ _ _ ih =>
    intro u hu
    rcases List.mem_cons.mp hu with rfl | hu
    · exact ht
    · exact ih u hu

theorem TokenOk.no_blank (ht : TokenOk t) : ∀ c ∈ t.text, isspace c = false := by
  by_cases htype : t.type = .word
  · exact fun c hc => (ht.word htype c hc).1
  · rw [ht.operator htype]
    exact operator_no_blank t.type

/-- The tokens are the line without its blanks. -/
theorem Layout.lossless (h : Layout p ts) : ts.flatMap Token.text = p.filter fun c => !isspace c := by
  induction h with
  | @nil gap hgap =>
    refine (List.filter_eq_nil_iff.mpr fun c hc => ?_).symm
    rw [hgap c hc]
    decide
  | @cons gap t rest ts hgap ht _ _ _ ih =>
    have hnil : gap.filter (fun c => !isspace c) = [] :=
      List.filter_eq_nil_iff.mpr fun c hc => by rw [hgap c hc]; decide
    have hself : t.text.filter (fun c => !isspace c) = t.text :=
      List.filter_eq_self.mpr fun c hc => by rw [ht.no_blank c hc]; decide
    rw [List.flatMap_cons, List.filter_append, List.filter_append, hnil, hself, ih, List.nil_append]

theorem Layout.mem (h : Layout p ts) : ∀ t ∈ ts, ∀ c ∈ t.text, c ∈ p := by
  intro t ht c hc
  have hmem : c ∈ ts.flatMap Token.text := List.mem_flatMap.mpr ⟨t, ht, hc⟩
  rw [h.lossless] at hmem
  exact List.mem_of_mem_filter hmem

theorem Layout.indent (hgap : Blank gap) (h : Layout p ts) : Layout (gap ++ p) ts := by
  have hboth : ∀ {gap' : List Byte}, Blank gap' → Blank (gap ++ gap') := fun h' c hc =>
    (List.mem_append.mp hc).elim (hgap c) (h' c)
  cases h with
  | nil hgap' => exact .nil (hboth hgap')
  | cons hgap' ht hword hout h =>
    rw [← List.append_assoc]
    exact .cons (hboth hgap') ht hword hout h

/-- Tokens with one blank between them. -/
theorem Layout.spaced : ∀ {ts : List Token}, (∀ t ∈ ts, TokenOk t) →
    Layout (List.intercalate (text " ") (ts.map Token.text)) ts
  | [], _ => .nil fun c hc => absurd hc List.not_mem_nil
  | [t], h => by
    have hlayout := @Layout.cons [] t [] [] (fun c hc => absurd hc List.not_mem_nil)
      (h t List.mem_cons_self) (fun _ ⟨u, hu, _⟩ => by cases hu) (fun _ h => by cases h)
      (.nil fun c hc => absurd hc List.not_mem_nil)
    rw [List.nil_append, List.append_nil] at hlayout
    simpa using hlayout
  | t :: u :: ts, h => by
    have hrest := Layout.spaced fun v hv => h v (List.mem_cons_of_mem _ hv)
    have hblank : Blank (text " ") := by
      intro c hc
      obtain rfl : c = ' '.toUInt8 := List.mem_singleton.mp hc
      decide
    have hlayout := @Layout.cons [] t (text " " ++ List.intercalate (text " ") ((u :: ts).map Token.text)) (u :: ts)
      (fun c hc => absurd hc List.not_mem_nil) (h t List.mem_cons_self)
      (fun _ _ => ⟨' '.toUInt8, rfl, by decide⟩) (fun _ h => absurd (Option.some.inj h) (by decide))
      (hrest.indent hblank)
    exact hlayout

end Layouts

/-! ### The limits -/

section Limits

variable {line : List Byte} {list ts : List Token}

theorem tokenizeFrom_none {p : List Byte} (h : nextToken p = none) : tokenizeFrom p list = .ok list := by
  rw [tokenizeFrom]
  split
  · rfl
  · rename_i hsome
    rw [h] at hsome
    cases hsome

theorem tokenizeFrom_some {p txt rest : List Byte} {type : TokenType} (h : nextToken p = some (type, txt, rest)) :
    tokenizeFrom p list = match tokenPush list type txt with
      | .error e => .error e
      | .ok list => tokenizeFrom rest list := by
  rw [tokenizeFrom]
  split
  · rename_i hnone
    rw [h] at hnone
    cases hnone
  · rename_i hsome
    rw [h] at hsome
    cases hsome
    rfl

/-- The loop pushes the tokens of the line. -/
theorem tokenizeFrom_eq (p : List Byte) (list : List Token) :
    tokenizeFrom p list = pushTokens list (unlimited p) := by
  cases hnext : nextToken p with
  | none =>
    rw [tokenizeFrom_none hnext, unlimited_none hnext]
    rfl
  | some x =>
    obtain ⟨type, txt, rest⟩ := x
    have hshorter : rest.length < p.length := nextToken_length hnext
    rw [tokenizeFrom_some hnext, unlimited_some hnext]
    unfold pushTokens
    rw [List.foldlM_cons]
    cases tokenPush list type txt with
    | error e => rfl
    | ok list => exact tokenizeFrom_eq rest list
termination_by p.length

/-- A token that is too long is pushed onto a list that is not full. -/
def TooLong (list ts : List Token) : Prop := ∃ t ∈ ts.take (MAX_TOKEN - list.length), TOKEN_SIZE ≤ t.text.length

instance (list ts : List Token) : Decidable (TooLong list ts) :=
  inferInstanceAs (Decidable (∃ t ∈ ts.take (MAX_TOKEN - list.length), TOKEN_SIZE ≤ t.text.length))

theorem tooLong_cons {t : Token} (hroom : list.length < MAX_TOKEN) :
    TooLong list (t :: ts) ↔ TOKEN_SIZE ≤ t.text.length ∨ TooLong (list ++ [t]) ts := by
  have hsucc : MAX_TOKEN - list.length = (MAX_TOKEN - (list ++ [t]).length) + 1 := by
    rw [List.length_append, List.length_singleton]
    omega
  unfold TooLong
  rw [hsucc, List.take_succ_cons]
  simp only [List.mem_cons, exists_eq_or_imp]

/-- The first token that does not fit decides. -/
theorem pushTokens_eq : ∀ (ts : List Token) {list : List Token}, list.length ≤ MAX_TOKEN →
    pushTokens list ts = if TooLong list ts then .error .tooLong
      else if MAX_TOKEN < list.length + ts.length then .error .tooMany else .ok (list ++ ts)
  | [], list, hlist => by
    have hnone : ¬ TooLong list [] := by simp [TooLong]
    rw [if_neg hnone, if_neg (by rw [List.length_nil]; omega), List.append_nil]
    rfl
  | t :: ts, list, hlist => by
    unfold pushTokens
    rw [List.foldlM_cons]
    unfold tokenPush
    by_cases hfull : list.length ≥ MAX_TOKEN
    · have hnone : ¬ TooLong list (t :: ts) := by
        unfold TooLong
        rw [Nat.sub_eq_zero_of_le hfull, List.take_zero]
        simp
      rw [if_pos hfull, if_neg hnone, if_pos (by rw [List.length_cons]; omega)]
      rfl
    have hroom : list.length < MAX_TOKEN := Nat.lt_of_not_ge hfull
    rw [if_neg hfull]
    by_cases hlong : t.text.length ≥ TOKEN_SIZE
    · rw [if_pos hlong, if_pos ((tooLong_cons hroom).mpr (.inl hlong))]
      rfl
    · rw [if_neg hlong]
      have hlen : (list ++ [t]).length = list.length + 1 := by rw [List.length_append, List.length_singleton]
      refine (@pushTokens_eq ts (list ++ [t]) (by omega)).trans ?_
      have hsame : TooLong (list ++ [t]) ts ↔ TooLong list (t :: ts) := by
        rw [tooLong_cons hroom]
        exact ⟨.inr, fun h => h.resolve_left hlong⟩
      simp only [hsame, hlen, List.length_cons, List.append_assoc, List.singleton_append,
        Nat.add_right_comm list.length 1, Nat.add_assoc]

/-- What `tokenize` returns, from the tokens of the line. -/
theorem tokenize_eq (hline : (0 : Byte) ∉ line) :
    tokenize line = if TooLong [] (unlimited line) then .error .tooLong
      else if MAX_TOKEN < (unlimited line).length then .error .tooMany else .ok (unlimited line) := by
  unfold tokenize
  rw [cstr_line hline, tokenizeFrom_eq, pushTokens_eq _ (Nat.zero_le _)]
  rw [List.length_nil, Nat.zero_add, List.nil_append]

theorem tokenize_ok (hline : (0 : Byte) ∉ line) : tokenize line = .ok list ↔
    list = unlimited line ∧ ¬ TooLong [] list ∧ list.length ≤ MAX_TOKEN := by
  rw [tokenize_eq hline]
  split_ifs with hlong hmany
  · constructor
    · exact fun h => by cases h
    · rintro ⟨rfl, hnot, -⟩
      exact absurd hlong hnot
  · constructor
    · exact fun h => by cases h
    · rintro ⟨rfl, -, hle⟩
      omega
  · constructor
    · intro h
      obtain rfl := Except.ok.inj h
      exact ⟨rfl, hlong, by omega⟩
    · rintro ⟨rfl, -, -⟩
      rfl

/-- Operators are short. -/
theorem TokenOk.long_word {t : Token} (ht : TokenOk t) (hlong : TOKEN_SIZE ≤ t.text.length) : t.type = .word := by
  by_contra htype
  have hshort : ∀ type : TokenType, type.operator.length ≤ 2 := by
    intro type
    cases type <;> decide
  rw [ht.operator htype] at hlong
  exact absurd (hlong.trans (hshort t.type)) (by decide)

/-- When no more tokens are there than fit, each of them is looked at. -/
theorem tooLong_all (hle : ts.length ≤ MAX_TOKEN) : TooLong [] ts ↔ ∃ t ∈ ts, TOKEN_SIZE ≤ t.text.length := by
  unfold TooLong
  rw [List.length_nil, Nat.sub_zero, List.take_of_length_le hle]

theorem TooLong.exists (h : TooLong list ts) : ∃ t ∈ ts, TOKEN_SIZE ≤ t.text.length := by
  obtain ⟨t, ht, hlong⟩ := h
  exact ⟨t, List.mem_of_mem_take ht, hlong⟩

/-- The words of the tokens that are looked at. -/
theorem tooLong_words (hok : ∀ t ∈ ts, TokenOk t) : TooLong [] ts ↔
    ∃ t ∈ ts.take MAX_TOKEN, t.type = .word ∧ TOKEN_SIZE ≤ t.text.length := by
  unfold TooLong
  rw [List.length_nil, Nat.sub_zero]
  constructor
  · rintro ⟨t, ht, hlong⟩
    exact ⟨t, ht, (hok t (List.mem_of_mem_take ht)).long_word hlong, hlong⟩
  · rintro ⟨t, ht, -, hlong⟩
    exact ⟨t, ht, hlong⟩

theorem tokenize_canonical_ok (hline : (0 : Byte) ∉ line) (h : tokenize line = .ok list) : Canonical line list := by
  obtain ⟨heq, hnot, hle⟩ := (tokenize_ok hline).mp h
  have hlayout : Layout line list := layout_iff.mpr heq
  refine ⟨hlayout.lossless, hlayout.ok, fun t ht _ => ?_, hlayout, ?_⟩
  · by_contra hlong
    exact hnot ((tooLong_all hle).mpr ⟨t, ht, Nat.le_of_not_lt hlong⟩)
  · have hspaced := Layout.spaced hlayout.ok
    refine (tokenize_ok fun hzero => ?_).mpr ⟨layout_iff.mp hspaced, hnot, hle⟩
    have hkept : (0 : Byte) ∈ (List.intercalate (text " ") (list.map Token.text)).filter fun c => !isspace c :=
      List.mem_filter.mpr ⟨hzero, by decide⟩
    rw [← hspaced.lossless, hlayout.lossless] at hkept
    exact hline (List.mem_of_mem_filter hkept)

end Limits

/-- When the tokenizer succeeds the tokens are those of the line, and the line
of the tokens has them again. It fails when a word is too long or the tokens
are too many; of the two the one that comes first is reported. -/
theorem tokenize_canonical (line : List Byte) (hline : (0 : Byte) ∉ line) :
    (∀ list, tokenize line = .ok list → Canonical line list) ∧
    ((∃ e, tokenize line = .error e) ↔
      (∃ t ∈ unlimited line, t.type = .word ∧ TOKEN_SIZE ≤ t.text.length) ∨ MAX_TOKEN < (unlimited line).length) ∧
    (tokenize line = .error .tooLong ↔
      ∃ t ∈ (unlimited line).take MAX_TOKEN, t.type = .word ∧ TOKEN_SIZE ≤ t.text.length) ∧
    (tokenize line = .error .tooMany ↔ MAX_TOKEN < (unlimited line).length ∧
      ∀ t ∈ (unlimited line).take MAX_TOKEN, t.text.length < TOKEN_SIZE) := by
  have hok := (layout_unlimited line).ok
  have heq := tokenize_eq hline
  refine ⟨fun list h => tokenize_canonical_ok hline h, ?_, ?_, ?_⟩
  · rw [heq]
    split_ifs with hlong hmany
    · obtain ⟨t, ht, hlen⟩ := hlong.exists
      exact ⟨fun _ => .inl ⟨t, ht, (hok t ht).long_word hlen, hlen⟩, fun _ => ⟨_, rfl⟩⟩
    · exact ⟨fun _ => .inr hmany, fun _ => ⟨_, rfl⟩⟩
    · constructor
      · rintro ⟨e, he⟩
        cases he
      · rintro (⟨t, ht, -, hlen⟩ | hmany')
        · exact absurd ((tooLong_all (by omega)).mpr ⟨t, ht, hlen⟩) hlong
        · exact absurd hmany' hmany
  · rw [← tooLong_words hok, heq]
    split_ifs with hlong hmany
    · exact ⟨fun _ => hlong, fun _ => rfl⟩
    · exact ⟨(nomatch ·), fun h => absurd h hlong⟩
    · exact ⟨(nomatch ·), fun h => absurd h hlong⟩
  · have hshort : (∀ t ∈ (unlimited line).take MAX_TOKEN, t.text.length < TOKEN_SIZE) ↔
        ¬ TooLong [] (unlimited line) := by
      unfold TooLong
      rw [List.length_nil, Nat.sub_zero]
      push Not
      rfl
    rw [hshort, heq]
    split_ifs with hlong hmany
    · exact ⟨(nomatch ·), fun h => absurd hlong h.2⟩
    · exact ⟨fun _ => ⟨hmany, hlong⟩, fun _ => rfl⟩
    · exact ⟨(nomatch ·), fun h => absurd h.1 hmany⟩

/-- A word, three `>` in a row and a word. -/
theorem tokenize_canonical_glued : Canonical (text "a>>>b") [⟨.word, text "a"⟩, ⟨.redirectAppend, text ">>"⟩,
    ⟨.redirectOut, text ">"⟩, ⟨.word, text "b"⟩] := by
  have hline : (0 : Byte) ∉ text "a>>>b" := by decide
  refine (tokenize_canonical (text "a>>>b") hline).1 _ ((tokenize_ok hline).mpr ⟨?_, by decide, by decide⟩)
  have hword : nextToken (text "a>>>b") = some (.word, text "a", text ">>>b") := by decide +kernel
  have happend : nextToken (text ">>>b") = some (.redirectAppend, text ">>", text ">b") := by decide +kernel
  have hout : nextToken (text ">b") = some (.redirectOut, text ">", text "b") := by decide +kernel
  have hlast : nextToken (text "b") = some (.word, text "b", []) := by decide +kernel
  rw [unlimited_some hword, unlimited_some happend, unlimited_some hout, unlimited_some hlast, unlimited_none rfl]

end DeviceRuntime
