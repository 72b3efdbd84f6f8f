/-
# The arrays of the parser

`tokenize`, `build_command` and `execute_pipeline` again, with the arrays they
write to: `token` and the `text` of each token, `argv` of each command, and
`pids`. An index that is not below the size of its array makes the result
`none`. For every line the result is that of the parser without arrays, so no
index is out of bounds; and a chain has a command less than every second token,
so none is too long for `pids`.

Key definitions: `TokenSlot`, `TokenArray`, `tokenizeArray`, `RawCommand`,
`buildArray`, `parseLineArray`, `pipelineStageArray`, `executePipelineArray`.
Key theorems: `tokenizeArray_eq`, `buildArray_eq`, `sentence_length`,
`pipelineStagesArray_eq`, `parser_limits`.
-/
import DeviceRuntime.CommandGrammar
import DeviceRuntime.Executor
import DeviceRuntime.TokenLayout
import DeviceRuntime.Lib.Slots

namespace DeviceRuntime

open Slots

/-! ### The token list -/

structure TokenSlot where
  text : Vector Byte TOKEN_SIZE
  type : TokenType

/-- `TokenList`. -/
structure TokenArray where
  token : Vector TokenSlot MAX_TOKEN
  count : ℕ

/-- The string in an array; `none` when a function that reads it would not find
its end. -/
def readString {n : ℕ} (v : Vector Byte n) : Option (List Byte) :=
  if (0 : Byte) ∈ v.toList then some (cstr v.toList) else none

/-- `token_push`, with `memcpy` one byte after the other. -/
def tokenPushArray (list : TokenArray) (type : TokenType) (text : List Byte) :
    Option (Except TokenizeError TokenArray) :=
  if list.count ≥ MAX_TOKEN then some (.error .tooMany)
  else if text.length ≥ TOKEN_SIZE then some (.error .tooLong)
  else (readAt list.token list.count).bind fun slot =>
    (writeFrom slot.text 0 text).bind fun bytes =>
    (writeAt bytes text.length 0).bind fun bytes =>
    (writeAt list.token list.count ⟨bytes, type⟩).bind fun token => some (.ok ⟨token, list.count + 1⟩)

def tokenizeArrayFrom (p : List Byte) (list : TokenArray) : Option (Except TokenizeError TokenArray) :=
  match _h : nextToken p with
  | none => some (.ok list)
  | some (type, text, rest) =>
    match tokenPushArray list type text with
    | none => none
    | some (.error e) => some (.error e)
    | some (.ok list) => tokenizeArrayFrom rest list
termination_by p.length
decreasing_by exact nextToken_length _h

/-- The list is not initialised before. -/
def tokenizeArray (line : List Byte) (list : TokenArray) : Option (Except TokenizeError TokenArray) :=
  tokenizeArrayFrom (cstr line) { list with count := 0 }

/-! ### The commands -/

/-- A command, with nothing said about `argc`. -/
structure RawCommand where
  argc : ℕ
  argv : Vector (Option (List Byte)) MAX_ARGS
  background : ℤ
  redirect : Redirection

/-- A chain that is being built. -/
structure RawBuilding where
  done : List RawCommand
  current : RawCommand

def RawBuilding.chain (b : RawBuilding) : List RawCommand := b.done ++ [b.current]

def rawInit : RawCommand := ⟨0, Vector.replicate MAX_ARGS none, 0, ⟨none, none, 0⟩⟩

def RawBuilding.headBackground (b : RawBuilding) : ℤ :=
  match b.done with
  | [] => b.current.background
  | head :: _ => head.background

def RawBuilding.setBackground (b : RawBuilding) : RawBuilding :=
  match b.done with
  | [] => { b with current := { b.current with background := 1 } }
  | head :: done => { b with done := { head with background := 1 } :: done }

/-- `current->argv[current->argc] = word; current->argc++;` -/
def RawBuilding.pushArg (b : RawBuilding) (word : List Byte) : Option RawBuilding :=
  (writeAt b.current.argv b.current.argc (some word)).map fun argv =>
    { b with current := { b.current with argc := b.current.argc + 1, argv := argv } }

def RawBuilding.setInput (b : RawBuilding) (file : List Byte) : RawBuilding :=
  { b with current := { b.current with redirect := { b.current.redirect with inputFile := some file } } }

def RawBuilding.setOutput (b : RawBuilding) (file : List Byte) (append : ℤ) : RawBuilding :=
  { b with current := { b.current with
      redirect := { b.current.redirect with outputFile := some file, append := append } } }

def RawBuilding.next (b : RawBuilding) : RawBuilding := ⟨b.done ++ [b.current], rawInit⟩

/-- `list->token[i].text`, as `strcmp` and `strdup` read it. -/
def TokenArray.textAt (list : TokenArray) (i : ℕ) : Option (List Byte) :=
  (readAt list.token i).bind fun slot => readString slot.text

/-- `i + 1 >= list->count || list->token[i + 1].type != TOKEN_WORD`. -/
def TokenArray.noWordAfter (list : TokenArray) (i : ℕ) : Option Bool :=
  if i + 1 ≥ list.count then some true else (readAt list.token (i + 1)).map fun slot => slot.type ≠ .word

/-- The loop of `build_command` at `i`. -/
def buildArray (status : ℤ) (list : TokenArray) (i : ℕ) (b : RawBuilding) : Option (Except String RawBuilding) :=
  if _h : i < list.count then
    (readAt list.token i).bind fun slot =>
    match slot.type with
    | .word =>
      if b.current.argc ≥ MAX_ARGS - 1 then some (.error "too many arguments")
      else (list.textAt i).bind fun word =>
        (b.pushArg (expandWord status word)).bind fun b => buildArray status list (i + 1) b
    | .redirectIn => (list.noWordAfter i).bind fun none =>
      if none then some (.error "expected filename after '<'")
      else if b.current.redirect.inputFile.isSome then some (.error "duplicate input redirection")
      else (list.textAt (i + 1)).bind fun file => buildArray status list (i + 2) (b.setInput file)
    | .redirectOut => (list.noWordAfter i).bind fun none =>
      if none then some (.error "expected filename after '>'")
      else if b.current.redirect.outputFile.isSome then some (.error "duplicate output redirection")
      else (list.textAt (i + 1)).bind fun file => buildArray status list (i + 2) (b.setOutput file 0)
    | .redirectAppend => (list.noWordAfter i).bind fun none =>
      if none then some (.error "expected filename after '>>'")
      else if b.current.redirect.outputFile.isSome then some (.error "duplicate output redirection")
      else (list.textAt (i + 1)).bind fun file => buildArray status list (i + 2) (b.setOutput file 1)
    | .background =>
      if i ≠ list.count - 1 then some (.error "'&' must be the last token")
      else if b.headBackground ≠ 0 then some (.error "duplicate background operator")
      else buildArray status list (i + 1) b.setBackground
    | .pipe =>
      if b.current.argc = 0 then some (.error "missing command near '|'")
      else (list.noWordAfter i).bind fun none =>
        if none then some (.error "expected command after '|'")
        else buildArray status list (i + 1) b.next
  else some (.ok b)
termination_by list.count - i

/-- The last loop of `build_command`. -/
def terminateArray : List RawCommand → Option (Except String (List RawCommand))
  | [] => some (.ok [])
  | cmd :: cmds =>
    if cmd.argc = 0 then some (.error "missing command near '|'")
    else (writeAt cmd.argv cmd.argc none).bind fun argv =>
      (terminateArray cmds).map fun r => r.map fun cmds => { cmd with argv := argv } :: cmds

/-- The chain that `parse_line` returns, if it does. -/
def parseLineArray (status : ℤ) (line : List Byte) (list : TokenArray) : Option (Option (List RawCommand)) :=
  (tokenizeArray line list).bind fun
  | .error _ => some none
  | .ok list =>
    if list.count = 0 then some none
    else (buildArray status list 0 ⟨[], rawInit⟩).bind fun
      | .error _ => some none
      | .ok b => (terminateArray b.chain).map Except.toOption

/-! ### Tokens in the array -/

/-- The type and the text of a token in its slot. -/
def SlotOk (slot : TokenSlot) (t : Token) : Prop := slot.type = t.type ∧ readString slot.text = some t.text

/-- The tokens are in the first slots of the array. -/
structure HoldsTokens (list : TokenArray) (ts : List Token) : Prop where
  count : list.count = ts.length
  slots : ∃ slots, slots <+: list.token.toList ∧ List.Forall₂ SlotOk slots ts

section Tokens

variable {list : TokenArray} {ts : List Token}

theorem readString_prefix {n : ℕ} {v : Vector Byte n} {s : List Byte} (h : s ++ [0] <+: v.toList)
    (hs : (0 : Byte) ∉ s) : readString v = some s := by
  obtain ⟨rest, hrest⟩ := h
  have hmem : (0 : Byte) ∈ v.toList := by
    rw [← hrest]
    simp
  have hcut : cstr v.toList = s := by
    unfold cstr
    rw [← hrest, List.append_assoc]
    refine takeWhile_stop (fun c hc => ?_) (fun c hc => ?_)
    · rw [decide_eq_true_eq]
      exact fun h => hs (h ▸ hc)
    · obtain rfl : 0 = c := Option.some.inj hc
      decide
  unfold readString
  rw [if_pos hmem, hcut]

theorem HoldsTokens.length (h : HoldsTokens list ts) : ts.length ≤ MAX_TOKEN := by
  obtain ⟨slots, hprefix, hall⟩ := h.slots
  rw [← hall.length_eq]
  exact prefix_length hprefix

theorem HoldsTokens.read (h : HoldsTokens list ts) {i : ℕ} {t : Token} (ht : ts[i]? = some t) :
    ∃ slot, readAt list.token i = some slot ∧ SlotOk slot t := by
  obtain ⟨slots, hprefix, hall⟩ := h.slots
  obtain ⟨hi, -⟩ := List.getElem?_eq_some_iff.mp ht
  have hi' : i < slots.length := hall.length_eq ▸ hi
  have hok := hall.get hi' hi
  have hslot : slots[i]? = some (slots.get ⟨i, hi'⟩) := List.getElem?_eq_getElem hi'
  have htoken : ts[i]? = some (ts.get ⟨i, hi⟩) := List.getElem?_eq_getElem hi
  rw [Option.some.inj (htoken.symm.trans ht)] at hok
  exact ⟨_, readAt_prefix hprefix hslot, hok⟩

theorem HoldsTokens.textAt (h : HoldsTokens list ts) {i : ℕ} {t : Token} (ht : ts[i]? = some t) :
    list.textAt i = some t.text := by
  obtain ⟨slot, hread, -, htext⟩ := h.read ht
  unfold TokenArray.textAt
  rw [hread, Option.bind_some, htext]

theorem HoldsTokens.noWordAfter (h : HoldsTokens list ts) (i : ℕ) :
    list.noWordAfter i = some (!wordFollows (ts.drop (i + 1))) := by
  unfold TokenArray.noWordAfter
  rw [h.count]
  by_cases hi : i + 1 ≥ ts.length
  · rw [if_pos hi, List.drop_eq_nil_of_le hi]
    rfl
  · rw [if_neg hi, List.drop_eq_getElem_cons (Nat.lt_of_not_ge hi)]
    obtain ⟨slot, hread, htype, -⟩ := h.read (List.getElem?_eq_getElem (Nat.lt_of_not_ge hi))
    rw [hread, Option.map_some, htype]
    simp [wordFollows]

/-- A token is pushed within the array, or is refused as it is by the list. -/
theorem tokenPushArray_eq (h : HoldsTokens list ts) (type : TokenType) {text : List Byte} (htext : (0 : Byte) ∉ text) :
    (∃ e, tokenPushArray list type text = some (.error e) ∧ tokenPush ts type text = .error e) ∨
    ∃ list' ts', tokenPushArray list type text = some (.ok list') ∧ tokenPush ts type text = .ok ts' ∧
      HoldsTokens list' ts' := by
  unfold tokenPushArray tokenPush
  rw [h.count]
  by_cases hfull : ts.length ≥ MAX_TOKEN
  · rw [if_pos hfull, if_pos hfull]
    exact .inl ⟨_, rfl, rfl⟩
  rw [if_neg hfull, if_neg hfull]
  by_cases hlong : text.length ≥ TOKEN_SIZE
  · rw [if_pos hlong, if_pos hlong]
    exact .inl ⟨_, rfl, rfl⟩
  rw [if_neg hlong, if_neg hlong]
  obtain ⟨slots, hprefix, hall⟩ := h.slots
  have hlen : slots.length = ts.length := hall.length_eq
  have hroom : slots.length < MAX_TOKEN := by omega
  obtain ⟨slot, hslot⟩ : ∃ slot, readAt list.token slots.length = some slot := ⟨_, Vector.getElem?_eq_getElem hroom⟩
  obtain ⟨bytes, hbytes, hcopied⟩ := writeFrom_prefix text (List.nil_prefix (l := slot.text.toList))
    (by rw [List.length_nil]; omega)
  obtain ⟨bytes', hnul, hstring⟩ := writeAt_prefix hcopied (by rw [List.nil_append]; omega) 0
  obtain ⟨token, htoken, hpushed⟩ := writeAt_prefix hprefix hroom ⟨bytes', type⟩
  rw [List.length_nil] at hbytes
  rw [List.nil_append] at hnul hstring
  refine .inr ⟨⟨token, ts.length + 1⟩, _, ?_, rfl, ?_, slots ++ [⟨bytes', type⟩], hpushed, ?_⟩
  · rw [← hlen, hslot, Option.bind_some, hbytes, Option.bind_some, hnul, Option.bind_some, htoken, Option.bind_some]
  · rw [List.length_append, List.length_singleton]
  · exact List.rel_append hall (.cons ⟨rfl, readString_prefix hstring htext⟩ .nil)

/-- The text of a token is in the line. -/
theorem nextToken_mem {p rest txt : List Byte} {type : TokenType} (h : nextToken p = some (type, txt, rest)) :
    (∀ c ∈ txt, c ∈ p) ∧ ∀ c ∈ rest, c ∈ p := by
  obtain ⟨gap, -, rfl⟩ := (nextToken_stands h).place
  exact ⟨fun c hc => List.mem_append_right _ (List.mem_append_left _ hc),
    fun c hc => List.mem_append_right _ (List.mem_append_right _ hc)⟩

theorem tokenizeArrayFrom_none {p : List Byte} (h : nextToken p = none) :
    tokenizeArrayFrom p list = some (.ok list) := by
  rw [tokenizeArrayFrom]
  split
  · rfl
  · rename_i hsome
    rw [h] at hsome
    cases hsome

theorem tokenizeArrayFrom_some {p txt rest : List Byte} {type : TokenType}
    (h : nextToken p = some (type, txt, rest)) :
    tokenizeArrayFrom p list = match tokenPushArray list type txt with
      | none => none
      | some (.error e) => some (.error e)
      | some (.ok list) => tokenizeArrayFrom rest list := by
  rw [tokenizeArrayFrom]
  split
  · rename_i hnone
    rw [h] at hnone
    cases hnone
  · rename_i hsome
    rw [h] at hsome
    cases hsome
    rfl

/-- The tokens of the list are in the array at the end, or both fail alike. -/
theorem tokenizeArrayFrom_eq (p : List Byte) (hp : (0 : Byte) ∉ p) {list : TokenArray} {ts : List Token}
    (h : HoldsTokens list ts) :
    (∃ e, tokenizeArrayFrom p list = some (.error e) ∧ tokenizeFrom p ts = .error e) ∨
    ∃ list' ts', tokenizeArrayFrom p list = some (.ok list') ∧ tokenizeFrom p ts = .ok ts' ∧ HoldsTokens list' ts' := by
  cases hnext : nextToken p with
  | none => exact .inr ⟨list, ts, tokenizeArrayFrom_none hnext, tokenizeFrom_none hnext, h⟩
  | some x =>
    obtain ⟨type, txt, rest⟩ := x
    obtain ⟨htxt, hrest⟩ := nextToken_mem hnext
    have hshorter : rest.length < p.length := nextToken_length hnext
    rw [tokenizeArrayFrom_some hnext, tokenizeFrom_some hnext]
    rcases tokenPushArray_eq h type (fun hzero => hp (htxt 0 hzero)) with
      ⟨e, harray, hlist⟩ | ⟨list', ts', harray, hlist, h'⟩
    · rw [harray, hlist]
      exact .inl ⟨e, rfl, rfl⟩
    · rw [harray, hlist]
      exact tokenizeArrayFrom_eq rest (fun hzero => hp (hrest 0 hzero)) h'
termination_by p.length

theorem tokenizeArray_eq (line : List Byte) (list : TokenArray) :
    (∃ e, tokenizeArray line list = some (.error e) ∧ tokenize line = .error e) ∨
    ∃ list' ts, tokenizeArray line list = some (.ok list') ∧ tokenize line = .ok ts ∧ HoldsTokens list' ts := by
  have hline : (0 : Byte) ∉ cstr line := by
    intro hzero
    have hne := List.mem_takeWhile_imp hzero
    exact absurd hne (by decide)
  exact tokenizeArrayFrom_eq _ hline ⟨rfl, [], List.nil_prefix, .nil⟩

end Tokens

/-! ### Commands in the array -/

/-- A command without the bound on `argc`. -/
def Command.raw (cmd : Command) : RawCommand := ⟨cmd.argc, cmd.argv, cmd.background, cmd.redirect⟩

def Building.raw (b : Building) : RawBuilding := ⟨b.done.map Command.raw, b.current.raw⟩

section Building

variable {b : Building}

theorem raw_chain (b : Building) : b.raw.chain = b.chain.map Command.raw := by
  unfold RawBuilding.chain Building.chain Building.raw
  rw [List.map_append, List.map_singleton]

theorem raw_headBackground (b : Building) : b.raw.headBackground = b.headBackground := by
  obtain ⟨done, current⟩ := b
  cases done <;> rfl

theorem raw_setBackground (b : Building) : b.raw.setBackground = b.setBackground.raw := by
  obtain ⟨done, current⟩ := b
  cases done <;> rfl

theorem raw_next (b : Building) : b.raw.next = b.next.raw := by
  unfold RawBuilding.next Building.next Building.raw
  rw [List.map_append, List.map_singleton]
  rfl

/-- An argument is written within `argv`. -/
theorem raw_pushArg (word : List Byte) (hfit : ¬ b.current.argc ≥ MAX_ARGS - 1) :
    b.raw.pushArg word = some (b.pushArg word hfit).raw := by
  have hwrite : writeAt b.raw.current.argv b.raw.current.argc (some word) =
      some (b.current.argv.set b.current.argc (some word) b.current.argc_lt) := dif_pos b.current.argc_lt
  unfold RawBuilding.pushArg
  rw [hwrite]
  rfl

variable {list : TokenArray} {ts : List Token} {status : ℤ}

theorem drop_next {i : ℕ} {t : Token} {rest : List Token} (h : ts.drop (i + 1) = t :: rest) :
    ts.drop (i + 2) = rest := by
  rw [← List.tail_drop, h, List.tail_cons]

/-- A redirection takes the word after it; `more` is what follows with it. -/
def redirectTokens (expected duplicate : String) (dup : Bool)
    (more : List Token → List Byte → Except String Building) : List Token → Except String Building
  | [] => .error expected
  | file :: rest =>
    if file.type ≠ .word then .error expected
    else if dup then .error duplicate else more rest file.text

/-- A redirection in the array. -/
theorem redirectArray_eq (h : HoldsTokens list ts) {i : ℕ} {rest : List Token} (hrest : ts.drop (i + 1) = rest) (dup : Bool)
    (expected duplicate : String) {more : List Token → List Byte → Except String Building}
    {moreArray : List Byte → Option (Except String RawBuilding)}
    (hmore : ∀ t rest', rest = t :: rest' → moreArray t.text = some ((more rest' t.text).map Building.raw)) :
    ((list.noWordAfter i).bind fun none =>
      if none then some (.error expected)
      else if dup then some (.error duplicate)
      else (list.textAt (i + 1)).bind moreArray) =
    some ((redirectTokens expected duplicate dup more rest).map Building.raw) := by
  rw [h.noWordAfter i, hrest, Option.bind_some]
  cases rest with
  | nil => rfl
  | cons file rest =>
    unfold redirectTokens
    dsimp only
    by_cases htype : file.type ≠ .word
    · rw [if_pos htype, if_pos (by simp [wordFollows, htype])]
      rfl
    · rw [if_neg htype, if_neg (by simpa [wordFollows] using htype)]
      by_cases hdup : dup = true
      · rw [if_pos hdup, if_pos hdup]
        rfl
      · have hfile : ts[i + 1]? = some file := by
          rw [← List.head?_drop, hrest]
          rfl
        rw [if_neg hdup, if_neg hdup, h.textAt hfile, Option.bind_some]
        exact hmore file rest rfl

theorem buildTokens_redirectIn (t : List Byte) (rest : List Token) (b : Building) :
    buildTokens status (⟨.redirectIn, t⟩ :: rest) b =
      redirectTokens "expected filename after '<'" "duplicate input redirection" b.current.redirect.inputFile.isSome
        (fun rest file => buildTokens status rest (b.setInput file)) rest := by
  cases rest <;> rfl

theorem buildTokens_redirectOut (t : List Byte) (rest : List Token) (b : Building) :
    buildTokens status (⟨.redirectOut, t⟩ :: rest) b =
      redirectTokens "expected filename after '>'" "duplicate output redirection"
        b.current.redirect.outputFile.isSome
        (fun rest file => buildTokens status rest (b.setOutput file 0)) rest := by
  cases rest <;> rfl

theorem buildTokens_redirectAppend (t : List Byte) (rest : List Token) (b : Building) :
    buildTokens status (⟨.redirectAppend, t⟩ :: rest) b =
      redirectTokens "expected filename after '>>'" "duplicate output redirection"
        b.current.redirect.outputFile.isSome
        (fun rest file => buildTokens status rest (b.setOutput file 1)) rest := by
  cases rest <;> rfl

/-- The loop finds in the array what the tokens say. -/
theorem buildArray_eq (h : HoldsTokens list ts) : ∀ (rest : List Token) (i : ℕ) (b : Building), ts.drop i = rest →
    buildArray status list i b.raw = some ((buildTokens status rest b).map Building.raw)
  | [], i, b, hdrop => by
    have hend : ¬ i < list.count := by
      rw [h.count]
      exact Nat.not_lt.mpr (List.drop_eq_nil_iff.mp hdrop)
    rw [buildArray, dif_neg hend]
    rfl
  | t :: rest, i, b, hdrop => by
    have ht : ts[i]? = some t := by
      rw [← List.head?_drop, hdrop]
      rfl
    have hrest : ts.drop (i + 1) = rest := by
      rw [← List.tail_drop, hdrop]
      rfl
    have hi : i < list.count := by
      rw [h.count]
      exact (List.getElem?_eq_some_iff.mp ht).1
    obtain ⟨slot, hslot, htype, -⟩ := h.read ht
    have hafter := h.noWordAfter i
    rw [hrest] at hafter
    rw [buildArray, dif_pos hi, hslot, Option.bind_some, htype]
    obtain ⟨type, text⟩ := t
    cases type with
    | word =>
      rw [buildTokens_word]
      dsimp only
      by_cases hfull : b.current.argc ≥ MAX_ARGS - 1
      · have hraw : b.raw.current.argc ≥ MAX_ARGS - 1 := hfull
        rw [if_pos hraw, dif_pos hfull]
        rfl
      · have hraw : ¬ b.raw.current.argc ≥ MAX_ARGS - 1 := hfull
        rw [if_neg hraw, dif_neg hfull, h.textAt ht, Option.bind_some, raw_pushArg _ hfull, Option.bind_some]
        exact buildArray_eq h rest (i + 1) _ hrest
    | redirectIn =>
      rw [buildTokens_redirectIn]
      refine redirectArray_eq h hrest b.current.redirect.inputFile.isSome _ _ fun file rest' heq => ?_
      exact buildArray_eq h rest' (i + 2) (b.setInput file.text) (drop_next (hrest.trans heq))
    | redirectOut =>
      rw [buildTokens_redirectOut]
      refine redirectArray_eq h hrest b.current.redirect.outputFile.isSome _ _ fun file rest' heq => ?_
      exact buildArray_eq h rest' (i + 2) (b.setOutput file.text 0) (drop_next (hrest.trans heq))
    | redirectAppend =>
      rw [buildTokens_redirectAppend]
      refine redirectArray_eq h hrest b.current.redirect.outputFile.isSome _ _ fun file rest' heq => ?_
      exact buildArray_eq h rest' (i + 2) (b.setOutput file.text 1) (drop_next (hrest.trans heq))
    | background =>
      rw [buildTokens_background]
      dsimp only
      have hlast : i ≠ list.count - 1 ↔ rest ≠ [] := by
        rw [h.count] at hi ⊢
        rw [← hrest, Ne, Ne, List.drop_eq_nil_iff]
        omega
      by_cases hmore : rest ≠ []
      · rw [if_pos (hlast.mpr hmore), if_pos hmore]
        rfl
      rw [if_neg fun h' => hmore (hlast.mp h'), if_neg hmore, raw_headBackground]
      by_cases hdup : b.headBackground ≠ 0
      · rw [if_pos hdup, if_pos hdup]
        rfl
      · rw [if_neg hdup, if_neg hdup, raw_setBackground]
        exact buildArray_eq h rest (i + 1) _ hrest
    | pipe =>
      rw [buildTokens_pipe]
      dsimp only
      by_cases hnone : b.current.argc = 0
      · have hraw : b.raw.current.argc = 0 := hnone
        rw [if_pos hraw, if_pos hnone]
        rfl
      · have hraw : ¬ b.raw.current.argc = 0 := hnone
        rw [if_neg hraw, if_neg hnone, hafter, Option.bind_some]
        by_cases hword : (!wordFollows rest) = true
        · rw [if_pos hword, if_pos hword]
          rfl
        · rw [if_neg hword, if_neg hword, raw_next]
          exact buildArray_eq h rest (i + 1) _ hrest
termination_by rest => rest.length
decreasing_by
  all_goals simp only [List.length_cons]
  all_goals first
    | omega
    | rw [heq, List.length_cons]; omega

/-- The end of each `argv` is written within it. -/
theorem terminateArray_eq : ∀ cmds : List Command,
    terminateArray (cmds.map Command.raw) = some ((terminateArgs cmds).map (List.map Command.raw))
  | [] => rfl
  | cmd :: cmds => by
    have hwrite : writeAt cmd.raw.argv cmd.raw.argc none = some (cmd.argv.set cmd.argc none cmd.argc_lt) :=
      dif_pos cmd.argc_lt
    rw [List.map_cons, terminateArray, terminateArgs]
    by_cases hnone : cmd.argc = 0
    · have hraw : cmd.raw.argc = 0 := hnone
      rw [if_pos hraw, if_pos hnone]
      rfl
    · have hraw : ¬ cmd.raw.argc = 0 := hnone
      rw [if_neg hraw, if_neg hnone, hwrite, Option.bind_some, terminateArray_eq cmds]
      cases terminateArgs cmds <;> rfl

/-- `parse_line` with its arrays does what it does without them. -/
theorem parseLineArray_eq {ρ : Type} (line : List Byte) (ctx : Option (ShellContext ρ)) (list : TokenArray) :
    parseLineArray (ctx.elim 0 (·.lastExitStatus)) line list =
      some ((parseLine line ctx).chain.map (List.map Command.raw)) := by
  unfold parseLineArray parseLine
  rcases tokenizeArray_eq line list with ⟨e, harray, hlist⟩ | ⟨list', ts, harray, hlist, h⟩
  · rw [harray, hlist]
    rfl
  rw [harray, hlist, Option.bind_some]
  dsimp only
  by_cases hnil : ts = []
  · rw [if_pos (by rw [h.count, hnil]; rfl), if_pos hnil]
    rfl
  have hcount : ¬ list'.count = 0 := by
    rw [h.count]
    exact fun h0 => hnil (List.length_eq_zero_iff.mp h0)
  have hinit : (⟨[], rawInit⟩ : RawBuilding) = Building.raw ⟨[], commandInit⟩ := rfl
  rw [if_neg hcount, if_neg hnil, hinit, buildArray_eq h ts 0 _ List.drop_zero, Option.bind_some]
  unfold buildCommand
  cases buildTokens (ctx.elim 0 (·.lastExitStatus)) ts ⟨[], commandInit⟩ with
  | error e => rfl
  | ok b =>
    change (terminateArray b.raw.chain).map Except.toOption = _
    rw [raw_chain, terminateArray_eq, Option.map_some]
    dsimp only
    cases terminateArgs b.chain <;> rfl

end Building

/-! ### The number of commands -/

section Count

theorem stage_words {ts : List Token} {items : List Item} (h : Stage ts items) :
    (words items).length ≤ ts.length := by
  induction h with
  | nil => exact Nat.le_refl 0
  | word h ih => exact Nat.succ_le_succ ih
  | input h ih | output h ih | append h ih => exact ih.trans (by rw [List.length_cons, List.length_cons]; omega)

/-- Every command but the last has a word and a `|` of its own, and the last has
a word. -/
theorem sentence_length {toks : List Token} {stages : List (List Item)} {bg : Bool} (h : Sentence toks stages bg)
    (hwords : ∀ items ∈ stages, 1 ≤ (words items).length) : 2 * stages.length ≤ toks.length + 1 := by
  induction h with
  | @last ts items hs =>
    have hle := stage_words hs
    have hone := hwords items List.mem_cons_self
    rw [List.length_singleton]
    omega
  | @background ts items t hs =>
    have hle := stage_words hs
    have hone := hwords items List.mem_cons_self
    rw [List.length_singleton, List.length_append, List.length_singleton]
    omega
  | @pipe ts items t rest stages bg hs hr ih =>
    have hle := stage_words hs
    have hone := hwords items List.mem_cons_self
    have hrest := ih fun items hitems => hwords items (List.mem_cons_of_mem _ hitems)
    rw [List.length_cons, List.length_append, List.length_cons]
    omega

theorem tokenize_length {line : List Byte} {toks : List Token} (h : tokenize line = .ok toks) :
    toks.length ≤ MAX_TOKEN := by
  rcases tokenizeArray_eq line ⟨Vector.replicate MAX_TOKEN ⟨Vector.replicate TOKEN_SIZE 0, .word⟩, 0⟩ with
    ⟨e, -, herror⟩ | ⟨list, ts, -, hok, hholds⟩
  · rw [h] at herror
    cases herror
  · obtain rfl : toks = ts := Except.ok.inj (h.symm.trans hok)
    exact hholds.length

/-- A command as `execute_pipeline` and `execvp` need it. -/
structure CommandOk (cmd : Command) : Prop where
  one_arg : 1 ≤ cmd.argc
  fit : cmd.argc ≤ MAX_ARGS - 1
  args : ∀ i : Fin MAX_ARGS, i.val < cmd.argc → cmd.argv[i] ≠ none
  last : cmd.afterArgs = none

theorem Describes.commandOk {status : ℤ} {items : List Item} {bg : Bool} {cmd : Command}
    (h : Describes status items bg cmd) (hok : StageOk items) : CommandOk cmd := by
  refine ⟨h.argc ▸ hok.some_word, h.argc ▸ hok.fit, fun i hi => ?_, h.afterArgs⟩
  rw [h.argv, List.getElem?_map]
  have hlt : i.val < (words items).length := h.argc ▸ hi
  rw [List.getElem?_eq_getElem hlt]
  exact Option.some_ne_none _

variable {ρ : Type}

theorem parseLine_commands {line : List Byte} {ctx : Option (ShellContext ρ)} {chain : List Command}
    (h : (parseLine line ctx).chain = some chain) : chain.length ≤ MAX_PIPELINE ∧ ∀ cmd ∈ chain, CommandOk cmd := by
  obtain ⟨toks, stages, bg, htoks, hsentence, hok, hchain⟩ := ((parse_line_grammar line ctx).1 chain).mp h
  have hcommands : ∀ cmd ∈ chain, CommandOk cmd := hchain.forall hok.ok fun _ _ _ hs hd => hd.commandOk hs
  refine ⟨?_, hcommands⟩
  have hlen := sentence_length hsentence fun items hitems => (hok.ok items hitems).some_word
  have hmax := tokenize_length htoks
  have hsame : chain.length = stages.length := by
    cases hchain with
    | intro hd ht => rw [List.length_cons, List.length_cons, ht.length_eq]
  unfold MAX_TOKEN at hmax
  unfold MAX_PIPELINE
  omega

end Count

/-! ### The array of `execute_pipeline` -/

/-- The variables of the loop. -/
structure PipelineArrayState where
  pipeFd : ℤ
  pids : Vector ℕ MAX_PIPELINE
  count : ℕ
  pgid : ℕ

/-- What the function comes to: an index out of bounds, the branch for too many
commands, or a value that is returned elsewhere. -/
inductive PipelineEnd
  | outOfBounds
  | tooMany
  | returned (ret : ℤ)

/-- `rollback_pipeline`, and `ret`. -/
def rollbackArray (pgid : ℕ) (pids : Vector ℕ MAX_PIPELINE) (count : ℕ) (ret : PipelineEnd) :
    ExecProg (Except PipelineEnd PipelineArrayState) :=
  match readFirst pids count with
  | none => .ret (.error .outOfBounds)
  | some pids => (rollbackPipeline pgid pids).bind fun _ => .ret (.error ret)

def pipelineStageArray (gate : ℤ × ℤ) (current : Command) (next : Bool) (s : PipelineArrayState) :
    ExecProg (Except PipelineEnd PipelineArrayState) :=
  if s.count ≥ MAX_PIPELINE then
    (closeOpen s.pipeFd).bind fun _ =>
    (closeFd gate.1).bind fun _ =>
    (closeFd gate.2).bind fun _ => rollbackArray s.pgid s.pids s.count .tooMany
  else (stagePipe next).bind fun p =>
    if p.ret < 0 then
      (closeOpen s.pipeFd).bind fun _ =>
      (closeFd gate.1).bind fun _ =>
      (closeFd gate.2).bind fun _ => rollbackArray s.pgid s.pids s.count (.returned MiniShell_ERR_PIPE)
    else .call (.fork (.stage current next gate s.pgid s.pipeFd p.fds)) fun r =>
      if r.ret < 0 then
        (closeOpen p.fds.1).bind fun _ =>
        (closeOpen p.fds.2).bind fun _ =>
        (closeOpen s.pipeFd).bind fun _ =>
        (closeFd gate.1).bind fun _ =>
        (closeFd gate.2).bind fun _ => rollbackArray s.pgid s.pids s.count (.returned MiniShell_ERR_FORK)
      else
        let pid := r.ret.toNat
        match writeAt s.pids s.count pid with
        | none => .ret (.error .outOfBounds)
        | some pids =>
          let count := s.count + 1
          let pgid := if s.pgid = 0 then pid else s.pgid
          (setpgidParent pid pgid).bind fun ret =>
          if ret < 0 then
            (closeOpen p.fds.1).bind fun _ =>
            (closeOpen p.fds.2).bind fun _ =>
            (closeOpen s.pipeFd).bind fun _ =>
            (closeFd gate.1).bind fun _ =>
            (closeFd gate.2).bind fun _ => rollbackArray pgid pids count (.returned MiniShell_ERR_UNKNOWN)
          else (closeOpen s.pipeFd).bind fun _ =>
            if next then (closeFd p.fds.2).bind fun _ => .ret (.ok ⟨p.fds.1, pids, count, pgid⟩)
            else .ret (.ok ⟨-1, pids, count, pgid⟩)

def pipelineStagesArray (gate : ℤ × ℤ) : List Command → PipelineArrayState →
    ExecProg (Except PipelineEnd PipelineArrayState)
  | [], s => .ret (.ok s)
  | current :: rest, s => (pipelineStageArray gate current (!rest.isEmpty) s).bind fun
    | .error ret => .ret (.error ret)
    | .ok s => pipelineStagesArray gate rest s

/-- What follows the loop reads the first `count` entries of `pids` on every
way, to add them to the job or to undo the start. -/
def launchPipelineArray (com : Command) (ctx : ExecContext) (gate : ℤ × ℤ) (s : PipelineArrayState) :
    ExecProg PipelineEnd :=
  match readFirst s.pids s.count with
  | none => .ret .outOfBounds
  | some pids => (launchPipeline com ctx gate ⟨s.pipeFd, pids, s.pgid⟩).bind fun ret => .ret (.returned ret)

/-- 0 stands for the -1 that `pids` is filled with. -/
def executePipelineArray (com : Command) (rest : List Command) (ctx : ExecContext) : ExecProg PipelineEnd :=
  startupGateCreate.bind fun (ret, gate) =>
  if ret < 0 then .ret (.returned MiniShell_ERR_PIPE)
  else (pipelineStagesArray gate (com :: rest) ⟨-1, Vector.replicate MAX_PIPELINE 0, 0, 0⟩).bind fun
    | .error ret => .ret ret
    | .ok s => launchPipelineArray com ctx gate s

/-- What follows a turn. -/
def afterStage (more : PipelineState → ExecProg PipelineEnd) : Except ℤ PipelineState → ExecProg PipelineEnd
  | .error ret => .ret (.returned ret)
  | .ok s => more s

def afterStageArray (more : PipelineArrayState → ExecProg PipelineEnd) :
    Except PipelineEnd PipelineArrayState → ExecProg PipelineEnd
  | .error ret => .ret ret
  | .ok s => more s

open Prog

section Pipeline

variable {s : PipelineState} {a : PipelineArrayState}

/-- The array has the pids of the list. -/
structure InArray (a : PipelineArrayState) (s : PipelineState) : Prop where
  pipeFd : a.pipeFd = s.pipeFd
  pgid : a.pgid = s.pgid
  count : a.count = s.pids.length
  pids : s.pids <+: a.pids.toList

theorem bind_congr {α β : Type} {p : ExecProg α} {f g : α → ExecProg β} (h : ∀ a, f a = g a) : p.bind f = p.bind g :=
  congrArg p.bind (funext h)

/-- The start is undone with the same pids. -/
theorem rollbackArray_eq {pids : Vector ℕ MAX_PIPELINE} {list : List ℕ} (h : list <+: pids.toList) (pgid : ℕ)
    (ret : ℤ) (more : PipelineState → ExecProg PipelineEnd) (moreArray : PipelineArrayState → ExecProg PipelineEnd) :
    (rollbackArray pgid pids list.length (.returned ret)).bind (afterStageArray moreArray) =
      (rollbackPipeline pgid list).bind fun _ =>
        (.ret (.error ret) : ExecProg (Except ℤ PipelineState)).bind (afterStage more) := by
  unfold rollbackArray
  rw [readFirst_leading h]
  dsimp only
  rw [Prog.bind_assoc]
  rfl

/-- A turn of the loop writes its pid within the array. -/
theorem pipelineStageArray_eq (gate : ℤ × ℤ) (current : Command) (next : Bool)
    (more : PipelineState → ExecProg PipelineEnd) (moreArray : PipelineArrayState → ExecProg PipelineEnd)
    (h : InArray a s) (hroom : s.pids.length < MAX_PIPELINE)
    (hmore : ∀ a' s', InArray a' s' → s'.pids.length = s.pids.length + 1 → moreArray a' = more s') :
    (pipelineStageArray gate current next a).bind (afterStageArray moreArray) =
      (pipelineStage gate current next s).bind (afterStage more) := by
  obtain ⟨pipeFd, pids, count, pgid⟩ := a
  obtain ⟨rfl, rfl, rfl, hpids⟩ := h
  have hpids : s.pids <+: pids.toList := hpids
  have hfull : ¬ s.pids.length ≥ MAX_PIPELINE := Nat.not_le.mpr hroom
  unfold pipelineStageArray pipelineStage
  dsimp only
  rw [if_neg hfull, if_neg hfull, Prog.bind_assoc, Prog.bind_assoc]
  refine bind_congr fun p => ?_
  by_cases hpipe : p.ret < 0
  · rw [if_pos hpipe, if_pos hpipe]
    simp only [Prog.bind_assoc]
    refine bind_congr fun _ => bind_congr fun _ => bind_congr fun _ => ?_
    exact rollbackArray_eq hpids _ _ _ _
  rw [if_neg hpipe, if_neg hpipe, call_bind, call_bind]
  congr 1
  funext r
  by_cases hfork : r.ret < 0
  · rw [if_pos hfork, if_pos hfork]
    simp only [Prog.bind_assoc]
    refine bind_congr fun _ => bind_congr fun _ => bind_congr fun _ => bind_congr fun _ => bind_congr fun _ => ?_
    exact rollbackArray_eq hpids _ _ _ _
  rw [if_neg hfork, if_neg hfork]
  obtain ⟨pids', hwrite, hpids'⟩ := writeAt_prefix hpids hroom r.ret.toNat
  have hcount : (s.pids ++ [r.ret.toNat]).length = s.pids.length + 1 := by
    rw [List.length_append, List.length_singleton]
  rw [hwrite]
  dsimp only
  rw [Prog.bind_assoc, Prog.bind_assoc]
  refine bind_congr fun ret => ?_
  by_cases hset : ret < 0
  · rw [if_pos hset, if_pos hset]
    simp only [Prog.bind_assoc]
    refine bind_congr fun _ => bind_congr fun _ => bind_congr fun _ => bind_congr fun _ => bind_congr fun _ => ?_
    rw [← hcount]
    exact rollbackArray_eq hpids' _ _ _ _
  rw [if_neg hset, if_neg hset, Prog.bind_assoc, Prog.bind_assoc]
  refine bind_congr fun _ => ?_
  cases next with
  | false => exact hmore _ _ ⟨rfl, rfl, hcount.symm, hpids'⟩ hcount
  | true =>
    rw [if_pos rfl, if_pos rfl, Prog.bind_assoc, Prog.bind_assoc]
    exact bind_congr fun _ => hmore _ _ ⟨rfl, rfl, hcount.symm, hpids'⟩ hcount

/-- The loop, for commands that all have room. -/
theorem pipelineStagesArray_eq (gate : ℤ × ℤ) {more : PipelineState → ExecProg PipelineEnd}
    {moreArray : PipelineArrayState → ExecProg PipelineEnd}
    (hmore : ∀ a' s', InArray a' s' → moreArray a' = more s') :
    ∀ (chain : List Command) {a : PipelineArrayState} {s : PipelineState}, InArray a s →
      s.pids.length + chain.length ≤ MAX_PIPELINE →
      (pipelineStagesArray gate chain a).bind (afterStageArray moreArray) =
        (pipelineStages gate chain s).bind (afterStage more)
  | [], a, s, h, _ => hmore a s h
  | current :: rest, a, s, h, hroom => by
    rw [List.length_cons] at hroom
    unfold pipelineStagesArray pipelineStages
    rw [Prog.bind_assoc, Prog.bind_assoc]
    have hrest : ∀ a' s', InArray a' s' → s'.pids.length = s.pids.length + 1 →
        (pipelineStagesArray gate rest a').bind (afterStageArray moreArray) =
          (pipelineStages gate rest s').bind (afterStage more) :=
      fun a' s' h' hlen => pipelineStagesArray_eq gate hmore rest h' (by omega)
    have hstage := pipelineStageArray_eq gate current (!rest.isEmpty) _ _ h (by omega) hrest
    refine Eq.trans (bind_congr fun r => ?_) (hstage.trans (bind_congr fun r => ?_))
    · cases r <;> rfl
    · cases r <;> rfl

theorem launchPipelineArray_eq (com : Command) (ctx : ExecContext) (gate : ℤ × ℤ) (h : InArray a s) :
    launchPipelineArray com ctx gate a = (launchPipeline com ctx gate s).bind fun ret => .ret (.returned ret) := by
  unfold launchPipelineArray
  rw [h.count, readFirst_leading h.pids, h.pipeFd, h.pgid]

/-- A chain that is no longer than `pids`. -/
theorem executePipelineArray_eq (com : Command) (rest : List Command) (ctx : ExecContext)
    (hlen : (com :: rest).length ≤ MAX_PIPELINE) :
    executePipelineArray com rest ctx = (executePipeline com rest ctx).bind fun ret => .ret (.returned ret) := by
  unfold executePipelineArray executePipeline
  rw [Prog.bind_assoc]
  refine bind_congr fun r => ?_
  obtain ⟨ret, gate⟩ := r
  dsimp only
  by_cases hret : ret < 0
  · rw [if_pos hret, if_pos hret]
    rfl
  rw [if_neg hret, if_neg hret, Prog.bind_assoc]
  have hempty : InArray ⟨-1, Vector.replicate MAX_PIPELINE 0, 0, 0⟩ ⟨-1, [], 0⟩ := ⟨rfl, rfl, rfl, List.nil_prefix⟩
  have hloop := pipelineStagesArray_eq gate (fun a' s' h => launchPipelineArray_eq com ctx gate h)
    (com :: rest) hempty (by rwa [List.length_nil, Nat.zero_add])
  refine Eq.trans (bind_congr fun r => ?_) (hloop.trans (bind_congr fun r => ?_))
  · cases r <;> rfl
  · cases r <;> rfl

end Pipeline

/-- For every line no index of the parser is out of bounds; a chain has
commands that can be run, no more than `pids` has room for; and the pipeline
that is made of it takes no index out of bounds and not the branch for too many
commands. -/
theorem parser_limits {ρ : Type} (line : List Byte) (ctx : Option (ShellContext ρ)) (list : TokenArray) :
    parseLineArray (ctx.elim 0 (·.lastExitStatus)) line list =
      some ((parseLine line ctx).chain.map (List.map Command.raw)) ∧
    ∀ chain, (parseLine line ctx).chain = some chain →
      chain.length ≤ MAX_PIPELINE ∧ (∀ cmd ∈ chain, CommandOk cmd) ∧
      ∀ com rest exec, chain = com :: rest → executePipelineArray com rest exec =
        (executePipeline com rest exec).bind fun ret => .ret (.returned ret) := by
  refine ⟨parseLineArray_eq line ctx list, fun chain hchain => ?_⟩
  obtain ⟨hlen, hcommands⟩ := parseLine_commands hchain
  refine ⟨hlen, hcommands, ?_⟩
  rintro com rest exec rfl
  exact executePipelineArray_eq com rest exec hlen

/-- A pipeline of two commands. -/
theorem parser_limits_pipe : ∃ chain, (parseLine (text "a|b") (none : Option (ShellContext Unit))).chain =
    some chain ∧ chain.length ≤ MAX_PIPELINE := by
  have hline : (0 : Byte) ∉ text "a|b" := by decide
  have htokens : tokenize (text "a|b") = .ok [⟨.word, text "a"⟩, ⟨.pipe, text "|"⟩, ⟨.word, text "b"⟩] := by
    have hfirst : nextToken (text "a|b") = some (.word, text "a", text "|b") := by decide +kernel
    have hpipe : nextToken (text "|b") = some (.pipe, text "|", text "b") := by decide +kernel
    have hlast : nextToken (text "b") = some (.word, text "b", []) := by decide +kernel
    refine (tokenize_ok hline).mpr ⟨?_, by decide, by decide⟩
    rw [unlimited_some hfirst, unlimited_some hpipe, unlimited_some hlast, unlimited_none rfl]
  have hsome : ((parseLine (text "a|b") (none : Option (ShellContext Unit))).chain).isSome = true := by
    unfold parseLine
    rw [htokens]
    rfl
  obtain ⟨chain, hchain⟩ := Option.isSome_iff_exists.mp hsome
  have hlist := @parser_limits Unit (text "a|b") none
    ⟨Vector.replicate MAX_TOKEN ⟨Vector.replicate TOKEN_SIZE 0, .word⟩, 0⟩
  exact ⟨chain, hchain, (hlist.2 chain hchain).1⟩

end DeviceRuntime
