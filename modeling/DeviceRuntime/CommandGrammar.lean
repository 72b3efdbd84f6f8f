/-
# The language of the command line

What a command line is, apart from the loop that reads it: stages of words and
redirections with `|` between them and `&` at the end (`Sentence`), within
limits (`Admissible`), and the chain that stands for it (`Chain`).
`buildCommand` accepts exactly the admissible sentences and returns their
chain (`parse_line_grammar`).

The loop lemma follows the tokens from the left: what is left of the sentence,
with what the current command has already (`build_sound`, `build_complete`).

Key definitions: `Item`, `Stage`, `Sentence`, `Admissible`, `Describes`,
`Chain`.
Key theorems: `build_sound`, `build_complete`, `parse_line_grammar`.
-/
import Mathlib.Data.List.Forall2
import DeviceRuntime.Parser

namespace DeviceRuntime

/-- What a stage is made of. -/
inductive Item
  | word (w : List Byte)
  | input (file : List Byte)
  | output (file : List Byte) (append : Bool)
deriving DecidableEq, Repr

/-- The words of a stage, as written. -/
def words : List Item → List (List Byte) :=
  List.filterMap fun
    | .word w => some w
    | _ => none

def inputs : List Item → List (List Byte) :=
  List.filterMap fun
    | .input file => some file
    | _ => none

def outputs : List Item → List (List Byte × Bool) :=
  List.filterMap fun
    | .output file append => some (file, append)
    | _ => none

/-- The tokens of a stage. -/
inductive Stage : List Token → List Item → Prop
  | nil : Stage [] []
  | word {w ts items} (h : Stage ts items) : Stage (⟨.word, w⟩ :: ts) (.word w :: items)
  | input {t file ts items} (h : Stage ts items) :
      Stage (⟨.redirectIn, t⟩ :: ⟨.word, file⟩ :: ts) (.input file :: items)
  | output {t file ts items} (h : Stage ts items) :
      Stage (⟨.redirectOut, t⟩ :: ⟨.word, file⟩ :: ts) (.output file false :: items)
  | append {t file ts items} (h : Stage ts items) :
      Stage (⟨.redirectAppend, t⟩ :: ⟨.word, file⟩ :: ts) (.output file true :: items)

/-- stage ('|' stage)* ['&'], with its stages and whether there is a `&`. -/
inductive Sentence : List Token → List (List Item) → Bool → Prop
  | last {ts items} (h : Stage ts items) : Sentence ts [items] false
  | background {ts items t} (h : Stage ts items) : Sentence (ts ++ [⟨.background, t⟩]) [items] true
  | pipe {ts items t rest stages bg} (h : Stage ts items) (hr : Sentence rest stages bg) :
      Sentence (ts ++ ⟨.pipe, t⟩ :: rest) (items :: stages) bg

/-- The limits of one stage. -/
structure StageOk (items : List Item) : Prop where
  some_word : 1 ≤ (words items).length
  fit : (words items).length ≤ MAX_ARGS - 1
  one_input : (inputs items).length ≤ 1
  one_output : (outputs items).length ≤ 1

/-- The limits of every stage; and all but the first begin with a word. -/
structure Admissible (stages : List (List Item)) : Prop where
  ok : ∀ items ∈ stages, StageOk items
  word_first : ∀ items ∈ stages.tail, ∃ w, items.head? = some (.word w)

/-- A command that stands for a stage: its arguments in order and nothing
after them, and its redirections. -/
structure Describes (status : ℤ) (items : List Item) (background : Bool) (cmd : Command) : Prop where
  argc : cmd.argc = (words items).length
  argv : ∀ i : Fin MAX_ARGS, cmd.argv[i] = ((words items).map (expandWord status))[i.val]?
  background : cmd.background = if background then 1 else 0
  input : cmd.redirect.inputFile = (inputs items).head?
  output : cmd.redirect.outputFile = (outputs items).head?.map Prod.fst
  append : cmd.redirect.append = if (outputs items).head?.any Prod.snd then 1 else 0

/-- One command a stage, in order; only the first can be in the background. -/
inductive Chain (status : ℤ) (bg : Bool) : List (List Item) → List Command → Prop
  | intro {items stages cmd cmds} (h : Describes status items bg cmd)
      (ht : List.Forall₂ (fun items cmd => Describes status items false cmd) stages cmds) :
      Chain status bg (items :: stages) (cmd :: cmds)

/-- `argv[argc]`. -/
def Command.afterArgs (cmd : Command) : Option (List Byte) := cmd.argv[(⟨cmd.argc, cmd.argc_lt⟩ : Fin MAX_ARGS)]

section Describes

variable {status : ℤ} {items : List Item} {bg : Bool} {cmd cmd' : Command}

theorem Describes.afterArgs (h : Describes status items bg cmd) : cmd.afterArgs = none := by
  rw [Command.afterArgs, h.argv]
  refine List.getElem?_eq_none ?_
  rw [List.length_map]
  exact h.argc.ge

/-- A stage has one command. -/
theorem Describes.unique (h : Describes status items bg cmd) (h' : Describes status items bg cmd') :
    cmd = cmd' := by
  obtain ⟨argc, argv, background, ⟨input, output, append⟩, hlt⟩ := cmd
  obtain ⟨argc', argv', background', ⟨input', output', append'⟩, hlt'⟩ := cmd'
  obtain rfl : argc = argc' := h.argc.trans h'.argc.symm
  obtain rfl : argv = argv' := Vector.ext fun i hi => (h.argv ⟨i, hi⟩).trans (h'.argv ⟨i, hi⟩).symm
  obtain rfl : background = background' := h.background.trans h'.background.symm
  obtain rfl : input = input' := h.input.trans h'.input.symm
  obtain rfl : output = output' := h.output.trans h'.output.symm
  obtain rfl : append = append' := h.append.trans h'.append.symm
  rfl

theorem Chain.unique {stages : List (List Item)} {cmds cmds' : List Command}
    (h : Chain status bg stages cmds) (h' : Chain status bg stages cmds') : cmds = cmds' := by
  cases h with
  | intro h ht =>
    cases h' with
    | intro h' ht' =>
      rw [h.unique h', List.right_unique_forall₂' (fun _ _ _ hb hc => hb.unique hc) ht ht']

/-! ### The items of a stage, one after the other -/

theorem words_append (items items' : List Item) : words (items ++ items') = words items ++ words items' :=
  List.filterMap_append

theorem inputs_append (items items' : List Item) :
    inputs (items ++ items') = inputs items ++ inputs items' := List.filterMap_append

theorem outputs_append (items items' : List Item) :
    outputs (items ++ items') = outputs items ++ outputs items' := List.filterMap_append

theorem describes_commandInit : Describes status [] false commandInit := by
  refine ⟨rfl, fun i => ?_, rfl, rfl, rfl, rfl⟩
  show (Vector.replicate MAX_ARGS none)[i.val] = none
  exact Vector.getElem_replicate i.isLt

/-- The limits a stage is kept to while it is read. -/
structure Within (items : List Item) : Prop where
  fit : (words items).length ≤ MAX_ARGS - 1
  one_input : (inputs items).length ≤ 1
  one_output : (outputs items).length ≤ 1

theorem Within.left (items' : List Item) (h : Within (items ++ items')) : Within items := by
  obtain ⟨h1, h2, h3⟩ := h
  rw [words_append, List.length_append] at h1
  rw [inputs_append, List.length_append] at h2
  rw [outputs_append, List.length_append] at h3
  exact ⟨by omega, by omega, by omega⟩

variable {b : Building}

theorem Describes.pushArg (h : Describes status items false b.current) (w : List Byte)
    (hfit : ¬ b.current.argc ≥ MAX_ARGS - 1) :
    Describes status (items ++ [.word w]) false (b.pushArg (expandWord status w) hfit).current := by
  have hwords : words (items ++ [.word w]) = words items ++ [w] := words_append _ _
  have hin : inputs (items ++ [.word w]) = inputs items := by
    rw [inputs_append]
    exact List.append_nil _
  have hout : outputs (items ++ [.word w]) = outputs items := by
    rw [outputs_append]
    exact List.append_nil _
  refine ⟨?_, fun i => ?_, h.background, ?_, ?_, ?_⟩
  · rw [hwords, List.length_append, ← h.argc]
    rfl
  · have hi := h.argv i
    rw [hwords, List.map_append, List.map_singleton]
    show (b.current.argv.set b.current.argc (some (expandWord status w)) b.current.argc_lt)[i.val] = _
    rw [Vector.getElem_set]
    have hlen : ((words items).map (expandWord status)).length = b.current.argc := by
      rw [List.length_map, h.argc]
    by_cases heq : b.current.argc = i.val
    · rw [if_pos heq, List.getElem?_append_right (by omega), hlen, heq, Nat.sub_self]
      rfl
    · rw [if_neg heq]
      refine hi.trans ?_
      rcases Nat.lt_or_gt_of_ne heq with hlt | hgt
      · rw [List.getElem?_eq_none (by omega), List.getElem?_eq_none]
        rw [List.length_append, List.length_singleton]
        omega
      · rw [List.getElem?_append_left (by omega)]
  · rw [hin]
    exact h.input
  · rw [hout]
    exact h.output
  · rw [hout]
    exact h.append

theorem Describes.setInput (h : Describes status items false b.current) (hnone : inputs items = [])
    (file : List Byte) : Describes status (items ++ [.input file]) false (b.setInput file).current := by
  have hwords : words (items ++ [.input file]) = words items := by
    rw [words_append]
    exact List.append_nil _
  have hin : inputs (items ++ [.input file]) = [file] := by
    rw [inputs_append, hnone]
    rfl
  have hout : outputs (items ++ [.input file]) = outputs items := by
    rw [outputs_append]
    exact List.append_nil _
  refine ⟨?_, fun i => ?_, h.background, ?_, ?_, ?_⟩
  · rw [hwords]
    exact h.argc
  · rw [hwords]
    exact h.argv i
  · rw [hin]
    rfl
  · rw [hout]
    exact h.output
  · rw [hout]
    exact h.append

theorem Describes.setOutput (h : Describes status items false b.current) (hnone : outputs items = [])
    (file : List Byte) (append : Bool) : Describes status (items ++ [.output file append]) false
      (b.setOutput file (if append then 1 else 0)).current := by
  have hwords : words (items ++ [.output file append]) = words items := by
    rw [words_append]
    exact List.append_nil _
  have hin : inputs (items ++ [.output file append]) = inputs items := by
    rw [inputs_append]
    exact List.append_nil _
  have hout : outputs (items ++ [.output file append]) = [(file, append)] := by
    rw [outputs_append, hnone]
    rfl
  refine ⟨?_, fun i => ?_, h.background, ?_, ?_, ?_⟩
  · rw [hwords]
    exact h.argc
  · rw [hwords]
    exact h.argv i
  · rw [hin]
    exact h.input
  · rw [hout]
    rfl
  · rw [hout]
    rfl

theorem Describes.inputFile_isSome (h : Describes status items false cmd) :
    cmd.redirect.inputFile.isSome = true ↔ inputs items ≠ [] := by
  rw [h.input, List.isSome_head?]

theorem Describes.outputFile_isSome (h : Describes status items false cmd) :
    cmd.redirect.outputFile.isSome = true ↔ outputs items ≠ [] := by
  rw [h.output, Option.isSome_map, List.isSome_head?]

end Describes

/-! ### The loop -/

/-- The first command is in the background. -/
def setHead : List Command → List Command
  | [] => []
  | cmd :: cmds => { cmd with background := 1 } :: cmds

theorem chain_setBackground (b : Building) : b.setBackground.chain = setHead b.chain := by
  obtain ⟨done, current⟩ := b
  cases done <;> rfl

/-- A sentence goes on to the left within its first stage. -/
theorem Sentence.prepend {p ts : List Token} {item : Item} {items : List Item}
    {stages : List (List Item)} {bg : Bool}
    (hp : ∀ ts items, Stage ts items → Stage (p ++ ts) (item :: items))
    (h : Sentence ts (items :: stages) bg) : Sentence (p ++ ts) ((item :: items) :: stages) bg := by
  cases h with
  | last h => exact .last (hp _ _ h)
  | background h =>
    rw [← List.append_assoc]
    exact .background (hp _ _ h)
  | pipe h hr =>
    rw [← List.append_assoc]
    exact .pipe (hp _ _ h) hr

/-- What the loop has built when it has read the rest of a sentence. -/
structure Built (status : ℤ) (cur : List Item) (b : Building) (toks : List Token) (b' : Building)
    (items : List Item) (stages : List (List Item)) (bg : Bool) (cmd : Command) (cmds : List Command) :
    Prop where
  sentence : Sentence toks (items :: stages) bg
  within : Within (cur ++ items)
  ok : ∀ s ∈ stages, Within s ∧ ∃ w, s.head? = some (.word w)
  some_word : stages ≠ [] → words (cur ++ items) ≠ []
  describes : Describes status (cur ++ items) false cmd
  rest : List.Forall₂ (fun items cmd => Describes status items false cmd) stages cmds
  chain : b'.chain = if bg then setHead (b.done ++ cmd :: cmds) else b.done ++ cmd :: cmds

theorem Built.prepend {status : ℤ} {cur : List Item} {b b₁ b' : Building} {p ts : List Token} {item : Item}
    {items : List Item} {stages : List (List Item)} {bg : Bool} {cmd : Command} {cmds : List Command}
    (h : Built status (cur ++ [item]) b₁ ts b' items stages bg cmd cmds)
    (hp : ∀ ts items, Stage ts items → Stage (p ++ ts) (item :: items)) (hdone : b₁.done = b.done) :
    Built status cur b (p ++ ts) b' (item :: items) stages bg cmd cmds := by
  have happ : cur ++ [item] ++ items = cur ++ item :: items := by
    rw [List.append_assoc, List.singleton_append]
  exact ⟨h.sentence.prepend hp, happ ▸ h.within, h.ok, happ ▸ h.some_word, happ ▸ h.describes, h.rest,
    hdone ▸ h.chain⟩

theorem Within.word {items : List Item} (h : Within items) (hfit : (words items).length < MAX_ARGS - 1)
    (w : List Byte) : Within (items ++ [.word w]) := by
  refine ⟨?_, ?_, ?_⟩
  · rw [words_append, List.length_append]
    exact hfit
  · rw [inputs_append]
    exact (List.append_nil _).symm ▸ h.one_input
  · rw [outputs_append]
    exact (List.append_nil _).symm ▸ h.one_output

theorem Within.input {items : List Item} (h : Within items) (hnone : inputs items = []) (file : List Byte) :
    Within (items ++ [.input file]) := by
  refine ⟨?_, ?_, ?_⟩
  · rw [words_append]
    exact (List.append_nil _).symm ▸ h.fit
  · rw [inputs_append, hnone]
    exact le_refl 1
  · rw [outputs_append]
    exact (List.append_nil _).symm ▸ h.one_output

theorem Within.output {items : List Item} (h : Within items) (hnone : outputs items = []) (file : List Byte)
    (append : Bool) : Within (items ++ [.output file append]) := by
  refine ⟨?_, ?_, ?_⟩
  · rw [words_append]
    exact (List.append_nil _).symm ▸ h.fit
  · rw [inputs_append]
    exact (List.append_nil _).symm ▸ h.one_input
  · rw [outputs_append, hnone]
    exact le_refl 1

theorem Sentence.word_first {toks : List Token} {items : List Item} {stages : List (List Item)} {bg : Bool}
    (h : Sentence toks (items :: stages) bg) (hword : wordFollows toks = true) :
    ∃ w, items.head? = some (.word w) := by
  have hstage : ∀ ts rest, Stage ts items → ts ≠ [] → wordFollows (ts ++ rest) = true →
      ∃ w, items.head? = some (.word w) := by
    intro ts rest hs hne hw
    cases hs with
    | nil => exact absurd rfl hne
    | word => exact ⟨_, rfl⟩
    | input => cases hw
    | output => cases hw
    | append => cases hw
  cases h with
  | last hs =>
    refine hstage toks [] hs ?_ (by rwa [List.append_nil])
    rintro rfl
    cases hword
  | @background ts _ t hs =>
    refine hstage ts _ hs ?_ hword
    rintro rfl
    cases hword
  | @pipe ts _ t rest _ _ hs hr =>
    refine hstage ts _ hs ?_ hword
    rintro rfl
    cases hword

theorem Within.no_output {items : List Item} {file : List Byte} {append : Bool}
    (h : Within (items ++ [.output file append])) : outputs items = [] := by
  have hlen := h.one_output
  rw [outputs_append, List.length_append] at hlen
  have hone : (outputs [Item.output file append]).length = 1 := rfl
  exact List.length_eq_zero_iff.mp (by omega)

/-- **Soundness of the loop.** What it accepts is the rest of a sentence. -/
theorem build_sound {status : ℤ} : ∀ (toks : List Token) (b b' : Building) (cur : List Item),
    buildTokens status toks b = .ok b' → Describes status cur false b.current → Within cur →
    ∃ items stages bg cmd cmds, Built status cur b toks b' items stages bg cmd cmds
  | [], b, b', cur, h, hd, hw => by
    obtain rfl : b = b' := Except.ok.inj h
    exact ⟨[], [], false, b.current, [], .last .nil, by rwa [List.append_nil],
      fun _ hs => absurd hs List.not_mem_nil, fun hne => absurd rfl hne, by rwa [List.append_nil], .nil, rfl⟩
  | ⟨.word, w⟩ :: rest, b, b', cur, h, hd, hw => by
    rw [buildTokens_word] at h
    by_cases hfull : b.current.argc ≥ MAX_ARGS - 1
    · rw [dif_pos hfull] at h
      cases h
    rw [dif_neg hfull] at h
    have hfit : (words cur).length < MAX_ARGS - 1 := by
      rw [← hd.argc]
      exact Nat.lt_of_not_ge hfull
    obtain ⟨items, stages, bg, cmd, cmds, hb⟩ :=
      build_sound rest _ b' (cur ++ [.word w]) h (hd.pushArg w hfull) (hw.word hfit w)
    exact ⟨_, _, _, _, _, hb.prepend (p := [_]) (fun _ _ => .word) rfl⟩
  | ⟨.redirectIn, t⟩ :: [], b, b', cur, h, hd, hw => by cases h
  | ⟨.redirectIn, t⟩ :: ⟨type, file⟩ :: rest, b, b', cur, h, hd, hw => by
    rw [buildTokens] at h
    dsimp only at h
    by_cases htype : type = .word
    · subst htype
      rw [if_neg (not_not.mpr rfl)] at h
      by_cases hdup : b.current.redirect.inputFile.isSome = true
      · rw [if_pos hdup] at h
        cases h
      rw [if_neg hdup] at h
      have hnone := not_not.mp (hd.inputFile_isSome.not.mp hdup)
      obtain ⟨items, stages, bg, cmd, cmds, hb⟩ :=
        build_sound rest _ b' (cur ++ [.input file]) h (hd.setInput hnone file) (hw.input hnone file)
      exact ⟨_, _, _, _, _, hb.prepend (p := [_, _]) (fun _ _ => .input) rfl⟩
    · rw [if_pos htype] at h
      cases h
  | ⟨.redirectOut, t⟩ :: [], b, b', cur, h, hd, hw => by cases h
  | ⟨.redirectOut, t⟩ :: ⟨type, file⟩ :: rest, b, b', cur, h, hd, hw => by
    rw [buildTokens] at h
    dsimp only at h
    by_cases htype : type = .word
    · subst htype
      rw [if_neg (not_not.mpr rfl)] at h
      by_cases hdup : b.current.redirect.outputFile.isSome = true
      · rw [if_pos hdup] at h
        cases h
      rw [if_neg hdup] at h
      have hnone := not_not.mp (hd.outputFile_isSome.not.mp hdup)
      obtain ⟨items, stages, bg, cmd, cmds, hb⟩ := build_sound rest _ b' (cur ++ [.output file false]) h
        (hd.setOutput hnone file false) (hw.output hnone file false)
      exact ⟨_, _, _, _, _, hb.prepend (p := [_, _]) (fun _ _ => .output) rfl⟩
    · rw [if_pos htype] at h
      cases h
  | ⟨.redirectAppend, t⟩ :: [], b, b', cur, h, hd, hw => by cases h
  | ⟨.redirectAppend, t⟩ :: ⟨type, file⟩ :: rest, b, b', cur, h, hd, hw => by
    rw [buildTokens] at h
    dsimp only at h
    by_cases htype : type = .word
    · subst htype
      rw [if_neg (not_not.mpr rfl)] at h
      by_cases hdup : b.current.redirect.outputFile.isSome = true
      · rw [if_pos hdup] at h
        cases h
      rw [if_neg hdup] at h
      have hnone := not_not.mp (hd.outputFile_isSome.not.mp hdup)
      obtain ⟨items, stages, bg, cmd, cmds, hb⟩ := build_sound rest _ b' (cur ++ [.output file true]) h
        (hd.setOutput hnone file true) (hw.output hnone file true)
      exact ⟨_, _, _, _, _, hb.prepend (p := [_, _]) (fun _ _ => .append) rfl⟩
    · rw [if_pos htype] at h
      cases h
  | ⟨.background, t⟩ :: rest, b, b', cur, h, hd, hw => by
    rw [buildTokens_background] at h
    by_cases hrest : rest = []
    · subst hrest
      rw [if_neg (not_not.mpr rfl)] at h
      by_cases hbg : b.headBackground ≠ 0
      · rw [if_pos hbg] at h
        cases h
      rw [if_neg hbg] at h
      obtain rfl : b.setBackground = b' := Except.ok.inj h
      have hsentence : Sentence [⟨.background, t⟩] [[]] true := Sentence.background Stage.nil
      exact ⟨[], [], true, b.current, [], hsentence, by rwa [List.append_nil],
        fun _ hs => absurd hs List.not_mem_nil, fun hne => absurd rfl hne, by rwa [List.append_nil], .nil,
        chain_setBackground b⟩
    · rw [if_pos hrest] at h
      cases h
  | ⟨.pipe, t⟩ :: rest, b, b', cur, h, hd, hw => by
    rw [buildTokens_pipe] at h
    by_cases hargc : b.current.argc = 0
    · rw [if_pos hargc] at h
      cases h
    rw [if_neg hargc] at h
    by_cases hword : wordFollows rest = true
    · rw [hword] at h
      obtain ⟨items, stages, bg, cmd, cmds, hb⟩ := build_sound rest b.next b' [] h describes_commandInit
        ⟨Nat.zero_le _, Nat.zero_le _, Nat.zero_le _⟩
      have hsentence : Sentence (⟨.pipe, t⟩ :: rest) ([] :: items :: stages) bg := Sentence.pipe Stage.nil hb.sentence
      refine ⟨[], items :: stages, bg, b.current, cmd :: cmds, hsentence, by rwa [List.append_nil], ?_, ?_,
        by rwa [List.append_nil], .cons hb.describes hb.rest, ?_⟩
      · intro s hs
        rcases List.mem_cons.mp hs with rfl | hs
        · exact ⟨hb.within, hb.sentence.word_first hword⟩
        · exact hb.ok s hs
      · rw [List.append_nil]
        intro _ hnil
        have hzero := hd.argc
        rw [hnil] at hzero
        exact hargc hzero
      · rw [hb.chain]
        show (if bg then setHead (b.done ++ [b.current] ++ cmd :: cmds) else b.done ++ [b.current] ++ cmd :: cmds) = _
        rw [List.append_assoc, List.singleton_append]
    · rw [if_pos (by simpa using hword)] at h
      cases h

/-- A stage that begins with a word begins with its token. -/
theorem Sentence.wordFollows {toks : List Token} {items : List Item} {stages : List (List Item)} {bg : Bool}
    (h : Sentence toks (items :: stages) bg) {w : List Byte} (hw : items.head? = some (.word w)) :
    DeviceRuntime.wordFollows toks = true := by
  have hstage : ∀ ts rest, Stage ts items → DeviceRuntime.wordFollows (ts ++ rest) = true := by
    intro ts rest hs
    cases hs with
    | nil => cases hw
    | word => rfl
    | input => cases hw
    | output => cases hw
    | append => cases hw
  cases h with
  | last hs =>
    have := hstage toks [] hs
    rwa [List.append_nil] at this
  | background hs => exact hstage _ _ hs
  | pipe hs hr => exact hstage _ _ hs

/-- The loop takes a stage that is within the limits. -/
theorem build_stage {status : ℤ} {ts : List Token} {items : List Item} (h : Stage ts items) :
    ∀ (b : Building) (cur : List Item) (rest : List Token), Describes status cur false b.current →
      Within (cur ++ items) → ∃ b₁, buildTokens status (ts ++ rest) b = buildTokens status rest b₁ ∧
        b₁.done = b.done ∧ Describes status (cur ++ items) false b₁.current := by
  induction h with
  | nil =>
    intro b cur rest hd _
    exact ⟨b, rfl, rfl, by rwa [List.append_nil]⟩
  | @word w ts items _ ih =>
    intro b cur rest hd hw
    have hleft : Within (cur ++ [.word w]) := Within.left items (by simpa using hw)
    have hfit : ¬ b.current.argc ≥ MAX_ARGS - 1 := by
      have hlen := hleft.fit
      rw [words_append, List.length_append] at hlen
      rw [hd.argc]
      have hone : (words [Item.word w]).length = 1 := rfl
      omega
    obtain ⟨b₁, hb, hdone, hd₁⟩ := ih (b.pushArg (expandWord status w) hfit) (cur ++ [.word w]) rest
      (hd.pushArg w hfit) (by simpa using hw)
    refine ⟨b₁, ?_, hdone, by simpa using hd₁⟩
    rw [List.cons_append, buildTokens_word, dif_neg hfit]
    exact hb
  | @input t file ts items _ ih =>
    intro b cur rest hd hw
    have hleft : Within (cur ++ [.input file]) := Within.left items (by simpa using hw)
    have hnone : inputs cur = [] := by
      have hlen := hleft.one_input
      rw [inputs_append, List.length_append] at hlen
      have hone : (inputs [Item.input file]).length = 1 := rfl
      exact List.length_eq_zero_iff.mp (by omega)
    obtain ⟨b₁, hb, hdone, hd₁⟩ := ih (b.setInput file) (cur ++ [.input file]) rest
      (hd.setInput hnone file) (by simpa using hw)
    refine ⟨b₁, ?_, hdone, by simpa using hd₁⟩
    rw [List.cons_append, List.cons_append, buildTokens]
    dsimp only
    rw [if_neg (not_not.mpr rfl), if_neg (hd.inputFile_isSome.not.mpr (not_not.mpr hnone))]
    exact hb
  | @output t file ts items _ ih =>
    intro b cur rest hd hw
    have hleft : Within (cur ++ [.output file false]) := Within.left items (by simpa using hw)
    have hnone := hleft.no_output
    obtain ⟨b₁, hb, hdone, hd₁⟩ := ih (b.setOutput file 0) (cur ++ [.output file false]) rest
      (hd.setOutput hnone file false) (by simpa using hw)
    refine ⟨b₁, ?_, hdone, by simpa using hd₁⟩
    rw [List.cons_append, List.cons_append, buildTokens]
    dsimp only
    rw [if_neg (not_not.mpr rfl), if_neg (hd.outputFile_isSome.not.mpr (not_not.mpr hnone))]
    exact hb
  | @append t file ts items _ ih =>
    intro b cur rest hd hw
    have hleft : Within (cur ++ [.output file true]) := Within.left items (by simpa using hw)
    have hnone := hleft.no_output
    obtain ⟨b₁, hb, hdone, hd₁⟩ := ih (b.setOutput file 1) (cur ++ [.output file true]) rest
      (hd.setOutput hnone file true) (by simpa using hw)
    refine ⟨b₁, ?_, hdone, by simpa using hd₁⟩
    rw [List.cons_append, List.cons_append, buildTokens]
    dsimp only
    rw [if_neg (not_not.mpr rfl), if_neg (hd.outputFile_isSome.not.mpr (not_not.mpr hnone))]
    exact hb

/-- **Completeness of the loop.** It takes the rest of every sentence that is
within the limits. -/
theorem build_complete {status : ℤ} {toks : List Token} {stages : List (List Item)} {bg : Bool}
    (h : Sentence toks stages bg) : ∀ (b : Building) (cur items : List Item) (rest : List (List Item)),
      stages = items :: rest → Describes status cur false b.current → Within (cur ++ items) →
      (∀ s ∈ rest, Within s ∧ ∃ w, s.head? = some (.word w)) → (rest ≠ [] → words (cur ++ items) ≠ []) →
      (∀ cmd ∈ b.done, cmd.background = 0) →
      ∃ b' cmd cmds, buildTokens status toks b = .ok b' ∧
        Built status cur b toks b' items rest bg cmd cmds := by
  induction h with
  | @last ts items' hs =>
    rintro b cur items rest heq hd hw hok hsome hdone
    obtain ⟨rfl, rfl⟩ := List.cons.inj heq
    obtain ⟨b₁, hb, hdone₁, hd₁⟩ := build_stage hs b cur [] hd hw
    rw [List.append_nil] at hb
    exact ⟨b₁, b₁.current, [], hb, .last hs, hw, hok, hsome, hd₁, .nil, by rw [Building.chain, hdone₁]; rfl⟩
  | @background ts items' t hs =>
    rintro b cur items rest heq hd hw hok hsome hdone
    obtain ⟨rfl, rfl⟩ := List.cons.inj heq
    obtain ⟨b₁, hb, hdone₁, hd₁⟩ := build_stage hs b cur [⟨.background, t⟩] hd hw
    have hbg : ¬ b₁.headBackground ≠ 0 := by
      rw [not_not, Building.headBackground, hdone₁]
      cases hb' : b.done with
      | nil => exact hd₁.background
      | cons head done => exact hdone head (by rw [hb']; exact List.mem_cons_self)
    refine ⟨b₁.setBackground, b₁.current, [], ?_, .background hs, hw, hok, hsome, hd₁, .nil, ?_⟩
    · rw [hb, buildTokens_background, if_neg (not_not.mpr rfl), if_neg hbg]
      rfl
    · rw [chain_setBackground, Building.chain, hdone₁]
      rfl
  | @pipe ts items' t toks' stages' bg hs hr ih =>
    rintro b cur items rest heq hd hw hok hsome hdone
    obtain ⟨rfl, rfl⟩ := List.cons.inj heq
    obtain ⟨b₁, hb, hdone₁, hd₁⟩ := build_stage hs b cur (⟨.pipe, t⟩ :: toks') hd hw
    cases stages' with
    | nil => cases hr
    | cons next rest =>
      obtain ⟨hnext, w, hhead⟩ := hok next List.mem_cons_self
      have hargc : ¬ b₁.current.argc = 0 := by
        rw [hd₁.argc]
        exact fun h0 => hsome (List.cons_ne_nil _ _) (List.length_eq_zero_iff.mp h0)
      have hfollows := hr.wordFollows hhead
      have hwords : words ([] ++ next) ≠ [] := by
        cases next with
        | nil => cases hhead
        | cons item next =>
          obtain rfl : item = .word w := Option.some.inj hhead
          exact List.cons_ne_nil _ _
      have hbefore : ∀ cmd ∈ b₁.next.done, cmd.background = 0 := by
        intro cmd hcmd
        rcases List.mem_append.mp hcmd with hcmd | hcmd
        · exact hdone cmd (hdone₁ ▸ hcmd)
        · rw [List.mem_singleton.mp hcmd]
          exact hd₁.background
      obtain ⟨b', cmd, cmds, hb', hbuilt⟩ := ih b₁.next [] next rest rfl describes_commandInit hnext
        (fun s hs => hok s (List.mem_cons_of_mem _ hs)) (fun _ => hwords) hbefore
      refine ⟨b', b₁.current, cmd :: cmds, ?_, .pipe hs hr, hw, hok, hsome, hd₁,
        .cons hbuilt.describes hbuilt.rest, ?_⟩
      · rw [hb, buildTokens_pipe, if_neg hargc, hfollows]
        exact hb'
      · rw [hbuilt.chain]
        show (if bg then setHead (b₁.done ++ [b₁.current] ++ cmd :: cmds)
          else b₁.done ++ [b₁.current] ++ cmd :: cmds) = _
        rw [hdone₁, List.append_assoc, List.singleton_append]

/-! ### The whole line -/

/-- The slot after the arguments is NULL already. -/
theorem terminate_eq {cmd : Command} (h : cmd.afterArgs = none) :
    { cmd with argv := cmd.argv.set cmd.argc none cmd.argc_lt } = cmd := by
  have hset : cmd.argv.set cmd.argc none cmd.argc_lt = cmd.argv := by
    refine Vector.ext fun i hi => ?_
    rw [Vector.getElem_set]
    by_cases heq : cmd.argc = i
    · subst heq
      rw [if_pos rfl]
      exact h.symm
    · rw [if_neg heq]
  rw [hset]

theorem terminateArgs_eq : ∀ {cmds : List Command}, (∀ cmd ∈ cmds, cmd.afterArgs = none) →
    terminateArgs cmds =
      if ∀ cmd ∈ cmds, cmd.argc ≠ 0 then .ok cmds else .error "missing command near '|'"
  | [], _ => rfl
  | cmd :: cmds, hnone => by
    have ih := terminateArgs_eq fun c hc => hnone c (List.mem_cons_of_mem cmd hc)
    rw [terminateArgs]
    by_cases hargc : cmd.argc = 0
    · rw [if_pos hargc, if_neg fun hall => hall cmd List.mem_cons_self hargc]
    rw [if_neg hargc, ih]
    by_cases hrest : ∀ c ∈ cmds, c.argc ≠ 0
    · rw [if_pos hrest, if_pos fun c hc => (List.mem_cons.mp hc).elim (fun he => he ▸ hargc) (hrest c)]
      exact congrArg (fun c => Except.ok (c :: cmds)) (terminate_eq (hnone cmd List.mem_cons_self))
    · rw [if_neg hrest, if_neg fun hall => hrest fun c hc => hall c (List.mem_cons_of_mem _ hc)]
      rfl

/-- The chain of the commands of a sentence, with the first in the background
where there is a `&`. -/
theorem chain_describes {status : ℤ} {items : List Item} {stages : List (List Item)} {bg : Bool}
    {cmd : Command} {cmds : List Command} (hd : Describes status items false cmd)
    (hr : List.Forall₂ (fun items cmd => Describes status items false cmd) stages cmds) :
    Chain status bg (items :: stages) (if bg then setHead (cmd :: cmds) else cmd :: cmds) := by
  cases bg with
  | false => exact .intro hd hr
  | true => exact .intro ⟨hd.argc, hd.argv, rfl, hd.input, hd.output, hd.append⟩ hr

/-- What holds of every stage's command holds of the whole chain. -/
theorem Chain.forall {status : ℤ} {bg : Bool} {stages : List (List Item)} {cmds : List Command}
    (h : Chain status bg stages cmds) {p : List Item → Prop} {q : Command → Prop}
    (hp : ∀ items ∈ stages, p items)
    (hq : ∀ items bg cmd, p items → Describes status items bg cmd → q cmd) : ∀ cmd ∈ cmds, q cmd := by
  have hrest : ∀ {stages cmds}, List.Forall₂ (fun items cmd => Describes status items false cmd) stages cmds →
      (∀ items ∈ stages, p items) → ∀ cmd ∈ cmds, q cmd := by
    intro stages cmds hr
    induction hr with
    | nil => exact fun _ c hc => absurd hc List.not_mem_nil
    | cons hd _ ih =>
      intro hp c hc
      rcases List.mem_cons.mp hc with rfl | hc
      · exact hq _ _ _ (hp _ List.mem_cons_self) hd
      · exact ih (fun s hs => hp s (List.mem_cons_of_mem _ hs)) c hc
  cases h with
  | intro hd hr =>
    intro c hc
    rcases List.mem_cons.mp hc with rfl | hc
    · exact hq _ _ _ (hp _ List.mem_cons_self) hd
    · exact hrest hr (fun s hs => hp s (List.mem_cons_of_mem _ hs)) c hc

/-- A stage that begins with a word has one. -/
theorem some_word_of_head {items : List Item} {w : List Byte} (h : items.head? = some (.word w)) :
    1 ≤ (words items).length := by
  cases items with
  | nil => cases h
  | cons item items =>
    obtain rfl : item = .word w := Option.some.inj h
    exact Nat.succ_le_succ (Nat.zero_le _)

/-- No tokens are no sentence. -/
theorem Admissible.not_nil {stages : List (List Item)} {bg : Bool} (h : Admissible stages) :
    ¬ Sentence [] stages bg := by
  intro hs
  generalize ht : ([] : List Token) = ts at hs
  cases hs with
  | last hst =>
    subst ht
    cases hst
    exact absurd (h.ok [] List.mem_cons_self).some_word (by decide)
  | background hst => simp at ht
  | pipe hst hr => simp at ht

section Context

variable {ρ : Type}

/-- `build_command` returns a chain exactly for the admissible sentences. -/
theorem buildCommand_chain (toks : List Token) (ctx : Option (ShellContext ρ)) (chain : List Command) :
    (buildCommand toks ctx).chain = some chain ↔ ∃ stages bg, Sentence toks stages bg ∧ Admissible stages ∧
      Chain (ctx.elim 0 (·.lastExitStatus)) bg stages chain := by
  generalize hstatus : ctx.elim 0 (·.lastExitStatus) = status
  have hstart : Within ([] : List Item) := ⟨Nat.zero_le _, Nat.zero_le _, Nat.zero_le _⟩
  unfold buildCommand
  rw [hstatus]
  constructor
  · intro h
    cases hb : buildTokens status toks ⟨[], commandInit⟩ with
    | error e => rw [hb] at h; cases h
    | ok b' =>
      obtain ⟨items, stages, bg, cmd, cmds, built⟩ :=
        build_sound toks _ b' [] hb describes_commandInit hstart
      have hchain : Chain status bg (items :: stages) b'.chain := by
        rw [built.chain]
        exact chain_describes built.describes built.rest
      have hterm := terminateArgs_eq (hchain.forall (p := fun _ => True) (fun _ _ => trivial)
        fun _ _ _ _ hd => hd.afterArgs)
      rw [hb] at h
      dsimp only at h
      rw [hterm] at h
      by_cases hall : ∀ c ∈ b'.chain, c.argc ≠ 0
      · rw [if_pos hall] at h
        obtain rfl : b'.chain = chain := Option.some.inj h
        have hfirst : 1 ≤ (words items).length := by
          have hargc : cmd.argc ≠ 0 := by
            rw [built.chain] at hall
            cases bg with
            | false => exact hall cmd List.mem_cons_self
            | true => exact hall { cmd with background := 1 } List.mem_cons_self
          have heq : cmd.argc = (words items).length := built.describes.argc
          omega
        refine ⟨items :: stages, bg, built.sentence, ⟨?_, fun s hs => (built.ok s hs).2⟩, hchain⟩
        intro s hs
        rcases List.mem_cons.mp hs with rfl | hs
        · exact ⟨hfirst, built.within.fit, built.within.one_input, built.within.one_output⟩
        · obtain ⟨hwithin, w, hhead⟩ := built.ok s hs
          exact ⟨some_word_of_head hhead, hwithin.fit, hwithin.one_input, hwithin.one_output⟩
      · rw [if_neg hall] at h
        cases h
  · rintro ⟨stages, bg, hs, hok, hchain⟩
    cases stages with
    | nil => cases hs
    | cons items stages =>
      have hwithin : ∀ s ∈ items :: stages, Within s := fun s hs =>
        ⟨(hok.ok s hs).fit, (hok.ok s hs).one_input, (hok.ok s hs).one_output⟩
      have hwords : words ([] ++ items) ≠ [] := fun hnil => by
        have hpos := (hok.ok items List.mem_cons_self).some_word
        rw [show words items = [] from hnil] at hpos
        exact absurd hpos (by decide)
      obtain ⟨b', cmd, cmds, hb, built⟩ := build_complete hs ⟨[], commandInit⟩ [] items stages rfl
        describes_commandInit (hwithin items List.mem_cons_self)
        (fun s hs => ⟨hwithin s (List.mem_cons_of_mem _ hs), hok.word_first s hs⟩) (fun _ => hwords)
        (fun c hc => absurd hc List.not_mem_nil)
      have hbuilt : Chain status bg (items :: stages) b'.chain := by
        rw [built.chain]
        exact chain_describes built.describes built.rest
      obtain rfl := hchain.unique hbuilt
      have hnone := hbuilt.forall (p := fun _ => True) (fun _ _ => trivial) fun _ _ _ _ hd => hd.afterArgs
      have hargc := hbuilt.forall (q := fun c => c.argc ≠ 0) hok.ok fun s _ c hs hd => by
        have hpos := hs.some_word
        rw [hd.argc]
        omega
      rw [hb]
      dsimp only
      rw [terminateArgs_eq hnone, if_pos hargc]

/-- A failure, and only a failure, sets the status, to 2. -/
theorem buildCommand_context (toks : List Token) (ctx : Option (ShellContext ρ)) :
    (∀ chain, (buildCommand toks ctx).chain = some chain → (buildCommand toks ctx).context = ctx) ∧
      ((buildCommand toks ctx).chain = none → (buildCommand toks ctx).context = setStatus 2 ctx) := by
  unfold buildCommand
  cases buildTokens (ctx.elim 0 (·.lastExitStatus)) toks ⟨[], commandInit⟩ with
  | error e => exact ⟨fun _ h => (by cases h), fun _ => rfl⟩
  | ok b =>
    dsimp only
    cases terminateArgs b.chain with
    | error e => exact ⟨fun _ h => (by cases h), fun _ => rfl⟩
    | ok chain => exact ⟨fun _ _ => rfl, fun h => by cases h⟩

/-- **The language of the command line.** A line gives a chain exactly if it
has tokens that are an admissible sentence, and then the chain of the
sentence; the context stays as it is. A line without tokens gives none and
leaves the context; every other line sets the status to 2. -/
theorem parse_line_grammar (line : List Byte) (ctx : Option (ShellContext ρ)) :
    (∀ chain, (parseLine line ctx).chain = some chain ↔
      ∃ toks stages bg, tokenize line = .ok toks ∧ Sentence toks stages bg ∧ Admissible stages ∧
        Chain (ctx.elim 0 (·.lastExitStatus)) bg stages chain) ∧
    (∀ chain, (parseLine line ctx).chain = some chain →
      (parseLine line ctx).context = ctx ∧ ∀ cmd ∈ chain, cmd.afterArgs = none) ∧
    (tokenize line = .ok [] → (parseLine line ctx).chain = none ∧ (parseLine line ctx).context = ctx) ∧
    ((parseLine line ctx).chain = none → tokenize line ≠ .ok [] →
      (parseLine line ctx).context = setStatus 2 ctx) := by
  have hchain : ∀ chain, (parseLine line ctx).chain = some chain ↔
      ∃ toks stages bg, tokenize line = .ok toks ∧ Sentence toks stages bg ∧ Admissible stages ∧
        Chain (ctx.elim 0 (·.lastExitStatus)) bg stages chain := by
    intro chain
    unfold parseLine
    cases ht : tokenize line with
    | error e =>
      constructor
      · intro h
        cases h
      · rintro ⟨toks, stages, bg, h, -⟩
        cases h
    | ok toks =>
      dsimp only
      by_cases hnil : toks = []
      · rw [if_pos hnil]
        constructor
        · intro h
          cases h
        · rintro ⟨toks', stages, bg, h, hs, hok, -⟩
          obtain rfl : toks = toks' := Except.ok.inj h
          subst hnil
          exact absurd hs (hok.not_nil)
      · rw [if_neg hnil, buildCommand_chain]
        constructor
        · rintro ⟨stages, bg, h⟩
          exact ⟨toks, stages, bg, rfl, h⟩
        · rintro ⟨toks', stages, bg, h, hs⟩
          obtain rfl : toks = toks' := Except.ok.inj h
          exact ⟨stages, bg, hs⟩
  refine ⟨hchain, fun chain h => ⟨?_, ?_⟩, fun h => ?_, fun h hne => ?_⟩
  · have h' := h
    unfold parseLine at h h' ⊢
    cases ht : tokenize line with
    | error e => rw [ht] at h; cases h
    | ok toks =>
      rw [ht] at h
      dsimp only at h ⊢
      by_cases hnil : toks = []
      · rw [if_pos hnil] at h
        cases h
      · rw [if_neg hnil] at h ⊢
        exact (buildCommand_context toks ctx).1 chain h
  · obtain ⟨toks, stages, bg, -, -, -, hc⟩ := (hchain chain).mp h
    exact hc.forall (p := fun _ => True) (fun _ _ => trivial) fun _ _ _ _ hd => hd.afterArgs
  · unfold parseLine
    rw [h]
    exact ⟨rfl, rfl⟩
  · unfold parseLine at h ⊢
    cases ht : tokenize line with
    | error e => rfl
    | ok toks =>
      rw [ht] at h
      have hnil : toks ≠ [] := fun hnil => hne (by rw [ht, hnil])
      dsimp only at h ⊢
      rw [if_neg hnil] at h ⊢
      exact (buildCommand_context toks ctx).2 h

end Context

end DeviceRuntime
