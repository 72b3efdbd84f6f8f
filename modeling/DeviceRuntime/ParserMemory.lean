/-
# The parser owns what it allocates

`OwnsChain base w chain`: the parser started in the heap `base`, has put the chain
into it and holds its nodes and its words; nothing else differs. A step of the
loop of `build_command` keeps this (`StepOver`) and does to the chain what it
does in `DeviceRuntime.Parser` to a list, or gives up. A chain that is given up
is freed: what is left is `base`, and no node or word was freed twice or read
after it was freed, as such a call would get stuck.

So `parse_line` either returns the chain of the grammar, with exactly its nodes
and words allocated, or returns nothing and leaves the heap as it was; and the
second happens to a line of the language only when an allocation failed.

Key definitions: `CommandEntry`, `OwnsChain`, `StepOver`, `ParseOutcome`.
Key theorems: `commandFree_total`, `buildTokens_total`, `parse_line_memory`,
`parsed_lines_freed`.
-/
import DeviceRuntime.ParserHeap
import DeviceRuntime.Shell
import DeviceRuntime.Lib.Resources

namespace DeviceRuntime

open LinkedList Prog Resources

/-! ### The slots of `argv` -/

section Slots

variable {α : Type}

/-- The slots from `i` on have the elements of the list, and the others
nothing. -/
def slotsFrom (i : ℕ) (l : List α) : Vector (Option α) MAX_ARGS :=
  Vector.ofFn fun j => if j.val < i then none else l[j.val - i]?

theorem getElem_slotsFrom {i j : ℕ} {l : List α} (hj : j < MAX_ARGS) :
    (slotsFrom i l)[j] = if j < i then none else l[j - i]? := by
  unfold slotsFrom
  exact Vector.getElem_ofFn hj

theorem slotsFrom_nil (i : ℕ) : slotsFrom i ([] : List α) = Vector.replicate MAX_ARGS none := by
  apply Vector.ext
  intro j hj
  rw [getElem_slotsFrom hj, Vector.getElem_replicate]
  simp

/-- A slot more. -/
theorem slotsFrom_set {l : List α} {x : α} (h : l.length < MAX_ARGS) :
    (slotsFrom 0 l).set l.length (some x) h = slotsFrom 0 (l ++ [x]) := by
  apply Vector.ext
  intro j hj
  rw [Vector.getElem_set, getElem_slotsFrom hj, getElem_slotsFrom hj, Nat.sub_zero]
  by_cases hlast : l.length = j
  · rw [if_pos hlast, ← hlast]
    simp
  · rw [if_neg hlast, if_neg (Nat.not_lt_zero j), if_neg (Nat.not_lt_zero j)]
    rcases Nat.lt_or_ge j l.length with hlt | hge
    · rw [List.getElem?_append_left hlt]
    · rw [List.getElem?_eq_none hge, List.getElem?_eq_none]
      rw [List.length_append, List.length_singleton]
      omega

/-- The slot after the last one has nothing in it. -/
theorem slotsFrom_set_none {l : List α} (h : l.length < MAX_ARGS) :
    (slotsFrom 0 l).set l.length none h = slotsFrom 0 l := by
  apply Vector.ext
  intro j hj
  rw [Vector.getElem_set]
  by_cases hlast : l.length = j
  · rw [if_pos hlast, getElem_slotsFrom hj, ← hlast]
    simp
  · rw [if_neg hlast]

/-- A slot less. -/
theorem slotsFrom_clear {i : ℕ} {l : List α} {x : α} (h : i < MAX_ARGS) :
    (slotsFrom i (x :: l)).set i none h = slotsFrom (i + 1) l := by
  apply Vector.ext
  intro j hj
  rw [Vector.getElem_set, getElem_slotsFrom hj, getElem_slotsFrom hj]
  rcases Nat.lt_trichotomy j i with hlt | rfl | hgt
  · rw [if_neg (by omega), if_pos hlt, if_pos (by omega)]
  · rw [if_pos rfl, if_pos (by omega)]
  · have hsub : j - i = j - (i + 1) + 1 := by omega
    rw [if_neg (by omega), if_neg (by omega), if_neg (by omega), hsub, List.getElem?_cons_succ]

theorem slotsFrom_head {i : ℕ} {l : List α} {x : α} (h : i < MAX_ARGS) :
    (slotsFrom i (x :: l)).get ⟨i, h⟩ = some x := by
  show (slotsFrom i (x :: l))[i] = some x
  rw [getElem_slotsFrom h, if_neg (Nat.lt_irrefl i), Nat.sub_self]
  rfl

end Slots

/-! ### Chains -/

/-- A word with its address. -/
abbrev Text := ℕ × List Byte

/-- A command of a chain, with the addresses of its node and its words. -/
structure CommandEntry where
  addr : ℕ
  args : List Text
  inputFile : Option Text
  outputFile : Option Text
  append : ℤ
  background : ℤ
  args_lt : args.length < MAX_ARGS

namespace CommandEntry

/-- What is in its node. -/
def record (e : CommandEntry) : CommandRecord where
  argc := e.args.length
  argv := slotsFrom 0 (e.args.map Prod.fst)
  background := e.background
  redirect := ⟨e.inputFile.map Prod.fst, e.outputFile.map Prod.fst, e.append⟩
  argc_lt := e.args_lt

/-- The command that it is. -/
def command (e : CommandEntry) : Command where
  argc := e.args.length
  argv := slotsFrom 0 (e.args.map Prod.snd)
  background := e.background
  redirect := ⟨e.inputFile.map Prod.snd, e.outputFile.map Prod.snd, e.append⟩
  argc_lt := e.args_lt

def node (e : CommandEntry) : ℕ × CommandRecord := (e.addr, e.record)

def files (e : CommandEntry) : List Text := e.outputFile.toList ++ e.inputFile.toList

/-- The words of the command. -/
def texts (e : CommandEntry) : List Text := e.args ++ e.files

/-- A new command. -/
def fresh (addr : ℕ) : CommandEntry := ⟨addr, [], none, none, 0, 0, argv_pos⟩

theorem fresh_record (addr : ℕ) : (⟨(fresh addr).record, none⟩ : Node CommandRecord) = Heap.commandInit := by
  simp [record, fresh, Heap.commandInit, slotsFrom_nil]

theorem fresh_command (addr : ℕ) : (fresh addr).command = commandInit := by
  simp [command, fresh, commandInit, slotsFrom_nil]

end CommandEntry

/-- The chain was built in the heap `base`, and is all that was done to it. -/
structure OwnsChain (base w : ParserHeap) (chain : List CommandEntry) : Prop where
  nodes : Placed base.commands w.commands (chain.map CommandEntry.node)
  texts : Resources.Holds base.strings w.strings (chain.flatMap CommandEntry.texts)

/-- The pointer to the first command. -/
def headOf (chain : List CommandEntry) : Option ℕ := first (chain.map CommandEntry.node)

section OwnsChain

variable {base w : ParserHeap} {l r chain : List CommandEntry} {e e' : CommandEntry}

theorem OwnsChain.node (h : OwnsChain base w (l ++ e :: r)) : w.commands e.addr = some ⟨e.record, headOf r⟩ := by
  have hchain := h.nodes.chain
  rw [List.map_append, List.map_cons] at hchain
  exact hchain.node

theorem OwnsChain.allocated (h : OwnsChain base w (l ++ e :: r)) : w.commands e.addr ≠ none := by
  rw [h.node]
  exact Option.some_ne_none _

/-- Nothing is owned any more. -/
theorem OwnsChain.returned (h : OwnsChain base w []) : w = { base with refused := w.refused } := by
  obtain ⟨commands, strings, refused⟩ := w
  have hcommands : commands = base.commands := h.nodes.returned
  have hstrings : strings = base.strings := h.texts.returned
  rw [hcommands, hstrings]

theorem headOf_change (haddr : e'.addr = e.addr) : headOf (l ++ e' :: r) = headOf (l ++ e :: r) := by
  unfold headOf
  rw [List.map_append, List.map_append, List.map_cons, List.map_cons]
  unfold CommandEntry.node
  rw [haddr]
  exact first_append_cons ..

/-- The node of a command is written. -/
theorem OwnsChain.write {w' : ParserHeap} (h : OwnsChain base w (l ++ e :: r)) (haddr : e'.addr = e.addr)
    (hcommands : w'.commands = w.commands.write e.addr ⟨e'.record, headOf r⟩)
    (htexts : Resources.Holds base.strings w'.strings ((l ++ e' :: r).flatMap CommandEntry.texts)) :
    OwnsChain base w' (l ++ e' :: r) := by
  have hnodes := h.nodes
  refine ⟨?_, htexts⟩
  rw [List.map_append, List.map_cons] at hnodes ⊢
  rw [hcommands]
  unfold CommandEntry.node at hnodes ⊢
  rw [haddr]
  exact hnodes.change

/-- A word more. -/
theorem OwnsChain.text {p : ℕ} {s : List Byte} (h : OwnsChain base w (l ++ e :: r)) (hp : w.strings p = none)
    (htexts : e'.texts.Perm ((p, s) :: e.texts)) :
    Resources.Holds base.strings (Function.update w.strings p (some s))
      ((l ++ e' :: r).flatMap CommandEntry.texts) := by
  apply (h.texts.take hp).perm
  simp only [List.flatMap_append, List.flatMap_cons]
  refine List.Perm.trans ?_ (List.Perm.append_left _ (htexts.symm.append_right _))
  exact List.perm_middle.symm

end OwnsChain

/-! ### Calls -/

section Calls

variable {α : Type} {Q : α → ParserHeap → Prop} {w : ParserHeap}

theorem parser_loadCommand {cmd : ℕ} {node : Node CommandRecord} {k : Node CommandRecord → ParserProg α}
    (h : w.commands cmd = some node) (hk : Total parserWorld Q (k node) w) :
    Total parserWorld Q (.call (.loadCommand cmd) k) w := by
  refine .call ⟨node, w, h, rfl⟩ ?_
  intro node' w' hs
  obtain rfl : node = node' := Option.some.inj (h.symm.trans hs.1)
  rw [hs.2]
  exact hk

theorem parser_storeCommand {cmd : ℕ} {node : Node CommandRecord} {k : Unit → ParserProg α} (h : w.commands cmd ≠ none)
    (hk : Total parserWorld Q (k ()) (w.setCommand cmd node)) :
    Total parserWorld Q (.call (.storeCommand cmd node) k) w := by
  refine .call ⟨(), _, h, rfl⟩ ?_
  intro _ w' hs
  rw [hs.2]
  exact hk

theorem parser_freeCommand {cmd : ℕ} {k : Unit → ParserProg α} (h : w.commands cmd ≠ none)
    (hk : Total parserWorld Q (k ()) { w with commands := w.commands.free cmd }) :
    Total parserWorld Q (.call (.freeCommand cmd) k) w := by
  refine .call ⟨(), _, h, rfl⟩ ?_
  intro _ w' hs
  rw [hs.2]
  exact hk

theorem parser_mallocCommand {k : Option ℕ → ParserProg α} (hnone : Total parserWorld Q (k none) w.refuse)
    (hsome : ∀ cmd node, w.commands cmd = none → Total parserWorld Q (k (some cmd)) (w.setCommand cmd node)) :
    Total parserWorld Q (.call .mallocCommand k) w := by
  refine .call ⟨none, _, Or.inl ⟨rfl, rfl⟩⟩ ?_
  intro r w' hs
  rcases hs with ⟨hr, hw⟩ | ⟨cmd, node, hr, hfree, hw⟩
  · rw [hr, hw]
    exact hnone
  · rw [hr, hw]
    exact hsome cmd node hfree

theorem parser_strdup {s : List Byte} {k : Option ℕ → ParserProg α} (hnone : Total parserWorld Q (k none) w.refuse)
    (hsome : ∀ p, w.strings p = none → Total parserWorld Q (k (some p)) (w.setString p (some s))) :
    Total parserWorld Q (.call (.strdup s) k) w := by
  refine .call ⟨none, _, Or.inl ⟨rfl, rfl⟩⟩ ?_
  intro r w' hs
  rcases hs with ⟨hr, hw⟩ | ⟨p, hr, hfree, hw⟩
  · rw [hr, hw]
    exact hnone
  · rw [hr, hw]
    exact hsome p hfree

theorem setCommand_twice (w : ParserHeap) (cmd : ℕ) (node node' : Node CommandRecord) :
    (w.setCommand cmd node).setCommand cmd node' = w.setCommand cmd node' := by
  unfold ParserHeap.setCommand Memory.write
  simp only [Function.update_idem]

/-- What is written is what was there. -/
theorem setCommand_same {cmd : ℕ} {node : Node CommandRecord} (h : w.commands cmd = some node) :
    w.setCommand cmd node = w := by
  unfold ParserHeap.setCommand Memory.write
  rw [← h, Function.update_eq_self]

theorem stored_allocated (w : ParserHeap) (cmd : ℕ) (node : Node CommandRecord) :
    (w.setCommand cmd node).commands cmd ≠ none := by
  unfold ParserHeap.setCommand
  simp

/-- `new_command` either fails, or has allocated and initialised one node. -/
theorem newCommand_bind {k : Option ℕ → ParserProg α} (hnone : Total parserWorld Q (k none) w.refuse)
    (hsome : ∀ cmd, w.commands cmd = none →
      Total parserWorld Q (k (some cmd)) (w.setCommand cmd Heap.commandInit)) :
    Total parserWorld Q (Heap.newCommand.bind k) w := by
  unfold Heap.newCommand
  apply parser_mallocCommand
  · exact hnone
  · intro cmd node hfree
    apply parser_storeCommand (stored_allocated w cmd node)
    rw [setCommand_twice]
    exact hsome cmd hfree

end Calls

/-! ### Freeing -/

section Free

variable {base w : ParserHeap} {chain : List CommandEntry} {e : CommandEntry}

theorem freeText_total {p : Option Text} {l : List Text} (h : Resources.Holds base.strings w.strings (p.toList ++ l)) :
    Total parserWorld (fun _ w' => w'.commands = w.commands ∧ w'.refused = w.refused ∧
      Resources.Holds base.strings w'.strings l)
      (Heap.freeText (p.map Prod.fst)) w := by
  unfold Heap.freeText
  cases p with
  | none => exact .ret ⟨rfl, rfl, h⟩
  | some text =>
    have hheld := h.held text (List.mem_cons_self (l := l))
    have hallocated : w.strings text.1 ≠ none := by
      rw [hheld]
      exact Option.some_ne_none _
    refine .call ⟨(), _, hallocated, rfl⟩ ?_
    intro _ w' hs
    rw [hs.2]
    exact .ret ⟨rfl, rfl, h.give⟩

/-- The loop over `argv`, with the words `todo` from the index `i` on left to be
freed. -/
theorem freeArgs_total {rest : List (ℕ × CommandRecord)} {others : List Text} {a : ℕ} : ∀ (todo : List Text) (i : ℕ)
    (record : CommandRecord) (w : ParserHeap), record.argv = slotsFrom i (todo.map Prod.fst) →
    record.argc = i + todo.length → Placed base.commands w.commands ((a, record) :: rest) →
    Resources.Holds base.strings w.strings (todo ++ others) →
    Total parserWorld (fun _ w' => (∃ record', record'.redirect = record.redirect ∧
        Placed base.commands w'.commands ((a, record') :: rest)) ∧
        Resources.Holds base.strings w'.strings others ∧ w'.refused = w.refused)
      (.iter (Heap.freeArgsTurn a) i) w := by
  intro todo
  induction todo with
  | nil =>
    intro i record w hargv hargc hnodes htexts
    refine .loop (parser_loadCommand hnodes.chain.1 ?_)
    have hover : ¬ i < record.argc := by
      rw [hargc, List.length_nil]
      omega
    dsimp only
    rw [dif_neg hover]
    exact .ret ⟨⟨record, rfl, hnodes⟩, htexts, rfl⟩
  | cons text todo ih =>
    intro i record w hargv hargc hnodes htexts
    refine .loop (parser_loadCommand hnodes.chain.1 ?_)
    have hmore : i < record.argc := by
      rw [hargc, List.length_cons]
      omega
    dsimp only
    rw [dif_pos hmore]
    have hslot : record.argv.get ⟨i, Heap.lt_argv hmore record.argc_lt⟩ = (some text).map Prod.fst := by
      rw [hargv, List.map_cons, slotsFrom_head]
      rfl
    rw [hslot]
    simp only [bind_assoc]
    apply (freeText_total (p := some text) htexts).bind
    intro _ w₁ hfreed
    obtain ⟨hcommands, hrefused, hheld⟩ := hfreed
    have hnodes₁ : Placed base.commands w₁.commands ((a, record) :: rest) := by
      rw [hcommands]
      exact hnodes
    have hallocated : w₁.commands a ≠ none := by
      rw [hnodes₁.chain.1]
      exact Option.some_ne_none _
    unfold Heap.storeRecord
    apply parser_storeCommand hallocated
    have hnext := ih (i + 1) { record with argv := record.argv.set i none (Heap.lt_argv hmore record.argc_lt) }
      (w₁.setCommand a ⟨{ record with argv := record.argv.set i none (Heap.lt_argv hmore record.argc_lt) }, first rest⟩)
    refine (hnext ?_ ?_ (Placed.change (l := []) hnodes₁) hheld).mono ?_
    · simp only [hargv, List.map_cons]
      exact slotsFrom_clear _
    · dsimp only
      rw [hargc, List.length_cons]
      omega
    · intro _ w' hpost
      obtain ⟨hnodes', htexts', hrefused'⟩ := hpost
      exact ⟨hnodes', htexts', hrefused'.trans hrefused⟩

/-- A chain that is owned is freed, and nothing else. -/
theorem commandFree_total : ∀ {chain : List CommandEntry} {w : ParserHeap}, OwnsChain base w chain →
    Total parserWorld (fun _ w' => w' = { base with refused := w.refused }) (Heap.commandFree (headOf chain)) w
  | [], _, h => .loop (.ret h.returned)
  | e :: chain, w, h => by
    have hnodes := h.nodes
    have htexts := h.texts
    rw [List.map_cons] at hnodes
    rw [List.flatMap_cons] at htexts
    unfold CommandEntry.texts at htexts
    rw [List.append_assoc] at htexts
    refine .loop (parser_loadCommand hnodes.chain.1 ?_)
    simp only [bind_assoc]
    apply (freeArgs_total e.args 0 e.record w rfl (Nat.zero_add _).symm hnodes htexts).bind
    intro _ w₁ hargs
    obtain ⟨⟨record, hredirect, hnodes₁⟩, htexts₁, hrefused₁⟩ := hargs
    apply parser_loadCommand hnodes₁.chain.1
    dsimp only
    rw [hredirect]
    unfold CommandEntry.files at htexts₁
    rw [List.append_assoc] at htexts₁
    simp only [bind_assoc]
    apply (freeText_total htexts₁).bind
    intro _ w₂ houtput
    obtain ⟨hcommands₂, hrefused₂, htexts₂⟩ := houtput
    apply (freeText_total htexts₂).bind
    intro _ w₃ hinput
    obtain ⟨hcommands₃, hrefused₃, htexts₃⟩ := hinput
    rw [← hcommands₂, ← hcommands₃] at hnodes₁
    have hallocated : w₃.commands e.addr ≠ none := by
      rw [hnodes₁.chain.1]
      exact Option.some_ne_none _
    apply parser_freeCommand hallocated
    have howns : OwnsChain base { w₃ with commands := w₃.commands.free e.addr } chain := ⟨hnodes₁.release, htexts₃⟩
    have hrefused : w₃.refused = w.refused := (hrefused₃.trans hrefused₂).trans hrefused₁
    rw [← hrefused]
    exact commandFree_total howns

end Free

/-! ### Building -/

/-- The case `TOKEN_WORD` of the loop, on the command that is being built. -/
def withArg (c : Command) (word : List Byte) : Except String Command :=
  if h : c.argc ≥ MAX_ARGS - 1 then .error "too many arguments" else .ok ((Building.mk [] c).pushArg word h).current

def withInput (c : Command) (file : List Byte) : Except String Command :=
  if c.redirect.inputFile.isSome then .error "duplicate input redirection"
  else .ok ((Building.mk [] c).setInput file).current

def withOutput (c : Command) (file : List Byte) (append : ℤ) : Except String Command :=
  if c.redirect.outputFile.isSome then .error "duplicate output redirection"
  else .ok ((Building.mk [] c).setOutput file append).current

/-- A step on the command `e`, which does to it what `result` says. -/
inductive StepOver (base w : ParserHeap) (l : List CommandEntry) (e : CommandEntry) (result : Except String Command) :
    Except BuildError Unit → ParserHeap → Prop
  | memory {w' : ParserHeap} (howns : OwnsChain base w' (l ++ [e])) (hrefused : w'.refused = w.refused + 1) :
      StepOver base w l e result (.error .memory) w'
  | rejected {message : String} (hresult : result = .error message) :
      StepOver base w l e result (.error (.syntaxError message)) w
  | done {w' : ParserHeap} {e' : CommandEntry} (hresult : result = .ok e'.command) (haddr : e'.addr = e.addr)
      (howns : OwnsChain base w' (l ++ [e'])) (hrefused : w'.refused = w.refused) :
      StepOver base w l e result (.ok ()) w'

section Steps

variable {base w : ParserHeap} {l : List CommandEntry} {e : CommandEntry}

/-- A failed allocation changes nothing. -/
theorem OwnsChain.refuse {chain : List CommandEntry} (h : OwnsChain base w chain) : OwnsChain base w.refuse chain :=
  ⟨h.nodes, h.texts⟩

theorem pushed_lt {args : List Text} {text : Text} (h : ¬ args.length ≥ MAX_ARGS - 1) :
    (args ++ [text]).length < MAX_ARGS := by
  rw [List.length_append, List.length_singleton]
  exact Heap.argc_succ_lt h

/-- The word becomes the last argument. -/
def CommandEntry.pushArg (e : CommandEntry) (text : Text) (h : ¬ e.args.length ≥ MAX_ARGS - 1) : CommandEntry :=
  { e with args := e.args ++ [text], args_lt := pushed_lt h }

def CommandEntry.setInput (e : CommandEntry) (text : Text) : CommandEntry := { e with inputFile := some text }

def CommandEntry.setOutput (e : CommandEntry) (text : Text) (append : ℤ) : CommandEntry :=
  { e with outputFile := some text, append := append }

theorem setArg_none (e : CommandEntry) : Heap.setArg e.record none = e.record := by
  have hset := slotsFrom_set_none (l := e.args.map Prod.fst) (by rw [List.length_map]; exact e.args_lt)
  simp only [List.length_map] at hset
  simp [Heap.setArg, CommandEntry.record, hset]

theorem pushArg_record {text : Text} (h : ¬ e.args.length ≥ MAX_ARGS - 1) :
    (e.pushArg text h).record = { Heap.setArg e.record (some text.1) with
      argc := e.args.length + 1, argc_lt := Heap.argc_succ_lt h } := by
  have hset := slotsFrom_set (l := e.args.map Prod.fst) (x := text.1) (by rw [List.length_map]; exact e.args_lt)
  simp only [List.length_map] at hset
  simp [Heap.setArg, CommandEntry.record, CommandEntry.pushArg, hset]

theorem pushArg_command (text : Text) (h : ¬ e.args.length ≥ MAX_ARGS - 1) :
    withArg e.command text.2 = .ok (e.pushArg text h).command := by
  have hset := slotsFrom_set (l := e.args.map Prod.snd) (x := text.2) (by rw [List.length_map]; exact e.args_lt)
  simp only [List.length_map] at hset
  have hroom : ¬ e.command.argc ≥ MAX_ARGS - 1 := h
  unfold withArg
  rw [dif_neg hroom]
  simp [Building.pushArg, CommandEntry.command, CommandEntry.pushArg, hset]

theorem pushArg_texts {text : Text} (h : ¬ e.args.length ≥ MAX_ARGS - 1) :
    (e.pushArg text h).texts.Perm (text :: e.texts) := by
  unfold CommandEntry.texts CommandEntry.pushArg
  dsimp only
  rw [List.append_assoc]
  exact List.perm_middle

/-- A new word was stored in the node of the command. -/
theorem StepOver.stored {result : Except String Command} {e' : CommandEntry} {p : ℕ} {s : List Byte}
    (h : OwnsChain base w (l ++ [e])) (hp : w.strings p = none)
    (hresult : result = .ok e'.command) (haddr : e'.addr = e.addr)
    (htexts : e'.texts.Perm ((p, s) :: e.texts)) :
    StepOver base w l e result (.ok ()) ((w.setString p (some s)).setCommand e.addr ⟨e'.record, none⟩) :=
  .done hresult haddr (h.write haddr rfl (h.text hp htexts)) rfl

theorem buildWord_total (h : OwnsChain base w (l ++ [e])) (word : List Byte) :
    Total parserWorld (StepOver base w l e (withArg e.command word)) (Heap.buildWord e.addr word) w := by
  unfold Heap.buildWord Heap.storeRecord
  apply parser_loadCommand h.node
  dsimp only
  by_cases hfull : e.args.length ≥ MAX_ARGS - 1
  · have hrecord : e.record.argc ≥ MAX_ARGS - 1 := hfull
    have hresult : withArg e.command word = .error "too many arguments" := dif_pos hfull
    rw [dif_pos hrecord]
    exact .ret (.rejected hresult)
  · have hrecord : ¬ e.record.argc ≥ MAX_ARGS - 1 := hfull
    rw [dif_neg hrecord]
    apply parser_strdup
    · -- `argv[argc]` is set to `NULL`, which it was
      rw [setArg_none]
      apply parser_storeCommand h.refuse.allocated
      rw [setCommand_same h.refuse.node]
      exact .ret (.memory h.refuse rfl)
    · intro p hp
      have hallocated : (w.setString p (some word)).commands e.addr ≠ none := h.allocated
      apply parser_storeCommand hallocated
      apply parser_storeCommand (stored_allocated _ _ _)
      rw [setCommand_twice]
      have hstored := StepOver.stored h hp (pushArg_command (p, word) hfull) rfl (pushArg_texts hfull)
      rw [pushArg_record] at hstored
      exact .ret hstored

theorem buildInput_total (h : OwnsChain base w (l ++ [e])) (file : List Byte) :
    Total parserWorld (StepOver base w l e (withInput e.command file)) (Heap.buildInput e.addr file) w := by
  unfold Heap.buildInput Heap.storeRecord
  apply parser_loadCommand h.node
  dsimp only
  cases hfile : e.inputFile with
  | some text =>
    have hrecord : e.record.redirect.inputFile.isSome = true := by
      simp [CommandEntry.record, hfile]
    have hresult : withInput e.command file = .error "duplicate input redirection" := by
      simp [withInput, CommandEntry.command, hfile]
    rw [if_pos hrecord]
    exact .ret (.rejected hresult)
  | none =>
    have hrecord : ¬ e.record.redirect.inputFile.isSome = true := by
      simp [CommandEntry.record, hfile]
    have hnone : Heap.setInput e.record none = e.record := by
      simp [Heap.setInput, CommandEntry.record, hfile]
    rw [if_neg hrecord]
    apply parser_strdup
    · rw [hnone, if_pos rfl]
      apply parser_storeCommand h.refuse.allocated
      rw [setCommand_same h.refuse.node]
      exact .ret (.memory h.refuse rfl)
    · intro p hp
      have hallocated : (w.setString p (some file)).commands e.addr ≠ none := h.allocated
      apply parser_storeCommand hallocated
      rw [if_neg (Option.some_ne_none p)]
      have htexts : (e.setInput (p, file)).texts.Perm ((p, file) :: e.texts) := by
        simp only [CommandEntry.texts, CommandEntry.files, CommandEntry.setInput, hfile, Option.toList_some,
          Option.toList_none, List.append_nil, ← List.append_assoc]
        exact List.perm_append_singleton ..
      have hresult : withInput e.command file = .ok (e.setInput (p, file)).command := by
        simp [withInput, CommandEntry.command, CommandEntry.setInput, hfile, Building.setInput]
      exact .ret (StepOver.stored h hp hresult rfl htexts)

theorem buildOutput_total (h : OwnsChain base w (l ++ [e])) (file : List Byte) (append : ℤ) :
    Total parserWorld (StepOver base w l e (withOutput e.command file append))
      (Heap.buildOutput e.addr file append) w := by
  unfold Heap.buildOutput Heap.storeRecord
  apply parser_loadCommand h.node
  dsimp only
  cases hfile : e.outputFile with
  | some text =>
    have hrecord : e.record.redirect.outputFile.isSome = true := by
      simp [CommandEntry.record, hfile]
    have hresult : withOutput e.command file append = .error "duplicate output redirection" := by
      simp [withOutput, CommandEntry.command, hfile]
    rw [if_pos hrecord]
    exact .ret (.rejected hresult)
  | none =>
    have hrecord : ¬ e.record.redirect.outputFile.isSome = true := by
      simp [CommandEntry.record, hfile]
    have hnone : Heap.setOutput e.record none = e.record := by
      simp [Heap.setOutput, CommandEntry.record, hfile]
    rw [if_neg hrecord]
    apply parser_strdup
    · rw [hnone, if_pos rfl]
      apply parser_storeCommand h.refuse.allocated
      rw [setCommand_same h.refuse.node]
      exact .ret (.memory h.refuse rfl)
    · intro p hp
      have hallocated : (w.setString p (some file)).commands e.addr ≠ none := h.allocated
      apply parser_storeCommand hallocated
      rw [if_neg (Option.some_ne_none p)]
      apply parser_storeCommand (stored_allocated _ _ _)
      rw [setCommand_twice]
      have htexts : (e.setOutput (p, file) append).texts.Perm ((p, file) :: e.texts) := by
        simp only [CommandEntry.texts, CommandEntry.files, CommandEntry.setOutput, hfile, Option.toList_some,
          Option.toList_none, List.nil_append, List.singleton_append]
        exact List.perm_middle
      have hresult : withOutput e.command file append = .ok (e.setOutput (p, file) append).command := by
        simp [withOutput, CommandEntry.command, CommandEntry.setOutput, hfile, Building.setOutput]
      exact .ret (StepOver.stored h hp hresult rfl htexts)

theorem OwnsChain.append {b : ℕ} (h : OwnsChain base w (l ++ [e])) (hfree : w.commands b = none) :
    OwnsChain base ((w.setCommand b Heap.commandInit).setCommand e.addr ⟨e.record, some b⟩)
      (l ++ [e] ++ [.fresh b]) := by
  have hnodes := h.nodes
  rw [List.map_append] at hnodes
  have happended := Placed.append hnodes hfree (y := (CommandEntry.fresh b).record)
  rw [CommandEntry.fresh_record] at happended
  constructor
  · simp only [List.map_append, List.map_cons, List.map_nil, List.append_assoc, List.cons_append, List.nil_append]
    exact happended
  · have htexts : (CommandEntry.fresh b).texts = [] := rfl
    simp only [List.flatMap_append, List.flatMap_cons, List.flatMap_nil, htexts, List.append_nil]
    have hsame := h.texts
    simp only [List.flatMap_append, List.flatMap_cons, List.flatMap_nil, List.append_nil] at hsame
    exact hsame

end Steps

/-! ### The loop of `build_command` -/

/-- The loop is over: the chain that starts at `head` is still owned. -/
inductive BuildOver (base : ParserHeap) (refused head : ℕ) (result : Except String Building) :
    Except BuildError Unit → ParserHeap → Prop
  | memory {chain : List CommandEntry} {w' : ParserHeap} (howns : OwnsChain base w' chain)
      (hhead : headOf chain = some head)
      (hrefused : w'.refused = refused + 1) : BuildOver base refused head result (.error .memory) w'
  | rejected {message : String} {chain : List CommandEntry} {w' : ParserHeap} (howns : OwnsChain base w' chain)
      (hhead : headOf chain = some head) (hrefused : w'.refused = refused) (hresult : result = .error message) :
      BuildOver base refused head result (.error (.syntaxError message)) w'
  | done {l : List CommandEntry} {e : CommandEntry} {w' : ParserHeap} (howns : OwnsChain base w' (l ++ [e]))
      (hhead : headOf (l ++ [e]) = some head) (hrefused : w'.refused = refused)
      (hresult : result = .ok ⟨l.map CommandEntry.command, e.command⟩) : BuildOver base refused head result (.ok ()) w'

section Build

variable {base w : ParserHeap} {l : List CommandEntry} {e : CommandEntry} {head : ℕ}

/-- A token that changes the command `e`, and then the rest of the tokens. -/
theorem token_total {status : ℤ} {tokens rest : List Token} {step : ParserProg (Except BuildError Unit)}
    {result : Except String Command} (hstep : Total parserWorld (StepOver base w l e result) step w)
    (hlist : buildTokens status tokens ⟨l.map CommandEntry.command, e.command⟩ =
      result.bind fun c => buildTokens status rest ⟨l.map CommandEntry.command, c⟩)
    (hheap : Heap.buildTokens status head tokens e.addr =
      step.bind (Heap.onward fun _ => Heap.buildTokens status head rest e.addr))
    (howns : OwnsChain base w (l ++ [e])) (hhead : headOf (l ++ [e]) = some head)
    (hrest : ∀ {e' : CommandEntry} {w' : ParserHeap}, OwnsChain base w' (l ++ [e']) → headOf (l ++ [e']) = some head →
      Total parserWorld
        (BuildOver base w'.refused head (buildTokens status rest ⟨l.map CommandEntry.command, e'.command⟩))
        (Heap.buildTokens status head rest e'.addr) w') :
    Total parserWorld
      (BuildOver base w.refused head (buildTokens status tokens ⟨l.map CommandEntry.command, e.command⟩))
      (Heap.buildTokens status head tokens e.addr) w := by
  rw [hlist, hheap]
  apply hstep.bind
  intro r w' hr
  cases hr with
  | memory howns' hrefused => exact .ret (.memory howns' hhead hrefused)
  | rejected hresult =>
    rw [hresult]
    exact .ret (.rejected howns hhead rfl rfl)
  | @done _ e' hresult haddr howns' hrefused =>
    have hhead' : headOf (l ++ [e']) = some head := (headOf_change haddr).trans hhead
    have hnext := hrest howns' hhead'
    rw [hresult, ← hrefused, ← haddr]
    exact hnext

theorem buildTokens_withArg (status : ℤ) (word : List Byte) (rest : List Token) (b : Building) :
    buildTokens status (⟨.word, word⟩ :: rest) b =
      (withArg b.current (expandWord status word)).bind fun c => buildTokens status rest ⟨b.done, c⟩ := by
  rw [buildTokens_word]
  unfold withArg
  by_cases hfull : b.current.argc ≥ MAX_ARGS - 1
  · rw [dif_pos hfull, dif_pos hfull]
    rfl
  · rw [dif_neg hfull, dif_neg hfull]
    rfl

/-- A redirection, and then the rest of the tokens. -/
theorem buildTokens_withFile {status : ℤ} {word : List Byte} {rest : List Token} {b : Building} {file : List Byte} :
    buildTokens status (⟨.redirectIn, word⟩ :: ⟨.word, file⟩ :: rest) b =
        (withInput b.current file).bind (fun c => buildTokens status rest ⟨b.done, c⟩) ∧
      buildTokens status (⟨.redirectOut, word⟩ :: ⟨.word, file⟩ :: rest) b =
        (withOutput b.current file 0).bind (fun c => buildTokens status rest ⟨b.done, c⟩) ∧
      buildTokens status (⟨.redirectAppend, word⟩ :: ⟨.word, file⟩ :: rest) b =
        (withOutput b.current file 1).bind (fun c => buildTokens status rest ⟨b.done, c⟩) := by
  unfold withInput withOutput
  refine ⟨?_, ?_, ?_⟩
  · show (if b.current.redirect.inputFile.isSome then _ else _) = _
    by_cases htwice : b.current.redirect.inputFile.isSome = true
    · rw [if_pos htwice, if_pos htwice]
      rfl
    · rw [if_neg htwice, if_neg htwice]
      rfl
  · show (if b.current.redirect.outputFile.isSome then _ else _) = _
    by_cases htwice : b.current.redirect.outputFile.isSome = true
    · rw [if_pos htwice, if_pos htwice]
      rfl
    · rw [if_neg htwice, if_neg htwice]
      rfl
  · show (if b.current.redirect.outputFile.isSome then _ else _) = _
    by_cases htwice : b.current.redirect.outputFile.isSome = true
    · rw [if_pos htwice, if_pos htwice]
      rfl
    · rw [if_neg htwice, if_neg htwice]
      rfl

/-- A token that is rejected. -/
theorem token_rejected {status : ℤ} {tokens : List Token} {message : String}
    (hlist : buildTokens status tokens ⟨l.map CommandEntry.command, e.command⟩ = .error message)
    (hheap : Heap.buildTokens status head tokens e.addr = .ret (.error (.syntaxError message)))
    (howns : OwnsChain base w (l ++ [e])) (hhead : headOf (l ++ [e]) = some head) :
    Total parserWorld
      (BuildOver base w.refused head (buildTokens status tokens ⟨l.map CommandEntry.command, e.command⟩))
      (Heap.buildTokens status head tokens e.addr) w := by
  rw [hheap]
  exact .ret (.rejected howns hhead rfl hlist)

/-- The case `TOKEN_BACKGROUND`, where `'&'` is the last token. -/
theorem buildBackground_total {status : ℤ} {word : List Byte} (howns : OwnsChain base w (l ++ [e]))
    (hhead : headOf (l ++ [e]) = some head) :
    Total parserWorld
      (BuildOver base w.refused head (buildTokens status [⟨.background, word⟩] ⟨l.map CommandEntry.command, e.command⟩))
      (Heap.buildTokens status head [⟨.background, word⟩] e.addr) w := by
  obtain ⟨x, r, hx⟩ : ∃ x r, l ++ [e] = x :: r := List.exists_cons_of_ne_nil (by simp)
  have hxr : OwnsChain base w ([] ++ x :: r) := by
    rw [List.nil_append, ← hx]
    exact howns
  have hheadx : x.addr = head := by
    rw [hx] at hhead
    exact Option.some.inj hhead
  have hbackground : (Building.mk (l.map CommandEntry.command) e.command).headBackground = x.background := by
    cases l with
    | nil =>
      obtain ⟨rfl, -⟩ := List.cons.inj hx
      rfl
    | cons y l =>
      obtain ⟨rfl, -⟩ := List.cons.inj hx
      rfl
  rw [buildTokens_background, if_neg (by simp), hbackground]
  show Total _ _ ((Heap.buildBackground head).bind _) _
  unfold Heap.buildBackground Heap.storeRecord
  rw [← hheadx]
  apply parser_loadCommand hxr.node
  have hrecord : x.record.background = x.background := rfl
  dsimp only
  rw [hrecord]
  by_cases htwice : x.background ≠ 0
  · rw [if_pos htwice, if_pos htwice]
    rw [← hheadx] at hhead
    exact .ret (.rejected howns hhead rfl rfl)
  · rw [if_neg htwice, if_neg htwice]
    apply parser_storeCommand hxr.allocated
    have hset : OwnsChain base (w.setCommand x.addr ⟨{ x.record with background := 1 }, headOf r⟩)
        ([] ++ { x with background := 1 } :: r) := hxr.write rfl rfl hxr.texts
    apply Total.ret
    cases l with
    | nil =>
      obtain ⟨rfl, rfl⟩ := List.cons.inj hx
      exact BuildOver.done (l := []) hset rfl rfl rfl
    | cons y l =>
      obtain ⟨rfl, rfl⟩ := List.cons.inj hx
      exact BuildOver.done (l := { y with background := 1 } :: l) hset rfl rfl rfl

/-- The case `TOKEN_PIPE`. -/
theorem buildPipe_total {status : ℤ} {word : List Byte} {rest : List Token} (howns : OwnsChain base w (l ++ [e]))
    (hhead : headOf (l ++ [e]) = some head)
    (hnext : ∀ b w', OwnsChain base w' (l ++ [e] ++ [.fresh b]) → headOf (l ++ [e] ++ [.fresh b]) = some head →
      w'.refused = w.refused → Total parserWorld
        (BuildOver base w.refused head (buildTokens status rest ⟨(l ++ [e]).map CommandEntry.command, commandInit⟩))
        (Heap.buildTokens status head rest b) w') :
    Total parserWorld
      (BuildOver base w.refused head
        (buildTokens status (⟨.pipe, word⟩ :: rest) ⟨l.map CommandEntry.command, e.command⟩))
      (Heap.buildTokens status head (⟨.pipe, word⟩ :: rest) e.addr) w := by
  rw [buildTokens_pipe]
  show Total _ _ ((Heap.buildPipe e.addr rest).bind _) _
  unfold Heap.buildPipe
  apply parser_loadCommand howns.node
  dsimp only
  have hargc : e.record.argc = e.command.argc := rfl
  rw [hargc]
  by_cases hempty : e.command.argc = 0
  · rw [if_pos hempty, if_pos hempty]
    exact .ret (.rejected howns hhead rfl rfl)
  rw [if_neg hempty, if_neg hempty]
  by_cases hword : (!wordFollows rest) = true
  · rw [if_pos hword, if_pos hword]
    exact .ret (.rejected howns hhead rfl rfl)
  rw [if_neg hword, if_neg hword]
  simp only [bind_assoc]
  apply newCommand_bind
  · exact .ret (.memory howns.refuse hhead rfl)
  · intro b hfree
    have hallocated : (w.setCommand b Heap.commandInit).commands e.addr ≠ none := by
      have hne : e.addr ≠ b := by
        intro heb
        rw [← heb] at hfree
        exact howns.allocated hfree
      unfold ParserHeap.setCommand
      dsimp only
      rw [write_of_ne _ _ hne]
      exact howns.allocated
    apply parser_storeCommand hallocated
    have hhead' : headOf (l ++ [e] ++ [.fresh b]) = some head := by
      rw [← hhead, List.append_assoc]
      unfold headOf
      simp only [List.map_append, List.map_cons, List.cons_append]
      exact first_append_cons ..
    have hstatus : (Building.mk (l.map CommandEntry.command) e.command).next =
        ⟨(l ++ [e]).map CommandEntry.command, commandInit⟩ := by
      simp [Building.next]
    rw [hstatus]
    exact hnext b _ (howns.append hfree) hhead' rfl

/-- The loop of `build_command` builds the chain of the grammar in memory, or
stops with what it has built so far. -/
theorem buildTokens_total (status : ℤ) : ∀ (tokens : List Token) {l : List CommandEntry} {e : CommandEntry}
    {w : ParserHeap}, OwnsChain base w (l ++ [e]) → headOf (l ++ [e]) = some head →
    Total parserWorld
      (BuildOver base w.refused head (buildTokens status tokens ⟨l.map CommandEntry.command, e.command⟩))
      (Heap.buildTokens status head tokens e.addr) w
  | [], l, e, w, howns, hhead => .ret (.done howns hhead rfl rfl)
  | ⟨.word, word⟩ :: rest, l, e, w, howns, hhead =>
    token_total (buildWord_total howns _) (buildTokens_withArg ..) rfl howns hhead (buildTokens_total status rest)
  | [⟨.redirectIn, word⟩], l, e, w, howns, hhead => token_rejected rfl rfl howns hhead
  | [⟨.redirectOut, word⟩], l, e, w, howns, hhead => token_rejected rfl rfl howns hhead
  | [⟨.redirectAppend, word⟩], l, e, w, howns, hhead => token_rejected rfl rfl howns hhead
  | ⟨.redirectIn, word⟩ :: ⟨type, file⟩ :: rest, l, e, w, howns, hhead => by
    by_cases htype : type = .word
    · subst htype
      exact token_total (buildInput_total howns file) buildTokens_withFile.1 (if_neg (not_not.mpr rfl)) howns hhead
        (buildTokens_total status rest)
    · exact token_rejected (if_pos htype) (if_pos htype) howns hhead
  | ⟨.redirectOut, word⟩ :: ⟨type, file⟩ :: rest, l, e, w, howns, hhead => by
    by_cases htype : type = .word
    · subst htype
      exact token_total (buildOutput_total howns file 0) buildTokens_withFile.2.1 (if_neg (not_not.mpr rfl)) howns hhead
        (buildTokens_total status rest)
    · exact token_rejected (if_pos htype) (if_pos htype) howns hhead
  | ⟨.redirectAppend, word⟩ :: ⟨type, file⟩ :: rest, l, e, w, howns, hhead => by
    by_cases htype : type = .word
    · subst htype
      exact token_total (buildOutput_total howns file 1) buildTokens_withFile.2.2 (if_neg (not_not.mpr rfl)) howns hhead
        (buildTokens_total status rest)
    · exact token_rejected (if_pos htype) (if_pos htype) howns hhead
  | [⟨.background, word⟩], l, e, w, howns, hhead => buildBackground_total howns hhead
  | ⟨.background, word⟩ :: t :: rest, l, e, w, howns, hhead =>
    token_rejected (if_pos (List.cons_ne_nil t rest)) (if_pos (List.cons_ne_nil t rest)) howns hhead
  | ⟨.pipe, word⟩ :: rest, l, e, w, howns, hhead => by
    apply buildPipe_total howns hhead
    intro b w' howns' hhead' hrefused
    have hrest := buildTokens_total status rest howns' hhead'
    rwa [CommandEntry.fresh_command, hrefused] at hrest

/-- The last loop writes what is in the nodes already. -/
theorem terminate_total : ∀ (r l : List CommandEntry), OwnsChain base w (l ++ r) →
    Total parserWorld (fun result w' => w' = w ∧
        ((result = .ok () ∧ terminateArgs (r.map CommandEntry.command) = .ok (r.map CommandEntry.command)) ∨
          ∃ message, result = .error (.syntaxError message) ∧
            terminateArgs (r.map CommandEntry.command) = .error message))
      (.iter Heap.terminateTurn (headOf r)) w
  | [], _, _ => .loop (.ret ⟨rfl, Or.inl ⟨rfl, rfl⟩⟩)
  | e :: r, l, h => by
    have hargc : e.record.argc = e.command.argc := rfl
    refine .loop (parser_loadCommand h.node ?_)
    dsimp only
    rw [hargc]
    by_cases hempty : e.command.argc = 0
    · have hpure : terminateArgs ((e :: r).map CommandEntry.command) = .error "missing command near '|'" :=
        if_pos hempty
      rw [if_pos hempty]
      exact .ret ⟨rfl, Or.inr ⟨_, rfl, hpure⟩⟩
    · have hset : e.command.argv.set e.command.argc none e.command.argc_lt = e.command.argv := by
        have hnone := slotsFrom_set_none (l := e.args.map Prod.snd) (by rw [List.length_map]; exact e.args_lt)
        simp only [List.length_map] at hnone
        exact hnone
      have hpure : terminateArgs ((e :: r).map CommandEntry.command) =
          (terminateArgs (r.map CommandEntry.command)).bind fun cmds => .ok (e.command :: cmds) := by
        refine (if_neg hempty).trans ?_
        rw [hset]
        rfl
      rw [if_neg hempty, setArg_none]
      unfold Heap.storeRecord
      simp only [call_bind, ret_bind]
      apply parser_storeCommand h.allocated
      rw [setCommand_same h.node, hpure]
      rw [List.append_cons] at h
      apply (terminate_total r (l ++ [e]) h).mono
      intro result w' hpost
      refine ⟨hpost.1, ?_⟩
      rcases hpost.2 with ⟨hresult, hterminated⟩ | ⟨message, hresult, hterminated⟩
      · rw [hterminated]
        exact Or.inl ⟨hresult, rfl⟩
      · rw [hterminated]
        exact Or.inr ⟨message, hresult, rfl⟩

end Build

/-! ### A line -/

section Line

variable {ρ : Type}

/-- What comes of a line whose tokens are `parsed`. The heap is as it was, but
for the chain that is returned. -/
inductive ParseOutcome (w : ParserHeap) (ctx : Option (ShellContext ρ)) (parsed : Parsed ρ) :
    ParsedAt ρ → ParserHeap → Prop
  | memory : ParseOutcome w ctx parsed ⟨none, setStatus 1 ctx, some "memory allocation failed"⟩ w.refuse
  | nothing (hchain : parsed.chain = none) : ParseOutcome w ctx parsed ⟨none, parsed.context, parsed.stderr⟩ w
  | chain {chain : List CommandEntry} {w' : ParserHeap} (hchain : parsed.chain = some (chain.map CommandEntry.command))
      (hne : chain ≠ []) (howns : OwnsChain w w' chain) (hrefused : w'.refused = w.refused) :
      ParseOutcome w ctx parsed ⟨headOf chain, parsed.context, parsed.stderr⟩ w'

variable {w base : ParserHeap} {ctx : Option (ShellContext ρ)} {chain : List CommandEntry} {head : Option ℕ}

/-- The chain is given up. -/
theorem giveUp_total (howns : OwnsChain base w chain) (hhead : headOf chain = head) (r : ParsedAt ρ) :
    Total parserWorld (fun r' w' => r' = r ∧ w' = { base with refused := w.refused })
      ((Heap.commandFree head).bind fun _ => .ret r) w := by
  rw [← hhead]
  apply (commandFree_total howns).bind
  intro _ w' hw
  exact .ret ⟨rfl, hw⟩

/-- An error with the message of `parsed`. -/
theorem syntaxFail_total {message : String} {parsed : Parsed ρ}
    (howns : OwnsChain base w chain) (hhead : headOf chain = head)
    (hrefused : w.refused = base.refused) (hparsed : parsed = syntaxFail ctx message) :
    Total parserWorld (ParseOutcome base ctx parsed) (Heap.syntaxFail ctx head message) w := by
  apply (giveUp_total howns hhead ⟨none, setStatus 2 ctx, some message⟩).mono
  intro r w' hr
  rw [hr.1, hr.2, hrefused, hparsed]
  exact ParseOutcome.nothing rfl

theorem memoryFail_total {parsed : Parsed ρ} (howns : OwnsChain base w chain) (hhead : headOf chain = head)
    (hrefused : w.refused = base.refused + 1) :
    Total parserWorld (ParseOutcome base ctx parsed) (Heap.memoryFail ctx head) w := by
  apply (giveUp_total howns hhead ⟨none, setStatus 1 ctx, some "memory allocation failed"⟩).mono
  intro r w' hr
  rw [hr.1, hr.2, hrefused]
  exact ParseOutcome.memory

theorem buildCommand_total (list : List Token) :
    Total parserWorld (ParseOutcome w ctx (buildCommand list ctx)) (Heap.buildCommand list ctx) w := by
  unfold Heap.buildCommand
  apply newCommand_bind
  · have hnothing : OwnsChain w w.refuse [] := ⟨Placed.nothing _, Holds.nothing _⟩
    exact memoryFail_total hnothing rfl rfl
  intro head hfree
  have hone : OwnsChain w (w.setCommand head Heap.commandInit) ([] ++ [.fresh head]) := by
    refine ⟨?_, Holds.nothing _⟩
    have hplaced := Placed.one (x := (CommandEntry.fresh head).record) hfree
    rw [CommandEntry.fresh_record] at hplaced
    exact hplaced
  have htokens := buildTokens_total (ctx.elim 0 (·.lastExitStatus)) list hone rfl
  rw [CommandEntry.fresh_command] at htokens
  unfold buildCommand
  apply htokens.bind
  intro result w₁ hresult
  cases hresult with
  | memory howns hhead hrefused => exact memoryFail_total howns hhead hrefused
  | rejected howns hhead hrefused hpure =>
    rw [List.map_nil] at hpure
    rw [hpure]
    exact syntaxFail_total howns hhead hrefused rfl
  | @done l e _ howns hhead hrefused hpure =>
    have hchain : (Building.mk (l.map CommandEntry.command) e.command).chain = (l ++ [e]).map CommandEntry.command := by
      simp [Building.chain]
    have hhead : headOf (l ++ [e]) = some head := hhead
    rw [List.map_nil] at hpure
    rw [hpure]
    dsimp only
    rw [hchain]
    unfold Heap.proceed
    dsimp only
    rw [← hhead]
    apply (terminate_total (l ++ [e]) [] howns).bind
    intro result w₂ hpost
    obtain ⟨rfl, hterminated⟩ := hpost
    rcases hterminated with ⟨rfl, hterminated⟩ | ⟨message, rfl, hterminated⟩
    · rw [hterminated]
      exact .ret (.chain rfl (by simp) howns hrefused)
    · rw [hterminated]
      rw [hhead]
      exact syntaxFail_total howns hhead hrefused rfl

theorem parseLine_total (line : List Byte) (ctx : Option (ShellContext ρ)) (w : ParserHeap) :
    Total parserWorld (ParseOutcome w ctx (parseLine line ctx)) (Heap.parseLine line ctx) w := by
  unfold Heap.parseLine parseLine
  cases tokenize line with
  | error result => exact .ret (.nothing rfl)
  | ok list =>
    dsimp only
    by_cases hnil : list = []
    · rw [if_pos hnil, if_pos hnil]
      exact .ret (.nothing rfl)
    · rw [if_neg hnil, if_neg hnil]
      exact buildCommand_total list

/-- What `parse_line` returned is freed. -/
theorem ParseOutcome.freed {parsed : Parsed ρ} {r : ParsedAt ρ} {w' : ParserHeap} (h : ParseOutcome w ctx parsed r w') :
    Total parserWorld (fun _ w'' => w'' = { w with refused := w'.refused }) (Heap.commandFree r.head) w' := by
  cases h with
  | memory => exact .loop (.ret rfl)
  | nothing hchain => exact .loop (.ret rfl)
  | chain hchain hne howns hrefused => exact commandFree_total howns

/-- Whatever allocations fail, `parse_line` gives the chain of the line, with
exactly its nodes and words in memory, or leaves the heap as it was; and
`command_free` gives everything back. -/
theorem parse_line_memory (line : List Byte) (ctx : Option (ShellContext ρ)) (w : ParserHeap) :
    Total parserWorld (fun r w' => ParseOutcome w ctx (parseLine line ctx) r w' ∧
        Total parserWorld (fun _ w'' => w'' = { w with refused := w'.refused }) (Heap.commandFree r.head) w')
      (Heap.parseLine line ctx) w :=
  (parseLine_total line ctx w).mono fun _ _ h => ⟨h, h.freed⟩

/-! ### Lines -/

/-- `shell_dispatch_input` for a line that the dispatcher would give `status`. -/
def Heap.dispatchInput (ctx : ShellContext ρ) (line : List Byte × ℤ) : ParserProg (ShellContext ρ) :=
  (Heap.parseLine line.1 (some ctx)).bind fun r =>
    match r.head with
    | none => .ret (r.context.getD ctx)
    | some head => (Heap.commandFree (some head)).bind fun _ =>
      .ret { r.context.getD ctx with lastExitStatus := shellNormalizeStatus line.2 }

/-- The same where allocations succeed. -/
def dispatchInput (ctx : ShellContext ρ) (line : List Byte × ℤ) : ShellContext ρ :=
  let r := parseLine line.1 (some ctx)
  match r.chain with
  | none => r.context.getD ctx
  | some _ => { r.context.getD ctx with lastExitStatus := shellNormalizeStatus line.2 }

theorem dispatchInput_total (ctx : ShellContext ρ) (line : List Byte × ℤ) (w : ParserHeap) :
    Total parserWorld (fun ctx' w' => (w' = w ∧ ctx' = dispatchInput ctx line) ∨ w' = w.refuse)
      (Heap.dispatchInput ctx line) w := by
  unfold Heap.dispatchInput dispatchInput
  apply (parseLine_total line.1 (some ctx) w).bind
  intro r w' h
  cases h with
  | memory => exact .ret (Or.inr rfl)
  | nothing hchain =>
    dsimp only
    rw [hchain]
    exact .ret (Or.inl ⟨rfl, rfl⟩)
  | @chain chain w' hchain hne howns hrefused =>
    dsimp only
    rw [hchain]
    cases hhead : headOf chain with
    | none =>
      obtain ⟨e, rest, rfl⟩ := List.exists_cons_of_ne_nil hne
      exact absurd hhead (Option.some_ne_none _)
    | some head =>
      dsimp only
      rw [← hhead]
      apply (commandFree_total howns).bind
      intro _ w'' hw
      rw [hw, hrefused]
      exact .ret (Or.inl ⟨rfl, rfl⟩)

/-- However many lines are read and whatever allocations fail, the heap is in
the end as it was; and where none failed the shell is where the parser without
a heap takes it. -/
theorem parsed_lines_freed (lines : List (List Byte × ℤ)) (ctx : ShellContext ρ) (w : ParserHeap) :
    Total parserWorld (fun ctx' w' => ∃ failed, w' = { w with refused := w.refused + failed } ∧
        (failed = 0 → ctx' = lines.foldl dispatchInput ctx))
      (lines.foldlM Heap.dispatchInput ctx) w := by
  induction lines generalizing ctx w with
  | nil => exact .ret ⟨0, rfl, fun _ => rfl⟩
  | cons line lines ih =>
    rw [List.foldlM_cons]
    apply (dispatchInput_total ctx line w).bind
    intro ctx' w' h
    apply (ih ctx' w').mono
    intro ctx'' w'' hpost
    obtain ⟨failed, hw, hctx⟩ := hpost
    rcases h with ⟨rfl, rfl⟩ | rfl
    · exact ⟨failed, hw, hctx⟩
    · refine ⟨failed + 1, ?_, fun hzero => absurd hzero (Nat.succ_ne_zero failed)⟩
      rw [hw, Nat.add_comm failed 1, ← Nat.add_assoc]
      rfl

end Line

end DeviceRuntime
