/-
# The parser in memory

`build_command` and `parse_line` of `src/parser.c` and `src/command.c` once
more, with the chain they build in memory: a command is a node with a pointer
to the next one, and the words of a command are strings of their own. Every
access to a node is a call, as is every `malloc`, `strdup` and `free`;
`free (NULL)` does nothing. An allocation may fail at any time, and a node
that is not allocated cannot be loaded, stored or freed.

The functions have the names they have in `DeviceRuntime.Parser`, where a chain
is a list and allocations succeed. The list of tokens is on the stack.

Key definitions: `CommandRecord`, `ParserHeap`, `ParserCall`, `parserHeapSem`,
`Heap.commandFree`, `Heap.buildTokens`, `Heap.buildCommand`, `Heap.parseLine`.
-/
import DeviceRuntime.Parser
import DeviceRuntime.Lib.LinkedList
import DeviceRuntime.Lib.Safe

namespace DeviceRuntime

open LinkedList

structure RedirectionRecord where
  inputFile : Option ℕ
  outputFile : Option ℕ
  append : ℤ
deriving DecidableEq, Repr

/-- A command without the pointer to the next one. The words are pointers. -/
structure CommandRecord where
  argc : ℕ
  argv : Vector (Option ℕ) MAX_ARGS
  background : ℤ
  redirect : RedirectionRecord
  argc_lt : argc < MAX_ARGS

/-- `refused` counts the allocations that failed. -/
structure ParserHeap where
  commands : Memory CommandRecord
  strings : ℕ → Option (List Byte)
  refused : ℕ

inductive ParserCall
  | mallocCommand
  | loadCommand (cmd : ℕ)
  | storeCommand (cmd : ℕ) (node : Node CommandRecord)
  | freeCommand (cmd : ℕ)
  | strdup (s : List Byte)
  | freeString (p : ℕ)

abbrev ParserCall.Ret : ParserCall → Type
  | .mallocCommand | .strdup _ => Option ℕ
  | .loadCommand _ => Node CommandRecord
  | .storeCommand _ _ | .freeCommand _ | .freeString _ => Unit

abbrev ParserProg := Prog ParserCall ParserCall.Ret

/-- Why no chain is returned. -/
inductive BuildError
  | syntaxError (message : String)
  | memory
deriving DecidableEq, Repr

/-- What `parse_line` returns, with the context it leaves and the message it
prints. -/
structure ParsedAt (ρ : Type) where
  head : Option ℕ
  context : Option (ShellContext ρ)
  stderr : Option String

namespace Heap

/-! ### Commands -/

/-- `current->field = value`, for a node that was loaded. -/
def storeRecord (cmd : ℕ) (node : Node CommandRecord) (record : CommandRecord) : ParserProg Unit :=
  .call (.storeCommand cmd { node with val := record }) .ret

/-- What `command_init` writes. -/
def commandInit : Node CommandRecord :=
  ⟨⟨0, Vector.replicate MAX_ARGS none, 0, ⟨none, none, 0⟩, argv_pos⟩, none⟩

def newCommand : ParserProg (Option ℕ) :=
  .call .mallocCommand fun
    | none => .ret none
    | some cmd => .call (.storeCommand cmd commandInit) fun _ => .ret (some cmd)

def freeText (p : Option ℕ) : ParserProg Unit :=
  match p with
  | none => .ret ()
  | some p => .call (.freeString p) .ret

theorem lt_argv {i argc : ℕ} (h : i < argc) (hargc : argc < MAX_ARGS) : i < MAX_ARGS := Nat.lt_trans h hargc

/-- The `argv` loop of `command_free` at the index `i`. -/
def freeArgsTurn (cmd i : ℕ) : ParserProg (ℕ ⊕ Unit) :=
  .call (.loadCommand cmd) fun node =>
    if h : i < node.val.argc then
      (freeText (node.val.argv.get ⟨i, lt_argv h node.val.argc_lt⟩)).bind fun _ =>
      (storeRecord cmd node { node.val with
        argv := node.val.argv.set i none (lt_argv h node.val.argc_lt) }).bind fun _ =>
      .ret (.inl (i + 1))
    else .ret (.inr ())

def commandFreeTurn : Option ℕ → ParserProg (Option ℕ ⊕ Unit)
  | none => .ret (.inr ())
  | some cmd => .call (.loadCommand cmd) fun first =>
    (Prog.iter (freeArgsTurn cmd) 0).bind fun _ =>
    .call (.loadCommand cmd) fun node =>
    (freeText node.val.redirect.outputFile).bind fun _ =>
    (freeText node.val.redirect.inputFile).bind fun _ =>
    .call (.freeCommand cmd) fun _ =>
    .ret (.inl first.next)

def commandFree (cmd : Option ℕ) : ParserProg Unit := .iter commandFreeTurn cmd

/-! ### Building -/

/-- `current->argv[current->argc] = p`. -/
def setArg (record : CommandRecord) (p : Option ℕ) : CommandRecord :=
  { record with argv := record.argv.set record.argc p record.argc_lt }

theorem argc_succ_lt {argc : ℕ} (h : ¬ argc ≥ MAX_ARGS - 1) : argc + 1 < MAX_ARGS := by
  unfold MAX_ARGS at h ⊢
  omega

/-- The case `TOKEN_WORD`: is the word in `argv`? -/
def buildWord (current : ℕ) (word : List Byte) : ParserProg (Except BuildError Unit) :=
  .call (.loadCommand current) fun node =>
    if h : node.val.argc ≥ MAX_ARGS - 1 then .ret (.error (.syntaxError "too many arguments"))
    else .call (.strdup word) fun p =>
      (storeRecord current node (setArg node.val p)).bind fun _ =>
      match p with
      | none => .ret (.error .memory)
      | some p =>
        (storeRecord current node { setArg node.val (some p) with
          argc := node.val.argc + 1, argc_lt := argc_succ_lt h }).bind fun _ => .ret (.ok ())

def setInput (record : CommandRecord) (p : Option ℕ) : CommandRecord :=
  { record with redirect := { record.redirect with inputFile := p } }

def setOutput (record : CommandRecord) (p : Option ℕ) : CommandRecord :=
  { record with redirect := { record.redirect with outputFile := p } }

def setAppend (record : CommandRecord) (append : ℤ) : CommandRecord :=
  { record with redirect := { record.redirect with append := append } }

def buildInput (current : ℕ) (file : List Byte) : ParserProg (Except BuildError Unit) :=
  .call (.loadCommand current) fun node =>
    if node.val.redirect.inputFile.isSome then .ret (.error (.syntaxError "duplicate input redirection"))
    else .call (.strdup file) fun p =>
      (storeRecord current node (setInput node.val p)).bind fun _ =>
      if p = none then .ret (.error .memory) else .ret (.ok ())

def buildOutput (current : ℕ) (file : List Byte) (append : ℤ) : ParserProg (Except BuildError Unit) :=
  .call (.loadCommand current) fun node =>
    if node.val.redirect.outputFile.isSome then .ret (.error (.syntaxError "duplicate output redirection"))
    else .call (.strdup file) fun p =>
      (storeRecord current node (setOutput node.val p)).bind fun _ =>
      if p = none then .ret (.error .memory)
      else (storeRecord current node (setAppend (setOutput node.val p) append)).bind fun _ => .ret (.ok ())

def buildBackground (head : ℕ) : ParserProg (Except BuildError Unit) :=
  .call (.loadCommand head) fun node =>
    if node.val.background ≠ 0 then .ret (.error (.syntaxError "duplicate background operator"))
    else (storeRecord head node { node.val with background := 1 }).bind fun _ => .ret (.ok ())

/-- The new `current`. -/
def buildPipe (current : ℕ) (rest : List Token) : ParserProg (Except BuildError ℕ) :=
  .call (.loadCommand current) fun node =>
    if node.val.argc = 0 then .ret (.error (.syntaxError "missing command near '|'"))
    else if !wordFollows rest then .ret (.error (.syntaxError "expected command after '|'"))
    else newCommand.bind fun
      | none => .ret (.error .memory)
      | some next => .call (.storeCommand current { node with next := some next }) fun _ => .ret (.ok next)

/-- The rest of the tokens, unless there was an error. -/
def onward {α : Type} (next : α → ParserProg (Except BuildError Unit)) :
    Except BuildError α → ParserProg (Except BuildError Unit)
  | .error e => .ret (.error e)
  | .ok a => next a

/-- The loop of `build_command`. -/
def buildTokens (status : ℤ) (head : ℕ) : List Token → ℕ → ParserProg (Except BuildError Unit)
  | [], _ => .ret (.ok ())
  | t :: rest, current =>
    match t.type with
    | .word =>
      (buildWord current (expandWord status t.text)).bind (onward fun _ => buildTokens status head rest current)
    | .redirectIn =>
      match rest with
      | [] => .ret (.error (.syntaxError "expected filename after '<'"))
      | file :: rest =>
        if file.type ≠ .word then .ret (.error (.syntaxError "expected filename after '<'"))
        else (buildInput current file.text).bind (onward fun _ => buildTokens status head rest current)
    | .redirectOut =>
      match rest with
      | [] => .ret (.error (.syntaxError "expected filename after '>'"))
      | file :: rest =>
        if file.type ≠ .word then .ret (.error (.syntaxError "expected filename after '>'"))
        else (buildOutput current file.text 0).bind (onward fun _ => buildTokens status head rest current)
    | .redirectAppend =>
      match rest with
      | [] => .ret (.error (.syntaxError "expected filename after '>>'"))
      | file :: rest =>
        if file.type ≠ .word then .ret (.error (.syntaxError "expected filename after '>>'"))
        else (buildOutput current file.text 1).bind (onward fun _ => buildTokens status head rest current)
    | .background =>
      if rest ≠ [] then .ret (.error (.syntaxError "'&' must be the last token"))
      else (buildBackground head).bind (onward fun _ => buildTokens status head rest current)
    | .pipe => (buildPipe current rest).bind (onward fun next => buildTokens status head rest next)

/-- The last loop of `build_command`. -/
def terminateTurn : Option ℕ → ParserProg (Option ℕ ⊕ Except BuildError Unit)
  | none => .ret (.inr (.ok ()))
  | some cmd => .call (.loadCommand cmd) fun node =>
    if node.val.argc = 0 then .ret (.inr (.error (.syntaxError "missing command near '|'")))
    else (storeRecord cmd node (setArg node.val none)).bind fun _ => .ret (.inl node.next)

section Context

variable {ρ : Type}

def syntaxFail (ctx : Option (ShellContext ρ)) (head : Option ℕ) (message : String) : ParserProg (ParsedAt ρ) :=
  (commandFree head).bind fun _ => .ret ⟨none, setStatus 2 ctx, some message⟩

def memoryFail (ctx : Option (ShellContext ρ)) (head : Option ℕ) : ParserProg (ParsedAt ρ) :=
  (commandFree head).bind fun _ => .ret ⟨none, setStatus 1 ctx, some "memory allocation failed"⟩

def buildFail (ctx : Option (ShellContext ρ)) (head : Option ℕ) : BuildError → ParserProg (ParsedAt ρ)
  | .syntaxError message => syntaxFail ctx head message
  | .memory => memoryFail ctx head

/-- What `build_command` does when a loop is over. -/
def proceed (ctx : Option (ShellContext ρ)) (head : ℕ) (next : ParserProg (ParsedAt ρ)) :
    Except BuildError Unit → ParserProg (ParsedAt ρ)
  | .error e => buildFail ctx (some head) e
  | .ok () => next

def buildCommand (list : List Token) (ctx : Option (ShellContext ρ)) : ParserProg (ParsedAt ρ) :=
  newCommand.bind fun
    | none => memoryFail ctx none
    | some head =>
      (buildTokens (ctx.elim 0 (·.lastExitStatus)) head list head).bind <| proceed ctx head <|
      (Prog.iter terminateTurn (some head)).bind <| proceed ctx head <|
      .ret ⟨some head, ctx, none⟩

def parseLine (line : List Byte) (ctx : Option (ShellContext ρ)) : ParserProg (ParsedAt ρ) :=
  match tokenize line with
  | .error result => .ret ⟨none, (tokenizeFail ctx result).context, (tokenizeFail ctx result).stderr⟩
  | .ok list => if list = [] then .ret ⟨none, ctx, none⟩ else buildCommand list ctx

end Context

end Heap

/-! ### Memory -/

open Prog

def ParserHeap.setCommand (w : ParserHeap) (cmd : ℕ) (node : Node CommandRecord) : ParserHeap :=
  { w with commands := w.commands.write cmd node }

def ParserHeap.setString (w : ParserHeap) (p : ℕ) (s : Option (List Byte)) : ParserHeap :=
  { w with strings := Function.update w.strings p s }

def ParserHeap.refuse (w : ParserHeap) : ParserHeap := { w with refused := w.refused + 1 }

/-- What `malloc` gives is not allocated yet, and its contents are arbitrary. -/
def parserHeapSem (w : ParserHeap) : (c : ParserCall) → c.Ret → ParserHeap → Prop
  | .mallocCommand, r, w' =>
    (r = none ∧ w' = w.refuse) ∨ ∃ cmd node, r = some cmd ∧ w.commands cmd = none ∧ w' = w.setCommand cmd node
  | .loadCommand cmd, node, w' => w.commands cmd = some node ∧ w' = w
  | .storeCommand cmd node, _, w' => w.commands cmd ≠ none ∧ w' = w.setCommand cmd node
  | .freeCommand cmd, _, w' => w.commands cmd ≠ none ∧ w' = { w with commands := w.commands.free cmd }
  | .strdup s, r, w' =>
    (r = none ∧ w' = w.refuse) ∨ ∃ p, r = some p ∧ w.strings p = none ∧ w' = w.setString p (some s)
  | .freeString p, _, w' => w.strings p ≠ none ∧ w' = w.setString p none

abbrev parserWorld : World ParserCall ParserCall.Ret ParserHeap := World.alone parserHeapSem

end DeviceRuntime
