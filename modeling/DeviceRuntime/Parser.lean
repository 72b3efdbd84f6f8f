/-
# The command line parser

`src/parser.c` and `src/command.c`: a line is cut into tokens, and the tokens
are built into a chain of commands in one pass with one token of look-ahead.
A chain is the list of its commands, with the one being built last.

`argc` of a command is below `MAX_ARGS` by its type, so every slot that is
written is one `argv` has. Allocations succeed; what is printed to `stderr` is
the message of a failure.

Key definitions: `tokenize`, `Command`, `Building`, `buildCommand`,
`parseLine`.
-/
import DeviceRuntime.Libc

namespace DeviceRuntime

abbrev MAX_TOKEN : ℕ := 128
abbrev TOKEN_SIZE : ℕ := 256
abbrev MAX_ARGS : ℕ := 64

theorem argv_pos : 0 < MAX_ARGS := by decide

theorem argv_one : 1 < MAX_ARGS := by decide

/-- `ShellContext`: `rest` are the members the parser has no business with. -/
structure ShellContext (ρ : Type) where
  lastExitStatus : ℤ
  rest : ρ
deriving DecidableEq, Repr

inductive TokenType
  | word | redirectOut | redirectAppend | redirectIn | pipe | background
deriving DecidableEq, Repr

structure Token where
  type : TokenType
  text : List Byte
deriving DecidableEq, Repr

/-- The failures of `tokenize`. -/
inductive TokenizeError
  | tooMany | tooLong
deriving DecidableEq, Repr

def tokenPush (list : List Token) (type : TokenType) (text : List Byte) :
    Except TokenizeError (List Token) :=
  if list.length ≥ MAX_TOKEN then .error .tooMany
  else if text.length ≥ TOKEN_SIZE then .error .tooLong
  else .ok (list ++ [⟨type, text⟩])

def isSpecial (c : Byte) : Bool :=
  c = '>'.toUInt8 || c = '<'.toUInt8 || c = '|'.toUInt8 || c = '&'.toUInt8

/-- What a word goes on with. -/
def inWord (c : Byte) : Bool := !isspace c && !isSpecial c

/-- One turn of the loop of `tokenize` at `p`: the type and the text of the
token there, and where the next turn starts. -/
def nextToken (p : List Byte) : Option (TokenType × List Byte × List Byte) :=
  match p.dropWhile isspace with
  | [] => none
  | c :: rest =>
    if c = '>'.toUInt8 then
      if rest.head? = some '>'.toUInt8 then some (.redirectAppend, text ">>", rest.tail)
      else some (.redirectOut, [c], rest)
    else if c = '<'.toUInt8 then some (.redirectIn, [c], rest)
    else if c = '|'.toUInt8 then some (.pipe, [c], rest)
    else if c = '&'.toUInt8 then some (.background, [c], rest)
    -- `c` is no blank and not special: it is the first byte of the word
    else some (.word, c :: rest.takeWhile inWord, rest.dropWhile inWord)

theorem nextToken_length {p : List Byte} {x : TokenType × List Byte × List Byte}
    (h : nextToken p = some x) : x.2.2.length < p.length := by
  have hle := (List.dropWhile_suffix isspace (l := p)).length_le
  unfold nextToken at h
  cases hp : p.dropWhile isspace with
  | nil => rw [hp] at h; cases h
  | cons c rest =>
    rw [hp, List.length_cons] at hle
    have htail : rest.tail.length ≤ rest.length := by rw [List.length_tail]; omega
    have hword := (List.dropWhile_suffix inWord (l := rest)).length_le
    simp only [hp] at h
    split_ifs at h <;> obtain rfl := Option.some.inj h <;> dsimp only <;> omega

/-- The loop of `tokenize`. -/
def tokenizeFrom (p : List Byte) (list : List Token) : Except TokenizeError (List Token) :=
  match _h : nextToken p with
  | none => .ok list
  | some (type, text, rest) =>
    match tokenPush list type text with
    | .error e => .error e
    | .ok list => tokenizeFrom rest list
termination_by p.length
decreasing_by exact nextToken_length _h

def tokenize (line : List Byte) : Except TokenizeError (List Token) := tokenizeFrom (cstr line) []

structure Redirection where
  inputFile : Option (List Byte)
  outputFile : Option (List Byte)
  append : ℤ
deriving DecidableEq, Repr

structure Command where
  argc : ℕ
  argv : Vector (Option (List Byte)) MAX_ARGS
  background : ℤ
  redirect : Redirection
  argc_lt : argc < MAX_ARGS
deriving DecidableEq

def commandInit : Command := ⟨0, Vector.replicate MAX_ARGS none, 0, ⟨none, none, 0⟩, argv_pos⟩

/-- A chain that is being built: the commands before `current`, and it. -/
structure Building where
  done : List Command
  current : Command

namespace Building

def chain (b : Building) : List Command := b.done ++ [b.current]

/-- `head->background`. -/
def headBackground (b : Building) : ℤ :=
  match b.done with
  | [] => b.current.background
  | head :: _ => head.background

/-- `head->background = 1`. -/
def setBackground (b : Building) : Building :=
  match b.done with
  | [] => { b with current := { b.current with background := 1 } }
  | head :: done => { b with done := { head with background := 1 } :: done }

/-- `current->argv[current->argc++] = word`. -/
def pushArg (b : Building) (word : List Byte) (h : ¬ b.current.argc ≥ MAX_ARGS - 1) : Building :=
  { b with current := { b.current with
      argc := b.current.argc + 1
      argv := b.current.argv.set b.current.argc (some word) b.current.argc_lt
      argc_lt := by unfold MAX_ARGS at h ⊢; omega } }

def setInput (b : Building) (file : List Byte) : Building :=
  { b with current := { b.current with redirect := { b.current.redirect with inputFile := some file } } }

def setOutput (b : Building) (file : List Byte) (append : ℤ) : Building :=
  { b with current := { b.current with
      redirect := { b.current.redirect with outputFile := some file, append := append } } }

/-- `current->next = next; current = next`. -/
def next (b : Building) : Building := ⟨b.done ++ [b.current], commandInit⟩

end Building

/-- The word `$?` is the status of the last command. -/
def expandWord (status : ℤ) (word : List Byte) : List Byte :=
  if word = text "$?" then decimalInt status else word

/-- `token[i + 1].type == TOKEN_WORD`, and there is one. -/
def wordFollows : List Token → Bool
  | t :: _ => t.type = .word
  | [] => false

/-- The loop of `build_command`; an error is the message of `syntax_fail`. -/
def buildTokens (status : ℤ) : List Token → Building → Except String Building
  | [], b => .ok b
  | t :: rest, b =>
    match t.type with
    | .word =>
      if h : b.current.argc ≥ MAX_ARGS - 1 then .error "too many arguments"
      else buildTokens status rest (b.pushArg (expandWord status t.text) h)
    | .redirectIn =>
      match rest with
      | [] => .error "expected filename after '<'"
      | file :: rest =>
        if file.type ≠ .word then .error "expected filename after '<'"
        else if b.current.redirect.inputFile.isSome then .error "duplicate input redirection"
        else buildTokens status rest (b.setInput file.text)
    | .redirectOut =>
      match rest with
      | [] => .error "expected filename after '>'"
      | file :: rest =>
        if file.type ≠ .word then .error "expected filename after '>'"
        else if b.current.redirect.outputFile.isSome then .error "duplicate output redirection"
        else buildTokens status rest (b.setOutput file.text 0)
    | .redirectAppend =>
      match rest with
      | [] => .error "expected filename after '>>'"
      | file :: rest =>
        if file.type ≠ .word then .error "expected filename after '>>'"
        else if b.current.redirect.outputFile.isSome then .error "duplicate output redirection"
        else buildTokens status rest (b.setOutput file.text 1)
    | .background =>
      if rest ≠ [] then .error "'&' must be the last token"
      else if b.headBackground ≠ 0 then .error "duplicate background operator"
      else buildTokens status rest b.setBackground
    | .pipe =>
      if b.current.argc = 0 then .error "missing command near '|'"
      else if !wordFollows rest then .error "expected command after '|'"
      else buildTokens status rest b.next

theorem buildTokens_word (status : ℤ) (w : List Byte) (rest : List Token) (b : Building) :
    buildTokens status (⟨.word, w⟩ :: rest) b =
      if h : b.current.argc ≥ MAX_ARGS - 1 then .error "too many arguments"
      else buildTokens status rest (b.pushArg (expandWord status w) h) := rfl

theorem buildTokens_background (status : ℤ) (t : List Byte) (rest : List Token) (b : Building) :
    buildTokens status (⟨.background, t⟩ :: rest) b =
      if rest ≠ [] then .error "'&' must be the last token"
      else if b.headBackground ≠ 0 then .error "duplicate background operator"
      else buildTokens status rest b.setBackground := rfl

theorem buildTokens_pipe (status : ℤ) (t : List Byte) (rest : List Token) (b : Building) :
    buildTokens status (⟨.pipe, t⟩ :: rest) b =
      if b.current.argc = 0 then .error "missing command near '|'"
      else if !wordFollows rest then .error "expected command after '|'"
      else buildTokens status rest b.next := rfl

/-- The last loop of `build_command`. -/
def terminateArgs : List Command → Except String (List Command)
  | [] => .ok []
  | cmd :: cmds =>
    if cmd.argc = 0 then .error "missing command near '|'"
    else do
      let cmds ← terminateArgs cmds
      return { cmd with argv := cmd.argv.set cmd.argc none cmd.argc_lt } :: cmds

/-- What `parse_line` returns, with the context it leaves. -/
structure Parsed (ρ : Type) where
  chain : Option (List Command)
  context : Option (ShellContext ρ)
  stderr : Option String

section Context

variable {ρ : Type}

def setStatus (status : ℤ) (ctx : Option (ShellContext ρ)) : Option (ShellContext ρ) :=
  ctx.map fun c => { c with lastExitStatus := status }

def tokenizeFail (ctx : Option (ShellContext ρ)) (result : TokenizeError) : Parsed ρ :=
  ⟨none, setStatus 2 ctx, some (if result = .tooLong then "token is too long" else "too many tokens")⟩

def syntaxFail (ctx : Option (ShellContext ρ)) (message : String) : Parsed ρ :=
  ⟨none, setStatus 2 ctx, some message⟩

def buildCommand (list : List Token) (ctx : Option (ShellContext ρ)) : Parsed ρ :=
  match buildTokens (ctx.elim 0 (·.lastExitStatus)) list ⟨[], commandInit⟩ with
  | .error message => syntaxFail ctx message
  | .ok b =>
    match terminateArgs b.chain with
    | .error message => syntaxFail ctx message
    | .ok chain => ⟨some chain, ctx, none⟩

def parseLine (line : List Byte) (ctx : Option (ShellContext ρ)) : Parsed ρ :=
  match tokenize line with
  | .error result => tokenizeFail ctx result
  | .ok list => if list = [] then ⟨none, ctx, none⟩ else buildCommand list ctx

end Context

end DeviceRuntime
