/-
# The configuration of the shell

`src/config/config.c`: the defaults, one line with a key and its value, and the
loader. The loader reads pieces of at most 255 bytes with `fgets`, up to and
with a line feed, and looks at each as a string, so only at what stands before
its first NUL.

A file is its bytes, with how reading and closing it end. The messages to
`stderr` are left out.

Key definitions: `trimSpace`, `MiniShellConfig`, `configParseLine`,
`fgets`, `configLoad`.
-/
import DeviceRuntime.DeviceConfig
import DeviceRuntime.Executor

namespace DeviceRuntime

abbrev PROMPTS_SIZE : ℕ := 64
abbrev CONFIG_LINE_SIZE : ℕ := 256

structure MiniShellConfig where
  prompts : List Byte
  maxJob : ℤ
  debug : ℤ
deriving DecidableEq, Repr

def configInit : MiniShellConfig := ⟨text "MiniShell", 64, 0⟩

def trimSpace (text : List Byte) : List Byte := configTrim text

/-- `none` is `MiniShell_ERR_PARSE`. -/
def configParseLine (line : List Byte) (configs : MiniShellConfig) : Option MiniShellConfig :=
  let trimmed := trimSpace line
  if trimmed = [] ∨ trimmed.headD 0 = '#'.toUInt8 then some configs
  else
    match trimmed.dropWhile (· ≠ '='.toUInt8) with
    | [] => none
    | _ :: after =>
      let key := trimSpace (trimmed.takeWhile (· ≠ '='.toUInt8))
      let value := trimSpace after
      if key = [] then none
      else if key = text "prompts" then
        if value = [] ∨ value.length ≥ PROMPTS_SIZE then none else some { configs with prompts := value }
      else if key = text "max_job" then
        let r := strtol value
        if r.erange ∨ r.rest = value ∨ r.rest ≠ [] ∨ r.number ≤ 0 ∨ r.number > INT_MAX then none
        else some { configs with maxJob := r.number }
      else if key = text "debug" then
        if value = text "0" then some { configs with debug := 0 }
        else if value = text "1" then some { configs with debug := 1 }
        else none
      else none

/-- A piece of the file, what comes after it, and whether the end of the file
was met. -/
structure Fgets where
  line : List Byte
  rest : List Byte
  eof : Bool
deriving DecidableEq, Repr

/-- `fgets` with room for `n` bytes and the NUL. -/
def fgets : ℕ → List Byte → Fgets
  | 0, bytes => ⟨[], bytes, false⟩
  | _ + 1, [] => ⟨[], [], true⟩
  | n + 1, c :: bytes =>
    if c = LF then ⟨[c], bytes, false⟩
    else { fgets n bytes with line := c :: (fgets n bytes).line }

theorem fgets_length : ∀ {n : ℕ} {bytes : List Byte}, (fgets n bytes).rest.length ≤ bytes.length
  | 0, _ => Nat.le_refl _
  | _ + 1, [] => Nat.le_refl _
  | n + 1, c :: bytes => by
    unfold fgets
    by_cases hc : c = LF
    · rw [if_pos hc]
      exact Nat.le_succ _
    · rw [if_neg hc]
      exact fgets_length.trans (Nat.le_succ _)

theorem fgets_shorter {n : ℕ} {bytes : List Byte} (h : bytes ≠ []) :
    (fgets (n + 1) bytes).rest.length < bytes.length := by
  obtain ⟨c, bytes, rfl⟩ := List.exists_cons_of_ne_nil h
  unfold fgets
  by_cases hc : c = LF
  · rw [if_pos hc]
    exact Nat.lt_succ_self _
  · rw [if_neg hc]
    exact Nat.lt_succ_of_le fgets_length

/-- A turn of the loop of `config_load`; `none` is `MiniShell_ERR_PARSE`. -/
def configPiece (piece : Fgets) (temporary : MiniShellConfig) : Option MiniShellConfig :=
  let line := cstr piece.line
  if line.length > 0 ∧ line.getLast? ≠ some LF ∧ !piece.eof then none else configParseLine line temporary

/-- The loop of `config_load`. At a read error `fgets` gives no piece. -/
def configPieces (readError : Bool) (bytes : List Byte) (temporary : MiniShellConfig) : Option MiniShellConfig :=
  if _h : bytes = [] then some temporary
  else if (fgets (CONFIG_LINE_SIZE - 1) bytes).eof ∧ readError then some temporary
  else
    match configPiece (fgets (CONFIG_LINE_SIZE - 1) bytes) temporary with
    | none => none
    | some temporary => configPieces readError (fgets (CONFIG_LINE_SIZE - 1) bytes).rest temporary
termination_by bytes.length
decreasing_by exact fgets_shorter _h

/-- `fopen` finds `files filename`; an `errno` where it fails. The result is
what is returned, and `*configs`. -/
def configLoad (files : List Byte → Except ℕ ConfigFile) (configs : MiniShellConfig) (filename : List Byte) :
    ℤ × MiniShellConfig :=
  match files filename with
  | .error _ => (MiniShell_ERR_OPEN, configs)
  | .ok file =>
    match configPieces file.readError file.bytes configInit with
    | none => (MiniShell_ERR_PARSE, configs)
    | some temporary =>
      if file.readError then (MiniShell_ERR_OPEN, configs)
      else if file.closeErrno ≠ none then (MiniShell_ERR_OPEN, configs)
      else (MiniShell_OK, temporary)

end DeviceRuntime
