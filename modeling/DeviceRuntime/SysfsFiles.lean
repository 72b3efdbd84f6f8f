/-
# Files that are read

A world in which a program reads files with a given content. `open` fails or
gives a descriptor, `read` gives any part of what is left, as long as there is
something left, and may be interrupted a number of times. A file may also end
with an error.

`sysfs_read_text` and the readers that call it return in every such run, and
the result depends on the content alone.

Key definitions: `SysfsFile`, `FilesState`, `files`, `SysfsFile.string`,
`SysfsFile.cleared`, `SysfsFile.long`, `SysfsFile.ull`.
Key theorems: `readTurn_total`, `sysfsReadText_total`,
`sysfsReadCleared_total`, `sysfsReadLong_total`, `sysfsReadUll_total`.
-/
import DeviceRuntime.Hardware
import DeviceRuntime.Lib.Safe

namespace DeviceRuntime

open Prog HardwareCall

/-! ### The files -/

/-- An error that is not an interruption. -/
structure ReadError where
  errno : ℕ
  final : errno ≠ EINTR

/-- `absent` files cannot be opened. The others may end with an error. -/
inductive SysfsFile
  | absent (errno : ℕ)
  | file (content : List Byte) (error : Option ReadError)

structure FileStream where
  fd : ℤ
  left : List Byte
  error : Option ReadError

/-- The file that is open, and how often `read` will be interrupted at most. -/
structure FilesState where
  current : Option FileStream
  interrupts : ℕ

/-- What `open` gives, and the file that is open then. -/
inductive FileOpen : SysfsFile → CallResult → Option FileStream → Prop
  | absent (errno : ℕ) : FileOpen (.absent errno) ⟨-1, errno⟩ none
  | file (content : List Byte) (error : Option ReadError) (r : CallResult) (hret : 0 ≤ r.ret) :
      FileOpen (.file content error) r (some ⟨r.ret, content, error⟩)

/-- What `read` gives, and what is left. -/
inductive FileRead (f : FileStream) (size : ℕ) : CallResult × List Byte → List Byte → Prop
  | part (n errno : ℕ) (hpos : 0 < n) (hsize : n ≤ size) (hleft : n ≤ f.left.length) :
      FileRead f size (⟨n, errno⟩, f.left.take n) (f.left.drop n)
  | ended (errno : ℕ) (hleft : f.left = []) (hnone : f.error = none) : FileRead f size (⟨0, errno⟩, []) []
  | failed (e : ReadError) (hleft : f.left = []) (hsome : f.error = some e) :
      FileRead f size (⟨-1, e.errno⟩, []) []

def filesSem (tree : List Byte → SysfsFile) (w : FilesState) : (o : HardwareCall) → o.Ret → FilesState → Prop
  | .open path .rdonly, r, w' =>
    w.current = none ∧ ∃ current, FileOpen (tree path) r current ∧ w' = { w with current := current }
  | .read fd size, r, w' =>
    ∃ f, w.current = some f ∧ f.fd = fd ∧
      ((0 < w.interrupts ∧ r = (⟨-1, EINTR⟩, []) ∧ w' = { w with interrupts := w.interrupts - 1 }) ∨
        ∃ left, FileRead f size r left ∧ w' = { w with current := some { f with left := left } })
  | .close fd, r, w' => ∃ f, w.current = some f ∧ f.fd = fd ∧ r.ret = 0 ∧ w' = { w with current := none }
  | _, _, _ => False

abbrev files (tree : List Byte → SysfsFile) : World HardwareCall HardwareCall.Ret FilesState :=
  World.alone (filesSem tree)

/-- The string that is made of the bytes of a file. -/
def sysfsString (bytes : List Byte) : List Byte := cstr (bytes.rdropWhile fun c => c = LF || c = CR)

/-- What `sysfs_read_text` makes of a file. -/
def SysfsFile.string (size : ℕ) : SysfsFile → Except ℕ (List Byte)
  | .absent errno => .error errno
  | .file content none => .ok (sysfsString (content.take (size - 1)))
  | .file content (some e) =>
    if content.length < size - 1 then .error e.errno else .ok (sysfsString (content.take (size - 1)))

/-- What it leaves in a buffer of zeros. -/
def SysfsFile.cleared (size : ℕ) : SysfsFile → List Byte
  | .absent _ => []
  | .file content none => sysfsString (content.take (size - 1))
  | .file content (some _) =>
    if content.length < size - 1 then cstr content else sysfsString (content.take (size - 1))

/-- The number in a string, or the `errno`. -/
def longOf (buffer : List Byte) : Except ℕ ℤ :=
  if (strtol buffer).erange ∨ (strtol buffer).rest = buffer ∨ (strtol buffer).rest ≠ [] then .error EINVAL
  else .ok (strtol buffer).number

def ullOf (buffer : List Byte) : Except ℕ ℕ :=
  if buffer.head? = some '-'.toUInt8 then .error EINVAL
  else if (strtoull buffer).erange ∨ (strtoull buffer).rest = buffer ∨ (strtoull buffer).rest ≠ [] then .error EINVAL
  else .ok (strtoull buffer).parsed

def SysfsFile.long (f : SysfsFile) : Except ℕ ℤ := (f.string 64).bind longOf

def SysfsFile.ull (f : SysfsFile) : Except ℕ ℕ := (f.string 64).bind ullOf

/-! ### The loop -/

section Turn

variable {β : Type}

/-- A turn of the loop of `sysfs_read_text`, with what it makes of the bytes in
the end. -/
def readTurn (fd : ℤ) (size : ℕ) (done : List Byte → β) (failed : ℕ → List Byte → β) (buffer : List Byte) :
    HardwareProg (List Byte ⊕ β) := do
  if ¬ buffer.length < size - 1 then return .inr (done buffer)
  let count ← hwRead fd (size - buffer.length - 1)
  if count.1.ret < 0 then
    if count.1.errno = EINTR then return .inl buffer
    let _ ← hwClose fd
    return .inr (failed count.1.errno buffer)
  if count.1.ret = 0 then return .inr (done buffer)
  return .inl (buffer ++ count.2)

theorem sysfsReadTurn_eq {fd : ℤ} {size : ℕ} :
    sysfsReadTurn fd size = readTurn fd size Except.ok fun errno _ => .error errno := rfl

/-- The loop is over. -/
inductive ReadOver (fd : ℤ) (size : ℕ) (done : List Byte → β) (failed : ℕ → List Byte → β) (whole : List Byte)
    (error : Option ReadError) : β → FilesState → Prop
  | done {f : FileStream} {n : ℕ} (hfd : f.fd = fd) (hwhole : error = none ∨ size - 1 ≤ whole.length) :
      ReadOver fd size done failed whole error (done (whole.take (size - 1))) ⟨some f, n⟩
  | failed {e : ReadError} {n : ℕ} (herror : error = some e) (hwhole : whole.length < size - 1) :
      ReadOver fd size done failed whole error (failed e.errno whole) ⟨none, n⟩

variable {tree : List Byte → SysfsFile} {done : List Byte → β} {failed : ℕ → List Byte → β} {size : ℕ}

/-- After a turn there is less to come, or the loop is over. -/
def TurnOver (f : FileStream) (size : ℕ) (done : List Byte → β) (failed : ℕ → List Byte → β) (buffer : List Byte)
    (interrupts : ℕ) : List Byte ⊕ β → FilesState → Prop
  | .inl buffer', w' =>
    ∃ left interrupts', w' = ⟨some { f with left := left }, interrupts'⟩ ∧ buffer' ++ left = buffer ++ f.left ∧
      buffer'.length ≤ size - 1 ∧
      interrupts' + (size - 1 - buffer'.length) < interrupts + (size - 1 - buffer.length)
  | .inr b, w' => ReadOver f.fd size done failed (buffer ++ f.left) f.error b w'

theorem readTurn_step {buffer : List Byte} {f : FileStream} {interrupts : ℕ} (hlen : buffer.length ≤ size - 1) :
    Prog.Total (files tree) (TurnOver f size done failed buffer interrupts) (readTurn f.fd size done failed buffer)
      ⟨some f, interrupts⟩ := by
  unfold readTurn
  by_cases hroom : buffer.length < size - 1
  · rw [if_neg (not_not.mpr hroom)]
    have hsome : ∃ r w', filesSem tree ⟨some f, interrupts⟩ (.read f.fd (size - buffer.length - 1)) r w' := by
      by_cases hleft : f.left = []
      · cases herror : f.error with
        | none => exact ⟨_, _, f, rfl, rfl, Or.inr ⟨_, FileRead.ended 0 hleft herror, rfl⟩⟩
        | some e => exact ⟨_, _, f, rfl, rfl, Or.inr ⟨_, FileRead.failed e hleft herror, rfl⟩⟩
      · have hpos := List.length_pos_iff.mpr hleft
        exact ⟨_, _, f, rfl, rfl, Or.inr ⟨_, FileRead.part 1 0 (by omega) (by omega) hpos, rfl⟩⟩
    apply Prog.Total.call hsome
    intro r w' ⟨f', hf', _, hr⟩
    cases hf'
    rw [Prog.ret_bind]
    rcases hr with ⟨hint, rfl, rfl⟩ | ⟨left, hread, rfl⟩
    · -- interrupted, with the same buffer
      rw [if_pos (show (-1 : ℤ) < 0 by decide), if_pos rfl]
      apply Prog.Total.ret
      refine ⟨f.left, interrupts - 1, rfl, rfl, hlen, ?_⟩
      dsimp only at hint
      omega
    · cases hread with
      | part k errno hpos hsize hleft =>
        have hk : ¬ ((k : ℕ) : ℤ) < 0 := by omega
        have hzero : ¬ ((k : ℕ) : ℤ) = 0 := by omega
        have hbytes : (buffer ++ f.left.take k).length = buffer.length + k := by
          rw [List.length_append, List.length_take, Nat.min_eq_left hleft]
        rw [if_neg hk, if_neg hzero]
        apply Prog.Total.ret
        refine ⟨f.left.drop k, interrupts, rfl, ?_, by dsimp only; omega, by dsimp only; omega⟩
        rw [List.append_assoc, List.take_append_drop]
      | ended errno hleft hnone =>
        rw [if_neg (show ¬ (0 : ℤ) < 0 by decide), if_pos rfl]
        apply Prog.Total.ret
        have hwhole : (buffer ++ f.left).take (size - 1) = buffer := by
          rw [hleft, List.append_nil, List.take_of_length_le hlen]
        have hover : ReadOver f.fd size done failed (buffer ++ f.left) f.error (done ((buffer ++ f.left).take (size - 1)))
            ⟨some { f with left := [] }, interrupts⟩ := ReadOver.done rfl (Or.inl hnone)
        rwa [hwhole] at hover
      | failed e hleft hsome =>
        rw [if_pos (show (-1 : ℤ) < 0 by decide), if_neg e.final]
        have hclose : ∃ r w', filesSem tree ⟨some { f with left := [] }, interrupts⟩ (.close f.fd) r w' :=
          ⟨⟨0, 0⟩, _, _, rfl, rfl, rfl, rfl⟩
        apply Prog.Total.call hclose
        intro r w' ⟨f', hf', _, _, hw'⟩
        rw [hw']
        apply Prog.Total.ret
        have hwhole : buffer ++ f.left = buffer := by rw [hleft, List.append_nil]
        unfold TurnOver
        rw [hwhole]
        exact ReadOver.failed hsome hroom
  · rw [if_pos hroom]
    apply Prog.Total.ret
    have hwhole : (buffer ++ f.left).take (size - 1) = buffer := by
      rw [List.take_append_of_le_length (by omega), List.take_of_length_le hlen]
    have hlong : size - 1 ≤ (buffer ++ f.left).length := by
      rw [List.length_append]
      omega
    have hover : ReadOver f.fd size done failed (buffer ++ f.left) f.error (done ((buffer ++ f.left).take (size - 1)))
        ⟨some f, interrupts⟩ := ReadOver.done rfl (Or.inr hlong)
    rwa [hwhole] at hover

theorem readTurns_total : ∀ (n : ℕ) (buffer : List Byte) (f : FileStream) (interrupts : ℕ),
    interrupts + (size - 1 - buffer.length) = n → buffer.length ≤ size - 1 →
    Prog.Total (files tree) (ReadOver f.fd size done failed (buffer ++ f.left) f.error)
      (Prog.iter (readTurn f.fd size done failed) buffer) ⟨some f, interrupts⟩ := by
  intro n
  induction n using Nat.strong_induction_on with
  | _ n ih =>
    intro buffer f interrupts hn hlen
    apply Prog.Total.loop
    apply (readTurn_step hlen).bind
    intro x w' hx
    cases x with
    | inr b => exact Prog.Total.ret hx
    | inl buffer' =>
      obtain ⟨left, interrupts', rfl, hwhole, hlen', hless⟩ := hx
      rw [hn] at hless
      have hnext := ih _ hless buffer' { f with left := left } interrupts' rfl hlen'
      rwa [hwhole] at hnext

/-- The bytes come in any parts, and the same is made of them. -/
theorem readTurn_total (tree : List Byte → SysfsFile) (size : ℕ) (done : List Byte → β) (failed : ℕ → List Byte → β)
    (f : FileStream) (interrupts : ℕ) :
    Prog.Total (files tree) (ReadOver f.fd size done failed f.left f.error)
      (Prog.iter (readTurn f.fd size done failed) []) ⟨some f, interrupts⟩ :=
  readTurns_total _ [] f interrupts rfl (Nat.zero_le _)

end Turn

/-! ### The readers -/

section Readers

variable {tree : List Byte → SysfsFile} {w : FilesState} {path : List Byte} {size : ℕ}

/-- The reader returns `r`, and no file is open. -/
def HasRead {α : Type} (r : α) (r' : α) (w' : FilesState) : Prop := r' = r ∧ w'.current = none

/-- What comes after `open`. -/
theorem open_total {α : Type} {Q : α → FilesState → Prop} {k : CallResult → HardwareProg α} (hw : w.current = none)
    (habsent : ∀ errno, tree path = .absent errno → Prog.Total (files tree) Q (k ⟨-1, errno⟩) w)
    (hfile : ∀ content error (r : CallResult), tree path = .file content error → 0 ≤ r.ret →
      Prog.Total (files tree) Q (k r) ⟨some ⟨r.ret, content, error⟩, w.interrupts⟩) :
    Prog.Total (files tree) Q ((hwOpen path .rdonly).bind k) w := by
  have hopen : ∃ r current, FileOpen (tree path) r current := by
    cases tree path with
    | absent errno => exact ⟨_, _, FileOpen.absent errno⟩
    | file content error => exact ⟨⟨0, 0⟩, _, FileOpen.file content error _ (le_refl _)⟩
  obtain ⟨r₀, current₀, hopen⟩ := hopen
  have hsome : ∃ r w', filesSem tree w (.open path .rdonly) r w' := ⟨r₀, _, hw, current₀, hopen, rfl⟩
  apply Prog.Total.call hsome
  intro r w' ⟨_, current, h, hw'⟩
  rw [hw']
  generalize hpath : tree path = f at h
  cases h with
  | absent errno =>
    rw [← hw]
    exact habsent errno hpath
  | file content error r hret => exact hfile content error r hpath hret

/-- What comes after `close`. -/
theorem close_total {α : Type} {Q : α → FilesState → Prop} {k : CallResult → HardwareProg α} {f : FileStream} {n : ℕ}
    (h : ∀ r : CallResult, r.ret = 0 → Prog.Total (files tree) Q (k r) ⟨none, n⟩) :
    Prog.Total (files tree) Q ((hwClose f.fd).bind k) ⟨some f, n⟩ := by
  have hsome : ∃ r w', filesSem tree ⟨some f, n⟩ (.close f.fd) r w' := ⟨⟨0, 0⟩, _, f, rfl, rfl, rfl, rfl⟩
  apply Prog.Total.call hsome
  intro r w' ⟨f', _, _, hret, hw'⟩
  rw [hw']
  exact h r hret

theorem sysfsReadText_total (hsize : 2 ≤ size) (hw : w.current = none) :
    Prog.Total (files tree) (HasRead ((tree path).string size)) (sysfsReadText path size) w := by
  unfold sysfsReadText
  rw [if_neg (by omega)]
  apply open_total hw
  · intro errno hpath
    rw [hpath, if_pos (show (-1 : ℤ) < 0 by decide)]
    exact Prog.Total.ret ⟨rfl, hw⟩
  · intro content error r hpath hret
    rw [hpath, if_neg (not_lt.mpr hret), sysfsReadTurn_eq]
    apply (readTurn_total tree size Except.ok (fun errno _ => Except.error errno) ⟨r.ret, content, error⟩
      w.interrupts).bind
    intro x w' hx
    dsimp only at hx
    cases hx with
    | @done f n hfd hwhole =>
      dsimp only
      rw [← hfd]
      apply close_total
      intro closed hclosed
      rw [if_neg (by omega)]
      apply Prog.Total.ret
      refine ⟨?_, rfl⟩
      unfold SysfsFile.string
      cases error with
      | none => rfl
      | some e =>
        have hlong : ¬ content.length < size - 1 := by
          have hlen := hwhole.resolve_left (by simp)
          omega
        dsimp only
        rw [if_neg hlong]
        rfl
    | @failed e n herror hwhole =>
      apply Prog.Total.ret
      refine ⟨?_, rfl⟩
      rw [herror]
      unfold SysfsFile.string
      dsimp only
      rw [if_pos hwhole]

theorem sysfsReadCleared_total (hsize : 2 ≤ size) (hw : w.current = none) :
    Prog.Total (files tree) (HasRead ((tree path).cleared size)) (sysfsReadCleared path size) w := by
  unfold sysfsReadCleared
  rw [if_neg (by omega)]
  apply open_total hw
  · intro errno hpath
    rw [hpath, if_pos (show (-1 : ℤ) < 0 by decide)]
    exact Prog.Total.ret ⟨rfl, hw⟩
  · intro content error r hpath hret
    rw [hpath, if_neg (not_lt.mpr hret)]
    apply Prog.Total.bind (readTurn_total tree size (fun buffer => (true, buffer)) (fun _ buffer => (false, buffer))
      ⟨r.ret, content, error⟩ w.interrupts)
    intro x w' hx
    dsimp only at hx
    cases hx with
    | @done f n hfd hwhole =>
      rw [if_neg (by simp), ← hfd]
      apply close_total
      intro closed hclosed
      rw [if_neg (by omega)]
      apply Prog.Total.ret
      refine ⟨?_, rfl⟩
      unfold SysfsFile.cleared
      cases error with
      | none => rfl
      | some e =>
        have hlong : ¬ content.length < size - 1 := by
          have hlen := hwhole.resolve_left (by simp)
          omega
        dsimp only
        rw [if_neg hlong]
        rfl
    | @failed e n herror hwhole =>
      rw [if_pos (by simp)]
      apply Prog.Total.ret
      refine ⟨?_, rfl⟩
      rw [herror]
      unfold SysfsFile.cleared
      dsimp only
      rw [if_pos hwhole]

theorem sysfsReadLong_total (hw : w.current = none) :
    Prog.Total (files tree) (HasRead (tree path).long) (sysfsReadLong path) w := by
  unfold sysfsReadLong
  apply (sysfsReadText_total (by decide) hw).bind
  intro r w' ⟨hr, hw'⟩
  unfold SysfsFile.long
  rw [hr]
  cases (tree path).string 64 with
  | error errno => exact Prog.Total.ret ⟨rfl, hw'⟩
  | ok buffer =>
    dsimp only [Except.bind]
    unfold longOf
    split_ifs
    · exact Prog.Total.ret ⟨rfl, hw'⟩
    · exact Prog.Total.ret ⟨rfl, hw'⟩

theorem sysfsReadUll_total (hw : w.current = none) :
    Prog.Total (files tree) (HasRead (tree path).ull) (sysfsReadUll path) w := by
  unfold sysfsReadUll
  apply (sysfsReadText_total (by decide) hw).bind
  intro r w' ⟨hr, hw'⟩
  unfold SysfsFile.ull
  rw [hr]
  cases (tree path).string 64 with
  | error errno => exact Prog.Total.ret ⟨rfl, hw'⟩
  | ok buffer =>
    dsimp only [Except.bind]
    unfold ullOf
    split_ifs
    · exact Prog.Total.ret ⟨rfl, hw'⟩
    · exact Prog.Total.ret ⟨rfl, hw'⟩
    · exact Prog.Total.ret ⟨rfl, hw'⟩

end Readers

end DeviceRuntime
