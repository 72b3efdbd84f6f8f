/-
# The active trigger of an LED

The kernel lists the triggers of an LED in one line and puts the active one in
brackets. `led_read_active_trigger` and its copy for the display look for the
brackets in the first 2047 bytes of the line, however long it is. What
`led_control_set_trigger` has written, it reads back in this way.

Key definitions: `readLedTrigger`, `TriggerFile`, `TriggerFile.Fits`,
`TriggerKernel`, `led`, `ReadsActive`, `ShowsActive`, `SetsTrigger`.
Key theorems: `activeTrigger_line`, `shownTrigger_line`,
`ledReadActiveTrigger_total`, `readLedTrigger_total`, `Total.simulate`,
`ledControlSetTrigger_total`, `led_trigger_decoding`.
-/
import DeviceRuntime.SysfsFiles
import DeviceRuntime.LedControl

namespace DeviceRuntime

open HardwareCall

/-! ### The copy for the display -/

/-- What is put in a buffer of `size` bytes, if there is something to show. -/
def shownTrigger (line : List Byte) (size : ℕ) : Option (List Byte) :=
  match line.dropWhile (· ≠ '['.toUInt8) with
  | [] => none
  | _ :: inside =>
    let trigger := inside.takeWhile (· ≠ ']'.toUInt8)
    if trigger = inside ∨ trigger = [] then none
    else if trigger.length ≥ size then some (trigger.take (size - 1))
    else some trigger

/-- `read_led_trigger`; `none` is -1. -/
def readLedTrigger (path : List Byte) (size : ℕ) : HardwareProg (Option (List Byte)) := do
  match ← sysfsReadText path LED_TRIGGER_BUFFER_SIZE with
  | .error _ => return none
  | .ok line => return shownTrigger line size

open Prog

/-! ### The file -/

/-- A name that the kernel can list. -/
structure TriggerName (name : List Byte) : Prop where
  valid : ledTriggerValid name = true
  opening : '['.toUInt8 ∉ name
  closing : ']'.toUInt8 ∉ name

/-- The triggers in the order of the file, with the active one. -/
structure TriggerFile where
  before : List (List Byte)
  active : List Byte
  after : List (List Byte)
  listed : ∀ name ∈ before ++ active :: after, TriggerName name

namespace TriggerFile

def names (f : TriggerFile) : List (List Byte) := f.before ++ f.active :: f.after

def bracketed (f : TriggerFile) : List Byte := '['.toUInt8 :: (f.active ++ [']'.toUInt8])

/-- One blank between two names, and a newline. -/
def content (f : TriggerFile) : List Byte :=
  [' '.toUInt8].intercalate (f.before ++ f.bracketed :: f.after) ++ [LF]

/-- What stands before the active trigger. -/
def lead (f : TriggerFile) : List Byte := f.before.flatMap (· ++ [' '.toUInt8])

/-- What stands after it. -/
def rest (f : TriggerFile) : List Byte := f.after.flatMap (' '.toUInt8 :: ·) ++ [LF]

/-- The brackets are in the part that is read. -/
def Fits (f : TriggerFile) : Prop := f.lead.length + f.active.length + 2 ≤ LED_TRIGGER_BUFFER_SIZE - 1

instance (f : TriggerFile) : Decidable f.Fits := inferInstanceAs (Decidable (_ ≤ _))

/-- The string that is read. -/
def line (f : TriggerFile) : List Byte := sysfsString (f.content.take (LED_TRIGGER_BUFFER_SIZE - 1))

end TriggerFile

section Files

variable {f : TriggerFile} {size : ℕ}

theorem intercalate_lead (x : List Byte) (after : List (List Byte)) : ∀ before : List (List Byte),
    [' '.toUInt8].intercalate (before ++ x :: after) =
      before.flatMap (· ++ [' '.toUInt8]) ++ (x ++ after.flatMap (' '.toUInt8 :: ·))
  | [] => by
    induction after generalizing x with
    | nil => simp [List.intercalate]
    | cons y after ih =>
      have hnext := ih y
      rw [List.nil_append, List.flatMap_nil, List.nil_append] at hnext ⊢
      rw [List.intercalate_cons_cons, hnext]
      simp
  | y :: before => by
    have hnext := intercalate_lead x after before
    have hne : before ++ x :: after ≠ [] := by simp
    obtain ⟨z, zs, hz⟩ := List.exists_cons_of_ne_nil hne
    rw [List.cons_append, hz, List.intercalate_cons_cons, ← hz, hnext]
    simp

theorem TriggerFile.content_eq (f : TriggerFile) :
    f.content = f.lead ++ '['.toUInt8 :: (f.active ++ ']'.toUInt8 :: f.rest) := by
  unfold TriggerFile.content TriggerFile.lead TriggerFile.rest
  rw [intercalate_lead]
  unfold TriggerFile.bracketed
  simp

/-- No byte of a name is a bracket or a NUL. -/
theorem TriggerName.byte {name : List Byte} (h : TriggerName name) {c : Byte} (hc : c ∈ name) :
    c ≠ '['.toUInt8 ∧ c ≠ ']'.toUInt8 ∧ c ≠ 0 := by
  have hvalid := h.valid
  unfold ledTriggerValid at hvalid
  rw [Bool.and_eq_true, List.all_eq_true] at hvalid
  refine ⟨?_, ?_, ?_⟩
  · intro heq
    exact h.opening (heq ▸ hc)
  · intro heq
    exact h.closing (heq ▸ hc)
  · intro heq
    have hbyte := hvalid.2 c hc
    rw [heq] at hbyte
    exact absurd hbyte (by decide)

theorem TriggerName.ne_nil {name : List Byte} (h : TriggerName name) : name ≠ [] := by
  have hvalid := h.valid
  unfold ledTriggerValid at hvalid
  rw [Bool.and_eq_true, decide_eq_true_eq] at hvalid
  exact hvalid.1

theorem TriggerFile.active_listed (f : TriggerFile) : TriggerName f.active := f.listed _ (by simp)

theorem TriggerFile.lead_byte (f : TriggerFile) {c : Byte} (hc : c ∈ f.lead) :
    c ≠ '['.toUInt8 ∧ c ≠ ']'.toUInt8 ∧ c ≠ 0 := by
  unfold TriggerFile.lead at hc
  rw [List.mem_flatMap] at hc
  obtain ⟨name, hname, hmem⟩ := hc
  rw [List.mem_append, List.mem_singleton] at hmem
  rcases hmem with hmem | hblank
  · exact (f.listed name (List.mem_append_left _ hname)).byte hmem
  · rw [hblank]
    decide

/-- A string is made of the bytes up to one that is kept and of some of the
others. -/
theorem sysfsString_append {s r : List Byte} {c : Byte} (hs : 0 ∉ s) (hc : c ≠ 0) (hend : c ≠ LF ∧ c ≠ CR) :
    ∃ t, sysfsString (s ++ c :: r) = s ++ c :: t := by
  have hdrop : ∃ t, (s ++ c :: r).rdropWhile (fun c => c = LF || c = CR) = s ++ c :: t := by
    induction r using List.reverseRecOn with
    | nil =>
      refine ⟨[], ?_⟩
      rw [List.rdropWhile_concat_neg]
      simpa using hend
    | append_singleton r d ih =>
      obtain ⟨t, ht⟩ := ih
      have hassoc : s ++ c :: (r ++ [d]) = (s ++ c :: r) ++ [d] := by simp
      rw [hassoc, List.rdropWhile_concat]
      by_cases hd : (d = LF || d = CR) = true
      · rw [if_pos hd]
        exact ⟨t, ht⟩
      · rw [if_neg hd]
        exact ⟨r ++ [d], by simp⟩
  obtain ⟨t, ht⟩ := hdrop
  refine ⟨cstr t, ?_⟩
  unfold sysfsString
  rw [ht]
  unfold cstr
  rw [List.takeWhile_append_of_pos, List.takeWhile_cons_of_pos]
  · simpa using hc
  · intro d hd
    rw [decide_eq_true_eq]
    exact fun heq => hs (heq ▸ hd)

theorem mem_of_sysfsString {s : List Byte} {c : Byte} (h : c ∈ sysfsString s) : c ∈ s := by
  unfold sysfsString cstr at h
  exact (List.rdropWhile_prefix _ _).subset ((List.takeWhile_prefix _).subset h)

/-- The brackets with the active trigger are in the line that is read. -/
theorem TriggerFile.line_fits (h : f.Fits) :
    ∃ t, f.line = f.lead ++ '['.toUInt8 :: (f.active ++ ']'.toUInt8 :: t) := by
  have htake : f.content.take (LED_TRIGGER_BUFFER_SIZE - 1) = (f.lead ++ '['.toUInt8 :: f.active) ++ ']'.toUInt8 ::
      f.rest.take (LED_TRIGGER_BUFFER_SIZE - 1 - (f.lead.length + f.active.length + 2)) := by
    have hsplit : f.content = (f.lead ++ '['.toUInt8 :: (f.active ++ [']'.toUInt8])) ++ f.rest := by
      rw [f.content_eq]
      simp
    have hlength : (f.lead ++ '['.toUInt8 :: (f.active ++ [']'.toUInt8])).length =
        f.lead.length + f.active.length + 2 := by
      simp
      omega
    rw [hsplit, List.take_append, hlength, List.take_of_length_le (by rw [hlength]; exact h)]
    simp
  have hclean : (0 : Byte) ∉ f.lead ++ '['.toUInt8 :: f.active := by
    intro hmem
    rw [List.mem_append, List.mem_cons] at hmem
    rcases hmem with hmem | heq | hmem
    · exact (f.lead_byte hmem).2.2 rfl
    · exact absurd heq (by decide)
    · exact (f.active_listed.byte hmem).2.2 rfl
  obtain ⟨t, ht⟩ := @sysfsString_append _
    (f.rest.take (LED_TRIGGER_BUFFER_SIZE - 1 - (f.lead.length + f.active.length + 2))) ']'.toUInt8
    hclean (by decide) (by decide)
  refine ⟨t, ?_⟩
  unfold TriggerFile.line
  rw [htake, ht]
  simp

/-- The line that is read ends before the closing bracket. -/
theorem TriggerFile.line_unfit (h : ¬ f.Fits) : ']'.toUInt8 ∉ f.line := by
  intro hmem
  have hmem := mem_of_sysfsString hmem
  have hsplit : f.content = (f.lead ++ '['.toUInt8 :: f.active) ++ ']'.toUInt8 :: f.rest := by
    rw [f.content_eq]
    simp
  unfold TriggerFile.Fits at h
  rw [hsplit, List.take_append_of_le_length] at hmem
  · have hmem := List.mem_of_mem_take hmem
    rw [List.mem_append, List.mem_cons] at hmem
    rcases hmem with hmem | heq | hmem
    · exact (f.lead_byte hmem).2.1 rfl
    · exact absurd heq (by decide)
    · exact f.active_listed.closing hmem
  · rw [List.length_append, List.length_cons]
    omega

/-- What the two decoders find in a line with brackets. -/
theorem brackets_found {s name t : List Byte} (hs : ∀ c ∈ s, c ≠ '['.toUInt8) (hname : ∀ c ∈ name, c ≠ ']'.toUInt8) :
    (s ++ '['.toUInt8 :: (name ++ ']'.toUInt8 :: t)).dropWhile (· ≠ '['.toUInt8) =
        '['.toUInt8 :: (name ++ ']'.toUInt8 :: t) ∧
      (name ++ ']'.toUInt8 :: t).takeWhile (· ≠ ']'.toUInt8) = name := by
  constructor
  · apply dropWhile_stop
    · intro c hc
      simpa using hs c hc
    · intro c hc
      rw [← Option.some.inj hc]
      decide
  · apply takeWhile_stop
    · intro c hc
      simpa using hname c hc
    · intro c hc
      rw [← Option.some.inj hc]
      decide

/-- Without a closing bracket there is nothing after the opening one that ends. -/
theorem brackets_missing {s : List Byte} (hs : ']'.toUInt8 ∉ s) {c : Byte} {inside : List Byte}
    (h : s.dropWhile (· ≠ '['.toUInt8) = c :: inside) : inside.takeWhile (· ≠ ']'.toUInt8) = inside := by
  rw [List.takeWhile_eq_self_iff]
  intro d hd
  rw [decide_eq_true_eq]
  intro heq
  have hmem : d ∈ s.dropWhile (· ≠ '['.toUInt8) := by
    rw [h]
    exact List.mem_cons_of_mem _ hd
  rw [heq] at hmem
  exact hs ((List.dropWhile_suffix _).subset hmem)

theorem TriggerFile.brackets (f : TriggerFile) (t : List Byte) :
    (f.lead ++ '['.toUInt8 :: (f.active ++ ']'.toUInt8 :: t)).dropWhile (· ≠ '['.toUInt8) =
        '['.toUInt8 :: (f.active ++ ']'.toUInt8 :: t) ∧
      (f.active ++ ']'.toUInt8 :: t).takeWhile (· ≠ ']'.toUInt8) = f.active :=
  brackets_found (fun _ hc => (f.lead_byte hc).1) fun _ hc => (f.active_listed.byte hc).2.1

/-- The active trigger does not end the line. -/
theorem TriggerFile.active_ends (f : TriggerFile) (t : List Byte) :
    ¬ (f.active = f.active ++ ']'.toUInt8 :: t ∨ f.active = []) := by
  rintro (heq | hnil)
  · have hlength := congrArg List.length heq
    rw [List.length_append, List.length_cons] at hlength
    omega
  · exact f.active_listed.ne_nil hnil

theorem activeTrigger_line (f : TriggerFile) (size : ℕ) : activeTrigger f.line size =
    if f.Fits then if f.active.length ≥ size then .error EOVERFLOW else .ok f.active else .error EIO := by
  unfold activeTrigger
  by_cases h : f.Fits
  · obtain ⟨t, ht⟩ := f.line_fits h
    obtain ⟨hdrop, htake⟩ := f.brackets t
    rw [ht, hdrop, if_pos h]
    dsimp only
    rw [htake, if_neg (f.active_ends t)]
  · rw [if_neg h]
    generalize hdrop : f.line.dropWhile (· ≠ '['.toUInt8) = found
    cases found with
    | nil => rfl
    | cons c inside =>
      have hmissing := brackets_missing (f.line_unfit h) hdrop
      dsimp only
      rw [hmissing, if_pos (Or.inl rfl)]

theorem shownTrigger_line (f : TriggerFile) (hsize : 0 < size) : shownTrigger f.line size =
    if f.Fits then some (f.active.take (size - 1)) else none := by
  unfold shownTrigger
  by_cases h : f.Fits
  · obtain ⟨t, ht⟩ := f.line_fits h
    obtain ⟨hdrop, htake⟩ := f.brackets t
    rw [ht, hdrop, if_pos h]
    dsimp only
    rw [htake, if_neg (f.active_ends t)]
    by_cases hlong : f.active.length ≥ size
    · rw [if_pos hlong]
    · rw [if_neg hlong, List.take_of_length_le (by omega)]
  · rw [if_neg h]
    generalize hdrop : f.line.dropWhile (· ≠ '['.toUInt8) = found
    cases found with
    | nil => rfl
    | cons c inside =>
      have hmissing := brackets_missing (f.line_unfit h) hdrop
      dsimp only
      rw [hmissing, if_pos (Or.inl rfl)]

end Files

/-! ### The readers -/

section Readers

variable {tree : List Byte → SysfsFile} {w : FilesState} {f : TriggerFile} {name path : List Byte} {size : ℕ}

theorem string_line (htree : tree path = .file f.content none) :
    (tree path).string LED_TRIGGER_BUFFER_SIZE = .ok f.line := by
  rw [htree]
  rfl

theorem ledReadActiveTrigger_total (hpath : ledBuildPath LED_PATH_SIZE name (text "trigger") = .ok path)
    (htree : tree path = .file f.content none) (hw : w.current = none) :
    Prog.Total (files tree) (HasRead (if size = 0 then .error EINVAL else activeTrigger f.line size))
      (ledReadActiveTrigger name size) w := by
  unfold ledReadActiveTrigger
  by_cases hsize : size = 0
  · rw [if_pos hsize, if_pos hsize]
    exact Prog.Total.ret ⟨rfl, hw⟩
  · rw [if_neg hsize, if_neg hsize, hpath]
    apply (sysfsReadText_total (by decide) hw).bind
    intro r w' ⟨hr, hw'⟩
    rw [hr, string_line htree]
    exact Prog.Total.ret ⟨rfl, hw'⟩

theorem readLedTrigger_total (htree : tree path = .file f.content none) (hw : w.current = none) :
    Prog.Total (files tree) (HasRead (shownTrigger f.line size)) (readLedTrigger path size) w := by
  unfold readLedTrigger
  apply (sysfsReadText_total (by decide) hw).bind
  intro r w' ⟨hr, hw'⟩
  have hline : (tree path).string 2048 = .ok f.line := string_line htree
  rw [hr, hline]
  exact Prog.Total.ret ⟨rfl, hw'⟩

end Readers

/-! ### The kernel -/

/-- A trigger of the list that is written becomes the one in brackets. -/
structure TriggerKernel where
  select : List Byte → TriggerFile → TriggerFile
  names : ∀ trigger f, trigger ∈ f.names → (select trigger f).names = f.names
  active : ∀ trigger f, trigger ∈ f.names → (select trigger f).active = trigger

/-- The file of an LED, what is read of it, and the descriptor that is open for
writing. -/
structure LedState where
  file : TriggerFile
  reading : FilesState
  writing : Option ℤ

def LedState.idle (w : LedState) : Prop := w.reading.current = none ∧ w.writing = none

def ledTree (path : List Byte) (f : TriggerFile) (p : List Byte) : SysfsFile :=
  if p = path then .file f.content none else .absent ENOENT

/-- A call that reads. -/
def LedReading (path : List Byte) (w : LedState) (o : HardwareCall) (r : o.Ret) (w' : LedState) : Prop :=
  w.writing = none ∧ ∃ v, filesSem (ledTree path w.file) w.reading o r v ∧ w' = { w with reading := v }

def ledSem (kernel : TriggerKernel) (path : List Byte) (w : LedState) : (o : HardwareCall) → o.Ret → LedState → Prop
  | .open p .wronly, r, w' => p = path ∧ w.idle ∧ 0 ≤ r.ret ∧ w' = { w with writing := some r.ret }
  | .write fd data, r, w' =>
    w.writing = some fd ∧
      ((0 < w.reading.interrupts ∧ r = ⟨-1, EINTR⟩ ∧
          w' = { w with reading := { w.reading with interrupts := w.reading.interrupts - 1 } }) ∨
        (data ∈ w.file.names ∧ r.ret = data.length ∧ w' = { w with file := kernel.select data w.file }))
  | .close fd, r, w' =>
    (w.writing = some fd ∧ r.ret = 0 ∧ w' = { w with writing := none }) ∨ LedReading path w (.close fd) r w'
  | .logError _ _, _, w' => w' = w
  | .open p .rdonly, r, w' => LedReading path w (.open p .rdonly) r w'
  | .read fd size, r, w' => LedReading path w (.read fd size) r w'
  | _, _, _ => False

abbrev led (kernel : TriggerKernel) (path : List Byte) : World HardwareCall HardwareCall.Ret LedState :=
  World.alone (ledSem kernel path)

/-- `w`, with the file read as in `v`. -/
def ReadsOn (w : LedState) (v : FilesState) (w' : LedState) : Prop := w' = { w with reading := v }

section Kernel

variable {kernel : TriggerKernel} {w : LedState} {name path trigger : List Byte} {errno : ℕ}

theorem ledSem_of_files {v v' : FilesState} {o : HardwareCall} {r : o.Ret} (hw : w.writing = none)
    (h : filesSem (ledTree path w.file) v o r v') :
    ledSem kernel path { w with reading := v } o r { w with reading := v' } := by
  cases o with
  | «open» p mode =>
    cases mode with
    | rdonly => exact ⟨hw, v', h, rfl⟩
    | wronly => exact h.elim
    | rdwr => exact h.elim
  | read fd size => exact ⟨hw, v', h, rfl⟩
  | close fd => exact Or.inr ⟨hw, v', h, rfl⟩
  | _ => exact h.elim

theorem files_of_ledSem {v u : FilesState} {w' : LedState} {o : HardwareCall} {s r : o.Ret} (hw : w.writing = none)
    (hfile : filesSem (ledTree path w.file) v o s u) (h : ledSem kernel path { w with reading := v } o r w') :
    ∃ v', filesSem (ledTree path w.file) v o r v' ∧ ReadsOn w v' w' := by
  cases o with
  | «open» p mode =>
    cases mode with
    | rdonly => exact h.2
    | wronly => exact hfile.elim
    | rdwr => exact hfile.elim
  | read fd size => exact h.2
  | close fd =>
    rcases h with ⟨hopen, -⟩ | h
    · dsimp only at hopen
      rw [hw] at hopen
      cases hopen
    · exact h.2
  | _ => exact hfile.elim

/-- What reads a file reads this one. -/
theorem led_reading {α : Type} {Q : α → FilesState → Prop} {p : HardwareProg α} (hw : w.writing = none)
    (h : Prog.Total (files (ledTree path w.file)) Q p w.reading) :
    Prog.Total (led kernel path) (fun a w' => ∃ v, ReadsOn w v w' ∧ Q a v) p w := by
  refine Prog.Total.simulate ?_ ?_ h rfl
  · intro v w' o r v' hreads hs
    rw [hreads]
    exact ⟨r, _, ledSem_of_files hw hs⟩
  · intro v w' o s u r w'' hreads hs hled
    rw [hreads] at hled
    exact files_of_ledSem hw hs hled

/-- `w` after a write that is interrupted. -/
def LedState.interrupted (w : LedState) : LedState :=
  { w with reading := { w.reading with interrupts := w.reading.interrupts - 1 } }

/-- The trigger is written, with the descriptor still open. -/
def LedWritten (kernel : TriggerKernel) (trigger : List Byte) (fd : ℤ) (w : LedState) (r : CallResult)
    (w' : LedState) : Prop :=
  r.ret = trigger.length ∧ w'.file = kernel.select trigger w.file ∧ w'.reading.current = w.reading.current ∧
    w'.writing = some fd

theorem ledWriteTurn_total {fd : ℤ} (htrigger : trigger ∈ w.file.names) (hw : w.writing = some fd) :
    Prog.Total (led kernel path)
      (Sum.elim (fun _ w' => 0 < w.reading.interrupts ∧ w' = w.interrupted) (LedWritten kernel trigger fd w))
      ((hwWrite fd trigger).bind fun written =>
        if written.ret < 0 ∧ written.errno = EINTR then .ret (.inl ()) else .ret (.inr written)) w := by
  have hsome : ∃ r w', ledSem kernel path w (.write fd trigger) r w' :=
    ⟨⟨trigger.length, 0⟩, _, hw, Or.inr ⟨htrigger, rfl, rfl⟩⟩
  apply Prog.Total.call hsome
  intro r w' ⟨_, hr⟩
  rw [Prog.ret_bind]
  rcases hr with ⟨hint, hret, hw'⟩ | ⟨-, hret, hw'⟩
  · rw [hret, if_pos ⟨by decide, rfl⟩]
    exact Prog.Total.ret ⟨hint, hw'⟩
  · have hall : ¬ (r.ret < 0 ∧ r.errno = EINTR) := by omega
    rw [if_neg hall, hw']
    exact Prog.Total.ret ⟨hret, rfl, rfl, hw⟩

/-- The write is made again while it is interrupted. -/
theorem ledWrite_total {fd : ℤ} (n : ℕ) : ∀ {w : LedState}, w.reading.interrupts = n → trigger ∈ w.file.names →
    w.writing = some fd →
    Prog.Total (led kernel path) (LedWritten kernel trigger fd w)
      (Prog.iter (fun _ : Unit => (hwWrite fd trigger).bind fun written =>
        if written.ret < 0 ∧ written.errno = EINTR then .ret (.inl ()) else .ret (.inr written)) ()) w := by
  induction n with
  | zero =>
    intro w hn htrigger hw
    apply Prog.Total.loop
    apply (ledWriteTurn_total htrigger hw).bind
    intro x w' hx
    cases x with
    | inl again => exact absurd hx.1 (by omega)
    | inr r => exact Prog.Total.ret hx
  | succ n ih =>
    intro w hn htrigger hw
    apply Prog.Total.loop
    apply (ledWriteTurn_total htrigger hw).bind
    intro x w' hx
    cases x with
    | inl again =>
      have hless : w.interrupted.reading.interrupts = n := by
        unfold LedState.interrupted
        dsimp only
        omega
      rw [hx.2]
      exact ih hless htrigger hw
    | inr r => exact Prog.Total.ret hx

theorem ledWriteText_total (hne : trigger ≠ []) (htrigger : trigger ∈ w.file.names) (hw : w.idle) :
    Prog.Total (led kernel path) (fun r w' => r.ret = 0 ∧ w'.file = kernel.select trigger w.file ∧ w'.idle)
      (sysfsWriteText path trigger) w := by
  unfold sysfsWriteText
  rw [if_neg hne]
  have hopen : ∃ r w', ledSem kernel path w (.open path .wronly) r w' := ⟨⟨0, 0⟩, _, rfl, hw, le_refl _, rfl⟩
  apply Prog.Total.call hopen
  intro r w' ⟨_, _, hret, hw'⟩
  rw [Prog.ret_bind, if_neg (not_lt.mpr hret), hw']
  apply (@ledWrite_total kernel path trigger r.ret _ { w with writing := some r.ret } rfl htrigger rfl).bind
  intro written w₁ ⟨hwritten, hfile, hreading, hwriting⟩
  have hall : ¬ (written.ret < 0 ∨ written.ret ≠ trigger.length) := by omega
  rw [if_neg hall]
  have hclose : ∃ r' w', ledSem kernel path w₁ (.close r.ret) r' w' := ⟨⟨0, 0⟩, _, Or.inl ⟨hwriting, rfl, rfl⟩⟩
  apply Prog.Total.call hclose
  intro closed w₂ hclosed
  rcases hclosed with ⟨-, hclosed, hw₂⟩ | ⟨hnone, -⟩
  · rw [Prog.ret_bind, if_neg (by omega), hw₂]
    exact Prog.Total.ret ⟨rfl, hfile, hreading.trans hw.1, rfl⟩
  · rw [hwriting] at hnone
    cases hnone

theorem ledFailure_total (format : String) : Prog.Total (led kernel path)
    (fun r _ => r.ret = MiniShell_ERR_UNKNOWN) (ledFailure format errno) w := by
  unfold ledFailure
  have hsome : ∃ r w', ledSem kernel path w (.logError (text format) errno) r w' := ⟨errno, w, rfl⟩
  apply Prog.Total.call hsome
  intro r w' hw'
  exact Prog.Total.ret rfl

/-- The trigger is written, and it is found again if the brackets fit. -/
theorem ledWriteTrigger_total (hpath : ledBuildPath LED_PATH_SIZE name (text "trigger") = .ok path)
    (htrigger : trigger ∈ w.file.names) (hlength : trigger.length ≤ 63) (hw : w.idle) :
    Prog.Total (led kernel path) (fun r _ => r.ret = if (kernel.select trigger w.file).Fits then 0 else -1)
      (ledWriteTrigger name trigger) w := by
  unfold ledWriteTrigger
  rw [hpath]
  have hlisted : TriggerName trigger := w.file.listed trigger htrigger
  apply (ledWriteText_total hlisted.ne_nil htrigger hw).bind
  intro written w₁ ⟨hwritten, hfile, hidle⟩
  have hok : ¬ written.ret < 0 := by omega
  rw [if_neg hok]
  have htree : ledTree path w₁.file path = .file w₁.file.content none := if_pos rfl
  apply (led_reading hidle.2 (ledReadActiveTrigger_total hpath htree hidle.1)).bind
  intro r w₂ ⟨v, _, hr, _⟩
  rw [hr, if_neg (show ¬ (64 : ℕ) = 0 by decide), activeTrigger_line, hfile, kernel.active trigger w.file htrigger]
  by_cases hfits : (kernel.select trigger w.file).Fits
  · rw [if_pos hfits, if_pos hfits, if_neg (by omega)]
    dsimp only
    rw [if_neg (not_not.mpr rfl)]
    exact Prog.Total.ret rfl
  · rw [if_neg hfits, if_neg hfits]
    exact Prog.Total.ret rfl

theorem ledNameValid_of_path {size : ℕ} {attr : List Byte} (h : ledBuildPath size name attr = .ok path) :
    ledNameValid name = true := by
  unfold ledBuildPath at h
  by_cases hbad : size = 0 ∨ !ledNameValid name ∨ attr = []
  · rw [if_pos hbad] at h
    cases h
  · rw [not_or, not_or] at hbad
    simpa using hbad.2.1

theorem ledControlSetTrigger_total (hpath : ledBuildPath LED_PATH_SIZE name (text "trigger") = .ok path)
    (htrigger : trigger ∈ w.file.names) (hlength : trigger.length ≤ 63) (hw : w.idle) :
    Prog.Total (led kernel path)
      (fun r _ => r.ret = if (kernel.select trigger w.file).Fits then MiniShell_OK else MiniShell_ERR_UNKNOWN)
      (ledControlSetTrigger name trigger errno) w := by
  unfold ledControlSetTrigger
  have hvalid : ¬ (!ledNameValid name ∨ !ledTriggerValid trigger) := by
    rw [ledNameValid_of_path hpath, (w.file.listed trigger htrigger).valid]
    decide
  rw [if_neg hvalid]
  apply (ledWriteTrigger_total hpath htrigger hlength hw).bind
  intro written w₁ hwritten
  by_cases hfits : (kernel.select trigger w.file).Fits
  · rw [if_pos hfits] at hwritten ⊢
    rw [if_neg (by omega)]
    exact Prog.Total.ret rfl
  · rw [if_neg hfits] at hwritten ⊢
    rw [if_pos (by omega)]
    exact ledFailure_total _

end Kernel

/-! ### Files that are decoded -/

/-- The function reads the active trigger, if it fits the buffer of the
caller. -/
def ReadsActive (f : TriggerFile) (size : ℕ) : Prop :=
  ∀ (tree : List Byte → SysfsFile) (name path : List Byte) (w : FilesState),
    ledBuildPath LED_PATH_SIZE name (text "trigger") = .ok path → tree path = .file f.content none →
    w.current = none →
    Prog.Total (files tree) (fun r _ => ∀ trigger, r = .ok trigger ↔ trigger = f.active ∧ trigger.length ≤ size - 1)
      (ledReadActiveTrigger name size) w

/-- The copy shows the active trigger, cut to its buffer. -/
def ShowsActive (f : TriggerFile) (size : ℕ) : Prop :=
  ∀ (tree : List Byte → SysfsFile) (path : List Byte) (w : FilesState), tree path = .file f.content none →
    w.current = none →
    Prog.Total (files tree) (fun r _ => r = some (f.active.take (size - 1))) (readLedTrigger path size) w

/-- The trigger can be set. -/
def SetsTrigger (kernel : TriggerKernel) (f : TriggerFile) (trigger : List Byte) : Prop :=
  ∀ (name path : List Byte) (errno : ℕ) (w : LedState),
    ledBuildPath LED_PATH_SIZE name (text "trigger") = .ok path → w.file = f → w.idle →
    Prog.Total (led kernel path) (fun r _ => r.ret = MiniShell_OK) (ledControlSetTrigger name trigger errno) w

/-- A trigger of the list that fits the buffer of `led_write_trigger`. -/
abbrev TriggerFile.Choice (f : TriggerFile) : Type :=
  { trigger : List Byte // trigger ∈ f.names ∧ trigger.length ≤ 63 }

section Decoding

variable {f : TriggerFile} {size : ℕ}

/-- A path of an LED. -/
theorem ledPath : ledBuildPath LED_PATH_SIZE (text "led0") (text "trigger") =
    .ok (text "/sys/class/leds/led0/trigger") := by decide +kernel

theorem reads_error {active : List Byte} {e : ℕ} : (∀ trigger, (Except.error e : Except ℕ (List Byte)) = .ok trigger ↔
    trigger = active ∧ trigger.length ≤ size - 1) ↔ ¬ active.length ≤ size - 1 := by
  constructor
  · intro h hlength
    cases (h active).mpr ⟨rfl, hlength⟩
  · intro hlength trigger
    simp only [reduceCtorEq, false_iff, not_and]
    intro htrigger
    rwa [htrigger]

theorem reads_ok {active : List Byte} : (∀ trigger, (Except.ok active : Except ℕ (List Byte)) = .ok trigger ↔
    trigger = active ∧ trigger.length ≤ size - 1) ↔ active.length ≤ size - 1 := by
  constructor
  · intro h
    exact ((h active).mp rfl).2
  · intro hlength trigger
    rw [Except.ok.injEq]
    refine ⟨fun h => ⟨h.symm, ?_⟩, fun h => h.1.symm⟩
    rwa [← h]

theorem readsActive_iff (f : TriggerFile) (size : ℕ) : ReadsActive f size ↔ f.Fits ∨ size ≤ f.active.length := by
  have hpos : 0 < f.active.length := List.length_pos_iff.mpr f.active_listed.ne_nil
  have hresult : (∀ trigger, (if size = 0 then .error EINVAL else activeTrigger f.line size) = Except.ok trigger ↔
      trigger = f.active ∧ trigger.length ≤ size - 1) ↔ f.Fits ∨ size ≤ f.active.length := by
    by_cases hzero : size = 0
    · rw [if_pos hzero, reads_error]
      exact iff_of_true (by omega) (Or.inr (by omega))
    rw [if_neg hzero, activeTrigger_line]
    by_cases hfits : f.Fits
    · rw [if_pos hfits]
      by_cases hlong : f.active.length ≥ size
      · rw [if_pos hlong, reads_error]
        exact iff_of_true (by omega) (Or.inl hfits)
      · rw [if_neg hlong, reads_ok]
        exact iff_of_true (by omega) (Or.inl hfits)
    · rw [if_neg hfits, reads_error, or_iff_right hfits]
      omega
  have hdecides : ∀ {tree : List Byte → SysfsFile} {name path : List Byte} {w : FilesState},
      ledBuildPath LED_PATH_SIZE name (text "trigger") = .ok path → tree path = .file f.content none →
      w.current = none →
      (Prog.Total (files tree) (fun r _ => ∀ trigger, r = .ok trigger ↔ trigger = f.active ∧ trigger.length ≤ size - 1)
        (ledReadActiveTrigger name size) w ↔ f.Fits ∨ size ≤ f.active.length) := by
    intro tree name path w hpath htree hw
    apply (ledReadActiveTrigger_total hpath htree hw).decides (fun _ _ h => h)
    intro r w' hr
    rw [hr.1]
    exact hresult
  constructor
  · intro h
    exact (hdecides ledPath rfl rfl).mp (h (fun _ => .file f.content none) _ _ ⟨none, 0⟩ ledPath rfl rfl)
  · intro h tree name path w hpath htree hw
    exact (hdecides hpath htree hw).mpr h

theorem showsActive_iff (f : TriggerFile) (hsize : 0 < size) : ShowsActive f size ↔ f.Fits := by
  have hresult : shownTrigger f.line size = some (f.active.take (size - 1)) ↔ f.Fits := by
    rw [shownTrigger_line f hsize]
    by_cases h : f.Fits
    · simp [h]
    · simp [h]
  have hdecides : ∀ {tree : List Byte → SysfsFile} {path : List Byte} {w : FilesState},
      tree path = .file f.content none → w.current = none →
      (Prog.Total (files tree) (fun r _ => r = some (f.active.take (size - 1))) (readLedTrigger path size) w ↔
        f.Fits) := by
    intro tree path w htree hw
    apply (readLedTrigger_total htree hw).decides (fun _ _ h => h)
    intro r w' hr
    rw [hr.1]
    exact hresult
  constructor
  · intro h
    exact (hdecides rfl rfl).mp (h (fun _ => .file f.content none) [] ⟨none, 0⟩ rfl rfl)
  · intro h tree path w htree hw
    exact (hdecides htree hw).mpr h

theorem setsTrigger_iff (kernel : TriggerKernel) (trigger : f.Choice) :
    SetsTrigger kernel f trigger ↔ (kernel.select trigger f).Fits := by
  have hdecides : ∀ {name path : List Byte} {errno : ℕ} {w : LedState},
      ledBuildPath LED_PATH_SIZE name (text "trigger") = .ok path → w.file = f → w.idle →
      (Prog.Total (led kernel path) (fun r _ => r.ret = MiniShell_OK) (ledControlSetTrigger name trigger errno) w ↔
        (kernel.select trigger f).Fits) := by
    intro name path errno w hpath hfile hw
    have hmem : trigger.val ∈ w.file.names := by
      rw [hfile]
      exact trigger.property.1
    apply (ledControlSetTrigger_total hpath hmem trigger.property.2 hw).decides (fun _ _ h => h)
    intro r w' hr
    rw [hr, hfile]
    by_cases h : (kernel.select trigger f).Fits
    · simp [h]
    · simp [h]
  constructor
  · intro h
    exact (hdecides ledPath rfl ⟨rfl, rfl⟩).mp (h _ _ 0 ⟨f, ⟨none, 0⟩, none⟩ ledPath rfl ⟨rfl, rfl⟩)
  · intro h name path errno w hpath hfile hw
    exact (hdecides hpath hfile hw).mpr h

end Decoding

/-- The functions decode a file if and only if the brackets are in its first
2047 bytes; where the trigger does not fit the buffer of the caller, the first
one fails as it should. -/
theorem led_trigger_decoding (f : TriggerFile) (size : ℕ) (kernel : TriggerKernel) :
    (ReadsActive f size ↔ f.Fits ∨ size ≤ f.active.length) ∧ (ShowsActive f (size + 1) ↔ f.Fits) ∧
      ∀ trigger : f.Choice, SetsTrigger kernel f trigger ↔ (kernel.select trigger f).Fits :=
  ⟨readsActive_iff f size, showsActive_iff f (Nat.succ_pos size), fun trigger => setsTrigger_iff kernel trigger⟩

/-- The names of the list around the one that was written. -/
theorem cut_names {trigger : List Byte} {names : List (List Byte)} (h : trigger ∈ names) :
    names.take (names.idxOf trigger) ++ trigger :: names.drop (names.idxOf trigger + 1) = names := by
  have hlt : names.idxOf trigger < names.length := List.idxOf_lt_length_of_mem h
  calc names.take (names.idxOf trigger) ++ trigger :: names.drop (names.idxOf trigger + 1)
      = names.take (names.idxOf trigger) ++ names.drop (names.idxOf trigger) := by
        rw [List.drop_eq_getElem_cons hlt, List.getElem_idxOf hlt]
    _ = names := List.take_append_drop ..

def TriggerFile.choose (f : TriggerFile) (trigger : List Byte) (h : trigger ∈ f.names) : TriggerFile where
  before := f.names.take (f.names.idxOf trigger)
  active := trigger
  after := f.names.drop (f.names.idxOf trigger + 1)
  listed := by
    rw [cut_names h]
    exact f.listed

/-- A kernel that ignores other names. -/
def listKernel : TriggerKernel where
  select trigger f := if h : trigger ∈ f.names then f.choose trigger h else f
  names := by
    intro trigger f h
    rw [dif_pos h]
    exact cut_names h
  active := by
    intro trigger f h
    rw [dif_pos h]
    rfl

/-- `[none] timer` -/
def timerTriggerFile : TriggerFile where
  before := []
  active := text "none"
  after := [text "timer"]
  listed := by
    have hnone : TriggerName (text "none") := ⟨by decide, by decide, by decide⟩
    have htimer : TriggerName (text "timer") := ⟨by decide, by decide, by decide⟩
    intro name hname
    simp only [List.nil_append, List.mem_cons, List.not_mem_nil, or_false] at hname
    rcases hname with rfl | rfl
    · exact hnone
    · exact htimer

theorem led_trigger_decoding_timer :
    (ReadsActive timerTriggerFile 64 ↔ timerTriggerFile.Fits ∨ 64 ≤ timerTriggerFile.active.length) ∧
    (ShowsActive timerTriggerFile 65 ↔ timerTriggerFile.Fits) ∧
      ∀ trigger : timerTriggerFile.Choice, SetsTrigger listKernel timerTriggerFile trigger ↔
        (listKernel.select trigger timerTriggerFile).Fits :=
  led_trigger_decoding timerTriggerFile 64 listKernel

/-- A long list whose last trigger is active. -/
def longTriggerFile : TriggerFile where
  before := List.replicate 1024 (text "a")
  active := text "none"
  after := []
  listed := by
    have hlisted : TriggerName (text "a") ∧ TriggerName (text "none") :=
      ⟨⟨by decide, by decide, by decide⟩, ⟨by decide, by decide, by decide⟩⟩
    intro name hname
    rw [List.mem_append, List.mem_singleton] at hname
    rcases hname with hname | hname
    · rw [List.eq_of_mem_replicate hname]
      exact hlisted.1
    · rw [hname]
      exact hlisted.2

theorem led_trigger_missed : ¬ ∀ f size, ReadsActive f size ∧ ShowsActive f (size + 1) := by
  intro h
  have hfits := (showsActive_iff longTriggerFile (Nat.succ_pos 63)).mp (h longTriggerFile 63).2
  have hlead : longTriggerFile.lead.length = 2048 := by
    have hname : (text "a" ++ [' '.toUInt8]).length = 2 := rfl
    unfold TriggerFile.lead longTriggerFile
    rw [List.length_flatMap, List.map_replicate, List.sum_replicate_nat, hname]
  unfold TriggerFile.Fits at hfits
  rw [hlead] at hfits
  exact absurd hfits (by decide)

end DeviceRuntime
