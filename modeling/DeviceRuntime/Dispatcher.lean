/-
# Builtin commands with redirections

`src/dispatcher.c`: a builtin runs in the shell, so its redirections are put on
descriptors 0 and 1 of the shell and taken back after it. Each of them is
saved, opened, installed and restored by calls that may fail; what was applied
when a step fails is taken back by the same function as after the handler.
Messages of the log are left out.

The handler may do anything that leaves the descriptors as they are, and so
may the executor. An open file of the entry is `inherited`, so a `dup2` that
puts one back is told from one that installs a redirection.

Key definitions: `DispatchCall`, `builtinApplyRedirect`,
`builtinRestoreRedirect`, `dispatcherCommand`, `dispatchSem`, `Saved`,
`Dispatched`.
Key theorems: `redirectTo_safe`, `builtinApplyRedirect_safe`,
`builtinRestoreRedirect_safe`, `redirection_undone`.
-/
import DeviceRuntime.Executor
import DeviceRuntime.Lib.Safe

namespace DeviceRuntime

/-- The names of the table of builtins. -/
def builtinTable : List (List Byte) :=
  ["cd", "pwd", "exit", "jobs", "help", "status", "sysinfo", "monitor", "psinfo", "dtinfo", "hwinfo", "led", "fg",
    "bg", "reload", "device"].map text

def builtinLookup (name : List Byte) : Option (List Byte) := builtinTable.find? fun entry => entry = name

/-- What `fflush (stdout)` returns, and `ferror (stdout)` after it. -/
structure FlushResult where
  ret : ℤ
  ferror : Bool
deriving DecidableEq, Repr

/-- `handler` is the call of the handler of a builtin. -/
inductive DispatchCall
  | fflush
  | clearerr (fd : ℤ)
  | dupCloexec (fd : ℤ)
  | openFile (file : List Byte) (flags : OpenFlags)
  | dup2 (oldfd newfd : ℤ)
  | close (fd : ℤ)
  | handler (entry : List Byte) (cmd : Command)
  | executeCommand (chain : List Command)
  | setRunning (running : Bool)

abbrev DispatchCall.Ret : DispatchCall → Type
  | .fflush => FlushResult
  | .clearerr _ | .close _ | .setRunning _ => Unit
  | .dupCloexec _ | .openFile _ _ | .dup2 _ _ => CallResult
  | .handler _ _ | .executeCommand _ => ℤ

abbrev DispatchProg := Prog DispatchCall DispatchCall.Ret

/-! ### The dispatcher -/

def dup2Retry (oldfd newfd : ℤ) : DispatchProg ℤ := retry (.call (.dup2 oldfd newfd) .ret)

/-- Whether the buffer of `stdout` was written. -/
def flushOutput : DispatchProg Bool :=
  .call .fflush fun r =>
    if r.ret ≠ 0 ∨ r.ferror = true then .call (.clearerr STDOUT_FILENO) fun _ => .ret false else .ret true

/-- What both redirections of `builtin_apply_redirect` do: the result, and the
descriptor where `target` was saved. -/
def redirectTo (target : ℤ) (file : List Byte) (flags : OpenFlags) : DispatchProg (ℤ × ℤ) :=
  .call (.dupCloexec target) fun saved =>
    if saved.ret < 0 then .ret (MiniShell_ERR_DUP2, saved.ret)
    else .call (.openFile file flags) fun fd =>
      if fd.ret < 0 then .ret (MiniShell_ERR_OPEN, saved.ret)
      else if fd.ret ≠ target then
        (dup2Retry fd.ret target).bind fun ret =>
          if ret < 0 then .call (.close fd.ret) fun _ => .ret (MiniShell_ERR_DUP2, saved.ret)
          else .call (.close fd.ret) fun _ => .call (.clearerr target) fun _ => .ret (MiniShell_OK, saved.ret)
      else .call (.clearerr target) fun _ => .ret (MiniShell_OK, saved.ret)

def applyOutput (cmd : Command) : DispatchProg (ℤ × ℤ) :=
  match cmd.redirect.outputFile with
  | none => .ret (MiniShell_OK, -1)
  | some file => flushOutput.bind fun flushed =>
    if !flushed then .ret (MiniShell_ERR_UNKNOWN, -1)
    else redirectTo STDOUT_FILENO file (if cmd.redirect.append ≠ 0 then .append else .truncate)

def applyInput (cmd : Command) : DispatchProg (ℤ × ℤ) :=
  match cmd.redirect.inputFile with
  | none => .ret (MiniShell_OK, -1)
  | some file => redirectTo STDIN_FILENO file .rdonly

/-- The result, with `saved_out` and `saved_in`. -/
def builtinApplyRedirect (cmd : Command) : DispatchProg (ℤ × ℤ × ℤ) :=
  (applyOutput cmd).bind fun (ret, savedOut) =>
    if ret ≠ MiniShell_OK then .ret (ret, savedOut, -1)
    else (applyInput cmd).bind fun (ret, savedIn) => .ret (ret, savedOut, savedIn)

/-- One of the two halves of `builtin_restore_redirect`. -/
def restoreTo (saved target result : ℤ) : DispatchProg ℤ :=
  if saved ≥ 0 then
    (dup2Retry saved target).bind fun ret =>
      .call (.close saved) fun _ => .call (.clearerr target) fun _ =>
        .ret (if ret < 0 then MiniShell_ERR_DUP2 else result)
  else .ret result

def builtinRestoreRedirect (savedOut savedIn : ℤ) : DispatchProg ℤ :=
  (restoreTo savedOut STDOUT_FILENO MiniShell_OK).bind fun result => restoreTo savedIn STDIN_FILENO result

def commandChainHasBuiltin (chain : List Command) : Bool :=
  chain.any fun current => ((getElem current.argv 0 argv_pos).bind builtinLookup).isSome

/-- A builtin, with its redirections. -/
def dispatchBuiltin (entry : List Byte) (cmd : Command) : DispatchProg ℤ :=
  (builtinApplyRedirect cmd).bind fun (ret, savedOut, savedIn) =>
    if ret ≠ MiniShell_OK then
      (builtinRestoreRedirect savedOut savedIn).bind fun restore =>
        if restore ≠ MiniShell_OK then .call (.setRunning false) fun _ => .ret ret else .ret ret
    else .call (.handler entry cmd) fun ret =>
      flushOutput.bind fun flushed =>
        (builtinRestoreRedirect savedOut savedIn).bind fun restore =>
          if restore ≠ MiniShell_OK then .call (.setRunning false) fun _ => .ret restore
          else .ret (if !flushed then if ret = MiniShell_OK then MiniShell_ERR_UNKNOWN else ret else ret)

/-- A chain is the list of its commands. -/
def dispatcherCommand (chain : List Command) : DispatchProg ℤ :=
  match chain with
  | [] => .ret MiniShell_ERR_UNKNOWN
  | cmd :: rest =>
    match getElem cmd.argv 0 argv_pos with
    | none => .ret MiniShell_ERR_UNKNOWN
    | some name =>
      if rest ≠ [] ∧ commandChainHasBuiltin chain = true then .ret MiniShell_ERR_PARSE
      else match builtinLookup name with
        | none => .call (.executeCommand chain) .ret
        | some entry => if cmd.background ≠ 0 then .ret MiniShell_ERR_PARSE else dispatchBuiltin entry cmd

open Prog

/-! ### Descriptors -/

/-- An open file of the entry, or one that a redirection opened. -/
inductive OpenFile
  | inherited (n : ℕ)
  | opened (file : List Byte) (flags : OpenFlags)
deriving DecidableEq, Repr

abbrev OpenFiles := ℤ → Option OpenFile

/-- `dup2Failed` has the file that could not be put on `newfd`. -/
inductive DispatchEvent
  | handled
  | flushFailed
  | dup2Failed (file : Option OpenFile) (newfd : ℤ)
deriving DecidableEq, Repr

structure DispatchState where
  fds : OpenFiles
  running : Bool
  log : List DispatchEvent

def DispatchState.extend (s : DispatchState) (es : List DispatchEvent) : DispatchState :=
  { s with log := s.log ++ es }

def DispatchState.set (s : DispatchState) (fd : ℤ) (file : Option OpenFile) : DispatchState :=
  { s with fds := Function.update s.fds fd file }

/-- Every call has any result that the kernel may give: a new descriptor is one
that is not open, from 3 on for a duplicate. -/
def dispatchSem (s : DispatchState) : (c : DispatchCall) → c.Ret → DispatchState → Prop
  | .fflush, r, s' => s' = if r.ret ≠ 0 ∨ r.ferror = true then s.extend [.flushFailed] else s
  | .clearerr _, _, s' => s' = s
  | .dupCloexec fd, r, s' => (r.ret < 0 ∧ s' = s) ∨
      (3 ≤ r.ret ∧ s.fds r.ret = none ∧ s.fds fd ≠ none ∧ s' = s.set r.ret (s.fds fd))
  | .openFile file flags, r, s' => (r.ret < 0 ∧ s' = s) ∨
      (0 ≤ r.ret ∧ s.fds r.ret = none ∧ s' = s.set r.ret (some (.opened file flags)))
  | .dup2 oldfd newfd, r, s' =>
      (r.ret < 0 ∧ s' = if r.errno = EINTR then s else s.extend [.dup2Failed (s.fds oldfd) newfd]) ∨
      (0 ≤ r.ret ∧ s.fds oldfd ≠ none ∧ s' = s.set newfd (s.fds oldfd))
  | .close fd, _, s' => s' = s.set fd none
  | .handler _ _, _, s' => s'.fds = s.fds ∧ s'.log = s.log ++ [.handled]
  | .executeCommand _, _, s' => s'.fds = s.fds ∧ s'.log = s.log
  | .setRunning running, _, s' => s' = { s with running := running }

abbrev shellFds : World DispatchCall DispatchCall.Ret DispatchState := World.alone dispatchSem

/-- The shell when a line is dispatched. -/
structure DispatchEntry where
  inherited : ℤ → Option ℕ
  running : Bool
  stdin : inherited STDIN_FILENO ≠ none
  stdout : inherited STDOUT_FILENO ≠ none

def DispatchEntry.fds (e : DispatchEntry) : OpenFiles := fun fd => (e.inherited fd).map .inherited

def DispatchEntry.state (e : DispatchEntry) : DispatchState := ⟨e.fds, e.running, []⟩

/-! ### What is to hold -/

/-- A file of the entry could not be put back. -/
def RestoreFailed (log : List DispatchEvent) : Prop := ∃ n newfd, .dup2Failed (some (.inherited n)) newfd ∈ log

/-- What a descriptor is to be with a redirection, if there is one. -/
def redirected (e : DispatchEntry) (target : ℤ) (file : Option (List Byte)) (flags : OpenFlags) : Option OpenFile :=
  match file with
  | none => e.fds target
  | some file => some (.opened file flags)

/-- Both redirections of the command are applied. -/
structure Applied (e : DispatchEntry) (cmd : Command) (fds : OpenFiles) : Prop where
  output : fds STDOUT_FILENO = redirected e STDOUT_FILENO cmd.redirect.outputFile
    (if cmd.redirect.append ≠ 0 then .append else .truncate)
  input : fds STDIN_FILENO = redirected e STDIN_FILENO cmd.redirect.inputFile .rdonly

/-- What a dispatched line leaves. -/
structure Dispatched (e : DispatchEntry) (ret : ℤ) (s : DispatchState) : Prop where
  restored : ¬ RestoreFailed s.log → s.fds = e.fds
  stopped : RestoreFailed s.log → s.running = false ∧ ret ≠ MiniShell_OK
  flushed : .flushFailed ∈ s.log → ret ≠ MiniShell_OK
  once : s.log.count .handled ≤ 1

/-- A handler is called once, with its redirections. -/
def dispatchWatch (e : DispatchEntry) : Watch DispatchCall DispatchState where
  always _ := True
  atCall c s := match c with
    | .handler _ cmd => .handled ∉ s.log ∧ Applied e cmd s.fds
    | _ => True

/-! ### The calls -/

section Dispatch

variable {e : DispatchEntry} {s : DispatchState}

theorem dup2Retry_safe (s : DispatchState) (oldfd newfd : ℤ) :
    Safe shellFds (dispatchWatch e) (fun ret s' => (ret = 0 ∧ s' = s.set newfd (s.fds oldfd)) ∨
      (ret = -1 ∧ s' = s.extend [.dup2Failed (s.fds oldfd) newfd])) (dup2Retry oldfd newfd) s := by
  apply Safe.iter (I := fun _ s' => s' = s) (fun _ => stable_alone _) (fun _ => stable_alone _)
    (fun _ _ _ => trivial) (fun _ _ _ => trivial) _ rfl
  rintro _ _ rfl
  refine Safe.call_alone trivial trivial fun r s' hs => ?_
  rcases hs with ⟨hret, hs⟩ | ⟨hret, -, hs⟩
  · simp only [ret_bind, if_pos hret]
    by_cases hintr : r.errno = EINTR
    · rw [if_pos hintr] at hs ⊢
      exact Safe.ret_alone trivial hs
    · rw [if_neg hintr] at hs ⊢
      exact Safe.ret_alone trivial (.inr ⟨rfl, hs⟩)
  · simp only [ret_bind, if_neg (not_lt.mpr hret)]
    exact Safe.ret_alone trivial (.inl ⟨rfl, hs⟩)

theorem flushOutput_safe (s : DispatchState) :
    Safe shellFds (dispatchWatch e) (fun flushed s' => s' = if flushed then s else s.extend [.flushFailed])
      flushOutput s := by
  unfold flushOutput
  refine Safe.call_alone trivial trivial fun r s₁ hs => ?_
  have hs : s₁ = if r.ret ≠ 0 ∨ r.ferror = true then s.extend [.flushFailed] else s := hs
  by_cases hfailed : r.ret ≠ 0 ∨ r.ferror = true
  · rw [if_pos hfailed] at hs ⊢
    refine Safe.call_alone trivial trivial fun _ s₂ hs₂ => ?_
    have hs₂ : s₂ = s₁ := hs₂
    exact Safe.ret_alone trivial (hs₂.trans hs)
  · rw [if_neg hfailed] at hs ⊢
    exact Safe.ret_alone trivial hs

/-- Events that are no failed restore, no handler and no failed flush. -/
def Harmless (es : List DispatchEvent) : Prop :=
  ¬ RestoreFailed es ∧ .handled ∉ es ∧ .flushFailed ∉ es

theorem Harmless.nil : Harmless [] := by simp [Harmless, RestoreFailed]

theorem Harmless.opened (file : List Byte) (flags : OpenFlags) (newfd : ℤ) :
    Harmless [.dup2Failed (some (.opened file flags)) newfd] := by simp [Harmless, RestoreFailed]

theorem RestoreFailed.append_iff {log es : List DispatchEvent} :
    RestoreFailed (log ++ es) ↔ RestoreFailed log ∨ RestoreFailed es := by
  constructor
  · rintro ⟨n, newfd, hmem⟩
    exact (List.mem_append.mp hmem).imp (fun h => ⟨n, newfd, h⟩) fun h => ⟨n, newfd, h⟩
  · rintro (⟨n, newfd, h⟩ | ⟨n, newfd, h⟩)
    · exact ⟨n, newfd, List.mem_append_left _ h⟩
    · exact ⟨n, newfd, List.mem_append_right _ h⟩

/-- What one redirection leaves: it was not begun, or `target` is saved in a
new descriptor, and redirected if all went well. -/
structure OneRedirect (s : DispatchState) (target : ℤ) (file : OpenFile) (r : ℤ × ℤ) (s' : DispatchState) : Prop where
  log : ∃ es, Harmless es ∧ s'.log = s.log ++ es
  unsaved : r.2 < 0 → r.1 ≠ MiniShell_OK ∧ s'.fds = s.fds
  saved : 0 ≤ r.2 → 3 ≤ r.2 ∧ s.fds r.2 = none ∧ ∃ now, (r.1 = MiniShell_OK → now = some file) ∧
    s'.fds = Function.update (Function.update s.fds r.2 (s.fds target)) target now

theorem redirectTo_safe {target : ℤ} (hopen : s.fds target ≠ none) (file : List Byte) (flags : OpenFlags) :
    Safe shellFds (dispatchWatch e) (OneRedirect s target (.opened file flags)) (redirectTo target file flags) s := by
  have hdup : MiniShell_ERR_DUP2 ≠ MiniShell_OK := by decide
  unfold redirectTo
  refine Safe.call_alone trivial trivial fun saved s₁ hs => ?_
  rcases hs with ⟨hret, rfl⟩ | ⟨hret, hfree, -, hs⟩
  · rw [if_pos hret]
    have hnot : ¬ 0 ≤ saved.ret := not_le.mpr hret
    exact Safe.ret_alone trivial ⟨⟨[], Harmless.nil, by simp⟩, fun _ => ⟨hdup, rfl⟩, fun h => absurd h hnot⟩
  rw [if_neg (by omega)]
  have hne : target ≠ saved.ret := fun heq => hopen (heq ▸ hfree)
  have hfds₁ : s₁.fds = Function.update s.fds saved.ret (s.fds target) := by rw [hs]; rfl
  have hlog₁ : s₁.log = s.log := by rw [hs]; rfl
  have htarget : s₁.fds target = s.fds target := by rw [hfds₁, Function.update_of_ne hne]
  -- the file could not be opened or installed
  have hfailed : ∀ {code : ℤ} {s' : DispatchState}, code ≠ MiniShell_OK → s'.fds = s₁.fds →
      (∃ es, Harmless es ∧ s'.log = s.log ++ es) → OneRedirect s target (.opened file flags) (code, saved.ret) s' := by
    intro code s' hcode hfds hlog
    refine ⟨hlog, fun h => absurd h (by dsimp only; omega), fun _ => ⟨hret, hfree, s.fds target, ?_, ?_⟩⟩
    · exact fun h => absurd h hcode
    · rw [hfds, hfds₁, Function.update_comm hne.symm, Function.update_eq_self]
  refine Safe.call_alone trivial trivial fun fd s₂ hs₂ => ?_
  rcases hs₂ with ⟨hfd, rfl⟩ | ⟨hfd, hfdfree, hs₂⟩
  · rw [if_pos hfd]
    exact Safe.ret_alone trivial (hfailed (by decide) rfl ⟨[], Harmless.nil, by rw [hlog₁, List.append_nil]⟩)
  rw [if_neg (by omega)]
  have hfdne : fd.ret ≠ target := by
    intro heq
    rw [heq, htarget] at hfdfree
    exact hopen hfdfree
  rw [if_pos hfdne]
  have hfds₂ : s₂.fds = Function.update s₁.fds fd.ret (some (.opened file flags)) := by rw [hs₂]; rfl
  have hlog₂ : s₂.log = s.log := by rw [hs₂]; exact hlog₁
  have hclosed : Function.update s₁.fds fd.ret none = s₁.fds := by
    rw [← hfdfree, Function.update_eq_self]
  refine (dup2Retry_safe s₂ fd.ret target).bind fun ret s₃ hs₃ _ => ?_
  rcases hs₃ with ⟨rfl, hs₃⟩ | ⟨rfl, hs₃⟩
  · rw [if_neg (by decide)]
    refine Safe.call_alone trivial trivial fun _ s₄ hs₄ => ?_
    refine Safe.call_alone trivial trivial fun _ s₅ hs₅ => ?_
    have hs₄ : s₄ = s₃.set fd.ret none := hs₄
    have hs₅ : s₅ = s₄ := hs₅
    have hlog₅ : s₅.log = s.log := by rw [hs₅, hs₄, hs₃]; exact hlog₂
    have hfds₅ : s₅.fds = Function.update s₁.fds target (some (.opened file flags)) := by
      have hall : s₅.fds = Function.update (Function.update s₂.fds target (s₂.fds fd.ret)) fd.ret none := by
        rw [hs₅, hs₄, hs₃]
        rfl
      rw [hall, Function.update_comm hfdne.symm, hfds₂, Function.update_idem, hclosed, Function.update_self]
    refine Safe.ret_alone trivial ⟨⟨[], Harmless.nil, by rw [hlog₅, List.append_nil]⟩, ?_, fun _ => ?_⟩
    · exact fun h => absurd h (by dsimp only; omega)
    · exact ⟨hret, hfree, some (.opened file flags), fun _ => rfl, by rw [hfds₅, hfds₁]⟩
  · rw [if_pos (by decide)]
    refine Safe.call_alone trivial trivial fun _ s₄ hs₄ => ?_
    have hs₄ : s₄ = s₃.set fd.ret none := hs₄
    have hfile : s₂.fds fd.ret = some (.opened file flags) := by rw [hfds₂, Function.update_self]
    have hfds₄ : s₄.fds = s₁.fds := by
      have hall : s₄.fds = Function.update s₂.fds fd.ret none := by
        rw [hs₄, hs₃]
        rfl
      rw [hall, hfds₂, Function.update_idem, hclosed]
    have hlog₄ : s₄.log = s.log ++ [.dup2Failed (some (.opened file flags)) target] := by
      rw [hs₄, hs₃, hfile]
      exact congrArg (· ++ [DispatchEvent.dup2Failed (some (.opened file flags)) target]) hlog₂
    exact Safe.ret_alone trivial (hfailed (by decide) hfds₄ ⟨_, Harmless.opened file flags target, hlog₄⟩)

/-- Where `target` is saved, if it is. -/
structure Slot (e : DispatchEntry) (fds : OpenFiles) (target saved : ℤ) : Prop where
  unsaved : saved < 0 → fds target = e.fds target
  saved : 0 ≤ saved → 3 ≤ saved ∧ e.fds saved = none ∧ fds saved = e.fds target

/-- What `builtin_restore_redirect` needs: all else is as at the entry. -/
structure Saved (e : DispatchEntry) (fds : OpenFiles) (savedOut savedIn : ℤ) : Prop where
  output : Slot e fds STDOUT_FILENO savedOut
  input : Slot e fds STDIN_FILENO savedIn
  ne : 0 ≤ savedOut → savedOut ≠ savedIn
  rest : ∀ fd, fd ≠ STDIN_FILENO → fd ≠ STDOUT_FILENO → (0 ≤ savedOut → fd ≠ savedOut) →
    (0 ≤ savedIn → fd ≠ savedIn) → fds fd = e.fds fd

theorem Slot.unused {target saved : ℤ} {fds : OpenFiles} (h : fds target = e.fds target) (hneg : saved < 0) :
    Slot e fds target saved := ⟨fun _ => h, fun hpos => absurd hneg (not_lt.mpr hpos)⟩

theorem Saved.entry (e : DispatchEntry) {savedOut savedIn : ℤ} (hout : savedOut < 0) (hin : savedIn < 0) :
    Saved e e.fds savedOut savedIn :=
  ⟨Slot.unused rfl hout, Slot.unused rfl hin, fun h => absurd hout (not_lt.mpr h), fun _ _ _ _ _ => rfl⟩

theorem DispatchEntry.stdout_open (e : DispatchEntry) : e.fds STDOUT_FILENO ≠ none := by
  unfold DispatchEntry.fds
  rw [ne_eq, Option.map_eq_none_iff]
  exact e.stdout

theorem DispatchEntry.stdin_open (e : DispatchEntry) : e.fds STDIN_FILENO ≠ none := by
  unfold DispatchEntry.fds
  rw [ne_eq, Option.map_eq_none_iff]
  exact e.stdin

/-- The output is saved and redirected. -/
theorem Saved.withOutput {saved : ℤ} {now : Option OpenFile} (hsaved : 3 ≤ saved) (hfree : e.fds saved = none) :
    Saved e (Function.update (Function.update e.fds saved (e.fds STDOUT_FILENO)) STDOUT_FILENO now) saved (-1) := by
  have hne : saved ≠ STDOUT_FILENO := by simp only [STDOUT_FILENO]; omega
  refine ⟨⟨fun h => absurd h (by omega), fun _ => ⟨hsaved, hfree, ?_⟩⟩,
    ⟨fun _ => ?_, fun h => absurd h (by decide)⟩, fun _ => by omega, fun fd _ hout hnot _ => ?_⟩
  · rw [Function.update_of_ne hne, Function.update_self]
  · have hin : STDIN_FILENO ≠ saved := by simp only [STDIN_FILENO]; omega
    rw [Function.update_of_ne (by decide), Function.update_of_ne hin]
  · rw [Function.update_of_ne hout, Function.update_of_ne (hnot (by omega))]

/-- The input is saved and redirected as well. -/
theorem Saved.withInput {fds : OpenFiles} {savedOut saved : ℤ} {now : Option OpenFile} (h : Saved e fds savedOut (-1))
    (hsaved : 3 ≤ saved) (hfree : fds saved = none) :
    Saved e (Function.update (Function.update fds saved (fds STDIN_FILENO)) STDIN_FILENO now) savedOut saved := by
  have hin : fds STDIN_FILENO = e.fds STDIN_FILENO := h.input.unsaved (by decide)
  have hne : saved ≠ STDIN_FILENO := by simp only [STDIN_FILENO]; omega
  have hneout : saved ≠ STDOUT_FILENO := by simp only [STDOUT_FILENO]; omega
  have hdiff : 0 ≤ savedOut → savedOut ≠ saved := by
    intro hpos heq
    have hopen := (h.output.saved hpos).2.2
    rw [heq, hfree] at hopen
    exact e.stdout_open hopen.symm
  have hfreeEntry : e.fds saved = none := by
    rw [← h.rest saved hne hneout (fun hpos heq => hdiff hpos heq.symm) fun hneg => absurd hneg (by decide)]
    exact hfree
  refine ⟨⟨fun hneg => ?_, fun hpos => ?_⟩, ⟨fun hneg => absurd hneg (by omega), fun _ => ⟨hsaved, hfreeEntry, ?_⟩⟩,
    hdiff, fun fd hfdin hfdout hnotout hnotin => ?_⟩
  · rw [Function.update_of_ne (by decide), Function.update_of_ne hneout.symm]
    exact h.output.unsaved hneg
  · obtain ⟨hthree, hnone, hfile⟩ := h.output.saved hpos
    have hneg : savedOut ≠ STDIN_FILENO := by simp only [STDIN_FILENO]; omega
    refine ⟨hthree, hnone, ?_⟩
    rw [Function.update_of_ne hneg, Function.update_of_ne (hdiff hpos)]
    exact hfile
  · rw [Function.update_of_ne hne, Function.update_self, hin]
  · rw [Function.update_of_ne hfdin, Function.update_of_ne (hnotin (by omega))]
    exact h.rest fd hfdin hfdout hnotout fun hneg => absurd hneg (by decide)

/-- No input was saved. -/
theorem Saved.withoutInput {fds : OpenFiles} {savedOut saved : ℤ} (h : Saved e fds savedOut (-1)) (hneg : saved < 0) :
    Saved e fds savedOut saved := by
  refine ⟨h.output, Slot.unused (h.input.unsaved (by decide)) hneg, fun hpos => by omega, fun fd hin hout hnot _ => ?_⟩
  exact h.rest fd hin hout hnot fun hpos => absurd hpos (by decide)

/-- The log while nothing has gone wrong but `ret` and the handler has not
run. -/
def DispatchQuiet (ret : ℤ) (log : List DispatchEvent) : Prop :=
  ¬ RestoreFailed log ∧ .handled ∉ log ∧ (.flushFailed ∈ log → ret ≠ MiniShell_OK)

theorem DispatchQuiet.append {ret ret' : ℤ} {log es : List DispatchEvent} (h : DispatchQuiet ret log) (hes : Harmless es)
    (hret : ret' = MiniShell_OK → ret = MiniShell_OK) : DispatchQuiet ret' (log ++ es) := by
  refine ⟨fun hmem => ?_, fun hmem => ?_, fun hmem hok => ?_⟩
  · exact (RestoreFailed.append_iff.mp hmem).elim h.1 hes.1
  · exact (List.mem_append.mp hmem).elim h.2.1 hes.2.1
  · exact (List.mem_append.mp hmem).elim (fun hmem => h.2.2 hmem (hret hok)) hes.2.2

theorem applyOutput_safe (e : DispatchEntry) (cmd : Command) :
    Safe shellFds (dispatchWatch e) (fun r s' => Saved e s'.fds r.2 (-1) ∧ DispatchQuiet r.1 s'.log ∧
      (r.1 = MiniShell_OK → s'.fds STDOUT_FILENO = redirected e STDOUT_FILENO cmd.redirect.outputFile
        (if cmd.redirect.append ≠ 0 then .append else .truncate))) (applyOutput cmd) e.state := by
  have hquiet : ∀ ret, DispatchQuiet ret e.state.log := fun ret => ⟨Harmless.nil.1, Harmless.nil.2.1, fun h => by cases h⟩
  have hentry : Saved e e.fds (-1) (-1) := Saved.entry e (by decide) (by decide)
  unfold applyOutput
  cases houtput : cmd.redirect.outputFile with
  | none => exact Safe.ret_alone trivial ⟨hentry, hquiet _, fun _ => rfl⟩
  | some file =>
    refine (flushOutput_safe e.state).bind fun flushed s₁ hs₁ _ => ?_
    cases flushed with
    | false =>
      have hlog : s₁.log = [.flushFailed] := by rw [hs₁]; rfl
      have hfds : s₁.fds = e.fds := by rw [hs₁]; rfl
      refine Safe.ret_alone trivial ⟨hfds ▸ hentry, ?_, fun h => absurd h (by decide)⟩
      rw [hlog]
      exact ⟨by simp [RestoreFailed], by simp, fun _ => by decide⟩
    | true =>
      rw [if_pos rfl] at hs₁
      rw [hs₁]
      refine (redirectTo_safe e.stdout_open file _).weaken fun r s' _ h => ?_
      obtain ⟨es, hes, hlog⟩ := h.log
      refine ⟨?_, ?_, fun hok => ?_⟩
      · by_cases hneg : r.2 < 0
        · rw [(h.unsaved hneg).2]
          exact Saved.entry e hneg (by decide)
        · obtain ⟨hthree, hfree, now, -, hfds⟩ := h.saved (not_lt.mp hneg)
          rw [hfds]
          exact Saved.withOutput hthree hfree
      · rw [hlog]
        exact (hquiet r.1).append hes id
      · by_cases hneg : r.2 < 0
        · exact absurd hok (h.unsaved hneg).1
        · obtain ⟨-, -, now, hnow, hfds⟩ := h.saved (not_lt.mp hneg)
          rw [hfds, Function.update_self, hnow hok]
          rfl

/-- What was applied is saved; it is all, if all went well. -/
theorem builtinApplyRedirect_safe (e : DispatchEntry) (cmd : Command) :
    Safe shellFds (dispatchWatch e) (fun r s' => Saved e s'.fds r.2.1 r.2.2 ∧ DispatchQuiet r.1 s'.log ∧
      (r.1 = MiniShell_OK → Applied e cmd s'.fds)) (builtinApplyRedirect cmd) e.state := by
  unfold builtinApplyRedirect
  refine (applyOutput_safe e cmd).bind fun r s₁ h _ => ?_
  obtain ⟨hsaved, hquiet, hout⟩ := h
  dsimp only
  by_cases hret : r.1 ≠ MiniShell_OK
  · rw [if_pos hret]
    exact Safe.ret_alone trivial ⟨hsaved, hquiet, fun h => absurd h hret⟩
  rw [if_neg hret]
  have hok : r.1 = MiniShell_OK := not_not.mp hret
  have hstdin : s₁.fds STDIN_FILENO = e.fds STDIN_FILENO := hsaved.input.unsaved (by decide)
  unfold applyInput
  cases hinput : cmd.redirect.inputFile with
  | none =>
    refine Safe.ret_alone trivial ⟨hsaved, ?_, fun _ => ⟨hout hok, ?_⟩⟩
    · exact ⟨hquiet.1, hquiet.2.1, fun hmem => absurd hok (hquiet.2.2 hmem)⟩
    · rw [hstdin, hinput]
      rfl
  | some file =>
    have hopen : s₁.fds STDIN_FILENO ≠ none := hstdin ▸ e.stdin_open
    refine (redirectTo_safe hopen file .rdonly).bind fun r' s₂ h _ => ?_
    obtain ⟨es, hes, hlog⟩ := h.log
    have hquiet₂ : DispatchQuiet r'.1 s₂.log := by
      rw [hlog]
      exact hquiet.append hes fun _ => hok
    by_cases hneg : r'.2 < 0
    · obtain ⟨hnot, hfds⟩ := h.unsaved hneg
      refine Safe.ret_alone trivial ⟨?_, hquiet₂, fun h => absurd h hnot⟩
      rw [hfds]
      exact hsaved.withoutInput hneg
    · obtain ⟨hthree, hfree, now, hnow, hfds⟩ := h.saved (not_lt.mp hneg)
      refine Safe.ret_alone trivial ⟨?_, hquiet₂, fun hok' => ⟨?_, ?_⟩⟩
      · rw [hfds]
        exact hsaved.withInput hthree hfree
      · have hne : STDOUT_FILENO ≠ r'.2 := by simp only [STDOUT_FILENO]; omega
        rw [hfds, Function.update_of_ne (by decide), Function.update_of_ne hne]
        exact hout hok
      · rw [hfds, Function.update_self, hnow hok', hinput]
        rfl

/-! ### Taking the redirections back -/

/-- One descriptor is put back and its copy closed, or the failure is noted. -/
theorem restoreTo_safe (s : DispatchState) {saved target : ℤ} (result : ℤ) (hpos : 0 ≤ saved) :
    Safe shellFds (dispatchWatch e) (fun ret s' => s'.running = s.running ∧
      ((ret = result ∧ s'.log = s.log ∧
        s'.fds = Function.update (Function.update s.fds target (s.fds saved)) saved none) ∨
      (ret = MiniShell_ERR_DUP2 ∧ s'.log = s.log ++ [.dup2Failed (s.fds saved) target] ∧
        s'.fds = Function.update s.fds saved none))) (restoreTo saved target result) s := by
  unfold restoreTo
  rw [if_pos hpos]
  refine (dup2Retry_safe s saved target).bind fun ret s₁ hs₁ _ => ?_
  refine Safe.call_alone trivial trivial fun _ s₂ hs₂ => ?_
  refine Safe.call_alone trivial trivial fun _ s₃ hs₃ => ?_
  have hs₂ : s₂ = s₁.set saved none := hs₂
  have hs₃ : s₃ = s₂ := hs₃
  rw [hs₃, hs₂]
  rcases hs₁ with ⟨rfl, hs₁⟩ | ⟨rfl, hs₁⟩
  · rw [if_neg (by decide), hs₁]
    exact Safe.ret_alone trivial ⟨rfl, .inl ⟨rfl, rfl, rfl⟩⟩
  · rw [if_pos (by decide), hs₁]
    exact Safe.ret_alone trivial ⟨rfl, .inr ⟨rfl, rfl, rfl⟩⟩

/-- A descriptor that was saved is one of the entry, and what could not be put
back is a file of the entry. -/
theorem Slot.inherited {fds : OpenFiles} {target saved : ℤ} (h : Slot e fds target saved) (hpos : 0 ≤ saved)
    (hopen : e.fds target ≠ none) : RestoreFailed [.dup2Failed (fds saved) target] := by
  obtain ⟨-, -, hfile⟩ := h.saved hpos
  obtain ⟨file, hopen⟩ := Option.ne_none_iff_exists'.mp hopen
  obtain ⟨n, -, rfl⟩ := Option.map_eq_some_iff.mp hopen
  refine ⟨n, target, ?_⟩
  rw [hfile, hopen]
  exact List.mem_cons_self

/-- The output is put back. -/
theorem Saved.restoreOutput {fds : OpenFiles} {savedOut savedIn : ℤ} (h : Saved e fds savedOut savedIn)
    (hpos : 0 ≤ savedOut) :
    Saved e (Function.update (Function.update fds STDOUT_FILENO (fds savedOut)) savedOut none) (-1) savedIn := by
  obtain ⟨hthree, hfree, hfile⟩ := h.output.saved hpos
  have hneout : STDOUT_FILENO ≠ savedOut := by simp only [STDOUT_FILENO]; omega
  have hnein : STDIN_FILENO ≠ savedOut := by simp only [STDIN_FILENO]; omega
  have hin : ∀ fd, fd ≠ STDOUT_FILENO → fd ≠ savedOut →
      Function.update (Function.update fds STDOUT_FILENO (fds savedOut)) savedOut none fd = fds fd := by
    intro fd hfd hfd'
    rw [Function.update_of_ne hfd', Function.update_of_ne hfd]
  refine ⟨Slot.unused ?_ (by decide), ⟨fun hneg => ?_, fun hposIn => ?_⟩, fun hneg => absurd hneg (by decide), ?_⟩
  · rw [Function.update_of_ne hneout, Function.update_self]
    exact hfile
  · rw [hin _ (by decide) hnein]
    exact h.input.unsaved hneg
  · obtain ⟨hthreeIn, hfreeIn, hfileIn⟩ := h.input.saved hposIn
    have hne : savedIn ≠ STDOUT_FILENO := by simp only [STDOUT_FILENO]; omega
    refine ⟨hthreeIn, hfreeIn, ?_⟩
    rw [hin _ hne (h.ne hpos).symm]
    exact hfileIn
  · intro fd hfdin hfdout _ hnotin
    by_cases hfd : fd = savedOut
    · rw [hfd, Function.update_self, hfree]
    · rw [hin _ hfdout hfd]
      exact h.rest fd hfdin hfdout (fun _ => hfd) hnotin

/-- All is put back. -/
theorem Saved.restoreInput {fds : OpenFiles} {savedOut savedIn : ℤ} (h : Saved e fds savedOut savedIn)
    (hneg : savedOut < 0) (hpos : 0 ≤ savedIn) :
    Function.update (Function.update fds STDIN_FILENO (fds savedIn)) savedIn none = e.fds := by
  obtain ⟨hthree, hfree, hfile⟩ := h.input.saved hpos
  have hnein : STDIN_FILENO ≠ savedIn := by simp only [STDIN_FILENO]; omega
  funext fd
  by_cases hfd : fd = savedIn
  · rw [hfd, Function.update_self, hfree]
  rw [Function.update_of_ne hfd]
  by_cases hin : fd = STDIN_FILENO
  · rw [hin, Function.update_self, hfile]
  rw [Function.update_of_ne hin]
  by_cases hout : fd = STDOUT_FILENO
  · rw [hout]
    exact h.output.unsaved hneg
  · exact h.rest fd hin hout (fun h => absurd hneg (not_lt.mpr h)) fun _ => hfd

/-- Nothing was saved. -/
theorem Saved.none {fds : OpenFiles} {savedOut savedIn : ℤ} (h : Saved e fds savedOut savedIn) (hout : savedOut < 0)
    (hin : savedIn < 0) : fds = e.fds := by
  funext fd
  by_cases hfdin : fd = STDIN_FILENO
  · rw [hfdin]
    exact h.input.unsaved hin
  by_cases hfdout : fd = STDOUT_FILENO
  · rw [hfdout]
    exact h.output.unsaved hout
  · exact h.rest fd hfdin hfdout (fun h => absurd hout (not_lt.mpr h)) fun h => absurd hin (not_lt.mpr h)

/-- What `builtin_restore_redirect` leaves: the descriptors of the entry, or a
failure that is noted and returned. -/
structure Restored (e : DispatchEntry) (s : DispatchState) (ret : ℤ) (s' : DispatchState) : Prop where
  running : s'.running = s.running
  log : ∃ es, s'.log = s.log ++ es ∧ .handled ∉ es ∧ .flushFailed ∉ es ∧
    ((ret = MiniShell_OK ∧ es = [] ∧ s'.fds = e.fds) ∨ (ret ≠ MiniShell_OK ∧ RestoreFailed es))

theorem builtinRestoreRedirect_safe {savedOut savedIn : ℤ} (h : Saved e s.fds savedOut savedIn) :
    Safe shellFds (dispatchWatch e) (Restored e s) (builtinRestoreRedirect savedOut savedIn) s := by
  have hdup : MiniShell_ERR_DUP2 ≠ MiniShell_OK := by decide
  -- the input, when the output was put back
  have hinput : ∀ s₁ : DispatchState, s₁.running = s.running → s₁.log = s.log → Saved e s₁.fds (-1) savedIn →
      Safe shellFds (dispatchWatch e) (Restored e s) (restoreTo savedIn STDIN_FILENO MiniShell_OK) s₁ := by
    intro s₁ hrunning hlog hsaved
    by_cases hneg : savedIn < 0
    · unfold restoreTo
      rw [if_neg (not_le.mpr hneg)]
      have hfds := hsaved.none (by decide) hneg
      have hnil : s₁.log = s.log ++ [] := hlog.trans (List.append_nil _).symm
      exact Safe.ret_alone trivial ⟨hrunning, [], hnil, by simp, by simp, .inl ⟨rfl, rfl, hfds⟩⟩
    · have hpos := not_lt.mp hneg
      refine (restoreTo_safe s₁ MiniShell_OK hpos).weaken fun ret s₂ _ hs₂ => ?_
      obtain ⟨hrunning₂, ⟨rfl, hlog₂, hfds₂⟩ | ⟨rfl, hlog₂, -⟩⟩ := hs₂
      · have hfds := hsaved.restoreInput (by decide) hpos
        have hnil : s₂.log = s.log ++ [] := (hlog₂.trans hlog).trans (List.append_nil _).symm
        refine ⟨hrunning₂.trans hrunning, [], hnil, by simp, by simp, .inl ⟨rfl, rfl, ?_⟩⟩
        rw [hfds₂, hfds]
      · refine ⟨hrunning₂.trans hrunning, _, by rw [hlog₂, hlog], by simp, by simp, .inr ⟨hdup, ?_⟩⟩
        exact hsaved.input.inherited hpos e.stdin_open
  -- the input, when the output could not be put back
  have hfailed : ∀ (s₁ : DispatchState) ev, s₁.running = s.running → s₁.log = s.log ++ [ev] → RestoreFailed [ev] →
      .handled ∉ [ev] → .flushFailed ∉ [ev] →
      Safe shellFds (dispatchWatch e) (Restored e s) (restoreTo savedIn STDIN_FILENO MiniShell_ERR_DUP2) s₁ := by
    intro s₁ ev hrunning hlog hev hhandled hflush
    by_cases hneg : savedIn < 0
    · unfold restoreTo
      rw [if_neg (not_le.mpr hneg)]
      exact Safe.ret_alone trivial ⟨hrunning, [ev], hlog, hhandled, hflush, .inr ⟨hdup, hev⟩⟩
    · refine (restoreTo_safe s₁ MiniShell_ERR_DUP2 (not_lt.mp hneg)).weaken fun ret s₂ _ hs₂ => ?_
      obtain ⟨hrunning₂, ⟨rfl, hlog₂, -⟩ | ⟨rfl, hlog₂, -⟩⟩ := hs₂
      · exact ⟨hrunning₂.trans hrunning, [ev], hlog₂.trans hlog, hhandled, hflush, .inr ⟨hdup, hev⟩⟩
      · refine ⟨hrunning₂.trans hrunning, [ev] ++ _, by rw [hlog₂, hlog, List.append_assoc], ?_, ?_,
          .inr ⟨hdup, RestoreFailed.append_iff.mpr (.inl hev)⟩⟩
        · simpa using hhandled
        · simpa using hflush
  unfold builtinRestoreRedirect
  by_cases hneg : savedOut < 0
  · have hout : restoreTo savedOut STDOUT_FILENO MiniShell_OK = .ret MiniShell_OK := if_neg (not_le.mpr hneg)
    rw [hout]
    have hslot : Slot e s.fds STDOUT_FILENO (-1) := Slot.unused (h.output.unsaved hneg) (by decide)
    refine hinput s rfl rfl ⟨hslot, h.input, fun h => absurd h (by decide), ?_⟩
    exact fun fd hin hout _ hnot => h.rest fd hin hout (fun hpos => absurd hneg (not_lt.mpr hpos)) hnot
  · have hpos := not_lt.mp hneg
    refine (restoreTo_safe s MiniShell_OK hpos).bind fun ret s₁ hs₁ _ => ?_
    obtain ⟨hrunning, ⟨rfl, hlog, hfds⟩ | ⟨rfl, hlog, -⟩⟩ := hs₁
    · refine hinput s₁ hrunning hlog ?_
      rw [hfds]
      exact h.restoreOutput hpos
    · exact hfailed s₁ _ hrunning hlog (h.output.inherited hpos e.stdout_open) (by simp) (by simp)

/-! ### A line -/

/-- After a failed restore the shell stops. -/
theorem stop_safe {ret : ℤ} (hret : ret ≠ MiniShell_OK) (hfailed : RestoreFailed s.log)
    (honce : s.log.count .handled ≤ 1) :
    Safe shellFds (dispatchWatch e) (Dispatched e) (.call (.setRunning false) fun _ => .ret ret) s := by
  refine Safe.call_alone trivial trivial fun _ s' hs => ?_
  have hs : s' = { s with running := false } := hs
  rw [hs]
  exact Safe.ret_alone trivial ⟨fun h => absurd hfailed h, fun _ => ⟨rfl, hret⟩, fun _ => hret, honce⟩

theorem dispatchBuiltin_safe (e : DispatchEntry) (entry : List Byte) (cmd : Command) :
    Safe shellFds (dispatchWatch e) (Dispatched e) (dispatchBuiltin entry cmd) e.state := by
  unfold dispatchBuiltin
  refine (builtinApplyRedirect_safe e cmd).bind fun r s₁ h _ => ?_
  obtain ⟨hsaved, ⟨hnotfailed, hnothandled, hflushed⟩, happlied⟩ := h
  dsimp only
  by_cases hret : r.1 ≠ MiniShell_OK
  · rw [if_pos hret]
    refine (builtinRestoreRedirect_safe hsaved).bind fun restore s₂ h _ => ?_
    obtain ⟨es, hlog, hhandled, hflush, hes⟩ := h.log
    have honce : s₂.log.count .handled ≤ 1 := by
      rw [hlog, List.count_append, List.count_eq_zero.mpr hnothandled, List.count_eq_zero.mpr hhandled]
      exact Nat.zero_le 1
    rcases hes with ⟨hok, rfl, hfds⟩ | ⟨hnot, hes⟩
    · rw [if_neg (not_not.mpr hok)]
      refine Safe.ret_alone trivial ⟨fun _ => hfds, fun hmem => ?_, fun _ => hret, honce⟩
      rw [hlog, List.append_nil] at hmem
      exact absurd hmem hnotfailed
    · rw [if_pos hnot]
      exact stop_safe hret (hlog ▸ RestoreFailed.append_iff.mpr (.inr hes)) honce
  rw [if_neg hret]
  have hok : r.1 = MiniShell_OK := not_not.mp hret
  refine Safe.call_alone trivial ⟨hnothandled, happlied hok⟩ fun ret s₂ hs₂ => ?_
  obtain ⟨hfds₂, hlog₂⟩ : s₂.fds = s₁.fds ∧ s₂.log = s₁.log ++ [DispatchEvent.handled] := hs₂
  refine (flushOutput_safe s₂).bind fun flushed s₃ hs₃ _ => ?_
  have hfds₃ : s₃.fds = s₁.fds := by
    rw [hs₃]
    cases flushed
    · exact hfds₂
    · exact hfds₂
  have hlog₃ : ∃ es, s₃.log = s₁.log ++ [.handled] ++ es ∧ (es = [] ∨ (es = [.flushFailed] ∧ flushed = false)) := by
    rw [hs₃]
    cases flushed with
    | true => exact ⟨[], by rw [List.append_nil]; exact hlog₂, .inl rfl⟩
    | false => exact ⟨[.flushFailed], by rw [← hlog₂]; rfl, .inr ⟨rfl, rfl⟩⟩
  obtain ⟨es, hlog₃, hes⟩ := hlog₃
  have hnothandled' : .handled ∉ es := by rcases hes with rfl | ⟨rfl, -⟩ <;> simp
  have hnotfailed' : ¬ RestoreFailed es := by rcases hes with rfl | ⟨rfl, -⟩ <;> simp [RestoreFailed]
  refine (builtinRestoreRedirect_safe (hfds₃ ▸ hsaved)).bind fun restore s₄ h _ => ?_
  obtain ⟨es', hlog, hhandled, hflush, hes'⟩ := h.log
  have honce : s₄.log.count .handled ≤ 1 := by
    rw [hlog, hlog₃, List.count_append, List.count_append, List.count_append, List.count_eq_zero.mpr hnothandled,
      List.count_eq_zero.mpr hnothandled', List.count_eq_zero.mpr hhandled]
    decide
  rcases hes' with ⟨hok', rfl, hfds⟩ | ⟨hnot, hes'⟩
  · rw [if_neg (not_not.mpr hok')]
    have hnone : ¬ RestoreFailed s₄.log := by
      rw [hlog, List.append_nil, hlog₃, RestoreFailed.append_iff, RestoreFailed.append_iff, not_or, not_or]
      exact ⟨⟨hnotfailed, by simp [RestoreFailed]⟩, hnotfailed'⟩
    refine Safe.ret_alone trivial ⟨fun _ => hfds, fun hmem => absurd hmem hnone, fun hmem => ?_, honce⟩
    -- the flush before the redirection went well, so it is the one after the handler
    have hfalse : flushed = false := by
      rcases hes with rfl | ⟨-, hfalse⟩
      · rw [hlog, List.append_nil, hlog₃, List.append_nil, List.mem_append] at hmem
        rcases hmem with hmem | hmem
        · exact absurd hok (hflushed hmem)
        · simp at hmem
      · exact hfalse
    rw [hfalse, if_pos Bool.not_false]
    by_cases hzero : ret = MiniShell_OK
    · rw [if_pos hzero]
      decide
    · rw [if_neg hzero]
      exact hzero
  · rw [if_pos hnot]
    exact stop_safe hnot (hlog ▸ RestoreFailed.append_iff.mpr (.inr hes')) honce

end Dispatch

/-- Whatever the calls of a dispatched line return: its descriptors are again
those of the entry, or one could not be put back, and then the shell stops with
an error; the handler of a builtin is called once at most, with all
redirections applied, and an output that could not be written is an error. -/
theorem redirection_undone (e : DispatchEntry) (chain : List Command) :
    Safe shellFds (dispatchWatch e) (Dispatched e) (dispatcherCommand chain) e.state := by
  have hnone : ∀ {s : DispatchState} (ret : ℤ), s.fds = e.fds → s.log = [] → Dispatched e ret s := by
    intro s ret hfds hlog
    refine ⟨fun _ => hfds, fun h => ?_, fun h => ?_, ?_⟩
    · simp [RestoreFailed, hlog] at h
    · simp [hlog] at h
    · simp [hlog]
  unfold dispatcherCommand
  cases chain with
  | nil => exact Safe.ret_alone trivial (hnone _ rfl rfl)
  | cons cmd rest =>
    dsimp only
    cases hname : cmd.argv[0] with
    | none => exact Safe.ret_alone trivial (hnone _ rfl rfl)
    | some name =>
      dsimp only
      by_cases hpipe : rest ≠ [] ∧ commandChainHasBuiltin (cmd :: rest) = true
      · rw [if_pos hpipe]
        exact Safe.ret_alone trivial (hnone _ rfl rfl)
      rw [if_neg hpipe]
      cases hentry : builtinLookup name with
      | none =>
        refine Safe.call_alone trivial trivial fun ret s hs => ?_
        have hs : s.fds = e.fds ∧ s.log = [] := hs
        exact Safe.ret_alone trivial (hnone ret hs.1 hs.2)
      | some entry =>
        dsimp only
        by_cases hbackground : cmd.background ≠ 0
        · rw [if_pos hbackground]
          exact Safe.ret_alone trivial (hnone _ rfl rfl)
        · rw [if_neg hbackground]
          exact dispatchBuiltin_safe e entry cmd

/-- `pwd > out`. -/
def redirectedCommand : Command :=
  ⟨1, (Vector.replicate MAX_ARGS none).set 0 (some (text "pwd")) argv_pos, 0, ⟨none, some (text "out"), 0⟩, argv_one⟩

/-- A shell with its standard descriptors and nothing else. -/
def dispatchShell : DispatchEntry where
  inherited fd := if 0 ≤ fd ∧ fd ≤ 2 then some fd.toNat else none
  running := true
  stdin := by decide
  stdout := by decide

theorem redirection_undone_pwd : Safe shellFds (dispatchWatch dispatchShell) (Dispatched dispatchShell)
    (dispatcherCommand [redirectedCommand]) dispatchShell.state :=
  redirection_undone dispatchShell [redirectedCommand]

end DeviceRuntime
