/-
# The lines the shell reads

The loop of the shell with any bytes on its standard input, and with interrupts
taken at any point between them. The world is a log: the bytes that were read,
the report of a line that is too long, the interrupts that were taken, and the
texts that were handed to `parse_line` with what they left.

Without interrupts the texts are the lines of the stream that fit, each
without the CR of its ending, and at the end of the stream the rest
(`line_splitting`). The CR is dropped from an unterminated rest as well.

A line that was reported as too long is discarded up to its line feed. An
interrupt empties the input, and leaves the discarding too: what follows of
that line is then read as a line of its own. `Dead` says that a line was
reported and has not ended; as long as no interrupt is taken there, no byte of
a rejected line is in a text (`rejected_line_not_executed`).

Key definitions: `InputEvent`, `shellStdin`, `lineTexts`, `splitWatch`, `Dead`,
`LiveText`, `LineReading`.
Key theorems: `shellReadInput_safe`, `shellTurn_reading`, `line_splitting`,
`rejected_line_not_executed`.
-/
import DeviceRuntime.Lib.Lines
import DeviceRuntime.Lib.Safe
import DeviceRuntime.Shell

namespace DeviceRuntime

open Prog Lines

/-! ### What is logged -/

inductive InputEvent
  | byte (b : Byte)
  | ended
  | tooLong
  | interrupt
  | handed (line : List Byte) (r : LineResult)
deriving DecidableEq

abbrev InputLog := List InputEvent

def InputEvent.byte? : InputEvent → Option Byte
  | .byte b => some b
  | _ => none

def InputEvent.text? : InputEvent → Option (List Byte)
  | .handed line _ => some line
  | _ => none

/-- What was read. -/
def bytesOf (log : InputLog) : List Byte := log.filterMap InputEvent.byte?

/-- What was handed to `parse_line`. -/
def textsOf (log : InputLog) : List (List Byte) := log.filterMap InputEvent.text?

/-- Standard input and the pending events may have anything to give. -/
def inputSem (log : InputLog) (c : ShellCall) (r : c.Ret) (log' : InputLog) : Prop :=
  match c, r with
  | .readStdin, (r, ch) => log' =
      if r.ret < 0 then log else if r.ret = 0 then log ++ [.ended] else log ++ [.byte ch]
  | .fprintf _, _ => log' = log ++ [.tooLong]
  | .loadPending, events => log' = if events &&& SIGNAL_EVENT_INTERRUPT ≠ 0 then log ++ [.interrupt] else log
  | .command line, some r => log' = log ++ [.handed line r]
  | _, _ => log' = log

abbrev shellStdin : World ShellCall ShellCall.Ret InputLog := World.alone inputSem

/-- The shell before it reads. -/
def ShellState.start (running : Bool) (lastExitStatus : ℤ) (prompts : List Byte) : ShellState :=
  ⟨running, lastExitStatus, prompts, [], false, empty_fits⟩

/-! ### What is to hold -/

/-- A line that is longer than the buffer. -/
def overlong (line : List Byte) : Bool := 4095 < line.length

/-- The texts of the lines that have ended. -/
def lineTexts (bs : List Byte) : List (List Byte) := ((complete LF bs).filter fun line => !overlong line).map dropCR

/-- The text of what stands after the last line feed at the end of the input,
where `rest` is made of it. -/
def restText (rest : List Byte → List Byte) (log : InputLog) : List (List Byte) :=
  if .ended ∈ log ∧ pending LF (bytesOf log) ≠ [] ∧ overlong (pending LF (bytesOf log)) = false then
    [rest (pending LF (bytesOf log))]
  else []

/-- The lines that are too long, also one that has not ended. -/
def overlongLines (bs : List Byte) : ℕ := (complete LF bs ++ [pending LF bs]).countP overlong

/-- What `last_exit_status` is after an event. -/
def statusAfter (status : ℤ) : InputEvent → ℤ
  | .tooLong => 2
  | .handed _ r => match r.status with
    | some s => shellNormalizeStatus s
    | none => r.lastExitStatus
  | _ => status

/-- The texts so far are those of the bytes that were read. -/
def Split (rest : List Byte → List Byte) (log : InputLog) (texts : List (List Byte)) : Prop :=
  texts = lineTexts (bytesOf log) ++ restText rest log

/-- Without an interrupt: a text is handed over when it is its turn, and the
report comes with the 4096th byte of a line. -/
def splitWatch (rest : List Byte → List Byte) : Watch ShellCall InputLog where
  always _ := True
  atCall c log := match c with
    | .command line => .interrupt ∉ log → Split rest log (textsOf log ++ [line])
    | .fprintf _ => .interrupt ∉ log → (pending LF (bytesOf log)).length = 4096
    | _ => True

/-- A line was reported as too long and has not ended. -/
def Dead (log : InputLog) : Prop := ∃ before after, log = before ++ .tooLong :: after ∧ .byte LF ∉ after

/-- The bytes of a text are the last ones that were read, but for the end of
the line, and no line was dead when one of them was read. -/
def LiveText (line : List Byte) (log : InputLog) : Prop :=
  ∃ before cr ending, log = before ++ (line ++ cr).map .byte ++ [ending] ∧ (cr = [] ∨ cr = [CR]) ∧
    (ending = .byte LF ∨ ending = .ended) ∧
    ∀ l₁ b l₂, line = l₁ ++ b :: l₂ → ¬ Dead (before ++ l₁.map .byte)

/-- An interrupt was taken when a line was dead. -/
def InterruptInDead (log : InputLog) : Prop := ∃ before after, log = before ++ .interrupt :: after ∧ Dead before

/-- Every text is of a line that was not rejected, if `P` holds of the run. -/
def rejectWatch (P : InputLog → Prop) : Watch ShellCall InputLog where
  always _ := True
  atCall c log := match c with
    | .command line => P log → LiveText line log
    | _ => True

/-! ### The buffer and the lines -/

theorem lineTexts_byte (bs : List Byte) {b : Byte} (hb : b ≠ LF) : lineTexts (bs ++ [b]) = lineTexts bs := by
  rw [lineTexts, complete_snoc hb, lineTexts]

theorem lineTexts_LF (bs : List Byte) : lineTexts (bs ++ [LF]) =
    lineTexts bs ++ if overlong (pending LF bs) = true then [] else [dropCR (pending LF bs)] := by
  rw [lineTexts, complete_separator, List.filter_append, List.map_append, lineTexts]
  by_cases hlong : overlong (pending LF bs) = true
  · simp [hlong]
  · simp [hlong]

theorem overlongLines_byte (bs : List Byte) {b : Byte} (hb : b ≠ LF) : overlongLines (bs ++ [b]) =
    (complete LF bs).countP overlong + if overlong (pending LF bs ++ [b]) = true then 1 else 0 := by
  rw [overlongLines, complete_snoc hb, pending_snoc hb, List.countP_append, List.countP_singleton]

theorem overlongLines_eq (bs : List Byte) : overlongLines bs =
    (complete LF bs).countP overlong + if overlong (pending LF bs) = true then 1 else 0 := by
  rw [overlongLines, List.countP_append, List.countP_singleton]

theorem overlongLines_LF (bs : List Byte) : overlongLines (bs ++ [LF]) = overlongLines bs := by
  have hempty : overlong [] = false := rfl
  rw [overlongLines, complete_separator, pending_separator, List.countP_append, List.countP_singleton, hempty]
  rfl

/-- What the buffer has of the bytes `bs`, and what has become of them, when no
interrupt was taken. -/
structure Held (discarding : Bool) (input bs : List Byte) (texts : List (List Byte)) (reports : ℕ) : Prop where
  handed : texts = lineTexts bs
  reported : reports = overlongLines bs
  discards : discarding = overlong (pending LF bs)
  buffered : discarding = false → input = pending LF bs

section Held

variable {input bs : List Byte} {texts : List (List Byte)} {reports : ℕ} {b : Byte}

theorem Held.length (h : Held false input bs texts reports) : input.length ≤ 4095 := by
  have hlong : overlong (pending LF bs) = false := h.discards.symm
  rw [h.buffered rfl]
  simpa [overlong] using hlong

theorem Held.byte (h : Held false input bs texts reports) (hb : b ≠ LF) (hlen : input.length + 1 < SHELL_INPUT_SIZE) :
    Held false (input ++ [b]) (bs ++ [b]) texts reports := by
  have hinput := h.buffered rfl
  have hlong : overlong (pending LF bs) = false := h.discards.symm
  have hlong' : overlong (pending LF bs ++ [b]) = false := by
    have hlt : input.length < 4095 := Nat.lt_of_succ_lt_succ hlen
    rw [hinput] at hlt
    simp [overlong]
    omega
  refine ⟨?_, ?_, ?_, fun _ => ?_⟩
  · rw [lineTexts_byte bs hb, h.handed]
  · rw [overlongLines_byte bs hb, h.reported, overlongLines_eq, hlong, hlong']
  · rw [pending_snoc hb, hlong']
  · rw [pending_snoc hb, hinput]

/-- The 4096th byte of a line. -/
theorem Held.overflow (h : Held false input bs texts reports) (hb : b ≠ LF)
    (hlen : ¬ input.length + 1 < SHELL_INPUT_SIZE) :
    (pending LF (bs ++ [b])).length = 4096 ∧ Held true [] (bs ++ [b]) texts (reports + 1) := by
  have hinput := h.buffered rfl
  have hshort := h.length
  have hlong : overlong (pending LF bs) = false := h.discards.symm
  have hpending : (pending LF bs).length = 4095 := by
    have hge : 4095 ≤ input.length := Nat.le_of_succ_le_succ (not_lt.mp hlen)
    rw [← hinput]
    omega
  have hlong' : overlong (pending LF bs ++ [b]) = true := by simp [overlong, hpending]
  refine ⟨?_, ?_, ?_, ?_, fun h => ?_⟩
  · rw [pending_snoc hb, List.length_append, hpending]
    rfl
  · rw [lineTexts_byte bs hb, h.handed]
  · rw [overlongLines_byte bs hb, h.reported, overlongLines_eq, hlong, hlong']
    rfl
  · rw [pending_snoc hb, hlong']
  · cases h

/-- One more byte of a line that is discarded. -/
theorem Held.skip (h : Held true input bs texts reports) (hb : b ≠ LF) :
    Held true input (bs ++ [b]) texts reports := by
  have hlong : overlong (pending LF bs) = true := h.discards.symm
  have hlong' : overlong (pending LF bs ++ [b]) = true := by
    simp only [overlong, decide_eq_true_eq, List.length_append] at hlong ⊢
    omega
  refine ⟨?_, ?_, ?_, fun h => ?_⟩
  · rw [lineTexts_byte bs hb, h.handed]
  · rw [overlongLines_byte bs hb, h.reported, overlongLines_eq, hlong, hlong']
  · rw [pending_snoc hb, hlong']
  · cases h

/-- The end of a line that was discarded. -/
theorem Held.drop (h : Held true input bs texts reports) : Held false [] (bs ++ [LF]) texts reports := by
  have hlong : overlong (pending LF bs) = true := h.discards.symm
  refine ⟨?_, ?_, ?_, fun _ => ?_⟩
  · rw [lineTexts_LF, if_pos hlong, List.append_nil, h.handed]
  · rw [overlongLines_LF, h.reported]
  · rw [pending_separator]
    rfl
  · rw [pending_separator]

/-- The end of a line that fits. -/
theorem Held.line (h : Held false input bs texts reports) :
    Held false [] (bs ++ [LF]) (texts ++ [dropCR input]) reports := by
  have hlong : ¬ overlong (pending LF bs) = true := by rw [← h.discards]; exact Bool.false_ne_true
  refine ⟨?_, ?_, ?_, fun _ => ?_⟩
  · rw [lineTexts_LF, if_neg hlong, h.handed, h.buffered rfl]
  · rw [overlongLines_LF, h.reported]
  · rw [pending_separator]
    rfl
  · rw [pending_separator]

end Held

/-! ### Rejected lines -/

section Dead

variable {log es : InputLog}

theorem Dead.append (h : Dead log) (hes : .byte LF ∉ es) : Dead (log ++ es) := by
  obtain ⟨before, after, rfl, hafter⟩ := h
  refine ⟨before, after ++ es, by simp, fun hmem => ?_⟩
  rcases List.mem_append.mp hmem with hmem | hmem
  · exact hafter hmem
  · exact hes hmem

theorem Dead.of_append (h : Dead (log ++ es)) (hes : .tooLong ∉ es) : Dead log := by
  obtain ⟨before, after, heq, hafter⟩ := h
  rcases List.append_eq_append_iff.mp heq with ⟨mid, -, hmid⟩ | ⟨mid, hlog, hmid⟩
  · exact absurd (hmid ▸ List.mem_append_right _ List.mem_cons_self) hes
  · cases mid with
    | nil =>
      have hes' : es = .tooLong :: after := hmid.symm
      exact absurd (hes' ▸ List.mem_cons_self) hes
    | cons e mid =>
      obtain ⟨rfl, rfl⟩ := List.cons.inj hmid
      exact ⟨before, mid, hlog, fun hmem => hafter (List.mem_append_left _ hmem)⟩

theorem not_dead_LF (log : InputLog) : ¬ Dead (log ++ [.byte LF]) := by
  rintro ⟨before, after, heq, hafter⟩
  rcases List.eq_nil_or_concat after with rfl | ⟨after, e, rfl⟩
  · obtain ⟨-, he⟩ := List.append_inj' heq rfl
    cases he
  · rw [List.concat_eq_append, ← List.cons_append, ← List.append_assoc] at heq
    obtain ⟨-, he⟩ := List.append_inj' heq rfl
    exact hafter (by rw [List.concat_eq_append, ← he]; simp)

theorem InterruptInDead.append (h : InterruptInDead log) (es : InputLog) : InterruptInDead (log ++ es) := by
  obtain ⟨before, after, rfl, hdead⟩ := h
  exact ⟨before, after ++ es, by simp, hdead⟩

theorem tooLong_not_mem_bytes (bs : List Byte) : InputEvent.tooLong ∉ bs.map InputEvent.byte := by
  intro hmem
  obtain ⟨b, -, hb⟩ := List.mem_map.mp hmem
  cases hb

/-- The bytes in the buffer are the last ones that were read, and not of a line
that was rejected; or a line is discarded. -/
structure Alive (discarding : Bool) (input : List Byte) (log : InputLog) : Prop where
  live : discarding = false →
    ∃ before, log = before ++ input.map .byte ∧ (¬ InterruptInDead log → ¬ Dead before)
  dead : discarding = true → Dead log

variable {input : List Byte} {b : Byte}

/-- An empty buffer. -/
theorem Alive.empty (h : ¬ InterruptInDead log → ¬ Dead log) : Alive false [] log :=
  ⟨fun _ => ⟨log, (List.append_nil log).symm, h⟩, fun h => Bool.noConfusion h⟩

theorem Alive.byte (h : Alive false input log) (b : Byte) : Alive false (input ++ [b]) (log ++ [.byte b]) := by
  obtain ⟨before, hlog, hlive⟩ := h.live rfl
  refine ⟨fun _ => ⟨before, ?_, fun hnot => hlive fun hint => hnot (hint.append _)⟩, fun h => Bool.noConfusion h⟩
  rw [hlog, List.map_append, ← List.append_assoc]
  rfl

theorem Alive.overflow (log : InputLog) : Alive true [] (log ++ [.tooLong]) :=
  ⟨fun h => Bool.noConfusion h, fun _ => ⟨log, [], rfl, List.not_mem_nil⟩⟩

theorem Alive.skip (h : Alive true input log) (hb : b ≠ LF) : Alive true input (log ++ [.byte b]) :=
  ⟨fun h => Bool.noConfusion h, fun _ => (h.dead rfl).append (by simpa using hb.symm)⟩

theorem Alive.line (log : InputLog) (line : List Byte) (r : LineResult) :
    Alive false [] (log ++ [.byte LF] ++ [.handed line r]) :=
  Alive.empty fun _ hdead => not_dead_LF log (hdead.of_append (by simp))

/-- An interrupt empties the buffer. -/
theorem Alive.interrupt (log : InputLog) : Alive false [] (log ++ [.interrupt]) :=
  Alive.empty fun hnot hdead => hnot ⟨log, [], rfl, hdead.of_append (by simp)⟩

/-- The buffer at the end of a line. -/
theorem Alive.text (h : Alive false input log) {ending : InputEvent} (hending : ending = .byte LF ∨ ending = .ended)
    (hnot : ¬ InterruptInDead (log ++ [ending])) : LiveText (dropCR input) (log ++ [ending]) := by
  obtain ⟨before, hlog, hlive⟩ := h.live rfl
  have hnotdead : ¬ Dead before := hlive fun hint => hnot (hint.append _)
  have hcr : ∃ cr, input = dropCR input ++ cr ∧ (cr = [] ∨ cr = [CR]) := by
    unfold dropCR
    by_cases hlast : input.getLast? = some CR
    · rw [if_pos hlast]
      exact ⟨[CR], (List.dropLast_append_getLast? CR hlast).symm, .inr rfl⟩
    · rw [if_neg hlast]
      exact ⟨[], (List.append_nil _).symm, .inl rfl⟩
  obtain ⟨cr, hinput, hcr⟩ := hcr
  refine ⟨before, cr, ending, ?_, hcr, hending, fun l₁ b l₂ _ hdead => ?_⟩
  · rw [← hinput, hlog]
  · exact hnotdead (hdead.of_append (tooLong_not_mem_bytes l₁))

end Dead

/-! ### Reading -/

section Reading

theorem bytesOf_append (log es : InputLog) : bytesOf (log ++ es) = bytesOf log ++ bytesOf es :=
  List.filterMap_append

theorem textsOf_append (log es : InputLog) : textsOf (log ++ es) = textsOf log ++ textsOf es :=
  List.filterMap_append

/-- What the loop knows between two turns. -/
structure LineReading (status : ℤ) (ctx : ShellState) (log : InputLog) : Prop where
  status : ctx.lastExitStatus = log.foldl statusAfter status
  unended : .ended ∉ log
  held : .interrupt ∉ log → Held ctx.discarding ctx.input (bytesOf log) (textsOf log) (log.count .tooLong)
  alive : Alive ctx.discarding ctx.input log

/-- What holds when the loop is left. -/
structure LinesRead (rest : List Byte → List Byte) (status : ℤ) (ctx : ShellState) (log : InputLog) : Prop where
  bound : ctx.input.length ≤ 4095
  status : ctx.lastExitStatus = log.foldl statusAfter status
  split : .interrupt ∉ log → Split rest log (textsOf log) ∧ log.count .tooLong = overlongLines (bytesOf log)

/-- Both things that are watched. -/
def readWatch : Watch ShellCall InputLog where
  always _ := True
  atCall c log := (splitWatch dropCR).atCall c log ∧ (rejectWatch fun log => ¬ InterruptInDead log).atCall c log

variable {status : ℤ} {ctx : ShellState} {log : InputLog}

theorem restText_open (rest : List Byte → List Byte) (h : .ended ∉ log) : restText rest log = [] :=
  if_neg fun hand => h hand.1

theorem LineReading.read {rest : List Byte → List Byte} (h : LineReading status ctx log) :
    LinesRead rest status ctx log := by
  refine ⟨Nat.le_of_lt_succ ctx.fits, h.status, fun hint => ⟨?_, (h.held hint).reported⟩⟩
  rw [Split, restText_open rest h.unended, List.append_nil]
  exact (h.held hint).handed

/-- The calls that read nothing and hand nothing over. -/
def Unlogged : ShellCall → Prop
  | .readStdin | .fprintf _ | .loadPending | .command _ => False
  | _ => True

theorem unlogged_sem {c : ShellCall} (hc : Unlogged c) {r : c.Ret} {log' : InputLog} (hs : inputSem log c r log') :
    log' = log := by
  cases c with
  | readStdin => exact hc.elim
  | fprintf _ => exact hc.elim
  | loadPending => exact hc.elim
  | command _ => exact hc.elim
  | _ => exact hs

theorem unlogged_call {c : ShellCall} (hc : Unlogged c) : readWatch.atCall c log := by
  cases c with
  | fprintf _ => exact hc.elim
  | command _ => exact hc.elim
  | _ => exact ⟨trivial, trivial⟩

theorem unlogged_safe {α : Type} {p : ShellProg α} (hp : p.Only Unlogged) (log : InputLog) :
    Safe shellStdin readWatch (fun _ log' => log' = log) p log := by
  refine Only.safe (stable_alone _) (fun _ _ => trivial) ?_ ?_ hp rfl
  · intro c w hc _
    exact unlogged_call hc
  · rintro c w r w' hc rfl hs
    exact unlogged_sem hc hs

theorem shellFlushStdout_unlogged : shellFlushStdout.Only Unlogged := by
  refine ⟨fun _ => ⟨trivial, fun r => ?_⟩, fun _ => trivial⟩
  dsimp only
  split_ifs <;> trivial

theorem shellWriteAll_unlogged (data : List Byte) : (shellWriteAll data).Only Unlogged := by
  refine ⟨fun written => ?_, fun _ => trivial⟩
  dsimp only
  by_cases hlt : written < data.length
  · rw [if_pos hlt]
    refine ⟨trivial, fun r => ?_⟩
    dsimp only
    split_ifs <;> trivial
  · rw [if_neg hlt]
    trivial

theorem shellPrompt_unlogged (prompt : Bool) (ctx : ShellState) : (shellPrompt prompt ctx).Only Unlogged := by
  unfold shellPrompt shellPrintPrompt
  dsimp only
  split_ifs
  · trivial
  · apply shellFlushStdout_unlogged.bind
    intro ret
    split_ifs
    · trivial
    · exact shellWriteAll_unlogged _
  · trivial

theorem eventDrain_unlogged : eventDrain.Only Unlogged := by
  refine ⟨fun _ => ⟨trivial, fun r => ?_⟩, fun _ => trivial⟩
  dsimp only
  split_ifs <;> trivial

theorem reapChildren_unlogged (events : BitVec 32) : (reapChildren events).Only Unlogged := by
  unfold reapChildren
  split_ifs
  · exact ⟨trivial, fun _ => ⟨trivial, fun _ => trivial⟩⟩
  · trivial

/-- The text is handed over, and the buffer is empty again. -/
theorem shellDispatchInput_safe (ctx : ShellState) (hcall : readWatch.atCall (.command (dropCR ctx.input)) log) :
    Safe shellStdin readWatch (fun ctx' log' => ∃ r, log' = log ++ [.handed (dropCR ctx.input) r] ∧
      ctx'.discarding = false ∧ ctx'.input = [] ∧
      ctx'.lastExitStatus = statusAfter ctx.lastExitStatus (.handed (dropCR ctx.input) r))
      (shellDispatchInput ctx) log := by
  unfold shellDispatchInput
  dsimp only [bind_eq]
  refine Safe.bind (R := fun r log' => log' = log ++ [.handed (dropCR ctx.input) r]) ?_ fun r log₁ hlog₁ _ => ?_
  · apply Safe.iter (I := fun _ log' => log' = log) (fun _ => stable_alone _) (fun _ => stable_alone _)
      (fun _ _ _ => trivial) (fun _ _ _ => trivial) _ rfl
    rintro _ _ rfl
    refine Safe.call_alone trivial hcall fun r log' hs => ?_
    cases r with
    | none => exact Safe.ret_alone trivial hs
    | some r => exact Safe.ret_alone trivial hs
  · unfold shellResetInput
    refine Safe.call_alone trivial ⟨trivial, trivial⟩ fun _ log₂ hs => ?_
    have hs : log₂ = log₁ := hs
    rw [hs]
    exact Safe.ret_alone trivial ⟨r, hlog₁, rfl, rfl, rfl⟩

theorem reset_safe (ctx : ShellState) (log : InputLog) {Q : ShellState → InputLog → Prop}
    (hq : Q { ctx with discarding := false, input := [], fits := by decide } log) :
    Safe shellStdin readWatch Q (shellResetInput ctx) log := by
  unfold shellResetInput
  refine Safe.call_alone trivial ⟨trivial, trivial⟩ fun _ log' hs => ?_
  have hs : log' = log := hs
  rw [hs]
  exact Safe.ret_alone trivial hq

/-- What one read leaves: the loop goes on, or it is left. -/
def Continues (status : ℤ) (r : InputResult) (log : InputLog) : Prop :=
  if r.ret < 0 ∨ r.eof = true then LinesRead dropCR status r.ctx log else LineReading status r.ctx log

/-! ### One read -/

/-- Events after which the loop goes on. -/
theorem LineReading.step (h : LineReading status ctx log) {ctx' : ShellState} {es : InputLog} (hes : .ended ∉ es)
    (hstatus : ctx'.lastExitStatus = es.foldl statusAfter ctx.lastExitStatus)
    (hheld : .interrupt ∉ log → .interrupt ∉ es → Held ctx'.discarding ctx'.input (bytesOf log ++ bytesOf es)
      (textsOf log ++ textsOf es) (log.count .tooLong + es.count .tooLong))
    (halive : Alive ctx'.discarding ctx'.input (log ++ es)) : LineReading status ctx' (log ++ es) := by
  refine ⟨?_, ?_, fun hint => ?_, halive⟩
  · rw [hstatus, h.status, List.foldl_append]
  · rw [List.mem_append, not_or]
    exact ⟨h.unended, hes⟩
  · rw [List.mem_append, not_or] at hint
    rw [bytesOf_append, textsOf_append, List.count_append]
    exact hheld hint.1 hint.2

theorem LineReading.keep (h : LineReading status ctx log) (hd : ctx.discarding = false) {b : Byte} (hb : b ≠ LF)
    (hlen : ctx.input.length + 1 < SHELL_INPUT_SIZE) (hfits : (ctx.input ++ [b]).length < SHELL_INPUT_SIZE) :
    LineReading status { ctx with input := ctx.input ++ [b], fits := hfits } (log ++ [.byte b]) := by
  refine h.step (by simp) rfl (fun hint _ => ?_) ?_
  · have hheld := h.held hint
    rw [hd] at hheld
    have htexts : textsOf log ++ textsOf [.byte b] = textsOf log := List.append_nil _
    rw [htexts, hd]
    exact hheld.byte hb hlen
  · have halive := h.alive
    rw [hd] at halive ⊢
    exact halive.byte b

theorem LineReading.overflow (h : LineReading status ctx log) (hd : ctx.discarding = false) {b : Byte} (hb : b ≠ LF)
    (hlen : ¬ ctx.input.length + 1 < SHELL_INPUT_SIZE) (hfits : ([] : List Byte).length < SHELL_INPUT_SIZE) :
    LineReading status { ctx with lastExitStatus := 2, input := [], discarding := true, fits := hfits }
      (log ++ [.byte b, .tooLong]) := by
  refine h.step (by simp) rfl (fun hint _ => ?_) ?_
  · have hheld := h.held hint
    rw [hd] at hheld
    have htexts : textsOf log ++ textsOf [.byte b, .tooLong] = textsOf log := List.append_nil _
    rw [htexts]
    exact (hheld.overflow hb hlen).2
  · have halive := Alive.overflow (log ++ [.byte b])
    rw [List.append_assoc] at halive
    exact halive

theorem LineReading.skip (h : LineReading status ctx log) (hd : ctx.discarding = true) {b : Byte} (hb : b ≠ LF) :
    LineReading status ctx (log ++ [.byte b]) := by
  refine h.step (by simp) rfl (fun hint _ => ?_) ?_
  · have hheld := h.held hint
    rw [hd] at hheld ⊢
    have htexts : textsOf log ++ textsOf [.byte b] = textsOf log := List.append_nil _
    rw [htexts]
    exact hheld.skip hb
  · have halive := h.alive
    rw [hd] at halive ⊢
    exact halive.skip hb

theorem LineReading.drop (h : LineReading status ctx log) (hd : ctx.discarding = true)
    (hfits : ([] : List Byte).length < SHELL_INPUT_SIZE) :
    LineReading status { ctx with discarding := false, input := [], fits := hfits } (log ++ [.byte LF]) := by
  refine h.step (by simp) rfl (fun hint _ => ?_) (Alive.empty fun _ => not_dead_LF log)
  have hheld := h.held hint
  rw [hd] at hheld
  have htexts : textsOf log ++ textsOf [.byte LF] = textsOf log := List.append_nil _
  rw [htexts]
  exact hheld.drop

theorem LineReading.line (h : LineReading status ctx log) (hd : ctx.discarding = false) {r : LineResult}
    {ctx' : ShellState} (hd' : ctx'.discarding = false) (hinput : ctx'.input = [])
    (hstatus : ctx'.lastExitStatus = statusAfter ctx.lastExitStatus (.handed (dropCR ctx.input) r)) :
    LineReading status ctx' (log ++ [.byte LF] ++ [.handed (dropCR ctx.input) r]) := by
  have halive := Alive.line log (dropCR ctx.input) r
  rw [List.append_assoc] at halive ⊢
  refine h.step (by simp) hstatus (fun hint _ => ?_) ?_
  · have hheld := h.held hint
    rw [hd] at hheld
    rw [hd', hinput]
    exact hheld.line
  · rw [hd', hinput]
    exact halive

/-- The line that has ended is the next text. -/
theorem LineReading.callLine (h : LineReading status ctx log) (hd : ctx.discarding = false) :
    readWatch.atCall (.command (dropCR ctx.input)) (log ++ [.byte LF]) := by
  constructor
  · intro hint
    have hheld := h.held fun hmem => hint (List.mem_append_left _ hmem)
    rw [hd] at hheld
    have hopen : .ended ∉ log ++ [InputEvent.byte LF] := by simp [h.unended]
    rw [Split, restText_open dropCR hopen, List.append_nil, bytesOf_append, textsOf_append]
    have htexts : textsOf log ++ textsOf [.byte LF] = textsOf log := List.append_nil _
    rw [htexts]
    exact hheld.line.handed
  · intro hint
    have halive := h.alive
    rw [hd] at halive
    exact halive.text (.inl rfl) hint

/-- What is left at the end of the input, if it is to be handed over. -/
theorem Held.atEnd {input bs : List Byte} {texts : List (List Byte)} {reports : ℕ}
    (h : Held false input bs texts reports) (hne : input ≠ []) {log : InputLog} (hbytes : bytesOf log = bs)
    (hended : .ended ∈ log) : Split dropCR log (texts ++ [dropCR input]) := by
  have hinput := h.buffered rfl
  have hlong : overlong (pending LF bs) = false := h.discards.symm
  rw [hinput] at hne
  rw [Split, restText, hbytes, if_pos ⟨hended, hne, hlong⟩, h.handed, hinput]

theorem LineReading.callRest (h : LineReading status ctx log) (hd : ctx.discarding = false) (hne : ctx.input ≠ []) :
    readWatch.atCall (.command (dropCR ctx.input)) (log ++ [.ended]) := by
  constructor
  · intro hint
    have hheld := h.held fun hmem => hint (List.mem_append_left _ hmem)
    rw [hd] at hheld
    have htexts : textsOf (log ++ [.ended]) = textsOf log := by
      rw [textsOf_append]
      exact List.append_nil _
    have hbytes : bytesOf (log ++ [.ended]) = bytesOf log := by
      rw [bytesOf_append]
      exact List.append_nil _
    rw [htexts]
    exact hheld.atEnd hne hbytes (by simp)
  · intro hint
    have halive := h.alive
    rw [hd] at halive
    exact halive.text (.inr rfl) hint

/-- The loop is left after the rest of the input. -/
theorem LineReading.finish (h : LineReading status ctx log) (hd : ctx.discarding = false) (hne : ctx.input ≠ [])
    {r : LineResult} {ctx' : ShellState}
    (hstatus : ctx'.lastExitStatus = statusAfter ctx.lastExitStatus (.handed (dropCR ctx.input) r)) :
    LinesRead dropCR status ctx' (log ++ [.ended] ++ [.handed (dropCR ctx.input) r]) := by
  refine ⟨Nat.le_of_lt_succ ctx'.fits, ?_, fun hint => ?_⟩
  · rw [hstatus, h.status]
    simp [List.foldl_append, statusAfter]
  · rw [List.append_assoc] at hint ⊢
    have hheld := h.held fun hmem => hint (List.mem_append_left _ hmem)
    rw [hd] at hheld
    have htexts : textsOf (log ++ ([.ended] ++ [.handed (dropCR ctx.input) r])) =
        textsOf log ++ [dropCR ctx.input] := textsOf_append _ _
    have hbytes : bytesOf (log ++ ([.ended] ++ [.handed (dropCR ctx.input) r])) = bytesOf log := by
      rw [bytesOf_append]
      exact List.append_nil _
    refine ⟨?_, ?_⟩
    · rw [htexts]
      exact hheld.atEnd hne hbytes (by simp)
    · rw [hbytes, ← hheld.reported, List.count_append]
      rfl

/-- The loop is left with nothing to hand over. -/
theorem LineReading.leave (h : LineReading status ctx log) (hnone : ¬ (ctx.discarding = false ∧ ctx.input ≠ []))
    (hfits : ([] : List Byte).length < SHELL_INPUT_SIZE) :
    LinesRead dropCR status { ctx with discarding := false, input := [], fits := hfits } (log ++ [.ended]) := by
  refine ⟨Nat.zero_le _, ?_, fun hint => ?_⟩
  · rw [List.foldl_append]
    exact h.status
  · have hheld := h.held fun hmem => hint (List.mem_append_left _ hmem)
    have htexts : textsOf (log ++ [.ended]) = textsOf log := by
      rw [textsOf_append]
      exact List.append_nil _
    have hbytes : bytesOf (log ++ [.ended]) = bytesOf log := by
      rw [bytesOf_append]
      exact List.append_nil _
    have hrest : restText dropCR (log ++ [.ended]) = [] := by
      rw [restText, if_neg]
      rintro ⟨-, hne, hlong⟩
      rw [hbytes] at hne hlong
      have hd : ctx.discarding = false := hheld.discards.trans hlong
      exact hnone ⟨hd, hheld.buffered hd ▸ hne⟩
    refine ⟨?_, ?_⟩
    · rw [htexts, Split, hrest, List.append_nil, hbytes, hheld.handed]
    · rw [hbytes, ← hheld.reported, List.count_append]
      rfl

theorem shellReadInput_safe (h : LineReading status ctx log) :
    Safe shellStdin readWatch (Continues status) (shellReadInput ctx) log := by
  have hstop : ∀ {r : InputResult} {log : InputLog}, r.ret < 0 ∨ r.eof = true → LinesRead dropCR status r.ctx log →
      Safe shellStdin readWatch (Continues status) (.ret r) log := by
    intro r log hr hread
    refine Safe.ret_alone trivial ?_
    rw [Continues, if_pos hr]
    exact hread
  have hgo : ∀ {r : InputResult} {log : InputLog}, r.ret = 0 → r.eof = false → LineReading status r.ctx log →
      Safe shellStdin readWatch (Continues status) (.ret r) log := by
    intro r log hret heof hread
    refine Safe.ret_alone trivial ?_
    rw [Continues, if_neg (by simp [hret, heof])]
    exact hread
  unfold shellReadInput
  refine Safe.call_alone trivial ⟨trivial, trivial⟩ fun r log₁ hs => ?_
  have hs : log₁ = if r.1.ret < 0 then log else if r.1.ret = 0 then log ++ [.ended] else log ++ [.byte r.2] := hs
  dsimp only [bind_eq, pure_eq, ret_bind]
  by_cases hneg : r.1.ret < 0
  · rw [if_pos hneg] at hs ⊢
    rw [hs]
    by_cases hintr : r.1.errno = EINTR
    · rw [if_pos hintr]
      exact hgo rfl rfl h
    · rw [if_neg hintr]
      exact hstop (.inl (Int.negSucc_lt_zero 0)) h.read
  rw [if_neg hneg] at hs ⊢
  by_cases hzero : r.1.ret = 0
  · -- the end of the input
    rw [if_pos hzero] at hs ⊢
    rw [hs]
    by_cases hrest : ctx.discarding = false ∧ ctx.input ≠ []
    · have hlen : 0 < ctx.input.length := List.length_pos_iff.mpr hrest.2
      rw [if_pos (by simp [hrest.1, hlen])]
      refine (shellDispatchInput_safe ctx (h.callRest hrest.1 hrest.2)).bind fun ctx' log' hctx _ => ?_
      obtain ⟨r, rfl, -, -, hstatus⟩ := hctx
      exact hstop (.inr rfl) (h.finish hrest.1 hrest.2 hstatus)
    · rw [if_neg (by simpa [List.length_pos_iff] using hrest)]
      have hreset := reset_safe ctx (log ++ [.ended]) (Q := fun ctx' log' => LinesRead dropCR status ctx' log')
        (h.leave hrest _)
      exact hreset.bind fun ctx' log' hread _ => hstop (.inr rfl) hread
  rw [if_neg hzero] at hs ⊢
  rw [hs]
  by_cases hd : ctx.discarding = true
  · rw [if_pos hd]
    by_cases hb : r.2 = LF
    · rw [if_pos hb, hb]
      have hreset := reset_safe ctx (log ++ [.byte LF]) (Q := fun ctx' log' => LineReading status ctx' log')
        (h.drop hd _)
      exact hreset.bind fun ctx' log' hread _ => hgo rfl rfl hread
    · rw [if_neg hb]
      exact hgo rfl rfl (h.skip hd hb)
  rw [if_neg hd]
  have hd : ctx.discarding = false := eq_false_of_ne_true hd
  by_cases hb : r.2 = LF
  · rw [if_pos hb, hb]
    refine (shellDispatchInput_safe ctx (h.callLine hd)).bind fun ctx' log' hctx _ => ?_
    obtain ⟨r, rfl, hd', hinput, hstatus⟩ := hctx
    exact hgo rfl rfl (h.line hd hd' hinput hstatus)
  rw [if_neg hb]
  by_cases hlen : ctx.input.length + 1 < SHELL_INPUT_SIZE
  · rw [dif_pos hlen]
    exact hgo rfl rfl (h.keep hd hb hlen _)
  · -- the report of a line that is too long
    rw [dif_neg hlen]
    have hcall : readWatch.atCall (.fprintf (text "minishell: input line is too long\n")) (log ++ [.byte r.2]) := by
      refine ⟨fun hint => ?_, trivial⟩
      have hheld := h.held fun hmem => hint (List.mem_append_left _ hmem)
      rw [hd] at hheld
      rw [bytesOf_append]
      exact (hheld.overflow hb hlen).1
    refine Safe.call_alone trivial hcall fun _ log₂ hs => ?_
    have hs : log₂ = log ++ [.byte r.2] ++ [.tooLong] := hs
    rw [hs, List.append_assoc]
    exact hgo rfl rfl (h.overflow hd hb hlen _)

/-! ### The loop -/

/-- Events are taken with the signals blocked, or none. -/
theorem signalTakeEvents_logged (log : InputLog) : Safe shellStdin readWatch (fun events log' =>
      log' = if events &&& SIGNAL_EVENT_INTERRUPT ≠ 0 then log ++ [.interrupt] else log) signalTakeEvents log := by
  unfold signalTakeEvents
  refine Safe.call_alone trivial ⟨trivial, trivial⟩ fun r log₁ hs => ?_
  have hs : log₁ = log := hs
  subst hs
  by_cases hret : r.1.ret < 0
  · rw [if_pos hret]
    exact Safe.ret_alone trivial rfl
  rw [if_neg hret]
  refine Safe.call_alone trivial ⟨trivial, trivial⟩ fun events log₂ hs => ?_
  refine Safe.call_alone trivial ⟨trivial, trivial⟩ fun _ log₃ hs₃ => ?_
  refine Safe.call_alone trivial ⟨trivial, trivial⟩ fun _ log₄ hs₄ => ?_
  have hs₃ : log₃ = log₂ := hs₃
  have hs₄ : log₄ = log₃ := hs₄
  rw [hs₄, hs₃]
  exact Safe.ret_alone trivial hs

/-- An interrupt empties the buffer and ends the discarding. -/
theorem LineReading.interrupt (h : LineReading status ctx log) (hfits : ([] : List Byte).length < SHELL_INPUT_SIZE) :
    LineReading status { ctx with discarding := false, input := [], fits := hfits } (log ++ [.interrupt]) :=
  h.step (by simp) rfl (fun _ hint => absurd List.mem_cons_self hint) (Alive.interrupt log)

/-- What one pass over the events leaves. -/
def AfterEvents (status : ℤ) (ctx : ShellState) : Option (Bool × ShellState) → InputLog → Prop
  | none, log => LinesRead dropCR status ctx log
  | some (_, ctx'), log => LineReading status ctx' log

theorem interruptInput_logged (h : LineReading status ctx log) (events : BitVec 32) :
    Safe shellStdin readWatch (AfterEvents status ctx) (interruptInput events ctx)
      (if events &&& SIGNAL_EVENT_INTERRUPT ≠ 0 then log ++ [.interrupt] else log) := by
  unfold interruptInput
  by_cases hint : events &&& SIGNAL_EVENT_INTERRUPT ≠ 0
  · rw [if_pos hint, if_pos hint]
    -- what is returned when the new line cannot be written is the context before
    have hfailed : LinesRead dropCR status ctx (log ++ [.interrupt]) := by
      refine ⟨Nat.le_of_lt_succ ctx.fits, (h.interrupt (by decide)).status, fun hnot => ?_⟩
      exact absurd (List.mem_append_right _ List.mem_cons_self) hnot
    have hreset := reset_safe ctx (log ++ [.interrupt]) (Q := fun ctx' log' =>
      LineReading status ctx' log' ∧ log' = log ++ [.interrupt]) ⟨h.interrupt _, rfl⟩
    refine hreset.bind fun ctx' log' hctx _ => ?_
    obtain ⟨hread, rfl⟩ := hctx
    refine (unlogged_safe shellFlushStdout_unlogged _).bind fun ret log₁ hs _ => ?_
    rw [hs]
    by_cases hret : ret < 0
    · rw [if_pos hret]
      exact Safe.ret_alone trivial hfailed
    rw [if_neg hret]
    refine (unlogged_safe (shellWriteAll_unlogged _) _).bind fun ret log₂ hs _ => ?_
    rw [hs]
    by_cases hret : ret < 0
    · rw [if_pos hret]
      exact Safe.ret_alone trivial hfailed
    · rw [if_neg hret]
      exact Safe.ret_alone trivial hread
  · rw [if_neg hint, if_neg hint]
    exact Safe.ret_alone trivial h

theorem shellEvents_logged (h : LineReading status ctx log) (ready : Bool) :
    Safe shellStdin readWatch (AfterEvents status ctx) (shellEvents ready ctx) log := by
  unfold shellEvents
  by_cases hready : ready = true
  · rw [if_pos hready]
    refine (unlogged_safe eventDrain_unlogged log).bind fun ret log₁ hs _ => ?_
    rw [hs]
    by_cases hret : ret < 0
    · rw [if_pos hret]
      exact Safe.ret_alone trivial h.read
    rw [if_neg hret]
    refine (signalTakeEvents_logged log).bind fun events log₂ hs _ => ?_
    rw [hs]
    refine (unlogged_safe (reapChildren_unlogged events) _).bind fun _ log₃ hs _ => ?_
    rw [hs]
    exact interruptInput_logged h events
  · rw [if_neg hready]
    exact Safe.ret_alone trivial h

/-- One turn of the loop. -/
theorem shellTurn_reading (eventFd : ℤ) (prompt : Bool) (h : LineReading status ctx log) :
    Safe shellStdin readWatch
      (Sum.elim (fun s log => LineReading status s.2 log) fun r log => LinesRead dropCR status r.2 log)
      (shellTurn eventFd (prompt, ctx)) log := by
  unfold shellTurn
  by_cases hrunning : (!ctx.running) = true
  · rw [if_pos hrunning]
    exact Safe.ret_alone trivial h.read
  rw [if_neg hrunning]
  refine (unlogged_safe (shellPrompt_unlogged prompt ctx) log).bind fun ret log₁ hs _ => ?_
  rw [hs]
  by_cases hret : ret < 0
  · rw [if_pos hret]
    exact Safe.ret_alone trivial h.read
  rw [if_neg hret]
  refine Safe.call_alone trivial ⟨trivial, trivial⟩ fun r log₂ hs => ?_
  have hs : log₂ = log := hs
  rw [hs]
  by_cases hselect : r.ret < 0
  · rw [if_pos hselect]
    by_cases hintr : r.errno = EINTR
    · rw [if_pos hintr]
      exact Safe.ret_alone trivial h
    · rw [if_neg hintr]
      exact Safe.ret_alone trivial h.read
  rw [if_neg hselect]
  refine (shellEvents_logged h r.eventReady).bind fun e log₃ he _ => ?_
  cases e with
  | none => exact Safe.ret_alone trivial he
  | some e =>
    have he : LineReading status e.2 log₃ := he
    unfold shellInput
    by_cases hstop : (!e.2.running) = true
    · simp only [if_pos hstop]
      exact Safe.ret_alone trivial he.read
    simp only [if_neg hstop]
    by_cases hstdin : r.stdinReady = true
    · rw [if_pos hstdin]
      refine (shellReadInput_safe he).bind fun i log₄ hi _ => ?_
      by_cases hneg : i.ret < 0
      · rw [Continues, if_pos (.inl hneg)] at hi
        rw [if_pos hneg]
        exact Safe.ret_alone trivial hi
      rw [if_neg hneg]
      by_cases heof : i.eof = true
      · rw [Continues, if_pos (.inr heof)] at hi
        rw [if_pos heof]
        exact Safe.ret_alone trivial hi
      · rw [Continues, if_neg (not_or.mpr ⟨hneg, heof⟩)] at hi
        rw [if_neg heof]
        exact Safe.ret_alone trivial hi
    · rw [if_neg hstdin]
      exact Safe.ret_alone trivial he

theorem LineReading.start (running : Bool) (status : ℤ) (prompts : List Byte) :
    LineReading status (ShellState.start running status prompts) [] := by
  refine ⟨rfl, List.not_mem_nil, fun _ => ⟨rfl, rfl, rfl, fun _ => rfl⟩, Alive.empty fun _ hdead => ?_⟩
  obtain ⟨before, after, heq, -⟩ := hdead
  exact absurd heq (by simp)

theorem shellRun_safe (eventFd : ℤ) (running : Bool) (status : ℤ) (prompts : List Byte) :
    Safe shellStdin readWatch (fun r log => LinesRead dropCR status r.2 log)
      (shellRun eventFd (ShellState.start running status prompts)) [] := by
  have hstart := LineReading.start running status prompts
  unfold shellRun
  split_ifs
  · exact Safe.ret_alone trivial hstart.read
  · exact Safe.ret_alone trivial hstart.read
  · exact Safe.iter (I := fun s log => LineReading status s.2 log) (fun _ => stable_alone _) (fun _ => stable_alone _)
      (fun _ _ _ => trivial) (fun _ _ _ => trivial) (fun s log hs => shellTurn_reading eventFd s.1 hs) hstart

end Reading

/-! ### Runs -/

section Run

variable {ctx : ShellState} {log log' : InputLog} {b : Byte}

/-- A byte that goes into the buffer. -/
theorem reach_keep (hd : ctx.discarding = false) (hb : b ≠ LF) (hlen : ctx.input.length + 1 < SHELL_INPUT_SIZE)
    (hfits : (ctx.input ++ [b]).length < SHELL_INPUT_SIZE) (log : InputLog) :
    Reach shellStdin (shellReadInput ctx, log)
      (.ret ⟨0, false, false, { ctx with input := ctx.input ++ [b], fits := hfits }⟩, log ++ [.byte b]) := by
  refine Reach.call (o := ShellCall.readStdin) (⟨1, 0⟩, b) rfl ?_
  simp only [bind_eq, pure_eq, ret_bind]
  rw [if_neg (by decide), if_neg (by decide), if_neg (by rw [hd]; decide), if_neg hb, dif_pos hlen]
  exact .refl

/-- A turn in which a byte is read. -/
theorem reach_read {p : ShellProg InputResult} (hrunning : ctx.running = true)
    (h : Reach shellStdin (shellReadInput ctx, log) (p, log')) :
    Reach shellStdin (shellTurn 3 (false, ctx), log)
      (p.bind fun r => if r.ret < 0 then .ret (.inr (.error, r.ctx)) else if r.eof then .ret (.inr (.ok, r.ctx))
        else .ret (.inl (r.lineDone, r.ctx)), log') := by
  unfold shellTurn shellPrompt
  rw [if_neg (by rw [hrunning]; decide)]
  refine Reach.call (o := ShellCall.select 3) ⟨1, 0, false, true⟩ rfl ?_
  have hturn := Reach.bind h fun r : InputResult => (if r.ret < 0 then .ret (.inr (.error, r.ctx))
    else if r.eof then .ret (.inr (.ok, r.ctx)) else .ret (.inl (r.lineDone, r.ctx)) :
      ShellProg ((Bool × ShellState) ⊕ (ShellStatus × ShellState)))
  simpa [shellEvents, shellInput, hrunning] using hturn

theorem reach_flush (log : InputLog) : Reach shellStdin (shellFlushStdout, log) (.ret 0, log) := by
  refine Reach.leave (Reach.call (o := ShellCall.fflush) ⟨0, 0⟩ rfl ?_)
  rw [if_pos rfl]
  exact .refl

theorem reach_write (data : List Byte) (hdata : 0 < data.length) (log : InputLog) :
    Reach shellStdin (shellWriteAll data, log) (.ret 0, log) := by
  unfold shellWriteAll
  refine (Reach.again (r := data.length) (v := log) ?_).trans (Reach.leave (b := 0) ?_)
  · rw [if_pos hdata]
    refine Reach.call (o := ShellCall.write (data.drop 0)) ⟨data.length, 0⟩ rfl ?_
    dsimp only
    rw [if_neg (by omega), if_neg (by omega), Nat.zero_add, Int.toNat_natCast]
    exact .refl
  · rw [if_neg (Nat.lt_irrefl _)]
    exact .refl

/-- The first turn, with the prompt; the wait is interrupted. -/
theorem reach_prompt (hrunning : ctx.running = true) (hprompts : ctx.prompts = []) (log : InputLog) :
    Reach shellStdin (shellTurn 3 (true, ctx), log) (.ret (.inl (false, ctx)), log) := by
  have hflush := Reach.bind (reach_flush log) fun ret =>
    (if ret < 0 then .ret (-1) else shellWriteAll (text ">>" ++ [] ++ text " ") : ShellProg ℤ)
  have hwrite := reach_write (text ">>" ++ [] ++ text " ") (by decide) log
  unfold shellTurn shellPrompt shellPrintPrompt
  rw [if_neg (by rw [hrunning]; decide), if_pos rfl, hprompts]
  dsimp only
  rw [if_neg (by decide)]
  refine (Reach.bind (hflush.trans hwrite) _).trans ?_
  dsimp only [ret_bind]
  rw [if_neg (by decide)]
  refine Reach.call (o := ShellCall.select 3) ⟨-1, EINTR, false, false⟩ rfl ?_
  dsimp only
  rw [if_pos (by decide), if_pos rfl]
  exact .refl

/-- The byte that is too much. -/
theorem reach_overflow (ctx : ShellState) (hd : ctx.discarding = false) (hb : b ≠ LF)
    (hlen : ¬ ctx.input.length + 1 < SHELL_INPUT_SIZE) (hfits : ([] : List Byte).length < SHELL_INPUT_SIZE)
    (log : InputLog) :
    Reach shellStdin (shellReadInput ctx, log)
      (.ret ⟨0, false, false, { ctx with lastExitStatus := 2, input := [], discarding := true, fits := hfits }⟩,
        log ++ [.byte b] ++ [.tooLong]) := by
  refine Reach.call (o := ShellCall.readStdin) (⟨1, 0⟩, b) rfl ?_
  simp only [bind_eq, pure_eq, ret_bind]
  rw [if_neg (by decide), if_neg (by decide), if_neg (by rw [hd]; decide), if_neg hb, dif_neg hlen]
  exact Reach.call (o := ShellCall.fprintf _) () rfl .refl

/-- A turn in which an interrupt is taken. -/
theorem reach_interrupt (hrunning : ctx.running = true) (hfits : ([] : List Byte).length < SHELL_INPUT_SIZE)
    (log : InputLog) :
    Reach shellStdin (shellTurn 3 (false, ctx), log)
      (.ret (.inl (true, { ctx with discarding := false, input := [], fits := hfits })), log ++ [.interrupt]) := by
  have hdrain : Reach shellStdin (eventDrain, log) (.ret 0, log) := by
    refine Reach.leave (Reach.call (o := ShellCall.readEvent 64) ⟨-1, EAGAIN⟩ rfl ?_)
    dsimp only
    rw [if_neg (by decide), if_neg (by decide), if_neg (by decide), if_pos (.inl rfl)]
    exact .refl
  have htaken : Reach shellStdin (signalTakeEvents, log) (.ret SIGNAL_EVENT_INTERRUPT, log ++ [.interrupt]) := by
    refine Reach.call (o := ShellCall.sigBlock) (⟨0, 0⟩, false) rfl ?_
    rw [if_neg (by decide)]
    refine Reach.call (o := ShellCall.loadPending) SIGNAL_EVENT_INTERRUPT (v := log ++ [.interrupt]) ?_ ?_
    · exact (if_pos (by decide)).symm
    refine Reach.call (o := ShellCall.storePending SIGNAL_EVENT_NONE) () rfl ?_
    exact Reach.call (o := ShellCall.sigSetmask false) ⟨0, 0⟩ rfl .refl
  have hreset : Reach shellStdin (interruptInput SIGNAL_EVENT_INTERRUPT ctx, log ++ [.interrupt])
      (.ret (some (true, { ctx with discarding := false, input := [], fits := hfits })), log ++ [.interrupt]) := by
    unfold interruptInput
    rw [if_pos (by decide)]
    refine Reach.call (o := ShellCall.resetInput) () rfl ((Reach.bind (reach_flush _) _).trans ?_)
    refine (Reach.bind (reach_write [LF] (by decide) _) _).trans ?_
    exact .refl
  unfold shellTurn shellPrompt
  rw [if_neg (by rw [hrunning]; decide)]
  refine Reach.call (o := ShellCall.select 3) ⟨1, 0, true, false⟩ rfl ?_
  have hevents : Reach shellStdin (shellEvents true ctx, log)
      (.ret (some (true, { ctx with discarding := false, input := [], fits := hfits })), log ++ [.interrupt]) :=
    (Reach.bind hdrain _).trans ((Reach.bind htaken _).trans hreset)
  refine (Reach.bind hevents _).trans ?_
  simp only [ret_bind, shellInput, hrunning]
  exact .refl

/-- The shell with `n` bytes `a` in its buffer. -/
def heldBytes (n : ℕ) (h : n < SHELL_INPUT_SIZE) : ShellState :=
  ⟨true, 0, [], List.replicate n 'a'.toUInt8, false, by rw [List.length_replicate]; exact h⟩

/-- A turn that keeps a byte. -/
theorem reach_turn_keep (ctx : ShellState) (hrunning : ctx.running = true) (hd : ctx.discarding = false) (hb : b ≠ LF)
    (hlen : ctx.input.length + 1 < SHELL_INPUT_SIZE) (hfits : (ctx.input ++ [b]).length < SHELL_INPUT_SIZE)
    (log : InputLog) :
    Reach shellStdin (shellTurn 3 (false, ctx), log)
      (.ret (.inl (false, { ctx with input := ctx.input ++ [b], fits := hfits })), log ++ [.byte b]) :=
  reach_read hrunning (reach_keep hd hb hlen hfits log)

/-- The buffer is filled. -/
theorem reach_heldBytes {n : ℕ} (h : n < SHELL_INPUT_SIZE) :
    Reach shellStdin (shellRun 3 (ShellState.start true 0 []), [])
      (.loop (shellTurn 3) (false, heldBytes n h) .ret, List.replicate n (.byte 'a'.toUInt8)) := by
  induction n with
  | zero =>
    unfold shellRun
    rw [if_neg (by decide), if_neg (by decide)]
    exact Reach.again (reach_prompt rfl rfl [])
  | succ n ih =>
    refine (ih (Nat.lt_of_succ_lt h)).trans (Reach.again ?_)
    have hfits : (List.replicate n 'a'.toUInt8 ++ ['a'.toUInt8]).length < SHELL_INPUT_SIZE := by
      rw [List.length_append, List.length_replicate]
      exact h
    have hlen : (heldBytes n (Nat.lt_of_succ_lt h)).input.length + 1 < SHELL_INPUT_SIZE := by
      unfold heldBytes
      rw [List.length_replicate]
      exact h
    have hkeep := reach_turn_keep (heldBytes n (Nat.lt_of_succ_lt h)) rfl rfl
      (show 'a'.toUInt8 ≠ LF by decide) hlen hfits (List.replicate n (.byte 'a'.toUInt8))
    have hctx : heldBytes (n + 1) h = { heldBytes n (Nat.lt_of_succ_lt h) with
        input := List.replicate n 'a'.toUInt8 ++ ['a'.toUInt8], fits := hfits } := by
      simp [heldBytes, List.replicate_succ']
    rw [hctx, List.replicate_succ' (a := InputEvent.byte 'a'.toUInt8)]
    exact hkeep

end Run

/-- Without interrupts the texts handed over are the lines that fit, each
without the CR of its ending, then the rest at the end of the input; there is
one report for each line that is too long. -/
theorem line_splitting (eventFd : ℤ) (running : Bool) (status : ℤ) (prompts : List Byte) :
    Safe shellStdin (splitWatch dropCR) (fun r log => LinesRead dropCR status r.2 log)
      (shellRun eventFd (ShellState.start running status prompts)) [] :=
  (shellRun_safe eventFd running status prompts).mono (fun _ h => h) (fun _ _ h => h.1) fun _ _ _ h => h

/-- A CR before the end of the input is dropped with the rest. -/
theorem rest_without_CR : ¬ ∀ eventFd running status prompts, Safe shellStdin (splitWatch id)
    (fun r log => LinesRead id status r.2 log) (shellRun eventFd (ShellState.start running status prompts)) [] := by
  intro h
  have hone := (h 3 true 0 []).reach (reach_heldBytes (n := 1) (by decide))
  have hcr := hone.reach (Reach.again (reach_turn_keep (heldBytes 1 (by decide)) (b := CR) rfl rfl (by decide)
    (by decide) (by decide) _))
  have hend : Reach shellStdin (shellReadInput ⟨true, 0, [], ['a'.toUInt8, CR], false, by decide⟩,
      [.byte 'a'.toUInt8, .byte CR]) (.call (.command ['a'.toUInt8]) _, [.byte 'a'.toUInt8, .byte CR, .ended]) :=
    Reach.call (o := ShellCall.readStdin) (⟨0, 0⟩, 0) rfl (.single (.inl ⟨rfl, rfl⟩))
  have hcall := (hcr.reach (Reach.turn (reach_read rfl hend))).good
  have hsplit : [['a'.toUInt8]] = lineTexts ['a'.toUInt8, CR] ++
    restText id [.byte 'a'.toUInt8, .byte CR, .ended] := hcall.2 (by decide)
  exact absurd hsplit (by decide)


/-- As long as no interrupt is taken between the report of a line and its end,
no byte of a rejected line is in a text. -/
theorem rejected_line_not_executed (eventFd : ℤ) (running : Bool) (status : ℤ) (prompts : List Byte) :
    Safe shellStdin (rejectWatch fun log => ¬ InterruptInDead log) (fun _ _ => True)
      (shellRun eventFd (ShellState.start running status prompts)) [] :=
  (shellRun_safe eventFd running status prompts).mono (fun _ h => h) (fun _ _ h => h.2) fun _ _ _ _ => trivial

/-- An interrupt after the report: the end of the rejected line is a text. -/
theorem rejected_line_executed : ¬ ∀ eventFd running status prompts, Safe shellStdin (rejectWatch fun _ => True)
    (fun _ _ => True) (shellRun eventFd (ShellState.start running status prompts)) [] := by
  intro h
  have hfull := (h 3 true 0 []).reach (reach_heldBytes (n := 4095) (by decide))
  have hlen : (heldBytes 4095 (by decide)).input.length = 4095 := List.length_replicate
  have hlong := hfull.reach (Reach.again (reach_read rfl (reach_overflow (heldBytes 4095 (by decide))
    (b := 'a'.toUInt8) rfl (by decide) (by rw [hlen]; decide) (by decide) _)))
  have hint := hlong.reach (Reach.again (reach_interrupt rfl (by decide) _))
  have hprompt := hint.reach (Reach.again (reach_prompt rfl rfl _))
  have hbyte := hprompt.reach (Reach.again
    (reach_turn_keep _ (b := 'b'.toUInt8) rfl rfl (by decide) (by simp) (by simp) _))
  generalize hlog : List.replicate 4095 (InputEvent.byte 'a'.toUInt8) ++ [.byte 'a'.toUInt8] = filled at hbyte
  have hline : Reach shellStdin (shellReadInput ⟨true, 2, [], ['b'.toUInt8], false, by decide⟩,
      filled ++ [.tooLong] ++ [.interrupt] ++ [.byte 'b'.toUInt8])
      (.call (.command ['b'.toUInt8]) _, filled ++ [.tooLong] ++ [.interrupt] ++ [.byte 'b'.toUInt8] ++ [.byte LF]) :=
    Reach.call (o := ShellCall.readStdin) (⟨1, 0⟩, LF) rfl (.single (.inl ⟨rfl, rfl⟩))
  have hcall := (hbyte.reach (Reach.turn (reach_read rfl hline))).good
  obtain ⟨before, cr, ending, heq, hcr, -, hlive⟩ : LiveText ['b'.toUInt8]
    (filled ++ [.tooLong] ++ [.interrupt] ++ [.byte 'b'.toUInt8] ++ [.byte LF]) := hcall.2 trivial
  -- the text is the last byte before the line feed
  obtain ⟨heq, -⟩ := List.append_inj' heq rfl
  rcases hcr with rfl | rfl
  · obtain ⟨hbefore, -⟩ := List.append_inj' heq rfl
    refine hlive [] 'b'.toUInt8 [] rfl ?_
    rw [← hbefore]
    exact ⟨filled, [.interrupt], by simp, by simp⟩
  · rw [List.map_append, ← List.append_assoc] at heq
    obtain ⟨-, hlast⟩ := List.append_inj' heq rfl
    exact absurd hlast (by decide)

end DeviceRuntime
