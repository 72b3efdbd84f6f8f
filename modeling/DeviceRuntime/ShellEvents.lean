/-
# No signal is lost

The loop of the shell with the handler of `src/sig.c`. A delivery may come
between any two steps of the shell; the handler then sets its bit of
`pending_events` and writes to the event pipe, and the shell goes on when the
handler has returned. The write is dropped when the pipe is full.

Whenever the shell waits in `select` with nothing in the pipe, no bit is
pending. `Awake` is the reason: a bit that is set has its byte in the pipe, or
the handler is about to write it, and this holds again once the bits were
taken after the bytes. `Noted` follows a signal from its delivery to the pass
that serves it.

Key definitions: `EventState`, `Handler`, `events`, `FollowedBy`, `Noted`,
`Awake`, `shellWatch`.
Key theorems: `handler_noted`, `signalTakeEvents_safe`, `no_lost_wakeup`.
-/
import DeviceRuntime.Lib.Safe
import DeviceRuntime.Shell

namespace DeviceRuntime

open Prog

inductive Signal
  | sigchld | sigint
deriving DecidableEq, Repr

def Signal.bit : Signal → BitVec 32
  | .sigchld => SIGNAL_EVENT_CHILD
  | .sigint => SIGNAL_EVENT_INTERRUPT

/-- What is logged. The two functions of the job table are logged where they
begin. -/
inductive Event
  | delivered (s : Signal)
  | reap
  | cleanup
  | reset
deriving DecidableEq, Repr

/-- What has to follow a signal. -/
def Signal.pass : Signal → List Event
  | .sigchld => [.reap, .cleanup]
  | .sigint => [.reset]

/-- Where the handler is: not running, before its bit is set, before the
write. -/
inductive HandlerState
  | idle
  | entered (s : Signal)
  | marked
deriving DecidableEq, Repr

/-- `pending_events`, the number of bytes in the event pipe, the handler,
whether the signals are blocked, and the log. -/
structure EventState where
  pending : BitVec 32
  pipe : ℕ
  handler : HandlerState
  blocked : Bool
  log : List Event

/-- The steps of deliveries and of `signal_handler`, with an event pipe of the
given capacity. A handler is not interrupted by another, as `sa_mask` says. -/
inductive Handler (capacity : ℕ) : EventState → EventState → Prop
  | deliver (s : Signal) {w : EventState} (hidle : w.handler = .idle) (hopen : w.blocked = false) :
      Handler capacity w { w with handler := .entered s, log := w.log ++ [.delivered s] }
  | mark {s : Signal} {w : EventState} (hs : w.handler = .entered s) :
      Handler capacity w { w with handler := .marked, pending := w.pending ||| s.bit }
  | write {w : EventState} (hs : w.handler = .marked) (hroom : w.pipe < capacity) :
      Handler capacity w { w with handler := .idle, pipe := w.pipe + 1 }
  | full {w : EventState} (hs : w.handler = .marked) (hfull : ¬ w.pipe < capacity) :
      Handler capacity w { w with handler := .idle }

/-- The calls of the shell; it runs only while the handler does not. A read of
the pipe takes what is there, up to its size, and `sigprocmask` succeeds. -/
def eventSem (w : EventState) (c : ShellCall) (r : c.Ret) (w' : EventState) : Prop :=
  w.handler = .idle ∧ match c, r with
    | .select _, r => w' = w ∧
        (r.ret < 0 ∨ (0 < r.ret ∧ (r.eventReady = true ↔ 0 < w.pipe) ∧ (r.eventReady || r.stdinReady) = true))
    | .readEvent size, r =>
      (0 < w.pipe ∧ r.ret = (min w.pipe size : ℕ) ∧ w' = { w with pipe := w.pipe - min w.pipe size }) ∨
      (w.pipe = 0 ∧ r.ret = -1 ∧ r.errno = EAGAIN ∧ w' = w) ∨ (r.ret = -1 ∧ r.errno = EINTR ∧ w' = w)
    | .sigBlock, r => r.1.ret = 0 ∧ r.2 = w.blocked ∧ w' = { w with blocked := true }
    | .sigSetmask blocked, r => r.ret = 0 ∧ w' = { w with blocked := blocked }
    | .loadPending, r => r = w.pending ∧ w' = w
    | .storePending events, _ => w' = { w with pending := events }
    | .jobReap, _ => w' = { w with log := w.log ++ [.reap] }
    | .jobCleanupDone, _ => w' = { w with log := w.log ++ [.cleanup] }
    | .resetInput, _ => w' = { w with log := w.log ++ [.reset] }
    | _, _ => w' = w

abbrev events (capacity : ℕ) : World ShellCall ShellCall.Ret EventState := ⟨eventSem, Handler capacity⟩

/-- Every delivery of `s` is followed by `l`. -/
def FollowedBy (s : Signal) (l : List Event) (log : List Event) : Prop :=
  ∀ before after, log = before ++ .delivered s :: after → l.Sublist after

/-- In `select`, with no handler running and the pipe empty: nothing is pending
and every signal was served. -/
def shellWatch : Watch ShellCall EventState where
  always _ := True
  atCall c w := match c with
    | .select _ => w.handler = .idle → w.pipe = 0 →
        w.pending = SIGNAL_EVENT_NONE ∧ ∀ s : Signal, FollowedBy s s.pass w.log
    | _ => True

/-- After `signal_init`. -/
def signalInit : EventState := ⟨SIGNAL_EVENT_NONE, 0, .idle, false, []⟩

/-! ### What a delivery leaves -/

/-- The bit of `s` is set or about to be set. -/
def Awaited (s : Signal) (w : EventState) : Prop := w.pending &&& s.bit ≠ 0 ∨ w.handler = .entered s

/-- Every delivery of `s` is followed by `l`, or the next taking of events
will see one. -/
def Noted (s : Signal) (l : List Event) (w : EventState) : Prop := FollowedBy s l w.log ∨ Awaited s w

/-- A pending bit has its byte in the pipe, or the handler is about to write
it. -/
def Awake (w : EventState) : Prop := w.pending ≠ SIGNAL_EVENT_NONE → 0 < w.pipe ∨ w.handler = .marked

theorem FollowedBy.append {s : Signal} {l log : List Event} (h : FollowedBy s l log) {e : Event}
    (he : e ≠ .delivered s) : FollowedBy s l (log ++ [e]) := by
  intro before after heq
  rcases List.eq_nil_or_concat after with rfl | ⟨after, e', rfl⟩
  · obtain ⟨-, he'⟩ := List.append_inj' heq rfl
    exact absurd (List.cons.inj he').1 he
  · rw [List.concat_eq_append, ← List.cons_append, ← List.append_assoc] at heq
    obtain ⟨hlog, -⟩ := List.append_inj' heq rfl
    rw [List.concat_eq_append]
    exact (h before after hlog).trans (List.sublist_append_left _ _)

/-- The next event of a pass. -/
theorem FollowedBy.next {s : Signal} {l log : List Event} (h : FollowedBy s l log) {e : Event}
    (he : e ≠ .delivered s) : FollowedBy s (l ++ [e]) (log ++ [e]) := by
  intro before after heq
  rcases List.eq_nil_or_concat after with rfl | ⟨after, e', rfl⟩
  · obtain ⟨-, he'⟩ := List.append_inj' heq rfl
    exact absurd (List.cons.inj he').1 he
  · rw [List.concat_eq_append, ← List.cons_append, ← List.append_assoc] at heq
    obtain ⟨hlog, he'⟩ := List.append_inj' heq rfl
    rw [List.concat_eq_append, ← (List.cons.inj he').1]
    exact (h before after hlog).append (List.Sublist.refl _)

theorem followedBy_nil (s : Signal) (log : List Event) : FollowedBy s [] log := fun _ _ _ => List.nil_sublist _

theorem or_bit {p : BitVec 32} {s : Signal} (h : p &&& s.bit ≠ 0) (b : BitVec 32) : (p ||| b) &&& s.bit ≠ 0 := by
  rw [BitVec.and_or_distrib_right]
  exact fun h0 => h (BitVec.or_eq_zero_iff.mp h0).1

theorem bit_set (p : BitVec 32) (s : Signal) : (p ||| s.bit) &&& s.bit ≠ 0 := by
  rw [BitVec.and_or_distrib_right, BitVec.and_self]
  intro h0
  have hbit := (BitVec.or_eq_zero_iff.mp h0).2
  cases s with
  | sigchld => exact absurd hbit (by decide)
  | sigint => exact absurd hbit (by decide)

/-! ### The steps of the handler -/

theorem handler_noted {capacity : ℕ} {w w' : EventState} (hstep : Handler capacity w w') {s : Signal}
    {l : List Event} (h : Noted s l w) : Noted s l w' := by
  cases hstep with
  | deliver s' hidle hopen =>
    by_cases hs : s' = s
    · exact .inr (.inr (by rw [hs]))
    · rcases h with h | h | h
      · exact .inl (h.append fun he => hs (Event.delivered.inj he))
      · exact .inr (.inl h)
      · rw [hidle] at h
        cases h
  | @mark s' _ hs =>
    rcases h with h | h | h
    · exact .inl h
    · exact .inr (.inl (or_bit h _))
    · obtain rfl := HandlerState.entered.inj (hs.symm.trans h)
      exact .inr (.inl (bit_set _ _))
  | write hs hroom =>
    rcases h with h | h | h
    · exact .inl h
    · exact .inr (.inl h)
    · rw [hs] at h
      cases h
  | full hs hfull =>
    rcases h with h | h | h
    · exact .inl h
    · exact .inr (.inl h)
    · rw [hs] at h
      cases h

/-- The write comes after the bit, and a full pipe is not empty. -/
theorem handler_awake {capacity : ℕ} (hcapacity : 0 < capacity) {w w' : EventState}
    (hstep : Handler capacity w w') (h : Awake w) : Awake w' := by
  cases hstep with
  | deliver s hidle hopen =>
    intro hp
    rcases h hp with h | h
    · exact .inl h
    · rw [hidle] at h
      cases h
  | mark hs => exact fun _ => .inr rfl
  | write hs hroom => exact fun _ => .inl (Nat.succ_pos _)
  | full hs hfull => exact fun _ => .inl (lt_of_lt_of_le hcapacity (not_lt.mp hfull))

theorem handler_blocked {capacity : ℕ} {w w' : EventState} (hstep : Handler capacity w w') :
    w'.blocked = w.blocked := by
  cases hstep <;> rfl

/-- No delivery while the signals are blocked. -/
theorem handler_frozen {capacity : ℕ} {w : EventState} (hidle : w.handler = .idle) (hb : w.blocked = true) :
    Stable (events capacity) (· = w) := by
  rintro _ w' hstep rfl
  cases hstep with
  | deliver s _ hopen => rw [hb] at hopen; cases hopen
  | mark hs => rw [hidle] at hs; cases hs
  | write hs _ => rw [hidle] at hs; cases hs
  | full hs _ => rw [hidle] at hs; cases hs

/-! ### Between the calls of the shell -/

/-- What holds between the bytes and the bits: a signal is served or seen. -/
structure Drained (w : EventState) : Prop where
  unblocked : w.blocked = false
  noted : ∀ s : Signal, Noted s s.pass w

/-- What holds outside of that, with the signals of `P` served or seen. -/
structure Served (P : Signal → Prop) (w : EventState) : Prop where
  unblocked : w.blocked = false
  awake : Awake w
  noted : ∀ s, P s → Noted s s.pass w

section Steps

variable {capacity : ℕ} {P : Signal → Prop} {w : EventState}

theorem stable_drained : Stable (events capacity) Drained := fun _ _ hstep h =>
  ⟨(handler_blocked hstep).trans h.unblocked, fun s => handler_noted hstep (h.noted s)⟩

theorem stable_served (hcapacity : 0 < capacity) : Stable (events capacity) (Served P) := fun _ _ hstep h =>
  ⟨(handler_blocked hstep).trans h.unblocked, handler_awake hcapacity hstep h.awake,
    fun s hs => handler_noted hstep (h.noted s hs)⟩

/-- Only the log grows, by something that is not a delivery. -/
theorem Noted.logged {s : Signal} {l : List Event} (h : Noted s l w) {e : Event} (he : ∀ s, e ≠ .delivered s) :
    Noted s l { w with log := w.log ++ [e] } := by
  rcases h with h | h
  · exact .inl (h.append (he s))
  · exact .inr h

theorem Served.logged (h : Served P w) {e : Event} (he : ∀ s, e ≠ .delivered s) :
    Served P { w with log := w.log ++ [e] } :=
  ⟨h.unblocked, h.awake, fun s hs => (h.noted s hs).logged he⟩

/-- The calls that have nothing to do with events. -/
def Inert : ShellCall → Prop
  | .fflush | .write _ | .fprintf _ | .readStdin | .command _ | .resetInput => True
  | _ => False

/-- Programs of inert calls keep what holds. -/
theorem inert_safe {α : Type} (hcapacity : 0 < capacity) {p : ShellProg α} (hp : p.Only Inert) (h : Served P w) :
    Safe (events capacity) shellWatch (fun _ w => Served P w) p w := by
  refine Only.safe (stable_served hcapacity) (fun _ _ => trivial) ?_ ?_ hp h
  · intro c w hc _
    cases c with
    | select _ => exact hc.elim
    | _ => trivial
  · intro c w r w' hc hw hs
    cases c with
    | fflush => rw [show w' = w from hs.2]; exact hw
    | write _ => rw [show w' = w from hs.2]; exact hw
    | fprintf _ => rw [show w' = w from hs.2]; exact hw
    | readStdin => rw [show w' = w from hs.2]; exact hw
    | command _ => rw [show w' = w from hs.2]; exact hw
    | resetInput =>
      rw [show w' = { w with log := w.log ++ [.reset] } from hs.2]
      exact hw.logged fun s => Event.noConfusion
    | _ => exact hc.elim

theorem shellFlushStdout_inert : shellFlushStdout.Only Inert := by
  refine ⟨fun _ => ⟨trivial, fun r => ?_⟩, fun _ => trivial⟩
  dsimp only
  split_ifs <;> trivial

theorem shellWriteAll_inert (data : List Byte) : (shellWriteAll data).Only Inert := by
  refine ⟨fun written => ?_, fun _ => trivial⟩
  dsimp only
  by_cases hlt : written < data.length
  · rw [if_pos hlt]
    refine ⟨trivial, fun r => ?_⟩
    dsimp only
    split_ifs <;> trivial
  · rw [if_neg hlt]
    trivial

theorem shellPrompt_inert (prompt : Bool) (ctx : ShellState) : (shellPrompt prompt ctx).Only Inert := by
  unfold shellPrompt shellPrintPrompt
  dsimp only
  split_ifs
  · trivial
  · refine shellFlushStdout_inert.bind fun ret => ?_
    split_ifs
    · trivial
    · exact shellWriteAll_inert _
  · trivial

theorem shellDispatchInput_inert (ctx : ShellState) : (shellDispatchInput ctx).Only Inert := by
  refine Only.bind ⟨fun _ => ⟨trivial, fun r => ?_⟩, fun _ => trivial⟩ fun r => ⟨trivial, fun _ => trivial⟩
  cases r with
  | none => trivial
  | some r => trivial

theorem shellReadInput_inert (ctx : ShellState) : (shellReadInput ctx).Only Inert := by
  have hreset : ∀ eof : Bool, ((shellResetInput ctx).bind fun ctx => .ret ⟨0, true, eof, ctx⟩ :
      ShellProg InputResult).Only Inert := fun eof => ⟨trivial, fun _ => trivial⟩
  have hdispatch : ∀ eof : Bool, ((shellDispatchInput ctx).bind fun ctx => .ret ⟨0, true, eof, ctx⟩ :
      ShellProg InputResult).Only Inert := fun eof => (shellDispatchInput_inert ctx).bind fun _ => trivial
  refine ⟨trivial, fun r => ?_⟩
  dsimp only [ret_bind]
  split_ifs
  · trivial
  · trivial
  · exact hdispatch true
  · exact hreset true
  · exact hreset false
  · trivial
  · exact hdispatch false
  · trivial
  · exact ⟨trivial, fun _ => trivial⟩

/-- Reading the bytes. -/
theorem eventDrain_safe (h : Drained w) :
    Safe (events capacity) shellWatch (fun _ w => Drained w) eventDrain w := by
  have honly : eventDrain.Only fun c => c = .readEvent 64 := by
    refine ⟨fun _ => ⟨rfl, fun r => ?_⟩, fun _ => trivial⟩
    dsimp only
    split_ifs <;> trivial
  refine Only.safe stable_drained (fun _ _ => trivial) ?_ ?_ honly h
  · rintro c w rfl -
    trivial
  · rintro c w r w' rfl hw hs
    rcases hs.2 with ⟨-, -, rfl⟩ | ⟨-, -, -, rfl⟩ | ⟨-, -, rfl⟩
    · exact ⟨hw.unblocked, hw.noted⟩
    · exact hw
    · exact hw

/-- Taking the bits: what was not seen had been served. -/
theorem signalTakeEvents_safe (hcapacity : 0 < capacity) (h : Drained w) :
    Safe (events capacity) shellWatch (fun events w => Served (fun s => events &&& s.bit = 0) w)
      signalTakeEvents w := by
  refine Safe.call stable_drained (fun _ _ => ⟨trivial, trivial⟩) ?_ h
  rintro w r w₁ hw ⟨hidle, hret, hold, rfl⟩
  rw [if_neg (by rw [hret]; decide)]
  have hfrozen := @handler_frozen capacity { w with blocked := true } hidle rfl
  refine Safe.call hfrozen (fun _ _ => ⟨trivial, trivial⟩) ?_ rfl
  rintro _ taken w₂ rfl ⟨-, htaken, rfl⟩
  refine Safe.call hfrozen (fun _ _ => ⟨trivial, trivial⟩) ?_ rfl
  rintro _ _ w₃ rfl ⟨-, rfl⟩
  have hfrozen := @handler_frozen capacity { w with blocked := true, pending := SIGNAL_EVENT_NONE } hidle rfl
  refine Safe.call hfrozen (fun _ _ => ⟨trivial, trivial⟩) ?_ rfl
  rintro _ _ w₄ rfl ⟨-, -, rfl⟩
  refine Safe.ret (stable_served hcapacity) (fun w hw => ⟨trivial, hw⟩) ⟨?_, fun hp => absurd rfl hp, ?_⟩
  · rw [hold]
    exact hw.unblocked
  · intro s hs
    rcases hw.noted s with hlog | hbit | hentered
    · exact .inl hlog
    · rw [htaken] at hs
      exact absurd hs hbit
    · rw [hidle] at hentered
      cases hentered

/-- The pass over the job table, if a child was seen. -/
theorem reapChildren_safe (hcapacity : 0 < capacity) {taken : BitVec 32}
    (h : Served (fun s => taken &&& s.bit = 0) w) :
    Safe (events capacity) shellWatch (fun _ w => Served (fun s => s = .sigchld ∨ taken &&& s.bit = 0) w)
      (reapChildren taken) w := by
  have hstable := fun P => @stable_served capacity P hcapacity
  unfold reapChildren
  by_cases hchild : taken &&& SIGNAL_EVENT_CHILD ≠ 0
  · rw [if_pos hchild]
    refine Safe.call (hstable _) (fun _ _ => ⟨trivial, trivial⟩) ?_ h
    rintro w _ w₁ hw ⟨-, rfl⟩
    have hreap : Served (fun s => taken &&& s.bit = 0) { w with log := w.log ++ [.reap] } ∧
        Noted .sigchld [.reap] { w with log := w.log ++ [.reap] } :=
      ⟨hw.logged fun s => Event.noConfusion, .inl ((followedBy_nil _ _).next Event.noConfusion)⟩
    have hstable' : Stable (events capacity) fun w => Served (fun s => taken &&& s.bit = 0) w ∧
        Noted .sigchld [.reap] w := fun w w' hstep h => ⟨hstable _ w w' hstep h.1, handler_noted hstep h.2⟩
    refine Safe.call hstable' (fun _ _ => ⟨trivial, trivial⟩) ?_ hreap
    rintro w _ w₁ ⟨hw, hnoted⟩ ⟨-, rfl⟩
    have hw := hw.logged (e := .cleanup) fun s => Event.noConfusion
    refine Safe.ret (hstable _) (fun w hw => ⟨trivial, hw⟩) ⟨hw.unblocked, hw.awake, ?_⟩
    rintro s (rfl | hs)
    · rcases hnoted with hlog | hawaited
      · exact .inl (hlog.next Event.noConfusion)
      · exact .inr hawaited
    · exact hw.noted s hs
  · rw [if_neg hchild]
    have hzero : taken &&& SIGNAL_EVENT_CHILD = 0 := not_not.mp hchild
    refine Safe.ret (hstable _) (fun w hw => ⟨trivial, hw⟩) ⟨h.unblocked, h.awake, ?_⟩
    rintro s (rfl | hs)
    · exact h.noted _ hzero
    · exact h.noted s hs

/-- The reset of the input, if an interrupt was seen. -/
theorem interruptInput_safe (hcapacity : 0 < capacity) {taken : BitVec 32} (ctx : ShellState)
    (h : Served (fun s => s = .sigchld ∨ taken &&& s.bit = 0) w) :
    Safe (events capacity) shellWatch (fun _ w => Served (fun _ => True) w) (interruptInput taken ctx) w := by
  have hstable := fun P => @stable_served capacity P hcapacity
  unfold interruptInput
  by_cases hint : taken &&& SIGNAL_EVENT_INTERRUPT ≠ 0
  · rw [if_pos hint]
    refine Safe.call (hstable _) (fun _ _ => ⟨trivial, trivial⟩) ?_ h
    rintro w _ w₁ hw ⟨-, rfl⟩
    have hw := hw.logged (e := .reset) fun s => Event.noConfusion
    have hall : Served (fun _ => True) { w with log := w.log ++ [.reset] } := by
      refine ⟨hw.unblocked, hw.awake, fun s _ => ?_⟩
      cases s with
      | sigchld => exact hw.noted _ (.inl rfl)
      | sigint => exact .inl ((followedBy_nil _ _).next Event.noConfusion)
    refine inert_safe hcapacity ?_ hall
    refine shellFlushStdout_inert.bind fun ret => ?_
    split_ifs
    · trivial
    · refine (shellWriteAll_inert _).bind fun ret => ?_
      split_ifs <;> trivial
  · rw [if_neg hint]
    have hzero : taken &&& SIGNAL_EVENT_INTERRUPT = 0 := not_not.mp hint
    refine Safe.ret (hstable _) (fun w hw => ⟨trivial, hw⟩) ⟨h.unblocked, h.awake, fun s _ => ?_⟩
    cases s with
    | sigchld => exact h.noted _ (.inl rfl)
    | sigint => exact h.noted _ (.inr hzero)

theorem shellEvents_safe (hcapacity : 0 < capacity) (ready : Bool) (ctx : ShellState)
    (h : Served (fun _ => True) w) :
    Safe (events capacity) shellWatch (fun r w => r ≠ none → Served (fun _ => True) w) (shellEvents ready ctx) w := by
  unfold shellEvents
  by_cases hready : ready = true
  · rw [if_pos hready]
    have hdrained : Drained w := ⟨h.unblocked, fun s => h.noted s trivial⟩
    refine (eventDrain_safe hdrained).bind fun ret w hw _ => ?_
    by_cases hret : ret < 0
    · rw [if_pos hret]
      exact Safe.ret (P := fun _ => True) (fun _ _ _ h => h) (fun w _ => ⟨trivial, fun hne => absurd rfl hne⟩) trivial
    rw [if_neg hret]
    refine (signalTakeEvents_safe hcapacity hw).bind fun taken w hw _ => ?_
    refine (reapChildren_safe hcapacity hw).bind fun _ w hw _ => ?_
    exact (interruptInput_safe hcapacity ctx hw).weaken fun r w _ hw _ => hw
  · rw [if_neg hready]
    exact Safe.ret (stable_served hcapacity) (fun w hw => ⟨trivial, fun _ => hw⟩) h

/-- With nothing in the pipe, nothing is pending. -/
theorem Served.quiet (h : Served (fun _ => True) w) (hidle : w.handler = .idle) (hpipe : w.pipe = 0) :
    w.pending = SIGNAL_EVENT_NONE ∧ ∀ s : Signal, FollowedBy s s.pass w.log := by
  have hpending : w.pending = SIGNAL_EVENT_NONE := by
    by_contra hne
    rcases h.awake hne with hpos | hmarked
    · omega
    · rw [hidle] at hmarked
      cases hmarked
  refine ⟨hpending, fun s => ?_⟩
  rcases h.noted s trivial with hlog | hbit | hentered
  · exact hlog
  · rw [hpending] at hbit
    exact absurd BitVec.zero_and hbit
  · rw [hidle] at hentered
    cases hentered

/-- One turn of the loop. -/
theorem shellTurn_safe (hcapacity : 0 < capacity) (eventFd : ℤ) (s : Bool × ShellState)
    (h : Served (fun _ => True) w) :
    Safe (events capacity) shellWatch (fun x w => match x with
      | .inl _ => Served (fun _ => True) w
      | .inr _ => True) (shellTurn eventFd s) w := by
  have hstable := @stable_served capacity (fun _ => True) hcapacity
  have hleave : ∀ (r : ShellStatus × ShellState) w, Safe (events capacity) shellWatch (fun x w => match x with
      | .inl _ => Served (fun _ => True) w
      | .inr _ => True) (.ret (.inr r) : ShellProg ((Bool × ShellState) ⊕ _)) w := fun r w =>
    Safe.ret (P := fun _ => True) (fun _ _ _ h => h) (fun _ _ => ⟨trivial, trivial⟩) trivial
  have hagain : ∀ (s : Bool × ShellState) w, Served (fun _ => True) w →
      Safe (events capacity) shellWatch (fun x w => match x with
        | .inl _ => Served (fun _ => True) w
        | .inr _ => True) (.ret (.inl s) : ShellProg (_ ⊕ (ShellStatus × ShellState))) w := fun s w hw =>
    Safe.ret hstable (fun w hw => ⟨trivial, hw⟩) hw
  unfold shellTurn
  by_cases hrunning : (!s.2.running) = true
  · rw [if_pos hrunning]
    exact hleave _ _
  rw [if_neg hrunning]
  refine (inert_safe hcapacity (shellPrompt_inert s.1 s.2) h).bind fun ret w hw _ => ?_
  by_cases hret : ret < 0
  · rw [if_pos hret]
    exact hleave _ _
  rw [if_neg hret]
  refine Safe.call hstable (fun w hw => ⟨trivial, hw.quiet⟩) ?_ hw
  rintro w r w₁ hw ⟨-, hs⟩
  obtain rfl : w₁ = w := hs.1
  by_cases hselect : r.ret < 0
  · rw [if_pos hselect]
    by_cases hintr : r.errno = EINTR
    · rw [if_pos hintr]
      exact hagain _ _ hw
    · rw [if_neg hintr]
      exact hleave _ _
  rw [if_neg hselect]
  refine (shellEvents_safe hcapacity r.eventReady s.2 hw).bind fun e w hw _ => ?_
  cases e with
  | none => exact hleave _ _
  | some e =>
    have hw : Served (fun _ => True) w := hw (Option.some_ne_none e)
    unfold shellInput
    by_cases hstop : (!e.2.running) = true
    · simp only [if_pos hstop]
      exact hleave _ _
    simp only [if_neg hstop]
    by_cases hstdin : r.stdinReady = true
    · rw [if_pos hstdin]
      refine (inert_safe hcapacity (shellReadInput_inert e.2) hw).bind fun i w hw _ => ?_
      split_ifs
      · exact hleave _ _
      · exact hleave _ _
      · exact hagain _ _ hw
    · rw [if_neg hstdin]
      exact hagain _ _ hw

end Steps

/-- Whenever the shell waits in `select` with the event pipe empty, no event is
pending and every signal delivered so far was served, however the deliveries
fall between the steps and however small the pipe is. -/
theorem no_lost_wakeup (capacity : {n : ℕ // 0 < n}) (eventFd : ℤ) (ctx : ShellState) :
    Safe (events capacity) shellWatch (fun _ _ => True) (shellRun eventFd ctx) signalInit := by
  have hinit : Served (fun _ => True) signalInit := by
    refine ⟨rfl, fun hp => absurd rfl hp, fun s _ => .inl fun before after heq => ?_⟩
    exact absurd (congrArg List.length heq) (by simp [signalInit])
  have hleave : ∀ r w, Safe (events capacity) shellWatch (fun _ _ => True)
      (.ret r : ShellProg (ShellStatus × ShellState)) w := fun r w =>
    Safe.ret (P := fun _ => True) (fun _ _ _ h => h) (fun _ _ => ⟨trivial, trivial⟩) trivial
  unfold shellRun
  split_ifs
  · exact hleave _ _
  · exact hleave _ _
  · refine Safe.loop (I := fun _ w => Served (fun _ => True) w) (fun _ => stable_served capacity.2)
      (fun _ _ _ => trivial) (fun s w hw => ?_) hinit
    refine (shellTurn_safe capacity.2 eventFd s hw).weaken fun x w _ hx => ?_
    cases x with
    | inl s => exact hx
    | inr r => exact hleave r w

end DeviceRuntime
