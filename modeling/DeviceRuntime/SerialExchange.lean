/-
# Acknowledged means executed

The host's requests and the firmware on the two ends of a pair of byte links.
The host runs `uartProtocolRequest` on the serial backend, one request after
the other; what `write` accepts travels to the firmware byte by byte, what the
firmware sends travels to the host's input queue, each link in its own time.
A request may end at any point of its packet, so the firmware may hold the
beginnings of several requests when the next one is written.

Every byte on its way to the firmware is marked with the number of the request
that wrote it, and a log notes the requests and the bytes fed. `Linked` says
what holds of links, firmware and log in every run: each line feed on its way
follows the whole request of its writer. No request follows other bytes on a
line that is a request itself (`prefix_nil_of_parseRequest`), so a torn line
is refused and leaves the LED alone.

Where the recovery rule is kept, a request starts on empty links. `Answering`
follows it from there: nothing reaches the host but the one answer to its own
line feed.

Key definitions: `Exchange`, `exchange`, `host`, `Linked`, `Answering`,
`LedRule`.
Key theorems: `Linked.feed`, `request_safe`, `acknowledged_executed`.
-/
import DeviceRuntime.Lib.Safe
import DeviceRuntime.RequestLine
import DeviceRuntime.SerialPort

namespace DeviceRuntime

open Prog

/-- A request as the host makes it: on the device as it holds it then. -/
structure Issue where
  device : Device
  request : List Byte
  reply : List Byte
  size : ℕ
  timeoutMs : ℤ
deriving DecidableEq, Repr

inductive HostCall
  | issue
  | serial (c : SerialCall)
  | returned (request : List Byte) (result : RequestResult)

abbrev HostCall.Ret : HostCall → Type
  | .issue => Issue
  | .serial c => c.Ret
  | .returned _ _ => Unit

abbrev HostProg := Prog HostCall HostCall.Ret

/-- The device layer on the serial backend. -/
def onSerial {α : Type} (p : SerialProg α) : HostProg α := p.link fun c => .call (.serial c) .ret

def onBackend {α : Type} (p : DeviceProg α) : HostProg α := p.link fun c => onSerial (uartBackend c)

/-- Request after request, for ever. -/
def host : HostProg Empty :=
  .iter (fun _ : Unit => .call .issue fun i =>
    (onBackend (uartProtocolRequest i.device i.request i.reply i.size i.timeoutMs)).bind fun r =>
      .call (.returned i.request r) fun _ => .ret (.inl ())) ()

/-- A byte fed to the firmware: who wrote it, the state it was fed in, what was
sent on it, and the LED before and after. -/
structure Fed where
  byte : Byte
  writer : ℕ
  before : Stm32UartProtocol
  sent : List (List Byte)
  led : Bool
  led' : Bool

inductive LineEvent
  | issued (request : List Byte)
  | fed (f : Fed)

/-- The two ends and what is between them; the log has the newest event first. -/
structure Exchange (σ : Type) where
  toFirmware : List (Byte × ℕ)
  toHost : List Byte
  queue : List Byte
  firmware : Stm32UartProtocol
  board : σ
  log : List LineEvent

/-! ### Reading the log -/

/-- The requests made so far, oldest first. -/
def requests : List LineEvent → List (List Byte)
  | [] => []
  | .issued r :: log => requests log ++ [r]
  | .fed _ :: log => requests log

/-- The bytes fed since the last line feed, with their writers. -/
def openLine : List LineEvent → List (Byte × ℕ)
  | [] => []
  | .issued _ :: log => openLine log
  | .fed f :: log => if f.byte = LF then [] else openLine log ++ [(f.byte, f.writer)]

/-- The line feeds since the last request started, newest first: the line
handled (`none` where it was being discarded) and what was sent. -/
def handlings : List LineEvent → List (Option (List Byte) × List (List Byte))
  | [] => []
  | .issued _ :: _ => []
  | .fed f :: log =>
    if f.byte = LF then (if f.before.discarding then none else some f.before.line, f.sent) :: handlings log
    else handlings log

/-- The LED, as the log has it. -/
def lastLed (led : Bool) : List LineEvent → Bool
  | [] => led
  | .issued _ :: log => lastLed led log
  | .fed f :: _ => f.led'

/-- Bytes that request `k` wrote. -/
def packet (k : ℕ) (r : List Byte) : List (Byte × ℕ) := r.map (·, k)

section Exchange

variable {σ : Type} (B : WorkingBoard σ)

/-- The firmware takes the next byte. -/
def Exchange.feed (w : Exchange σ) (x : Byte × ℕ) (rest : List (Byte × ℕ)) : Exchange σ :=
  let r := stm32UartProtocolFeed B.traced.toStm32UartCallbacks w.firmware x.1 (w.board, [])
  { w with
    toFirmware := rest
    toHost := w.toHost ++ (sends r.2.2.2).flatten
    firmware := r.2.1
    board := r.2.2.1
    log := .fed ⟨x.1, x.2, w.firmware, sends r.2.2.2, B.led w.board, B.led r.2.2.1⟩ :: w.log }

/-- The number of the request that is running. -/
def Exchange.current (w : Exchange σ) : ℕ := (requests w.log).length - 1

/-- The system calls of the host. A write puts a prefix on the link, a read
takes from the queue, the input flush empties the queue; the clock and `poll`
say what they like, and any of them may fail. `rule`: a request starts on
empty links. -/
def exchangeSem (rule : Prop) : Exchange σ → (o : HostCall) → HostCall.Ret o → Exchange σ → Prop
  | w, .issue, i, w' => (rule → w.toFirmware = [] ∧ w.toHost = []) ∧
    w' = { w with log := .issued i.request :: w.log }
  | w, .serial (.write _ data), r, w' => (r.ret < 0 ∧ w' = w) ∨
    ∃ n ≤ data.length, r.ret = n ∧
      w' = { w with toFirmware := w.toFirmware ++ packet w.current (data.take n) }
  | w, .serial (.read _ size), r, w' => (r.1.ret ≤ 0 ∧ w' = w) ∨
    ∃ n ≤ size, 0 < n ∧ n ≤ w.queue.length ∧ r.1.ret = n ∧ r.2 = w.queue.take n ∧
      w' = { w with queue := w.queue.drop n }
  | w, .serial (.tcflush _ _), r, w' => (r.ret < 0 ∧ w' = w) ∨
    (r.ret = 0 ∧ w' = { w with queue := [] })
  | w, _, _, w' => w' = w

/-- The firmware takes a byte, or a byte reaches the host's queue. -/
def exchangeEnv (w w' : Exchange σ) : Prop :=
  (∃ x rest, w.toFirmware = x :: rest ∧ w' = w.feed B x rest) ∨
  (∃ b rest, w.toHost = b :: rest ∧ w' = { w with toHost := rest, queue := w.queue ++ [b] })

abbrev exchange (rule : Prop) : World HostCall HostCall.Ret (Exchange σ) :=
  ⟨exchangeSem rule, exchangeEnv B⟩

end Exchange

/-! ### What is to be shown -/

/-- A byte that changes the LED ends a line that is a whole `LED ON` or
`LED OFF` of one request, and nothing else stands on that line. -/
def LedChange (f : Fed) (log : List LineEvent) : Prop :=
  f.led' ≠ f.led → f.byte = LF ∧ f.before.discarding = false ∧
    (f.before.line = text "LED ON" ∨ f.before.line = text "LED OFF") ∧
    (requests log)[f.writer]? = some f.before.line ∧
    openLine log = f.before.line.map (·, f.writer)

/-- Every change of the LED is in the log, and as `LedChange` wants it. -/
def LedRule (led₀ led : Bool) (log : List LineEvent) : Prop :=
  led = lastLed led₀ log ∧
    ∀ f older, (.fed f :: older) <:+ log → f.led = lastLed led₀ older ∧ LedChange f older

/-- The run so far keeps the LED rule; and where a request starts on empty
links, one that returns 0 was handled, once, and has that handling's answer. -/
def exchangeWatch {σ : Type} (B : WorkingBoard σ) (led₀ : Bool) (rule : Prop) : Watch HostCall (Exchange σ) where
  always w := LedRule led₀ (B.led w.board) w.log
  atCall o w := match o with
    | .returned request result => (requests w.log).getLast? = some request ∧
      (rule → result.ret = 0 → handlings w.log = [(some request, [result.reply ++ [LF]])])
    | _ => True

/-! ### What is on the line -/

/-- Each line feed follows the whole request of its writer. -/
def Stream (reqs : List (List Byte)) (l : List (Byte × ℕ)) : Prop :=
  ∀ a k b, l = a ++ (LF, k) :: b →
    ∃ a' r, reqs[k]? = some r ∧ (parseRequest r).isSome = true ∧ a = a' ++ packet k r

theorem packet_append (k : ℕ) (r s : List Byte) : packet k (r ++ s) = packet k r ++ packet k s :=
  List.map_append

theorem map_fst_packet (k : ℕ) (r : List Byte) : (packet k r).map Prod.fst = r := by
  unfold packet
  rw [List.map_map]
  exact List.map_id r

/-- No line feed in what is printable. -/
theorem ne_LF_of_printable {b : Byte} (h : printable b = true) : b ≠ LF := by
  rintro rfl
  exact absurd h (by decide)

theorem packet_ne_LF {k : ℕ} {r : List Byte} (h : ∀ c ∈ r, printable c = true) :
    ∀ x ∈ packet k r, x.1 ≠ LF := by
  intro x hx
  obtain ⟨c, hc, rfl⟩ := List.mem_map.mp hx
  exact ne_LF_of_printable (h c hc)

/-- Where the first line feed after a piece without one is. -/
theorem append_eq_LF {p l a b : List (Byte × ℕ)} {k : ℕ} (hp : ∀ x ∈ p, x.1 ≠ LF)
    (h : l ++ p = a ++ (LF, k) :: b) : ∃ b', l = a ++ (LF, k) :: b' ∧ b = b' ++ p := by
  rcases List.append_eq_append_iff.mp h with ⟨a', rfl, hp'⟩ | ⟨c', rfl, hb⟩
  · have hmem : (LF, k) ∈ p := by
      rw [hp']
      exact List.mem_append_right _ List.mem_cons_self
    exact absurd rfl (hp _ hmem)
  · cases c' with
    | nil =>
      have hmem : (LF, k) ∈ p := by
        rw [List.nil_append] at hb
        rw [← hb]
        exact List.mem_cons_self
      exact absurd rfl (hp _ hmem)
    | cons x c' =>
      rw [List.cons_append, List.cons.injEq] at hb
      obtain ⟨rfl, rfl⟩ := hb
      exact ⟨c', rfl, rfl⟩

theorem Stream.append {reqs : List (List Byte)} {l p : List (Byte × ℕ)} (h : Stream reqs l)
    (hp : ∀ x ∈ p, x.1 ≠ LF) : Stream reqs (l ++ p) := by
  intro a k b heq
  obtain ⟨b', hl, -⟩ := append_eq_LF hp heq
  exact h a k b' hl

theorem Stream.left {reqs : List (List Byte)} {l p : List (Byte × ℕ)} (h : Stream reqs (l ++ p)) :
    Stream reqs l := by
  intro a k b heq
  refine h a k (b ++ p) ?_
  rw [heq, List.append_assoc, List.cons_append]

/-- A line is complete: the next bytes start the next one. -/
theorem Stream.right {reqs : List (List Byte)} {l rest : List (Byte × ℕ)} {j : ℕ}
    (h : Stream reqs (l ++ (LF, j) :: rest)) : Stream reqs rest := by
  intro a k b heq
  obtain ⟨a', r, hk, hr, ha⟩ := h (l ++ (LF, j) :: a) k b (by rw [heq]; simp)
  obtain ⟨q, hq⟩ := Option.isSome_iff_exists.mp hr
  obtain ⟨b', -, hb'⟩ := append_eq_LF (packet_ne_LF (printable_of_parseRequest hq)) ha.symm
  exact ⟨b', r, hk, hr, hb'⟩

theorem Stream.requests {reqs : List (List Byte)} {l : List (Byte × ℕ)} (h : Stream reqs l)
    (r : List Byte) : Stream (reqs ++ [r]) l := by
  intro a k b heq
  obtain ⟨a', r', hk, hr, ha⟩ := h a k b heq
  refine ⟨a', r', ?_, hr, ha⟩
  rw [List.getElem?_append_left (List.getElem?_eq_some_iff.mp hk).1]
  exact hk

/-- The last byte is the one looked at, or comes after it. -/
theorem append_singleton_eq {l a b : List (Byte × ℕ)} {x y : Byte × ℕ} (h : l ++ [x] = a ++ y :: b) :
    (b = [] ∧ y = x ∧ a = l) ∨ ∃ b', b = b' ++ [x] ∧ l = a ++ y :: b' := by
  rcases List.eq_nil_or_concat b with rfl | ⟨b', z, rfl⟩
  · obtain ⟨rfl, hx⟩ := List.append_inj' h rfl
    rw [List.cons.injEq] at hx
    exact .inl ⟨rfl, hx.1.symm, rfl⟩
  · rw [List.concat_eq_append, ← List.cons_append, ← List.append_assoc] at h
    obtain ⟨rfl, hz⟩ := List.append_inj' h rfl
    rw [List.cons.injEq] at hz
    exact .inr ⟨b', by rw [List.concat_eq_append, hz.1], rfl⟩

/-- The line feed that ends a request. -/
theorem Stream.LF {reqs : List (List Byte)} {a : List (Byte × ℕ)} {r : List Byte} {k : ℕ}
    (h : Stream reqs a) (hk : reqs[k]? = some r) (hr : (parseRequest r).isSome = true) :
    Stream reqs (a ++ packet k r ++ [(DeviceRuntime.LF, k)]) := by
  intro a' j b heq
  obtain ⟨q, hq⟩ := Option.isSome_iff_exists.mp hr
  rcases append_singleton_eq heq with ⟨-, hjk, ha⟩ | ⟨b', -, hl⟩
  · obtain rfl : j = k := congrArg Prod.snd hjk
    exact ⟨a, r, hk, hr, ha⟩
  · obtain ⟨b'', hb'', -⟩ := append_eq_LF (packet_ne_LF (printable_of_parseRequest hq)) hl
    exact h a' j b'' hb''

/-! ### What holds in every run -/

section Linked

variable {σ : Type} (B : WorkingBoard σ)

/-- The firmware holds the open line, which is printable, and the streams and
the LED are as they should be. -/
structure Linked (led₀ : Bool) (w : Exchange σ) : Prop where
  firmware : w.firmware = lineState ((openLine w.log).map Prod.fst)
  printable : ∀ x ∈ openLine w.log, printable x.1 = true
  flight : ∀ x ∈ w.toFirmware, DeviceRuntime.printable x.1 = true ∨ x.1 = LF
  stream : Stream (requests w.log) (openLine w.log ++ w.toFirmware)
  led : LedRule led₀ (B.led w.board) w.log

variable {B} {led₀ : Bool} {w : Exchange σ} {k : ℕ} {rest : List (Byte × ℕ)}

theorem LedRule.fed {led led' : Bool} {log : List LineEvent} (h : LedRule led₀ led log) {f : Fed}
    (hled : f.led = led) (hled' : f.led' = led') (hf : LedChange f log) :
    LedRule led₀ led' (.fed f :: log) := by
  refine ⟨hled'.symm, fun g older hg => ?_⟩
  rcases List.suffix_cons_iff.mp hg with heq | hsuf
  · rw [List.cons.injEq, LineEvent.fed.injEq] at heq
    obtain ⟨rfl, rfl⟩ := heq
    exact ⟨hled.trans h.1, hf⟩
  · exact h.2 g older hsuf

theorem LedRule.issued {led : Bool} {log : List LineEvent} (h : LedRule led₀ led log) {r : List Byte} :
    LedRule led₀ led (.issued r :: log) := by
  refine ⟨h.1, fun f older hf => ?_⟩
  rcases List.suffix_cons_iff.mp hf with heq | hsuf
  · cases heq
  · exact h.2 f older hsuf

/-- A printable byte is added to the open line, and nothing else happens. -/
theorem feed_printable_eq (h : Linked B led₀ w) {b : Byte} (hb : printable b = true) :
    w.feed B (b, k) rest = { w with
      toFirmware := rest
      firmware := lineState ((openLine w.log).map Prod.fst ++ [b])
      log := .fed ⟨b, k, w.firmware, [], B.led w.board, B.led w.board⟩ :: w.log } := by
  unfold Exchange.feed
  rw [h.firmware, feed_printable _ _ _ _ hb]
  simp [sends]

/-- A line feed has one line sent, the answer to the open line. -/
theorem feed_LF_eq (h : Linked B led₀ w) (k : ℕ) (rest : List (Byte × ℕ)) : ∃ reply s',
    w.feed B (LF, k) rest = { w with
      toFirmware := rest
      toHost := w.toHost ++ (reply ++ [LF])
      firmware := lineState []
      board := s'
      log := .fed ⟨LF, k, w.firmware, [reply ++ [LF]], B.led w.board, B.led s'⟩ :: w.log } ∧
    Answered (B.led w.board) (B.uptime w.board) ((openLine w.log).map Prod.fst) reply (B.led s') := by
  obtain ⟨ret, reply, s', calls, hfeed, hsends, hans⟩ :=
    feed_line B ((openLine w.log).map Prod.fst) w.board []
  refine ⟨reply, s', ?_, hans⟩
  unfold Exchange.feed
  rw [h.firmware, hfeed]
  simp only [hsends, show sends [] = [] from rfl, List.nil_append, List.flatten_cons, List.flatten_nil,
    List.append_nil]
  rfl

/-- What the answer says of the line: the refusal of any line, or the whole
request of the writer of the line feed. -/
theorem Linked.answered (h : Linked B led₀ w) (hw : w.toFirmware = (LF, k) :: rest) {uptime : UInt32}
    {led led' : Bool} {reply : List Byte}
    (ha : Answered led uptime ((openLine w.log).map Prod.fst) reply led') :
    (reply ∈ errLines ∧ led' = led) ∨
    ∃ r q n, parseRequest r = some (q, n) ∧ r.length ≤ 127 ∧ (requests w.log)[k]? = some r ∧
      openLine w.log = packet k r ∧ reply = expectedReply led uptime n q ∧ led' = ledAfter led q := by
  have hs := h.stream
  rw [hw] at hs
  obtain ⟨a, r, hk, hr, hline⟩ := hs _ k rest rfl
  obtain ⟨x, hx⟩ := Option.isSome_iff_exists.mp hr
  unfold Answered at ha
  rw [hline, List.map_append, map_fst_packet] at ha
  by_cases hlen : (a.map Prod.fst ++ r).length ≤ 127
  · rw [if_pos hlen] at ha
    cases hp : parseRequest (a.map Prod.fst ++ r) with
    | none =>
      rw [hp] at ha
      exact .inl ha
    | some y =>
      obtain ⟨q, n⟩ := y
      rw [hp] at ha
      have hnil := List.map_eq_nil_iff.mp (prefix_nil_of_parseRequest hx hp)
      rw [hnil, List.map_nil, List.nil_append] at hp hlen
      rw [hnil, List.nil_append] at hline
      exact .inr ⟨r, q, n, hp, hlen, hk, hline, ha⟩
  · rw [if_neg hlen] at ha
    exact .inl ha

/-- The step of the firmware. -/
theorem Linked.feed (h : Linked B led₀ w) {x : Byte × ℕ} (hw : w.toFirmware = x :: rest) :
    Linked B led₀ (w.feed B x rest) := by
  obtain ⟨b, k⟩ := x
  have hflight : ∀ x ∈ rest, DeviceRuntime.printable x.1 = true ∨ x.1 = LF := fun x hx =>
    h.flight x (by rw [hw]; exact List.mem_cons_of_mem _ hx)
  rcases h.flight (b, k) (by rw [hw]; exact List.mem_cons_self) with hb | hb
  · have hne : b ≠ LF := ne_LF_of_printable hb
    rw [feed_printable_eq h hb]
    refine ⟨?_, ?_, hflight, ?_, h.led.fed rfl rfl fun hne => absurd rfl hne⟩
    · simp only [openLine, if_neg hne, List.map_append, List.map_cons, List.map_nil]
    · intro x hx
      simp only [openLine, if_neg hne, List.mem_append, List.mem_singleton] at hx
      rcases hx with hx | rfl
      · exact h.printable x hx
      · exact hb
    · have hs := h.stream
      rw [hw] at hs
      simpa only [openLine, requests, if_neg hne, List.append_assoc, List.singleton_append] using hs
  · obtain rfl : b = LF := hb
    obtain ⟨reply, s', heq, hans⟩ := feed_LF_eq h k rest
    rw [heq]
    have hs := h.stream
    rw [hw] at hs
    have hopen : openLine (.fed ⟨LF, k, w.firmware, [reply ++ [LF]], B.led w.board, B.led s'⟩ :: w.log) = [] :=
      if_pos rfl
    refine ⟨?_, ?_, hflight, ?_, h.led.fed rfl rfl fun hne => ?_⟩
    · rw [hopen]
      rfl
    · rw [hopen]
      exact fun x hx => absurd hx List.not_mem_nil
    · rw [hopen]
      exact hs.right
    · rcases h.answered hw hans with ⟨-, hsame⟩ | ⟨r, q, n, hr, hlen, hk, hline, -, hled⟩
      · exact absurd hsame hne
      · have hbefore : w.firmware = ⟨r, false, false, false⟩ := by
          rw [h.firmware, hline, map_fst_packet, lineState, if_pos hlen]
        refine ⟨rfl, by rw [hbefore], ?_, by rw [hbefore]; exact hk, by rw [hbefore]; exact hline⟩
        rw [hbefore]
        rcases parseRequest_eq_some hr with ⟨-, rfl, -⟩ | ⟨-, rfl, -⟩ | ⟨h, -⟩ | ⟨h, -⟩ | ⟨ds, -, rfl, -⟩
        · exact absurd hled hne
        · exact absurd hled hne
        · exact .inl h
        · exact .inr h
        · exact absurd hled hne

/-- Linked, and `r` is the request that runs. -/
structure Running (B : WorkingBoard σ) (led₀ : Bool) (r : List Byte) (w : Exchange σ) : Prop
    extends Linked B led₀ w where
  current : (requests w.log).getLast? = some r

theorem Running.index {r : List Byte} (h : Running B led₀ r w) :
    (requests w.log)[w.current]? = some r := by
  rw [Exchange.current, ← List.getLast?_eq_getElem?]
  exact h.current

/-- Nothing has come of the request yet. -/
structure Quiet (w : Exchange σ) : Prop where
  noLF : ∀ x ∈ openLine w.log ++ w.toFirmware, x.1 ≠ LF
  handlings : DeviceRuntime.handlings w.log = []
  toHost : w.toHost = []
  queue : w.queue = []

/-- The host has read `got` since it wrote `r`: nothing as long as the one
line feed is on its way, and of the one answer once it was fed. -/
def Answering (r got : List Byte) (w : Exchange σ) : Prop :=
  (handlings w.log = [] ∧ got ++ w.queue ++ w.toHost = [] ∧
    ∀ a j b, openLine w.log ++ w.toFirmware = a ++ (LF, j) :: b → j = w.current ∧ b = []) ∨
  ∃ handled reply, handlings w.log = [(handled, [reply ++ [LF]])] ∧
    (reply ∈ errLines ∨ handled = some r) ∧ (∀ c ∈ reply, printable c = true) ∧
    got ++ w.queue ++ w.toHost = reply ++ [LF] ∧ openLine w.log ++ w.toFirmware = []

/-- The request is made, nothing is written. -/
structure Issued (B : WorkingBoard σ) (led₀ : Bool) (rule : Prop) (r : List Byte) (w : Exchange σ) : Prop
    extends Running B led₀ r w where
  empty : rule → w.toFirmware = [] ∧ w.toHost = [] ∧ handlings w.log = []

/-- `total` bytes of the packet are written. -/
structure Writing (B : WorkingBoard σ) (led₀ : Bool) (rule : Prop) (r : List Byte) (total : ℕ)
    (w : Exchange σ) : Prop extends Running B led₀ r w where
  part : total ≤ r.length → ∃ a,
    openLine w.log ++ w.toFirmware = a ++ packet w.current (r.take total) ∧ (rule → Quiet w)
  whole : r.length < total → rule → Answering r [] w

/-- The packet is written and `got` is read. -/
structure Reading (B : WorkingBoard σ) (led₀ : Bool) (rule : Prop) (r got : List Byte)
    (w : Exchange σ) : Prop extends Running B led₀ r w where
  answering : rule → Answering r got w

theorem errLines_printable {e : List Byte} (h : e ∈ errLines) : ∀ c ∈ e, printable c = true := by
  simp only [errLines, List.mem_cons, List.not_mem_nil, or_false] at h
  rcases h with rfl | rfl | rfl | rfl <;> exact printable_of_all (by decide)

/-! ### The steps of the others -/

theorem current_feed (x : Byte × ℕ) (w : Exchange σ) : (w.feed B x rest).current = w.current := rfl

theorem Running.feed {r : List Byte} (h : Running B led₀ r w) {x : Byte × ℕ}
    (hw : w.toFirmware = x :: rest) : Running B led₀ r (w.feed B x rest) :=
  ⟨h.toLinked.feed hw, h.current⟩

theorem Linked.deliver (h : Linked B led₀ w) (toHost queue : List Byte) :
    Linked B led₀ { w with toHost := toHost, queue := queue } :=
  ⟨h.firmware, h.printable, h.flight, h.stream, h.led⟩

/-- What is on the line while the line feed is not fed. -/
theorem line_feed_printable (h : Linked B led₀ w) {b : Byte} (hw : w.toFirmware = (b, k) :: rest)
    (hb : b ≠ LF) : openLine (w.feed B (b, k) rest).log ++ (w.feed B (b, k) rest).toFirmware =
      openLine w.log ++ w.toFirmware ∧ handlings (w.feed B (b, k) rest).log = handlings w.log ∧
      (w.feed B (b, k) rest).toHost = w.toHost ∧ (w.feed B (b, k) rest).queue = w.queue := by
  have hp := (h.flight (b, k) (by rw [hw]; exact List.mem_cons_self)).resolve_right hb
  rw [feed_printable_eq h hp, hw]
  simp only [openLine, handlings, if_neg hb, List.append_assoc, List.singleton_append, true_and]

theorem Quiet.feed (hl : Linked B led₀ w) (h : Quiet w) {x : Byte × ℕ} (hw : w.toFirmware = x :: rest) :
    Quiet (w.feed B x rest) ∧ openLine (w.feed B x rest).log ++ (w.feed B x rest).toFirmware =
      openLine w.log ++ w.toFirmware := by
  have hb : x.1 ≠ LF := h.noLF x (by rw [hw]; exact List.mem_append_right _ List.mem_cons_self)
  obtain ⟨h1, h2, h3, h4⟩ := line_feed_printable hl hw hb
  exact ⟨⟨by rw [h1]; exact h.noLF, h2.trans h.handlings, h3.trans h.toHost, h4.trans h.queue⟩, h1⟩

theorem Answering.feed {r got : List Byte} (hr : Running B led₀ r w) (h : Answering r got w)
    {x : Byte × ℕ} (hw : w.toFirmware = x :: rest) : Answering r got (w.feed B x rest) := by
  obtain ⟨b, k⟩ := x
  by_cases hb : b = LF
  · subst hb
    rcases h with ⟨hnone, hempty, hlast⟩ | ⟨handled, reply, -, -, -, -, hline⟩
    · right
      obtain ⟨rfl, rfl⟩ := hlast (openLine w.log) k rest (by rw [hw])
      obtain ⟨reply, s', heq, hans⟩ := feed_LF_eq hr.toLinked w.current []
      obtain ⟨hgq, hhost⟩ := List.append_eq_nil_iff.mp hempty
      obtain ⟨hgot, hqueue⟩ := List.append_eq_nil_iff.mp hgq
      have hanswer : (reply ∈ errLines ∨ openLine w.log = packet w.current r ∧ r.length ≤ 127) ∧
          ∀ c ∈ reply, printable c = true := by
        rcases hr.toLinked.answered hw hans with ⟨herr, -⟩ | ⟨r', q, n, -, hlen, hk, hline, rfl, -⟩
        · exact ⟨.inl herr, errLines_printable herr⟩
        · obtain rfl : r' = r := Option.some.inj (hk.symm.trans hr.index)
          exact ⟨.inr ⟨hline, hlen⟩, printable_expectedReply _ _ _ _⟩
      rw [heq]
      refine ⟨if w.firmware.discarding then none else some w.firmware.line, reply, ?_, ?_, hanswer.2,
        ?_, ?_⟩
      · simp only [handlings, if_true, hnone]
      · rcases hanswer.1 with herr | ⟨hline, hlen⟩
        · exact .inl herr
        · right
          rw [hr.firmware, hline, map_fst_packet, lineState, if_pos hlen]
          rfl
      · simp only [hgot, hqueue, hhost, List.nil_append]
      · simp only [openLine, if_true, List.nil_append]
    · rw [hw] at hline
      simp at hline
  · obtain ⟨h1, h2, h3, h4⟩ := line_feed_printable hr.toLinked hw hb
    unfold Answering
    rw [h1, h2, h3, h4, current_feed]
    exact h

theorem Answering.deliver {r got : List Byte} (h : Answering r got w) {b : Byte} {rest : List Byte}
    (hw : w.toHost = b :: rest) :
    Answering r got { w with toHost := rest, queue := w.queue ++ [b] } := by
  have hsame : got ++ (w.queue ++ [b]) ++ rest = got ++ w.queue ++ w.toHost := by
    rw [hw]
    simp only [List.append_assoc, List.singleton_append]
  unfold Answering
  rw [hsame]
  exact h

end Linked

section Stable

variable {σ : Type} (B : WorkingBoard σ) (led₀ : Bool) (rule : Prop) (r : List Byte)

theorem stable_linked : Stable (exchange B rule) (Linked B led₀) := by
  intro w w' he h
  rcases he with ⟨x, rest, hw, rfl⟩ | ⟨b, rest, hw, rfl⟩
  · exact h.feed hw
  · exact h.deliver _ _

theorem stable_running : Stable (exchange B rule) (Running B led₀ r) := by
  intro w w' he h
  rcases he with ⟨x, rest, hw, rfl⟩ | ⟨b, rest, hw, rfl⟩
  · exact h.feed hw
  · exact ⟨h.toLinked.deliver _ _, h.current⟩

theorem stable_issued : Stable (exchange B rule) (Issued B led₀ rule r) := by
  intro w w' he h
  refine ⟨stable_running B led₀ rule r w w' he h.toRunning, fun hrule => ?_⟩
  -- nothing is on the links, so nobody can move
  obtain ⟨h1, h2, -⟩ := h.empty hrule
  rcases he with ⟨x, rest, hw, -⟩ | ⟨b, rest, hw, -⟩
  · rw [h1] at hw
    cases hw
  · rw [h2] at hw
    cases hw

theorem stable_writing (hr : ∀ c ∈ r, printable c = true) (total : ℕ) :
    Stable (exchange B rule) (Writing B led₀ rule r total) := by
  intro w w' he h
  have hrun := stable_running B led₀ rule r w w' he h.toRunning
  rcases he with ⟨x, rest, hw, rfl⟩ | ⟨b, rest, hw, rfl⟩
  · refine ⟨hrun, fun ht => ?_, fun ht hrule => (h.whole ht hrule).feed h.toRunning hw⟩
    obtain ⟨a, ha, hquiet⟩ := h.part ht
    by_cases hx : x.1 = LF
    · -- the end of an older line: the packet is behind it
      obtain ⟨b, k⟩ := x
      obtain rfl : b = LF := hx
      have hp : ∀ x ∈ packet w.current (r.take total), x.1 ≠ LF :=
        packet_ne_LF fun c hc => hr c (List.mem_of_mem_take hc)
      rw [hw] at ha
      obtain ⟨b', -, hb'⟩ := append_eq_LF hp ha.symm
      obtain ⟨reply, s', heq, -⟩ := feed_LF_eq h.toLinked k rest
      refine ⟨b', ?_, fun hrule => ((hquiet hrule).feed h.toLinked hw).1⟩
      rw [current_feed, ← hb', heq]
      simp only [openLine, if_true, List.nil_append]
    · obtain ⟨h1, -⟩ := line_feed_printable h.toLinked hw hx
      exact ⟨a, h1.trans ha, fun hrule => ((hquiet hrule).feed h.toLinked hw).1⟩
  · refine ⟨hrun, fun ht => ?_, fun ht hrule => (h.whole ht hrule).deliver hw⟩
    obtain ⟨a, ha, hquiet⟩ := h.part ht
    refine ⟨a, ha, fun hrule => ?_⟩
    have := (hquiet hrule).toHost
    rw [hw] at this
    cases this

theorem stable_reading (got : List Byte) : Stable (exchange B rule) (Reading B led₀ rule r got) := by
  intro w w' he h
  have hrun := stable_running B led₀ rule r w w' he h.toRunning
  rcases he with ⟨x, rest, hw, rfl⟩ | ⟨b, rest, hw, rfl⟩
  · exact ⟨hrun, fun hrule => (h.answering hrule).feed h.toRunning hw⟩
  · exact ⟨hrun, fun hrule => (h.answering hrule).deliver hw⟩

end Stable

/-! ### The functions of the host -/

theorem onSerial_bind {α β : Type} (p : SerialProg α) (f : α → SerialProg β) :
    onSerial (p.bind f) = (onSerial p).bind fun a => onSerial (f a) := link_bind _ p f

theorem onBackend_bind {α β : Type} (p : DeviceProg α) (f : α → DeviceProg β) :
    onBackend (p.bind f) = (onBackend p).bind fun a => onBackend (f a) := link_bind _ p f

theorem onBackend_call {α : Type} (c : DeviceCall) (k : c.Ret → DeviceProg α) :
    onBackend (.call c k) = (onSerial (uartBackend c)).bind fun r => onBackend (k r) := rfl

section Host

variable {σ : Type} (B : WorkingBoard σ) (led₀ : Bool) (rule : Prop)

/-- An assertion that can be kept while the host does something else. -/
structure Keeps (P : Exchange σ → Prop) : Prop where
  stable : Stable (exchange B rule) P
  linked : ∀ w, P w → Linked B led₀ w

variable {B led₀ rule} {P : Exchange σ → Prop}

theorem Keeps.always (h : Keeps B led₀ rule P) {w : Exchange σ} (hp : P w) :
    (exchangeWatch B led₀ rule).always w := (h.linked w hp).led

theorem Keeps.ret (h : Keeps B led₀ rule P) {α : Type} {Q : α → Exchange σ → Prop} {a : α}
    {w : Exchange σ} (hp : P w) (hq : ∀ w, P w → Q a w) :
    Safe (exchange B rule) (exchangeWatch B led₀ rule) Q (.ret a) w :=
  Safe.ret h.stable (fun w hw => ⟨h.always hw, hq w hw⟩) hp

/-- A system call with `P` in hand. -/
theorem Keeps.call (h : Keeps B led₀ rule P) {α : Type} {Q : α → Exchange σ → Prop} {c : SerialCall}
    {k : c.Ret → HostProg α} {w : Exchange σ} (hp : P w)
    (hk : ∀ w r w', P w → exchangeSem rule w (.serial c) r w' →
      Safe (exchange B rule) (exchangeWatch B led₀ rule) Q (k r) w') :
    Safe (exchange B rule) (exchangeWatch B led₀ rule) Q (.call (.serial c) k) w :=
  Safe.call h.stable (fun _ hw => ⟨h.always hw, trivial⟩) hk hp

theorem serialMonotonicMs_keeps (h : Keeps B led₀ rule P) {w : Exchange σ} (hp : P w) :
    Safe (exchange B rule) (exchangeWatch B led₀ rule) (fun _ w => P w)
      (onSerial SerialPort.monotonicMs) w := by
  unfold SerialPort.monotonicMs SerialPort.sysClock
  refine h.call hp fun w r w' hp hs => ?_
  obtain rfl : w' = w := hs
  cases r with
  | error e => exact h.ret hp fun _ hw => hw
  | ok now => exact h.ret hp fun _ hw => hw

theorem pollNow_keeps (h : Keeps B led₀ rule P) {w : Exchange σ} (hp : P w) (timeoutMs : ℤ) :
    Safe (exchange B rule) (exchangeWatch B led₀ rule) (fun _ w => P w)
      (onSerial (pollNow timeoutMs)) w := by
  unfold pollNow
  by_cases ht : timeoutMs > 0
  · rw [if_pos ht]
    exact serialMonotonicMs_keeps h hp
  · rw [if_neg ht]
    exact h.ret hp fun _ hw => hw

theorem monotonicMs_keeps (h : Keeps B led₀ rule P) {w : Exchange σ} (hp : P w) :
    Safe (exchange B rule) (exchangeWatch B led₀ rule) (fun _ w => P w) (onBackend monotonicMs) w := by
  unfold monotonicMs DeviceCall.callClock
  refine h.call hp fun w r w' hp hs => ?_
  obtain rfl : w' = w := hs
  cases r with
  | error e => exact h.ret hp fun _ hw => hw
  | ok now => exact h.ret hp fun _ hw => hw

theorem remainingMs_keeps (h : Keeps B led₀ rule P) {w : Exchange σ} (hp : P w) (deadline : ℤ) :
    Safe (exchange B rule) (exchangeWatch B led₀ rule) (fun _ w => P w)
      (onBackend (remainingMs deadline)) w := by
  unfold remainingMs
  rw [bind_eq, onBackend_bind]
  refine Safe.bind (monotonicMs_keeps h hp) fun now w hp _ => ?_
  by_cases hnow : now.ret < 0
  · rw [if_pos hnow]
    exact h.ret hp fun _ hw => hw
  rw [if_neg hnow]
  by_cases hleft : deadline - now.ret ≤ 0
  · simp only [if_pos hleft]
    exact h.ret hp fun _ hw => hw
  · simp only [if_neg hleft]
    exact h.ret hp fun _ hw => hw

theorem pollTurn_keeps (h : Keeps B led₀ rule P) {w : Exchange σ} (hp : P w) (fd : ℤ)
    (events : PollEvent) (timeoutMs deadline : ℤ) :
    Safe (exchange B rule) (exchangeWatch B led₀ rule) (fun _ w => P w)
      (onSerial (pollTurn fd events timeoutMs deadline)) w := by
  unfold pollTurn
  rw [bind_eq, onSerial_bind]
  refine Safe.bind (pollNow_keeps h hp timeoutMs) fun now w hp _ => ?_
  by_cases h1 : now.ret < 0
  · rw [if_pos h1]
    exact h.ret hp fun _ hw => hw
  rw [if_neg h1]
  dsimp only
  by_cases h2 : timeoutMs > 0 ∧ (if timeoutMs > 0 then deadline - now.ret else 0) ≤ 0
  · rw [if_pos h2]
    exact h.ret hp fun _ hw => hw
  rw [if_neg h2]
  refine h.call hp fun w result w' hp hs => ?_
  obtain rfl : w' = w := hs
  dsimp only [ret_bind, bind_eq]
  by_cases h3 : result.1.ret > 0
  · rw [if_pos h3]
    by_cases h4 : result.2.has events = true
    · rw [if_pos h4]
      exact h.ret hp fun _ hw => hw
    rw [if_neg h4]
    by_cases h5 : result.2.pollnval = true
    · rw [if_pos h5]
      exact h.ret hp fun _ hw => hw
    rw [if_neg h5]
    by_cases h6 : (result.2.pollerr || result.2.pollhup) = true
    · rw [if_pos h6]
      exact h.ret hp fun _ hw => hw
    · rw [if_neg h6]
      exact h.ret hp fun _ hw => hw
  rw [if_neg h3]
  by_cases h7 : result.1.ret = 0
  · rw [if_pos h7]
    exact h.ret hp fun _ hw => hw
  rw [if_neg h7]
  by_cases h8 : result.1.errno ≠ EINTR
  · rw [if_pos h8]
    exact h.ret hp fun _ hw => hw
  · rw [if_neg h8]
    exact h.ret hp fun _ hw => hw

theorem pollFd_keeps (h : Keeps B led₀ rule P) {w : Exchange σ} (hp : P w) (fd : ℤ)
    (events : PollEvent) (timeoutMs : ℤ) :
    Safe (exchange B rule) (exchangeWatch B led₀ rule) (fun _ w => P w)
      (onSerial (pollFd fd events timeoutMs)) w := by
  unfold pollFd
  by_cases h1 : timeoutMs < 0
  · rw [if_pos h1]
    exact h.ret hp fun _ hw => hw
  rw [if_neg h1, bind_eq, onSerial_bind]
  refine Safe.bind (pollNow_keeps h hp timeoutMs) fun now w hp _ => ?_
  by_cases h2 : now.ret < 0
  · rw [if_pos h2]
    exact h.ret hp fun _ hw => hw
  rw [if_neg h2]
  refine Safe.loop (I := fun _ w => P w) (fun _ => h.stable) (fun _ _ hw => h.always hw) ?_ hp
  intro s w hp
  refine (pollTurn_keeps h hp fd events timeoutMs _).weaken fun x w _ hw => ?_
  cases x with
  | inl s' => exact hw
  | inr result => exact h.ret hw fun _ hw => hw

/-! ### Flush, write and read -/

variable {r : List Byte}

theorem Writing.keeps (hr : ∀ c ∈ r, printable c = true) (total : ℕ) :
    Keeps B led₀ rule (Writing B led₀ rule r total) :=
  ⟨stable_writing B led₀ rule r hr total, fun _ h => h.toLinked⟩

theorem Running.keeps : Keeps B led₀ rule (Running B led₀ r) :=
  ⟨stable_running B led₀ rule r, fun _ h => h.toLinked⟩

theorem Issued.keeps : Keeps B led₀ rule (Issued B led₀ rule r) :=
  ⟨stable_issued B led₀ rule r, fun _ h => h.toLinked⟩

theorem Reading.keeps (got : List Byte) : Keeps B led₀ rule (Reading B led₀ rule r got) :=
  ⟨stable_reading B led₀ rule r got, fun _ h => h.toLinked⟩

/-- The queue is emptied: where the rule is kept, the line is quiet. -/
theorem Issued.flushed {w : Exchange σ} (h : Issued B led₀ rule r w) :
    Writing B led₀ rule r 0 { w with queue := [] } := by
  refine ⟨⟨h.toLinked.deliver _ _, h.current⟩, fun _ => ⟨openLine w.log ++ w.toFirmware, ?_, fun hrule => ?_⟩,
    fun h0 => absurd h0 (Nat.not_lt_zero _)⟩
  · rw [List.take_zero, packet, List.map_nil, List.append_nil]
  · obtain ⟨h1, h2, h3⟩ := h.empty hrule
    refine ⟨fun x hx => ?_, h3, h2, rfl⟩
    have hx : x ∈ openLine w.log ++ w.toFirmware := hx
    rw [h1, List.append_nil] at hx
    exact ne_LF_of_printable (h.printable x hx)

/-- `write` takes `n` bytes of what is left of the packet. -/
theorem Writing.write {w : Exchange σ} {total n : ℕ} (h : Writing B led₀ rule r total w)
    (ht : total ≤ r.length) (hr : (parseRequest r).isSome = true)
    (hn : n ≤ ((r ++ [LF]).drop total).length) : Writing B led₀ rule r (total + n)
      { w with toFirmware := w.toFirmware ++ packet w.current (((r ++ [LF]).drop total).take n) } := by
  obtain ⟨q, hq⟩ := Option.isSome_iff_exists.mp hr
  have hprintable := printable_of_parseRequest hq
  obtain ⟨a, ha, hquiet⟩ := h.part ht
  have hlen : n ≤ r.length + 1 - total := by
    rwa [List.length_drop, List.length_append, List.length_singleton] at hn
  have hline : openLine w.log ++ (w.toFirmware ++ packet w.current (((r ++ [LF]).drop total).take n)) =
      a ++ packet w.current ((r ++ [LF]).take (total + n)) := by
    rw [← List.append_assoc, ha, List.append_assoc, ← packet_append, List.take_add,
      List.take_append_of_le_length ht]
  have hflight : ∀ x ∈ w.toFirmware ++ packet w.current (((r ++ [LF]).drop total).take n),
      DeviceRuntime.printable x.1 = true ∨ x.1 = LF := by
    intro x hx
    rcases List.mem_append.mp hx with hx | hx
    · exact h.flight x hx
    · obtain ⟨c, hc, rfl⟩ := List.mem_map.mp hx
      rcases List.mem_append.mp (List.mem_of_mem_drop (List.mem_of_mem_take hc)) with hc | hc
      · exact .inl (hprintable c hc)
      · exact .inr (List.mem_singleton.mp hc)
  have hstream : Stream (requests w.log) a := by
    have hs := h.stream
    rw [ha] at hs
    exact hs.left
  by_cases hpart : total + n ≤ r.length
  · have htake : (r ++ [LF]).take (total + n) = r.take (total + n) := List.take_append_of_le_length hpart
    have hp : ∀ x ∈ packet w.current (r.take (total + n)), x.1 ≠ LF :=
      packet_ne_LF fun c hc => hprintable c (List.mem_of_mem_take hc)
    rw [htake] at hline
    refine ⟨⟨⟨h.firmware, h.printable, hflight, ?_, h.led⟩, h.current⟩, fun _ => ⟨a, hline, fun hrule => ?_⟩,
      fun hlt => absurd hlt (by omega)⟩
    · show Stream (requests w.log) (openLine w.log ++ _)
      rw [hline]
      exact hstream.append hp
    · refine ⟨fun x hx => ?_, (hquiet hrule).handlings, (hquiet hrule).toHost, (hquiet hrule).queue⟩
      have hx : x ∈ openLine w.log ++ (w.toFirmware ++ packet w.current _) := hx
      rw [hline] at hx
      rcases List.mem_append.mp hx with hx | hx
      · exact (hquiet hrule).noLF x (by rw [ha]; exact List.mem_append_left _ hx)
      · exact hp x hx
  · have htake : (r ++ [LF]).take (total + n) = r ++ [LF] :=
      List.take_of_length_le (by rw [List.length_append, List.length_singleton]; omega)
    have hline' : openLine w.log ++ (w.toFirmware ++ packet w.current (((r ++ [LF]).drop total).take n)) =
        a ++ packet w.current r ++ [(LF, w.current)] := by
      rw [hline, htake, packet_append, ← List.append_assoc]
      rfl
    refine ⟨⟨⟨h.firmware, h.printable, hflight, ?_, h.led⟩, h.current⟩, fun hle => absurd hle hpart,
      fun _ hrule => .inl ⟨(hquiet hrule).handlings, ?_, ?_⟩⟩
    · show Stream (requests w.log) (openLine w.log ++ _)
      rw [hline']
      exact hstream.LF h.toRunning.index hr
    · simp only [(hquiet hrule).queue, (hquiet hrule).toHost, List.append_nil]
    · intro a' j b heq
      have heq : openLine w.log ++ (w.toFirmware ++ packet w.current _) = a' ++ (LF, j) :: b := heq
      rw [hline'] at heq
      rcases append_singleton_eq heq with ⟨hb, hj, -⟩ | ⟨b', -, hl⟩
      · exact ⟨congrArg Prod.snd hj, hb⟩
      · -- before the packet there was no line feed
        obtain ⟨b'', hb'', -⟩ := append_eq_LF (packet_ne_LF hprintable) hl
        have hmem : (LF, j) ∈ openLine w.log ++ w.toFirmware := by
          rw [ha, hb'']
          exact List.mem_append_left _ (List.mem_append_right _ List.mem_cons_self)
        exact absurd rfl ((hquiet hrule).noLF _ hmem)

/-- What `serialPortFlushInput` and every failure before the write leave. -/
def Flushed (B : WorkingBoard σ) (led₀ : Bool) (rule : Prop) (r : List Byte) (x : CallResult)
    (w : Exchange σ) : Prop :=
  Running B led₀ r w ∧ (¬ x.ret < 0 → Writing B led₀ rule r 0 w)

theorem not_neg_one : ¬ ¬ (-1 : ℤ) < 0 := by decide

section Request

variable (hr : (parseRequest r).isSome = true)
include hr

theorem printable_request : ∀ c ∈ r, printable c = true := by
  obtain ⟨q, hq⟩ := Option.isSome_iff_exists.mp hr
  exact printable_of_parseRequest hq

theorem serialPortFlushInput_safe (port : SerialPort) {w : Exchange σ} (h : Issued B led₀ rule r w) :
    Safe (exchange B rule) (exchangeWatch B led₀ rule) (Flushed B led₀ rule r)
      (onSerial (serialPortFlushInput port)) w := by
  unfold serialPortFlushInput
  by_cases hfd : port.fd < 0
  · rw [if_pos hfd]
    exact Issued.keeps.ret h fun w hw => ⟨hw.toRunning, fun hx => absurd hx not_neg_one⟩
  rw [if_neg hfd]
  refine Safe.loop (I := fun _ w => Issued B led₀ rule r w) (fun _ => Issued.keeps.stable)
    (fun _ _ hw => Issued.keeps.always hw) ?_ h
  intro s w h
  refine Issued.keeps.call h fun w x w' h hs => ?_
  dsimp only [ret_bind]
  rcases hs with ⟨hx, rfl⟩ | ⟨hx, rfl⟩
  · rw [if_pos hx]
    by_cases he : x.errno ≠ EINTR
    · rw [if_pos he]
      exact Issued.keeps.ret h fun w hw => Issued.keeps.ret hw fun w hw =>
        ⟨hw.toRunning, fun hx => absurd hx not_neg_one⟩
    · rw [if_neg he]
      exact Issued.keeps.ret h fun w hw => hw
  · have hk : Keeps B led₀ rule (Writing B led₀ rule r 0) := Writing.keeps (printable_request hr) 0
    rw [if_neg (by omega)]
    exact hk.ret h.flushed fun w hw => hk.ret hw fun w hw => ⟨hw.toRunning, fun _ => hw⟩

/-- A write of the rest of the packet, with `total` bytes written before. -/
theorem serialPortWrite_safe (port : SerialPort) {total : ℕ} (ht : total ≤ r.length) {w : Exchange σ}
    (h : Writing B led₀ rule r total w) :
    Safe (exchange B rule) (exchangeWatch B led₀ rule)
      (fun x w => Writing B led₀ rule r (total + x.ret.toNat) w)
      (onSerial (serialPortWrite port ((r ++ [LF]).drop total))) w := by
  have hk : ∀ n, Keeps B led₀ rule (Writing B led₀ rule r n) := Writing.keeps (printable_request hr)
  unfold serialPortWrite
  by_cases hfd : port.fd < 0
  · rw [if_pos hfd]
    exact (hk total).ret h fun w hw => hw
  rw [if_neg hfd]
  refine Safe.loop (I := fun _ w => Writing B led₀ rule r total w) (fun _ => (hk total).stable)
    (fun _ _ hw => (hk total).always hw) ?_ h
  intro s w h
  refine (hk total).call h fun w x w' h hs => ?_
  dsimp only [ret_bind]
  rcases hs with ⟨hx, rfl⟩ | ⟨n, hn, hx, rfl⟩
  · by_cases he : x.ret < 0 ∧ x.errno = EINTR
    · rw [if_pos he]
      exact (hk total).ret h fun w hw => hw
    · rw [if_neg he]
      refine (hk total).ret h fun w hw => (hk total).ret hw fun w hw => ?_
      rw [Int.toNat_of_nonpos (by omega)]
      exact hw
  · rw [if_neg (by omega)]
    refine (hk _).ret (h.write ht hr hn) fun w hw => (hk _).ret hw fun w hw => ?_
    rw [hx, Int.toNat_natCast]
    exact hw

/-- What `serialPortWriteAll` leaves: the whole packet written, if it says so. -/
def Written (B : WorkingBoard σ) (led₀ : Bool) (rule : Prop) (r : List Byte) (x : CallResult)
    (w : Exchange σ) : Prop :=
  Running B led₀ r w ∧ (¬ x.ret < 0 → Reading B led₀ rule r [] w)

theorem writeTurn_safe (port : SerialPort) (deadline : ℤ) {total : ℕ} {w : Exchange σ}
    (h : Writing B led₀ rule r total w) :
    Safe (exchange B rule) (exchangeWatch B led₀ rule)
      (fun x w => match x with
        | .inl total' => Writing B led₀ rule r total' w
        | .inr x => Safe (exchange B rule) (exchangeWatch B led₀ rule) (Written B led₀ rule r) (.ret x) w)
      (onSerial (writeTurn port (r ++ [LF]) deadline total)) w := by
  have hk : ∀ n, Keeps B led₀ rule (Writing B led₀ rule r n) := Writing.keeps (printable_request hr)
  have hlen : (r ++ [LF]).length = r.length + 1 := List.length_append
  -- every failure
  have hfail : ∀ (e : ℕ) (total : ℕ) (w : Exchange σ), Writing B led₀ rule r total w →
      Safe (exchange B rule) (exchangeWatch B led₀ rule) (Written B led₀ rule r) (.ret ⟨-1, e⟩) w :=
    fun e total w h => (hk total).ret h fun w hw => ⟨hw.toRunning, fun hx => absurd hx not_neg_one⟩
  unfold writeTurn
  by_cases hdone : ¬ total < (r ++ [LF]).length
  · rw [if_pos hdone]
    exact (hk total).ret h fun w hw => (hk total).ret hw fun w hw =>
      ⟨hw.toRunning, fun _ => ⟨hw.toRunning, hw.whole (by omega)⟩⟩
  rw [if_neg hdone, bind_eq, onSerial_bind]
  refine Safe.bind (serialMonotonicMs_keeps (hk total) h) fun now w h _ => ?_
  by_cases h1 : now.ret < 0
  · rw [if_pos h1]
    exact (hk total).ret h fun w hw => hfail _ _ w hw
  rw [if_neg h1]
  by_cases h2 : deadline - now.ret ≤ 0
  · simp only [if_pos h2]
    exact (hk total).ret h fun w hw => hfail _ _ w hw
  simp only [if_neg h2]
  rw [bind_eq, onSerial_bind]
  refine Safe.bind (pollFd_keeps (hk total) h _ _ _) fun ready w h _ => ?_
  by_cases h3 : ready.ret < 0
  · rw [if_pos h3]
    exact (hk total).ret h fun w hw => hfail _ _ w hw
  rw [if_neg h3]
  by_cases h4 : ready.ret = 0
  · rw [if_pos h4]
    exact (hk total).ret h fun w hw => hfail _ _ w hw
  rw [if_neg h4, bind_eq, onSerial_bind]
  refine Safe.bind (serialPortWrite_safe hr port (by omega) h) fun written w h _ => ?_
  by_cases h5 : written.ret > 0
  · rw [if_pos h5]
    exact (hk _).ret h fun w hw => hw
  rw [if_neg h5]
  by_cases h6 : written.ret = 0 ∨ written.errno = EAGAIN ∨ written.errno = EWOULDBLOCK
  · rw [if_pos h6]
    refine (hk _).ret h fun w hw => ?_
    rw [Int.toNat_of_nonpos (by omega)] at hw
    exact hw
  · rw [if_neg h6]
    exact (hk _).ret h fun w hw => hfail _ _ w hw

theorem serialPortWriteAll_safe (port : SerialPort) (timeoutMs : ℤ) {w : Exchange σ}
    (h : Writing B led₀ rule r 0 w) :
    Safe (exchange B rule) (exchangeWatch B led₀ rule) (Written B led₀ rule r)
      (onSerial (serialPortWriteAll port (r ++ [LF]) timeoutMs)) w := by
  have hk : ∀ n, Keeps B led₀ rule (Writing B led₀ rule r n) := Writing.keeps (printable_request hr)
  unfold serialPortWriteAll
  by_cases h1 : port.fd < 0 ∨ timeoutMs < 0
  · rw [if_pos h1]
    exact (hk 0).ret h fun w hw => ⟨hw.toRunning, fun hx => absurd hx not_neg_one⟩
  rw [if_neg h1, if_neg (by rw [List.length_append, List.length_singleton]; omega), bind_eq, onSerial_bind]
  refine Safe.bind (serialMonotonicMs_keeps (hk 0) h) fun now w h _ => ?_
  by_cases h2 : now.ret < 0
  · rw [if_pos h2]
    exact (hk 0).ret h fun w hw => ⟨hw.toRunning, fun hx => absurd hx not_neg_one⟩
  rw [if_neg h2]
  refine Safe.loop (fun total => (hk total).stable) (fun total _ hw => (hk total).always hw) ?_ h
  intro total w h
  refine (writeTurn_safe hr port _ h).weaken fun x w _ hw => ?_
  cases x with
  | inl total' => exact hw
  | inr x => exact hw

omit hr

/-- One byte of the answer, if any. -/
theorem serialPortRead_safe (port : SerialPort) {got : List Byte} {w : Exchange σ}
    (h : Reading B led₀ rule r got w) :
    Safe (exchange B rule) (exchangeWatch B led₀ rule)
      (fun x w => if x.1.ret ≤ 0 then Reading B led₀ rule r got w
        else Reading B led₀ rule r (got ++ [x.2.headD 0]) w)
      (onSerial (serialPortRead port 1)) w := by
  have hk : ∀ got, Keeps B led₀ rule (Reading B led₀ rule r got) := Reading.keeps
  unfold serialPortRead
  by_cases hfd : port.fd < 0
  · rw [if_pos hfd]
    exact (hk got).ret h fun w hw => hw
  rw [if_neg hfd]
  refine Safe.loop (I := fun _ w => Reading B led₀ rule r got w) (fun _ => (hk got).stable)
    (fun _ _ hw => (hk got).always hw) ?_ h
  intro s w h
  refine (hk got).call h fun w x w' h hs => ?_
  dsimp only [ret_bind]
  rcases hs with ⟨hx, rfl⟩ | ⟨n, hn, hpos, hlen, hx, hdata, rfl⟩
  · by_cases he : x.1.ret < 0 ∧ x.1.errno = EINTR
    · rw [if_pos he]
      exact (hk got).ret h fun w hw => hw
    · rw [if_neg he]
      refine (hk got).ret h fun w hw => (hk got).ret hw fun w hw => ?_
      rw [if_pos hx]
      exact hw
  · obtain rfl : n = 1 := by omega
    cases hq : w.queue with
    | nil => rw [hq] at hlen; exact absurd hlen (by decide)
    | cons b rest =>
      have hread : Reading B led₀ rule r (got ++ [b]) { w with queue := rest } := by
        refine ⟨⟨h.toLinked.deliver _ _, h.current⟩, fun hrule => ?_⟩
        have hsame : got ++ [b] ++ rest ++ w.toHost = got ++ w.queue ++ w.toHost := by
          rw [hq, List.append_assoc got, List.singleton_append]
        unfold Answering
        rw [hsame]
        exact h.answering hrule
      have hhead : x.2.headD 0 = b := by rw [hdata, hq]; rfl
      rw [if_neg (by omega)]
      refine (hk _).ret hread fun w hw => (hk _).ret hw fun w hw => ?_
      rw [if_neg (by omega), hhead]
      exact hw

/-! ### The request -/

/-- A control request on the device: it may be refused before the backend. -/
theorem deviceControl_host (h : Keeps B led₀ rule P) {R : CallResult → Exchange σ → Prop}
    {request : DeviceControl} {argument : ControlArgument}
    (hu : ∀ w, P w → Safe (exchange B rule) (exchangeWatch B led₀ rule) R
      (onSerial (uartControl request argument)) w) (d : Device) {w : Exchange σ} (hp : P w) :
    Safe (exchange B rule) (exchangeWatch B led₀ rule)
      (fun x w => (x.ret < 0 ∧ P w) ∨ R ⟨x.ret, x.errno⟩ w)
      (onBackend (deviceControl d request argument)) w := by
  cases hd : deviceReady d with
  | some f =>
    obtain ⟨e, rfl⟩ := deviceReady_failure hd
    simp only [deviceControl, hd]
    exact h.ret hp fun w hw => .inl ⟨deviceFailure_ret d _, hw⟩
  | none =>
    by_cases hc : d.ops.all (fun ops => !ops.hasControl) = true
    · simp only [deviceControl, hd, hc, if_true]
      exact h.ret hp fun w hw => .inl ⟨deviceFailure_ret d _, hw⟩
    · rw [deviceControl_ready hd (by simpa using hc), onBackend_call]
      exact (hu w hp).map fun c w hw => .inr hw

theorem deviceRead_host (h : Keeps B led₀ rule P) {R : CallResult × List Byte → Exchange σ → Prop}
    (hu : ∀ w, P w → Safe (exchange B rule) (exchangeWatch B led₀ rule) R (onSerial (uartRead 1)) w)
    (d : Device) {w : Exchange σ} (hp : P w) :
    Safe (exchange B rule) (exchangeWatch B led₀ rule)
      (fun x w => (x.1.ret < 0 ∧ P w) ∨ R (⟨x.1.ret, x.1.errno⟩, x.2) w)
      (onBackend (deviceRead d true 1)) w := by
  cases hd : deviceReady d with
  | some f =>
    obtain ⟨e, rfl⟩ := deviceReady_failure hd
    simp only [deviceRead, hd]
    exact h.ret hp fun w hw => .inl ⟨deviceFailure_ret d _, hw⟩
  | none =>
    by_cases hc : d.ops.all (fun ops => !ops.hasRead) = true
    · simp only [deviceRead, hd, hc, if_true]
      exact h.ret hp fun w hw => .inl ⟨deviceFailure_ret d _, hw⟩
    · rw [deviceRead_ready hd (by simpa using hc) (by decide), onBackend_call]
      exact (hu w hp).map fun c w hw => .inr hw

/-- The backend loads the port first. -/
theorem loadPort_host (h : Keeps B led₀ rule P) {α : Type} {R : α → Exchange σ → Prop}
    {f : SerialPort → SerialProg α}
    (hf : ∀ port w, P w → Safe (exchange B rule) (exchangeWatch B led₀ rule) R (onSerial (f port)) w)
    {w : Exchange σ} (hp : P w) :
    Safe (exchange B rule) (exchangeWatch B led₀ rule) R (onSerial (SerialPort.loadPort.bind f)) w := by
  refine h.call hp fun w port w' hp hs => ?_
  obtain rfl : w' = w := hs
  exact hf port w' hp

theorem Answering.printable {got : List Byte} {w : Exchange σ} (h : Answering r got w) :
    ∀ c ∈ got, DeviceRuntime.printable c = true ∨ c = LF := by
  intro c hc
  rcases h with ⟨-, hempty, -⟩ | ⟨handled, reply, -, -, hp, hline, -⟩
  · rw [List.append_assoc] at hempty
    rw [(List.append_eq_nil_iff.mp hempty).1] at hc
    cases hc
  · have hmem : c ∈ reply ++ [LF] := by
      rw [← hline, List.append_assoc]
      exact List.mem_append_left _ hc
    rcases List.mem_append.mp hmem with hc | hc
    · exact .inl (hp c hc)
    · exact .inr (List.mem_singleton.mp hc)

/-- A line that was read whole is the answer. -/
theorem Answering.line {line : List Byte} {w : Exchange σ} (h : Answering r (line ++ [LF]) w)
    (hok : line ∉ errLines) : handlings w.log = [(some r, [line ++ [LF]])] := by
  rcases h with ⟨-, hempty, -⟩ | ⟨handled, reply, hh, hr, hp, hline, -⟩
  · simp at hempty
  · have hnoLF : ∀ c ∈ reply, c ≠ LF := fun c hc => ne_LF_of_printable (hp c hc)
    rw [List.append_assoc, List.append_assoc, List.singleton_append] at hline
    obtain rfl : line = reply := by
      rcases List.append_eq_append_iff.mp hline with ⟨a, ha, ha'⟩ | ⟨c, hc, hc'⟩
      · cases a with
        | nil => exact (ha.trans (List.append_nil _)).symm
        | cons b a =>
          rw [List.cons_append, List.cons.injEq] at ha'
          exact absurd ha'.1.symm (hnoLF b (by rw [ha]; exact List.mem_append_right _ List.mem_cons_self))
      · cases c with
        | nil => exact hc.trans (List.append_nil _)
        | cons b c =>
          have hlen := congrArg List.length hc'
          simp at hlen
    rw [hr.resolve_left hok] at hh
    exact hh

/-- In the receive loop: what was read is the line so far, where the rule is
kept. -/
def Receiving.Kept (B : WorkingBoard σ) (led₀ : Bool) (rule : Prop) (r : List Byte) (s : Receiving)
    (w : Exchange σ) : Prop :=
  Reading B led₀ rule r s.line w ∧ (rule → s.carriageReturn = false)

theorem receiving_keeps (s : Receiving) : Keeps B led₀ rule (Receiving.Kept B led₀ rule r s) :=
  ⟨fun w w' he h => ⟨stable_reading B led₀ rule r s.line w w' he h.1, h.2⟩, fun _ h => h.1.toLinked⟩

/-- What the receive loop leaves. -/
def Received.Kept (B : WorkingBoard σ) (led₀ : Bool) (rule : Prop) (r : List Byte) (x : Received)
    (w : Exchange σ) : Prop :=
  Running B led₀ r w ∧ ∀ line, x.line = .ok line → Reading B led₀ rule r (line ++ [LF]) w

theorem received_keeps (x : Received) : Keeps B led₀ rule (Received.Kept B led₀ rule r x) :=
  ⟨fun w w' he h => ⟨stable_running B led₀ rule r w w' he h.1, fun line hline =>
    stable_reading B led₀ rule r _ w w' he (h.2 line hline)⟩, fun _ h => h.1.toLinked⟩

/-- Where the loop goes from `x`. -/
def ReceivedByte (B : WorkingBoard σ) (led₀ : Bool) (rule : Prop) (r : List Byte)
    (x : Receiving ⊕ Received) (w : Exchange σ) : Prop :=
  match x with
  | .inl s => s.Kept B led₀ rule r w
  | .inr x => x.Kept B led₀ rule r w

theorem Receiving.Kept.fail {s : Receiving} {w : Exchange σ} (h : s.Kept B led₀ rule r w) (d : Device)
    (e : ℕ) : Received.Kept B led₀ rule r ⟨d, .error e⟩ w :=
  ⟨h.1.toRunning, fun _ hline => by cases hline⟩

theorem acceptByte_kept {s : Receiving} {w : Exchange σ} (hcr : rule → s.carriageReturn = false) {b : Byte}
    (h : Reading B led₀ rule r (s.line ++ [b]) w) : ReceivedByte B led₀ rule r (acceptByte s b) w := by
  unfold acceptByte
  by_cases hlf : b = LF
  · rw [if_pos hlf]
    refine ⟨h.toRunning, fun line hline => ?_⟩
    obtain rfl : s.line = line := by cases hline; rfl
    rw [hlf] at h
    exact h
  rw [if_neg hlf]
  have hfail : ∀ e, Received.Kept B led₀ rule r ⟨s.device, .error e⟩ w := fun e =>
    ⟨h.toRunning, fun _ hline => by cases hline⟩
  by_cases hc : s.carriageReturn = true
  · rw [if_pos hc]
    exact hfail _
  rw [if_neg hc]
  by_cases hb : b = CR
  · rw [if_pos hb]
    -- the answer has no carriage return
    have hno : ¬ rule := fun hrule => by
      have := (h.answering hrule).printable b (List.mem_append_right _ (List.mem_singleton.mpr rfl))
      rw [hb] at this
      exact absurd this (by decide)
    exact ⟨⟨h.toRunning, fun hrule => absurd hrule hno⟩, fun hrule => absurd hrule hno⟩
  rw [if_neg hb]
  split_ifs
  · exact hfail _
  · exact hfail _
  · exact ⟨h, hcr⟩

theorem receiveByte_exchange (deadline : ℤ) {s : Receiving} {w : Exchange σ} (h : s.Kept B led₀ rule r w) :
    Safe (exchange B rule) (exchangeWatch B led₀ rule) (ReceivedByte B led₀ rule r)
      (onBackend (receiveByte deadline s)) w := by
  have hk : Keeps B led₀ rule (Receiving.Kept B led₀ rule r s) := receiving_keeps s
  unfold receiveByte
  rw [bind_eq, onBackend_bind]
  refine Safe.bind (remainingMs_keeps hk h deadline) fun timeout w h _ => ?_
  by_cases h1 : timeout.ret < 0
  · rw [if_pos h1]
    exact hk.ret h fun w hw => hw.fail _ _
  rw [if_neg h1, bind_eq, onBackend_bind]
  refine Safe.bind (deviceControl_host hk (R := fun _ w => s.Kept B led₀ rule r w) ?_ _ h)
    fun ready w hw _ => ?_
  · intro w hw
    unfold uartControl
    refine loadPort_host hk (fun port w hw => ?_) hw
    unfold serialPortWaitReadable
    by_cases h2 : port.fd < 0 ∨ timeout.ret < 0
    · simp only [if_pos h2]
      exact hk.ret hw fun _ hw => hw
    · simp only [if_neg h2]
      exact pollFd_keeps hk hw _ _ _
  have h : s.Kept B led₀ rule r w := hw.elim (·.2) id
  by_cases h3 : ready.ret < 0
  · rw [if_pos h3]
    exact hk.ret h fun w hw => hw.fail _ _
  rw [if_neg h3]
  by_cases h4 : ready.ret = 0
  · rw [if_pos h4]
    exact hk.ret h fun w hw => hw.fail _ _
  rw [if_neg h4, bind_eq, onBackend_bind]
  refine Safe.bind (deviceRead_host hk (R := fun x w => if x.1.ret ≤ 0 then s.Kept B led₀ rule r w
    else Reading B led₀ rule r (s.line ++ [x.2.headD 0]) w) ?_ _ h) fun result w hw _ => ?_
  · intro w hw
    unfold uartRead
    refine loadPort_host hk (fun port w hw => ?_) hw
    refine (serialPortRead_safe port hw.1).weaken fun x w _ hx => ?_
    by_cases hx0 : x.1.ret ≤ 0
    · rw [if_pos hx0] at hx ⊢
      exact ⟨hx, h.2⟩
    · rw [if_neg hx0] at hx ⊢
      exact hx
  by_cases h5 : result.1.ret < 0
  · rw [if_pos h5]
    have h : s.Kept B led₀ rule r w := by
      rcases hw with hw | hw
      · exact hw.2
      · rwa [if_pos (by simp only; omega)] at hw
    by_cases h6 : result.1.errno = EAGAIN ∨ result.1.errno = EWOULDBLOCK
    · rw [if_pos h6]
      exact hk.ret h fun w hw => hw
    · rw [if_neg h6]
      exact hk.ret h fun w hw => hw.fail _ _
  rw [if_neg h5]
  have hw := hw.resolve_left fun hx => h5 hx.1
  by_cases h7 : result.1.ret = 0
  · rw [if_pos h7]
    rw [if_pos (by simp only; omega)] at hw
    exact hk.ret hw fun w hw => hw.fail _ _
  · rw [if_neg h7]
    rw [if_neg (by simp only; omega)] at hw
    exact (Reading.keeps _).ret hw fun w hw =>
      acceptByte_kept (s := { s with device := result.1.device }) h.2 hw

/-- What a request leaves: the answer to it was read, if it says so. -/
def Finished (B : WorkingBoard σ) (led₀ : Bool) (rule : Prop) (r : List Byte) (x : RequestResult)
    (w : Exchange σ) : Prop :=
  Running B led₀ r w ∧
    (x.ret = 0 → Reading B led₀ rule r (x.reply ++ [LF]) w ∧ x.reply ∉ errLines)

theorem finished_keeps (x : RequestResult) : Keeps B led₀ rule (Finished B led₀ rule r x) :=
  ⟨fun w w' he h => ⟨stable_running B led₀ rule r w w' he h.1, fun hx =>
    ⟨stable_reading B led₀ rule r _ w w' he (h.2 hx).1, (h.2 hx).2⟩⟩, fun _ h => h.1.toLinked⟩

/-- A request that fails. -/
theorem Keeps.fail (h : Keeps B led₀ rule P) (hrun : ∀ w, P w → Running B led₀ r w) {w : Exchange σ}
    (hp : P w) (d : Device) (e : ℕ) (reply : List Byte) :
    Safe (exchange B rule) (exchangeWatch B led₀ rule) (Finished B led₀ rule r)
      (.ret (requestFailure d e reply)) w :=
  h.ret hp fun w hw => ⟨hrun w hw, fun hx => absurd hx (show ¬ (-1 : ℤ) = 0 by decide)⟩

theorem request_safe (d : Device) (reply : List Byte) (size : ℕ) (timeoutMs : ℤ) {w : Exchange σ}
    (h : Issued B led₀ rule r w) :
    Safe (exchange B rule) (exchangeWatch B led₀ rule) (Finished B led₀ rule r)
      (onBackend (uartProtocolRequest d r reply size timeoutMs)) w := by
  have hissued : Keeps B led₀ rule (Issued B led₀ rule r) := Issued.keeps
  have hrun : ∀ w, Issued B led₀ rule r w → Running B led₀ r w := fun _ h => h.toRunning
  have hself : ∀ w, Running B led₀ r w → Running B led₀ r w := fun _ h => h
  unfold uartProtocolRequest
  by_cases h1 : d.config.type ≠ .uart ∨ size = 0 ∨ timeoutMs < 0
  · rw [if_pos h1]
    exact hissued.fail hrun h _ _ _
  rw [if_neg h1]
  by_cases h2 : d.config.enabled = 0
  · rw [if_pos h2]
    exact hissued.fail hrun h _ _ _
  rw [if_neg h2]
  by_cases h3 : d.opened = 0
  · rw [if_pos h3]
    exact hissued.fail hrun h _ _ _
  rw [if_neg h3]
  by_cases h4 : r.length ≥ UART_PROTOCOL_LINE_SIZE
  · rw [if_pos h4]
    exact hissued.fail hrun h _ _ _
  rw [if_neg h4]
  cases hparse : parseRequest r with
  | none => exact hissued.fail hrun h _ _ _
  | some parsed =>
    obtain ⟨requestType, heartbeat⟩ := parsed
    have hr : (parseRequest r).isSome = true := by rw [hparse]; rfl
    dsimp only
    by_cases h5 : timeoutMs = 0
    · rw [if_pos h5]
      exact hissued.fail hrun h _ _ _
    rw [if_neg h5, bind_eq, onBackend_bind]
    refine Safe.bind (monotonicMs_keeps hissued h) fun now w h _ => ?_
    by_cases h6 : now.ret < 0
    · rw [if_pos h6]
      exact hissued.fail hrun h _ _ _
    rw [if_neg h6]
    -- the flush
    rw [bind_eq, onBackend_bind]
    refine Safe.bind (deviceControl_host hissued (R := Flushed B led₀ rule r) ?_ d h) fun flush w hw _ => ?_
    · intro w hw
      unfold uartControl
      exact loadPort_host hissued (fun port w hw => serialPortFlushInput_safe hr port hw) hw
    by_cases h7 : flush.ret < 0
    · rw [if_pos h7]
      exact Running.keeps.fail hself (hw.elim (·.2.toRunning) (·.1)) _ _ _
    rw [if_neg h7, bind_eq, onBackend_bind]
    have h : Writing B led₀ rule r 0 w := (hw.resolve_left fun hx => h7 hx.1).2 h7
    have hwriting : Keeps B led₀ rule (Writing B led₀ rule r 0) := Writing.keeps (printable_request hr) 0
    refine Safe.bind (remainingMs_keeps hwriting h _) fun timeout w h _ => ?_
    by_cases h8 : timeout.ret < 0
    · rw [if_pos h8]
      exact hwriting.fail (fun _ h => h.toRunning) h _ _ _
    rw [if_neg h8, bind_eq, onBackend_bind]
    -- the write
    refine Safe.bind (deviceControl_host hwriting (R := Written B led₀ rule r) ?_ _ h) fun write w hw _ => ?_
    · intro w hw
      unfold uartControl
      exact loadPort_host hwriting (fun port w hw => serialPortWriteAll_safe hr port _ hw) hw
    by_cases h9 : write.ret < 0
    · rw [if_pos h9]
      exact Running.keeps.fail hself (hw.elim (·.2.toRunning) (·.1)) _ _ _
    rw [if_neg h9, bind_eq, onBackend_bind]
    have h : Reading B led₀ rule r [] w := (hw.resolve_left fun hx => h9 hx.1).2 h9
    -- the answer
    have hloop : Safe (exchange B rule) (exchangeWatch B led₀ rule) (Received.Kept B led₀ rule r)
        (onBackend (.iter (receiveByte (now.ret + timeoutMs)) ⟨write.device, [], false⟩)) w := by
      refine Safe.loop (I := Receiving.Kept B led₀ rule r) (fun s => (receiving_keeps s).stable)
        (fun s _ hw => (receiving_keeps s).always hw) ?_ ⟨h, fun _ => rfl⟩
      intro s w hw
      refine (receiveByte_exchange (now.ret + timeoutMs) hw).weaken fun x w _ hx => ?_
      cases x with
      | inl s' => exact hx
      | inr x => exact (received_keeps x).ret hx fun _ hw => hw
    refine Safe.bind hloop fun received w hw _ => ?_
    cases hline : received.line with
    | error errno =>
      exact (received_keeps received).fail (fun _ h => h.1) hw _ _ _
    | ok line =>
      have h : Reading B led₀ rule r (line ++ [LF]) w := hw.2 line hline
      have hreading : Keeps B led₀ rule (Reading B led₀ rule r (line ++ [LF])) := Reading.keeps _
      have hrun : ∀ w, Reading B led₀ rule r (line ++ [LF]) w → Running B led₀ r w := fun _ h => h.toRunning
      dsimp only
      rw [bind_eq, onBackend_bind]
      refine Safe.bind (remainingMs_keeps hreading h _) fun left w h _ => ?_
      by_cases h10 : left.ret < 0
      · rw [if_pos h10]
        exact hreading.fail hrun h _ _ _
      rw [if_neg h10]
      by_cases h11 : (!validateReply requestType heartbeat line) = true
      · rw [if_pos h11]
        exact hreading.fail hrun h _ _ _
      rw [if_neg h11]
      by_cases h12 : line.length ≥ size
      · rw [if_pos h12]
        exact hreading.fail hrun h _ _ _
      · rw [if_neg h12]
        have hok : line ∉ errLines := fun herr => by
          rw [validateReply_err herr] at h11
          exact h11 rfl
        exact hreading.ret h fun w hw => ⟨hw.toRunning, fun _ => ⟨hw, hok⟩⟩

end Request

end Host

/-- **Acknowledged means executed.** From two ends at rest, in every run: the
LED changes only where a line that is one whole `LED ON` or `LED OFF` request
is handled, and, where every request starts on empty links, one that returns 0
was handled as the only line since it started, and returns that answer. -/
theorem acknowledged_executed {σ : Type} (B : WorkingBoard σ) (rule : Prop) (board : σ)
    (queue : List Byte) :
    Safe (exchange B rule) (exchangeWatch B (B.led board) rule) (fun _ _ => True) host
      ⟨[], [], queue, Stm32Uart.initial, board, []⟩ := by
  have hlinked : Keeps B (B.led board) rule (Linked B (B.led board)) := ⟨stable_linked B _ rule, fun _ h => h⟩
  refine Safe.loop (I := fun _ w => Linked B (B.led board) w) (fun _ => hlinked.stable)
    (fun _ _ hw => hlinked.always hw) ?_ ?_
  · intro s w h
    refine Safe.call hlinked.stable (fun w hw => ⟨hlinked.always hw, trivial⟩) (fun w i w' h hs => ?_) h
    obtain ⟨hrule, rfl⟩ := hs
    have hissued : Issued B (B.led board) rule i.request { w with log := .issued i.request :: w.log } := by
      refine ⟨⟨⟨h.firmware, h.printable, h.flight, h.stream.requests _, h.led.issued⟩, ?_⟩, fun hr =>
        ⟨(hrule hr).1, (hrule hr).2, rfl⟩⟩
      exact List.getLast?_concat
    refine Safe.bind (request_safe i.device i.reply i.size i.timeoutMs hissued) fun result w h _ => ?_
    have hk : Keeps B (B.led board) rule (Finished B (B.led board) rule i.request result) := finished_keeps result
    refine Safe.call hk.stable (fun w hw => ⟨hk.always hw, hw.1.current, fun hr hx => ?_⟩)
      (fun w _ w' h hs => ?_) h
    · obtain ⟨hread, hok⟩ := hw.2 hx
      exact (hread.answering hr).line hok
    · obtain rfl : w' = w := hs
      exact hlinked.ret h.1.toLinked fun _ hw => hw
  · exact ⟨rfl, fun _ hx => absurd hx List.not_mem_nil, fun _ hx => absurd hx List.not_mem_nil,
      fun a k b heq => by simp [openLine] at heq, rfl, fun _ _ hs => by simp at hs⟩

end DeviceRuntime
