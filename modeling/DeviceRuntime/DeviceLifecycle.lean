/-
# The life of a device

A client that may do anything with one device: open, read, write, control,
close and the serial request of `UartProtocol`, in any order and with any
arguments, on a backend that may return anything (0 or -1 from open and
close). What the backend has done is kept in a `Ledger`; the client shows the
device it holds before each operation.

`Lifecycle` is what holds of device and ledger whenever the client holds the
device and whenever the backend is called: `opened` is the number of
successful opens less the number of successful closes, and the state is one
that `opened` and `enabled` allow. An operation that is not a close keeps an
opened device in `error` (`Kept`), so only a successful close leaves it.

Key definitions: `Operation`, `client`, `Ledger`, `backend`, `Lifecycle`,
`Kept`, `lifecycleWatch`.
Key theorems: `operate_safe`, `device_lifecycle`.
-/
import DeviceRuntime.Lib.Safe
import DeviceRuntime.UartProtocol

namespace DeviceRuntime

open Prog

/-- What a client can do with a device. -/
inductive Operation
  | open
  | read (buffer : Bool) (size : ℕ)
  | write (buffer : Option (List Byte))
  | control (request : DeviceControl) (argument : ControlArgument)
  | request (line reply : List Byte) (size : ℕ) (timeoutMs : ℤ)
  | close
deriving DecidableEq, Repr

/-- The client holds the device and is told what to do next, or an operation
calls out. -/
inductive ClientCall
  | idle (d : Device)
  | device (c : DeviceCall)

abbrev ClientCall.Ret : ClientCall → Type
  | .idle _ => Operation
  | .device c => c.Ret

abbrev ClientProg := Prog ClientCall ClientCall.Ret

/-- An operation of the device layer, in the client. -/
def onDevice {α : Type} (p : DeviceProg α) : ClientProg α :=
  p.link fun c => .call (.device c) .ret

/-- Carry out an operation; what it leaves is the device. -/
def operate (d : Device) : Operation → ClientProg Device
  | .open => (onDevice (deviceOpen d)).bind fun r => .ret r.device
  | .read buffer size => (onDevice (deviceRead d buffer size)).bind fun r => .ret r.1.device
  | .write buffer => (onDevice (deviceWrite d buffer)).bind fun r => .ret r.device
  | .control request argument =>
    (onDevice (deviceControl d request argument)).bind fun r => .ret r.device
  | .request line reply size timeoutMs =>
    (onDevice (uartProtocolRequest d line reply size timeoutMs)).bind fun r => .ret r.device
  | .close => (onDevice (deviceClose d)).bind fun r => .ret r.device

/-- Operation after operation on the same device, for ever. -/
def client (d : Device) : ClientProg Empty :=
  .iter (fun d => .call (.idle d) fun op => (operate d op).bind fun d' => .ret (.inl d')) d

/-- What the backend has done, and the last operation with the device and the
number of closes before it. -/
structure Ledger where
  opens : ℤ
  closes : ℤ
  last : Option (Device × Operation × ℤ)

def backendSem : Ledger → (o : ClientCall) → ClientCall.Ret o → Ledger → Prop
  | w, .idle d, op, w' => w' = { w with last := some (d, op, w.closes) }
  | w, .device (.backendOpen _), r, w' =>
    (r.ret = 0 ∧ w' = { w with opens := w.opens + 1 }) ∨ (r.ret = -1 ∧ w' = w)
  | w, .device (.backendClose _), r, w' =>
    (r.ret = 0 ∧ w' = { w with closes := w.closes + 1 }) ∨ (r.ret = -1 ∧ w' = w)
  | w, .device _, _, w' => w' = w

/-- A backend that returns anything from read, write and control, any `errno`
from anything, and 0 or -1 from open and close. -/
abbrev backend : World ClientCall ClientCall.Ret Ledger := .alone backendSem

/-- The device and what the backend has done agree. -/
structure Lifecycle (d : Device) (w : Ledger) : Prop where
  count : d.opened = w.opens - w.closes
  range : d.opened = 0 ∨ d.opened = 1
  on : d.opened = 1 → d.config.enabled ≠ 0 ∧ (d.state = .opened ∨ d.state = .error)
  off : d.opened = 0 → (d.state = .closed ∨ d.state = .error ∨ d.state = .disabled) ∧
    (d.state = .disabled ↔ d.config.enabled = 0)

/-- Opened and in `error`. -/
def Device.Stuck (d : Device) : Prop := d.opened = 1 ∧ d.state = .error

/-- The last operation left a stuck device stuck, or it was a close and the
backend's close succeeded in it. -/
def ErrorKept (d : Device) (w : Ledger) : Prop :=
  ∀ d₀ op closes, w.last = some (d₀, op, closes) → d₀.Stuck →
    d.Stuck ∨ (op = .close ∧ w.closes = closes + 1)

/-- When the backend may be called, and what holds whenever the client holds
the device. -/
def lifecycleWatch : Watch ClientCall Ledger where
  always _ := True
  atCall o w := match o with
    | .idle d => Lifecycle d w ∧ ErrorKept d w
    | .device (.backendOpen d) => Lifecycle d w ∧ d.opened = 0 ∧ d.config.enabled ≠ 0
    | .device (.backendClose d) => Lifecycle d w ∧ d.opened = 1
    | .device (.backendRead d _) | .device (.backendWrite d _) | .device (.backendControl d _ _) =>
      Lifecycle d w ∧ d.opened = 1 ∧ d.config.enabled ≠ 0 ∧ d.state ≠ .error
    | .device _ => True

theorem Lifecycle.last {d : Device} {w : Ledger} (h : Lifecycle d w)
    (last : Option (Device × Operation × ℤ)) : Lifecycle d { w with last := last } :=
  ⟨h.count, h.range, h.on, h.off⟩

theorem deviceInit_lifecycle (config : Option DeviceConfig) (ops : Option DeviceOps)
    (context : Option ℕ) : Lifecycle (deviceInit config ops context) ⟨0, 0, none⟩ := by
  refine ⟨rfl, .inl rfl, fun h => absurd h zero_ne_one, fun _ => ?_⟩
  unfold deviceInit
  dsimp only
  split_ifs with he
  · exact ⟨.inl rfl, ⟨fun h => (nomatch h), fun h => absurd h he⟩⟩
  · exact ⟨.inr (.inr rfl), ⟨fun _ => not_not.mp he, fun _ => rfl⟩⟩

/-- What an operation other than open and close does. -/
structure Kept (d : Device) (w : Ledger) (d' : Device) (w' : Ledger) : Prop where
  lifecycle : Lifecycle d' w'
  ledger : w' = w
  stuck : d.Stuck → d'.Stuck

theorem Kept.refl {d : Device} {w : Ledger} (h : Lifecycle d w) : Kept d w d w := ⟨h, rfl, id⟩

theorem Kept.trans {d d' d'' : Device} {w w' w'' : Ledger} (h : Kept d w d' w')
    (h' : Kept d' w' d'' w'') : Kept d w d'' w'' :=
  ⟨h'.lifecycle, h'.ledger.trans h.ledger, h'.stuck ∘ h.stuck⟩

/-- `lastErrno` is nobody's business. -/
theorem Lifecycle.errno {d : Device} {w : Ledger} (h : Lifecycle d w) (e : ℕ) :
    Lifecycle { d with lastErrno := e } w := ⟨h.count, h.range, h.on, h.off⟩

theorem Kept.errno {d d' : Device} {w w' : Ledger} (h : Kept d w d' w') (e : ℕ) :
    Kept d w { d' with lastErrno := e } w' := ⟨h.lifecycle.errno e, h.ledger, h.stuck⟩

/-- A ready device is open and not stuck. -/
theorem Lifecycle.ready {d : Device} {w : Ledger} (h : Lifecycle d w) (hr : deviceReady d = none) :
    d.opened = 1 ∧ d.config.enabled ≠ 0 ∧ d.state ≠ .error := by
  obtain ⟨-, he, ho, hs⟩ := deviceReady_eq_none.mp hr
  exact ⟨h.range.resolve_left ho, he, hs⟩

/-- After a callback of an open device, the device is open or in `error`. -/
theorem Kept.callback {d : Device} {w : Ledger} (h : Lifecycle d w) (hr : deviceReady d = none)
    (r : CallResult) : Kept d w (deviceReturn d r).device w := by
  obtain ⟨ho, he, hs⟩ := h.ready hr
  refine ⟨?_, rfl, fun hstuck => absurd hstuck.2 hs⟩
  have hstate : (deviceReturn d r).device.state = .opened ∨ (deviceReturn d r).device.state = .error := by
    simp only [deviceReturn, deviceResult]
    split_ifs with h1 h2 h3
    · exact (h.on ho).2
    · exact .inr rfl
    · exact .inl rfl
    · omega
  have hsame : (deviceReturn d r).device.opened = d.opened ∧
      (deviceReturn d r).device.config = d.config := by
    simp only [deviceReturn, deviceResult]
    split_ifs <;> exact ⟨rfl, rfl⟩
  refine ⟨hsame.1.trans h.count, hsame.1 ▸ h.range, fun _ => ⟨hsame.2 ▸ he, hstate⟩, fun h0 => ?_⟩
  rw [hsame.1, ho] at h0
  cases h0

/-- An open device put into `error`. -/
theorem Kept.error {d d' : Device} {w w' : Ledger} (h : Kept d w d' w')
    (ho : d'.opened = 1 ∧ d'.config.enabled ≠ 0) : Kept d w { d' with state := .error } w' :=
  ⟨⟨h.lifecycle.count, h.lifecycle.range, fun _ => ⟨ho.2, .inr rfl⟩,
    fun h0 => absurd (ho.1.symm.trans h0) one_ne_zero⟩, h.ledger, fun _ => ⟨ho.1, rfl⟩⟩

/-! ### The operations -/

theorem onDevice_bind {α β : Type} (p : DeviceProg α) (f : α → DeviceProg β) :
    onDevice (p.bind f) = (onDevice p).bind fun a => onDevice (f a) := link_bind _ p f

section Operations

variable {d : Device} {w : Ledger}

theorem deviceControl_safe (h : Lifecycle d w) (request : DeviceControl) (argument : ControlArgument) :
    Safe backend lifecycleWatch (fun r w' => Kept d w r.device w')
      (onDevice (deviceControl d request argument)) w := by
  cases hr : deviceReady d with
  | some f =>
    obtain ⟨e, rfl⟩ := deviceReady_failure hr
    simp only [deviceControl, hr]
    exact Safe.ret_alone trivial ((Kept.refl h).errno e)
  | none =>
    simp only [deviceControl, hr]
    by_cases hc : (d.ops.all fun ops => !ops.hasControl) = true
    · rw [if_pos hc]
      exact Safe.ret_alone trivial ((Kept.refl h).errno _)
    · rw [if_neg hc]
      refine Safe.call_alone trivial ⟨h, h.ready hr⟩ fun r w' hs => ?_
      obtain rfl : w' = w := hs
      exact Safe.ret_alone trivial (Kept.callback h hr r)

theorem deviceRead_safe (h : Lifecycle d w) (buffer : Bool) (size : ℕ) :
    Safe backend lifecycleWatch
      (fun r w' => Kept d w r.1.device w' ∧ (¬ r.1.ret < 0 → r.1.device.opened = 1 ∧
        r.1.device.config.enabled ≠ 0))
      (onDevice (deviceRead d buffer size)) w := by
  cases hr : deviceReady d with
  | some f =>
    obtain ⟨e, rfl⟩ := deviceReady_failure hr
    simp only [deviceRead, hr]
    exact Safe.ret_alone trivial ⟨(Kept.refl h).errno e, fun hf => absurd (deviceFailure_ret d _) hf⟩
  | none =>
    simp only [deviceRead, hr]
    by_cases hb : (!buffer || decide (size = 0)) = true
    · rw [if_pos hb]
      exact Safe.ret_alone trivial ⟨(Kept.refl h).errno _, fun hf => absurd (deviceFailure_ret d _) hf⟩
    rw [if_neg hb]
    by_cases hc : (d.ops.all fun ops => !ops.hasRead) = true
    · rw [if_pos hc]
      exact Safe.ret_alone trivial ⟨(Kept.refl h).errno _, fun hf => absurd (deviceFailure_ret d _) hf⟩
    · rw [if_neg hc]
      refine Safe.call_alone trivial ⟨h, h.ready hr⟩ fun r w' hs => ?_
      obtain rfl : w' = w := hs
      refine Safe.ret_alone trivial ⟨Kept.callback h hr r.1, fun _ => ?_⟩
      obtain ⟨ho, he, -⟩ := h.ready hr
      simp only [deviceReturn, deviceResult]
      split_ifs <;> exact ⟨ho, he⟩

theorem deviceWrite_safe (h : Lifecycle d w) (buffer : Option (List Byte)) :
    Safe backend lifecycleWatch (fun r w' => Kept d w r.device w')
      (onDevice (deviceWrite d buffer)) w := by
  cases hr : deviceReady d with
  | some f =>
    obtain ⟨e, rfl⟩ := deviceReady_failure hr
    simp only [deviceWrite, hr]
    exact Safe.ret_alone trivial ((Kept.refl h).errno e)
  | none =>
    simp only [deviceWrite, hr]
    cases buffer with
    | none => exact Safe.ret_alone trivial ((Kept.refl h).errno _)
    | some data =>
      dsimp only
      by_cases hb : data.length = 0
      · rw [if_pos hb]
        exact Safe.ret_alone trivial ((Kept.refl h).errno _)
      rw [if_neg hb]
      by_cases hc : (d.ops.all fun ops => !ops.hasWrite) = true
      · rw [if_pos hc]
        exact Safe.ret_alone trivial ((Kept.refl h).errno _)
      · rw [if_neg hc]
        refine Safe.call_alone trivial ⟨h, h.ready hr⟩ fun r w' hs => ?_
        obtain rfl : w' = w := hs
        exact Safe.ret_alone trivial (Kept.callback h hr r)

/-- What an operation leaves. -/
structure Operated (op : Operation) (d : Device) (w : Ledger) (d' : Device) (w' : Ledger) : Prop where
  lifecycle : Lifecycle d' w'
  last : w'.last = w.last
  stuck : d.Stuck → d'.Stuck ∨ (op = .close ∧ w'.closes = w.closes + 1)

theorem Kept.operated {op : Operation} {d' : Device} {w' : Ledger} (h : Kept d w d' w') :
    Operated op d w d' w' := ⟨h.lifecycle, by rw [h.ledger], fun hs => .inl (h.stuck hs)⟩

theorem deviceOpen_safe (h : Lifecycle d w) :
    Safe backend lifecycleWatch (fun r w' => Operated .open d w r.device w')
      (onDevice (deviceOpen d)) w := by
  unfold deviceOpen
  by_cases hops : (d.ops.all fun ops => !ops.hasOpen) = true
  · rw [if_pos hops]
    exact Safe.ret_alone trivial ((Kept.refl h).errno _).operated
  rw [if_neg hops]
  by_cases he : d.config.enabled = 0
  · rw [if_pos he]
    exact Safe.ret_alone trivial ((Kept.refl h).errno _).operated
  rw [if_neg he]
  by_cases ho : d.opened ≠ 0
  · rw [if_pos ho]
    split_ifs
    · exact Safe.ret_alone trivial ((Kept.refl h).errno _).operated
    · exact Safe.ret_alone trivial ((Kept.refl h).errno 0).operated
  rw [if_neg ho]
  have ho : d.opened = 0 := not_not.mp ho
  have hstuck : ¬ d.Stuck := fun hs => by have := hs.1; omega
  obtain ⟨hoff, hdis⟩ := h.off ho
  have hd : d.state ≠ .disabled := fun h => he (hdis.mp h)
  refine Safe.call_alone trivial ⟨h, ho, he⟩ fun r w' hs => ?_
  have hcount := h.count
  rcases hs with ⟨hr, rfl⟩ | ⟨hr, rfl⟩
  · refine Safe.ret_alone trivial ⟨?_, rfl, fun hs => absurd hs hstuck⟩
    simp only [hr, if_true, deviceReturn, deviceResult, show ¬ (0 : ℤ) < 0 by decide, not_false_eq_true]
    exact ⟨by simp only; omega, .inr rfl, fun _ => ⟨he, .inl rfl⟩, fun h1 => by cases h1⟩
  · refine Safe.ret_alone trivial ⟨?_, rfl, fun hs => absurd hs hstuck⟩
    simp only [hr, show ¬ (-1 : ℤ) = 0 by decide, if_false, deviceReturn, deviceResult,
      show (-1 : ℤ) < 0 by decide, not_true_eq_false]
    split_ifs
    · exact h.errno _
    · exact ⟨h.count, h.range, fun h1 => ⟨he, .inr rfl⟩,
        fun _ => ⟨.inr (.inl rfl), ⟨fun h1 => (nomatch h1), fun h1 => absurd h1 he⟩⟩⟩

theorem deviceClose_safe (h : Lifecycle d w) :
    Safe backend lifecycleWatch (fun r w' => Operated .close d w r.device w')
      (onDevice (deviceClose d)) w := by
  unfold deviceClose
  by_cases hops : d.ops = none
  · rw [if_pos hops]
    exact Safe.ret_alone trivial ((Kept.refl h).errno _).operated
  rw [if_neg hops]
  by_cases ho : d.opened = 0
  · rw [if_pos ho]
    have hstuck : ¬ d.Stuck := fun hs => by have := hs.1; omega
    refine Safe.ret_alone trivial ⟨⟨h.count, h.range, fun h1 => ?_, fun _ => ?_⟩, rfl, fun hs => absurd hs hstuck⟩
    · simp only [ho] at h1
      cases h1
    · by_cases he : d.config.enabled = 0
      · simp [he]
      · simp [he]
  rw [if_neg ho]
  by_cases hc : (d.ops.all fun ops => !ops.hasClose) = true
  · rw [if_pos hc]
    exact Safe.ret_alone trivial ((Kept.refl h).errno _).operated
  rw [if_neg hc]
  have ho : d.opened = 1 := h.range.resolve_left ho
  obtain ⟨he, hstate⟩ := h.on ho
  refine Safe.call_alone trivial ⟨h, ho⟩ fun r w' hs => ?_
  have hcount := h.count
  rcases hs with ⟨hr, rfl⟩ | ⟨hr, rfl⟩
  · refine Safe.ret_alone trivial ⟨?_, rfl, fun _ => .inr ⟨rfl, rfl⟩⟩
    simp only [hr, if_true, deviceReturn, deviceResult, show ¬ (0 : ℤ) < 0 by decide, not_false_eq_true]
    exact ⟨by simp only; omega, .inl rfl, fun h1 => absurd h1 zero_ne_one,
      fun _ => ⟨.inl rfl, ⟨fun h1 => (nomatch h1), fun h1 => absurd h1 he⟩⟩⟩
  · refine Safe.ret_alone trivial ?_
    simp only [hr, show ¬ (-1 : ℤ) = 0 by decide, if_false, deviceReturn, deviceResult,
      show (-1 : ℤ) < 0 by decide, not_true_eq_false]
    split_ifs
    · exact ((Kept.refl h).errno _).operated
    · exact ⟨⟨h.count, h.range, fun _ => ⟨he, .inr rfl⟩, fun h1 => by simp only [ho] at h1; cases h1⟩, rfl,
        fun _ => .inl ⟨ho, rfl⟩⟩

/-! ### The serial request -/

theorem monotonicMs_safe (w : Ledger) :
    Safe backend lifecycleWatch (fun _ w' => w' = w) (onDevice monotonicMs) w := by
  unfold monotonicMs DeviceCall.callClock
  refine Safe.call_alone trivial trivial fun r w' hs => ?_
  obtain rfl : w' = w := hs
  cases r with
  | error e => exact Safe.ret_alone trivial rfl
  | ok now => exact Safe.ret_alone trivial rfl

theorem remainingMs_safe (deadline : ℤ) (w : Ledger) :
    Safe backend lifecycleWatch (fun _ w' => w' = w) (onDevice (remainingMs deadline)) w := by
  unfold remainingMs
  rw [bind_eq, onDevice_bind]
  refine Safe.bind (monotonicMs_safe w) ?_
  rintro now w' rfl -
  by_cases hnow : now.ret < 0
  · rw [if_pos hnow]
    exact Safe.ret_alone trivial rfl
  rw [if_neg hnow]
  by_cases hleft : deadline - now.ret ≤ 0
  · simp only [if_pos hleft]
    exact Safe.ret_alone trivial rfl
  · simp only [if_neg hleft]
    exact Safe.ret_alone trivial rfl

/-- A byte that was read: nothing changes but the line. -/
theorem acceptByte_device (s : Receiving) (byte : Byte) :
    (∃ s', acceptByte s byte = .inl s' ∧ s'.device = s.device) ∨
      ∃ r, acceptByte s byte = .inr r ∧ r.device = s.device := by
  unfold acceptByte
  split_ifs
  · exact .inr ⟨_, rfl, rfl⟩
  · exact .inr ⟨_, rfl, rfl⟩
  · exact .inl ⟨_, rfl, rfl⟩
  · exact .inr ⟨_, rfl, rfl⟩
  · exact .inr ⟨_, rfl, rfl⟩
  · exact .inl ⟨_, rfl, rfl⟩

/-- The device in the hands of the receive loop, and after it. -/
abbrev receivedDevice : Receiving ⊕ Received → Device
  | .inl s => s.device
  | .inr r => r.device

theorem receiveByte_safe {s : Receiving} (h : Kept d w s.device w) (deadline : ℤ) :
    Safe backend lifecycleWatch (fun x w' => Kept d w (receivedDevice x) w')
      (onDevice (receiveByte deadline s)) w := by
  unfold receiveByte
  rw [bind_eq, onDevice_bind]
  refine Safe.bind (remainingMs_safe deadline w) ?_
  rintro timeout w' rfl -
  by_cases ht : timeout.ret < 0
  · rw [if_pos ht]
    exact Safe.ret_alone trivial h
  rw [if_neg ht, bind_eq, onDevice_bind]
  refine Safe.bind (deviceControl_safe h.lifecycle _ _) fun ready w' hready _ => ?_
  obtain rfl := hready.ledger
  have hready := h.trans hready
  by_cases hr : ready.ret < 0
  · rw [if_pos hr]
    exact Safe.ret_alone trivial hready
  rw [if_neg hr]
  by_cases hz : ready.ret = 0
  · rw [if_pos hz]
    exact Safe.ret_alone trivial hready
  rw [if_neg hz, bind_eq, onDevice_bind]
  refine Safe.bind (deviceRead_safe hready.lifecycle _ _) fun result w' hresult _ => ?_
  obtain ⟨hresult, hopen⟩ := hresult
  obtain rfl := hresult.ledger
  have hresult := hready.trans hresult
  by_cases hn : result.1.ret < 0
  · rw [if_pos hn]
    by_cases ha : result.1.errno = EAGAIN ∨ result.1.errno = EWOULDBLOCK
    · rw [if_pos ha]
      exact Safe.ret_alone trivial hresult
    · rw [if_neg ha]
      exact Safe.ret_alone trivial hresult
  rw [if_neg hn]
  by_cases he : result.1.ret = 0
  · rw [if_pos he]
    -- the end of file: the device is open, and is in `error` from here on
    exact Safe.ret_alone trivial (hresult.error (hopen hn))
  · rw [if_neg he]
    rcases acceptByte_device { s with device := result.1.device } (result.2.headD 0) with
      ⟨s', hs', hd⟩ | ⟨r, hr', hd⟩
    · rw [hs']
      exact Safe.ret_alone trivial (show Kept d w' s'.device w' by rw [hd]; exact hresult)
    · rw [hr']
      exact Safe.ret_alone trivial (show Kept d w' r.device w' by rw [hd]; exact hresult)

theorem uartProtocolRequest_safe (h : Lifecycle d w) (request reply : List Byte) (size : ℕ)
    (timeoutMs : ℤ) :
    Safe backend lifecycleWatch (fun r w' => Kept d w r.device w')
      (onDevice (uartProtocolRequest d request reply size timeoutMs)) w := by
  unfold uartProtocolRequest requestFailure
  have hd := Kept.refl h
  by_cases h1 : d.config.type ≠ .uart ∨ size = 0 ∨ timeoutMs < 0
  · rw [if_pos h1]
    exact Safe.ret_alone trivial (hd.errno _)
  rw [if_neg h1]
  by_cases h2 : d.config.enabled = 0
  · rw [if_pos h2]
    exact Safe.ret_alone trivial (hd.errno _)
  rw [if_neg h2]
  by_cases h3 : d.opened = 0
  · rw [if_pos h3]
    exact Safe.ret_alone trivial (hd.errno _)
  rw [if_neg h3]
  by_cases h4 : request.length ≥ UART_PROTOCOL_LINE_SIZE
  · rw [if_pos h4]
    exact Safe.ret_alone trivial (hd.errno _)
  rw [if_neg h4]
  cases parseRequest request with
  | none => exact Safe.ret_alone trivial (hd.errno _)
  | some parsed =>
    obtain ⟨requestType, heartbeat⟩ := parsed
    dsimp only
    by_cases h5 : timeoutMs = 0
    · rw [if_pos h5]
      exact Safe.ret_alone trivial (hd.errno _)
    rw [if_neg h5, bind_eq, onDevice_bind]
    refine Safe.bind (monotonicMs_safe w) ?_
    rintro now w' rfl -
    by_cases h6 : now.ret < 0
    · rw [if_pos h6]
      exact Safe.ret_alone trivial (hd.errno _)
    rw [if_neg h6]
    rw [bind_eq, onDevice_bind]
    refine Safe.bind (deviceControl_safe h _ _) fun flush w'' hflush _ => ?_
    obtain rfl := hflush.ledger
    by_cases h7 : flush.ret < 0
    · rw [if_pos h7]
      exact Safe.ret_alone trivial (hflush.errno _)
    rw [if_neg h7, bind_eq, onDevice_bind]
    refine Safe.bind (remainingMs_safe _ w'') ?_
    rintro timeout w''' rfl -
    by_cases h8 : timeout.ret < 0
    · rw [if_pos h8]
      exact Safe.ret_alone trivial (hflush.errno _)
    rw [if_neg h8, bind_eq, onDevice_bind]
    refine Safe.bind (deviceControl_safe hflush.lifecycle _ _) fun write w₁ hwrite _ => ?_
    obtain rfl := hwrite.ledger
    have hwrite := hflush.trans hwrite
    by_cases h9 : write.ret < 0
    · rw [if_pos h9]
      exact Safe.ret_alone trivial (hwrite.errno _)
    rw [if_neg h9, bind_eq, onDevice_bind]
    have hloop : Safe backend lifecycleWatch (fun r w' => Kept d w₁ r.device w')
        (onDevice (.iter (receiveByte (now.ret + timeoutMs)) ⟨write.device, [], false⟩)) w₁ := by
      refine Safe.loop (I := fun s w' => w' = w₁ ∧ Kept d w₁ s.device w₁) (fun s => stable_alone _)
        (fun _ _ _ => trivial) ?_ ⟨rfl, hwrite⟩
      rintro s w' ⟨rfl, hs⟩
      refine (receiveByte_safe hs _).weaken fun x w' _ hx => ?_
      cases x with
      | inl s' =>
        obtain rfl := hx.ledger
        exact ⟨rfl, hx⟩
      | inr r =>
        obtain rfl := hx.ledger
        exact Safe.ret_alone trivial hx
    refine Safe.bind hloop fun received w' hreceived _ => ?_
    obtain rfl := hreceived.ledger
    cases received.line with
    | error errno => exact Safe.ret_alone trivial (hreceived.errno _)
    | ok line =>
      dsimp only
      rw [bind_eq, onDevice_bind]
      refine Safe.bind (remainingMs_safe _ w') ?_
      rintro left w'' rfl -
      by_cases h10 : left.ret < 0
      · rw [if_pos h10]
        exact Safe.ret_alone trivial (hreceived.errno _)
      rw [if_neg h10]
      by_cases h11 : (!validateReply requestType heartbeat line) = true
      · rw [if_pos h11]
        exact Safe.ret_alone trivial (hreceived.errno _)
      rw [if_neg h11]
      by_cases h12 : line.length ≥ size
      · rw [if_pos h12]
        exact Safe.ret_alone trivial (hreceived.errno _)
      · rw [if_neg h12]
        exact Safe.ret_alone trivial (hreceived.errno 0)

/-- Any operation, whatever the backend answers. -/
theorem operate_safe (h : Lifecycle d w) (op : Operation) :
    Safe backend lifecycleWatch (fun d' w' => Operated op d w d' w') (operate d op) w := by
  cases op with
  | «open» => exact (deviceOpen_safe h).bind fun r w' hr _ => Safe.ret_alone trivial hr
  | read buffer size =>
    exact (deviceRead_safe h buffer size).bind fun r w' hr _ => Safe.ret_alone trivial hr.1.operated
  | write buffer => exact (deviceWrite_safe h buffer).bind fun r w' hr _ => Safe.ret_alone trivial hr.operated
  | control request argument =>
    exact (deviceControl_safe h request argument).bind fun r w' hr _ => Safe.ret_alone trivial hr.operated
  | request line reply size timeoutMs =>
    exact (uartProtocolRequest_safe h line reply size timeoutMs).bind fun r w' hr _ =>
      Safe.ret_alone trivial hr.operated
  | close => exact (deviceClose_safe h).bind fun r w' hr _ => Safe.ret_alone trivial hr

end Operations

/-- A device is consistent with what the backend did, in every state of every
run of a client that starts with `device_init`. -/
theorem device_lifecycle (config : Option DeviceConfig) (ops : Option DeviceOps) (context : Option ℕ) :
    Safe backend lifecycleWatch (fun _ _ => True) (client (deviceInit config ops context)) ⟨0, 0, none⟩ := by
  refine Safe.loop (I := fun d w => Lifecycle d w ∧ ErrorKept d w) (fun d => stable_alone _)
    (fun _ _ _ => trivial) ?_ ⟨deviceInit_lifecycle config ops context, fun _ _ _ h => by cases h⟩
  rintro d w ⟨hd, hkept⟩
  refine Safe.call_alone trivial ⟨hd, hkept⟩ fun op w' hs => ?_
  obtain rfl : w' = { w with last := some (d, op, w.closes) } := hs
  refine Safe.bind (operate_safe (hd.last _) op) fun d' w' hop _ => Safe.ret_alone trivial ⟨hop.lifecycle, ?_⟩
  intro d₀ op₀ closes hlast hstuck
  rw [hop.last] at hlast
  obtain ⟨rfl, rfl, rfl⟩ : d = d₀ ∧ op = op₀ ∧ w.closes = closes := by simpa using hlast
  exact hop.stuck hstuck

end DeviceRuntime
