/-
# The watchdog

`src/watchdog_device.c` and `tools/watchdog_demo.c`. Opening the device starts
the watchdog. A driver with `WDIOF_MAGICCLOSE` stops it at `close` only if a
`V` was written since; one with `nowayout` never does. A process that dies
without the `V` leaves the watchdog running, so that the machine is reset.

Any call may fail, with any `errno`. `Watchdog` is what the driver keeps; the
last two fields are for the theorems, the timeout that the driver has told last
and whether a `V` could not be written since the last `open`.

The `V` is written only right before the `close`, and before every `close` of
a driver that wants it (`watchdogWatch`); so whatever is done with a device, it
is as after `watchdog_device_init` whenever it is not open, and the watchdog is
stopped (`watchdog_session`). If the demo exits with success, the watchdog is
stopped (`watchdog_demo`). Null pointers and what the demo prints are left out.

Key definitions: `WatchdogDevice`, `watchdogDeviceOpen`, `watchdogDeviceClose`,
`demoMain`, `Watchdog`, `watchdogSem`, `watchdogWatch`, `WatchdogFits`.
Key theorems: `watchdogDeviceOpen_safe`, `watchdogDeviceClose_safe`,
`watchdog_session`, `watchdog_demo`.
-/
import DeviceRuntime.Libc
import DeviceRuntime.Lib.Safe

namespace DeviceRuntime

abbrev WDIOF_SETTIMEOUT : BitVec 32 := 0x80
abbrev WDIOF_MAGICCLOSE : BitVec 32 := 0x100
abbrev WDIOS_DISABLECARD : BitVec 32 := 1

structure WatchdogInfo where
  options : BitVec 32
  firmwareVersion : BitVec 32
  identity : List Byte
deriving DecidableEq, Repr

structure WatchdogDevice where
  fd : ℤ
  info : WatchdogInfo
  timeout : ℤ
  hasInfo : Bool
deriving DecidableEq, Repr

structure SupportResult where
  ret : ℤ
  errno : ℕ
  info : WatchdogInfo
deriving DecidableEq, Repr

structure SecondsResult where
  ret : ℤ
  errno : ℕ
  value : ℤ
deriving DecidableEq, Repr

/-- `open`, the requests of `ioctl`, `write` of a `V`, and `close`. -/
inductive WatchdogCall
  | open (path : List Byte)
  | getSupport (fd : ℤ)
  | getTimeout (fd : ℤ)
  | setTimeout (fd value : ℤ)
  | keepalive (fd : ℤ)
  | getTimeleft (fd : ℤ)
  | setOptions (fd : ℤ) (options : BitVec 32)
  | writeMagic (fd : ℤ)
  | close (fd : ℤ)

abbrev WatchdogCall.Ret : WatchdogCall → Type
  | .open _ | .keepalive _ | .setOptions _ _ | .writeMagic _ | .close _ => CallResult
  | .getSupport _ => SupportResult
  | .getTimeout _ | .setTimeout _ _ | .getTimeleft _ => SecondsResult

abbrev WatchdogProg := Prog WatchdogCall WatchdogCall.Ret

/-! ### The device -/

def writeMagicClose (fd : ℤ) : WatchdogProg CallResult :=
  .iter (fun _ => .call (.writeMagic fd) fun r =>
    if r.ret = 1 then .ret (.inr ⟨0, r.errno⟩)
    else if r.ret < 0 ∧ r.errno = EINTR then .ret (.inl ())
    else if r.ret = 0 then .ret (.inr ⟨-1, EIO⟩)
    else .ret (.inr ⟨-1, r.errno⟩)) ()

def watchdogDeviceInit : WatchdogDevice := ⟨-1, ⟨0, 0, []⟩, 0, false⟩

/-- The magic close of a driver that has it. -/
def magicClose (fd : ℤ) (info : WatchdogInfo) : WatchdogProg CallResult :=
  if info.options &&& WDIOF_MAGICCLOSE ≠ 0 then writeMagicClose fd else .ret ⟨0, 0⟩

def watchdogDeviceOpen (device : WatchdogDevice) (path : List Byte) : WatchdogProg (CallResult × WatchdogDevice) :=
  if path = [] then .ret (⟨-1, EINVAL⟩, device)
  else if device.fd ≥ 0 then .ret (⟨-1, EBUSY⟩, device)
  else .call (.open path) fun fd =>
    if fd.ret < 0 then .ret (⟨-1, fd.errno⟩, device)
    else .call (.getSupport fd.ret) fun support =>
      if support.ret < 0 then
        (writeMagicClose fd.ret).bind fun _ => .call (.close fd.ret) fun _ => .ret (⟨-1, support.errno⟩, device)
      else .call (.getTimeout fd.ret) fun timeout =>
        if timeout.ret < 0 then
          (magicClose fd.ret support.info).bind fun _ => .call (.close fd.ret) fun _ =>
            .ret (⟨-1, timeout.errno⟩, device)
        else .ret (⟨0, 0⟩, ⟨fd.ret, support.info, timeout.value, true⟩)

def watchdogDeviceGetTimeout (device : WatchdogDevice) : WatchdogProg (SecondsResult × WatchdogDevice) :=
  if device.fd < 0 then .ret (⟨-1, EINVAL, 0⟩, device)
  else .call (.getTimeout device.fd) fun r =>
    if r.ret < 0 then .ret (⟨-1, r.errno, 0⟩, device)
    else .ret (⟨0, 0, r.value⟩, { device with timeout := r.value })

def watchdogDeviceSetTimeout (device : WatchdogDevice) (timeout : ℤ) : WatchdogProg (CallResult × WatchdogDevice) :=
  if device.fd < 0 ∨ timeout ≤ 0 then .ret (⟨-1, EINVAL⟩, device)
  else .call (.setTimeout device.fd timeout) fun r =>
    if r.ret < 0 then .ret (⟨-1, r.errno⟩, device)
    else .ret (⟨0, 0⟩, { device with timeout := r.value })

def watchdogDeviceKeepalive (device : WatchdogDevice) : WatchdogProg CallResult :=
  if device.fd < 0 then .ret ⟨-1, EINVAL⟩
  else .call (.keepalive device.fd) fun r => if r.ret < 0 then .ret ⟨-1, r.errno⟩ else .ret ⟨0, 0⟩

def watchdogDeviceGetTimeleft (device : WatchdogDevice) : WatchdogProg SecondsResult :=
  if device.fd < 0 then .ret ⟨-1, EINVAL, 0⟩
  else .call (.getTimeleft device.fd) fun r => if r.ret < 0 then .ret ⟨-1, r.errno, 0⟩ else .ret ⟨0, 0, r.value⟩

def watchdogDeviceDisable (device : WatchdogDevice) : WatchdogProg CallResult :=
  if device.fd < 0 then .ret ⟨-1, EINVAL⟩
  else .call (.setOptions device.fd WDIOS_DISABLECARD) fun r =>
    if r.ret < 0 then .ret ⟨-1, r.errno⟩ else .ret ⟨0, 0⟩

def watchdogDeviceClose (device : WatchdogDevice) : WatchdogProg (CallResult × WatchdogDevice) :=
  if device.fd < 0 then .ret (⟨0, 0⟩, device)
  else (if device.hasInfo then magicClose device.fd device.info else .ret ⟨0, 0⟩ : WatchdogProg CallResult).bind
    fun magic =>
    .call (.close device.fd) fun r =>
      let result : CallResult :=
        if magic.ret < 0 then ⟨-1, magic.errno⟩ else if r.ret < 0 then ⟨-1, r.errno⟩ else ⟨0, 0⟩
      .ret (result, watchdogDeviceInit)

/-! ### The demo -/

structure SleepResult where
  ret : ℤ
  errno : ℕ
  remaining : ℤ × ℤ
deriving DecidableEq, Repr

/-- `stopRequested` reads what the handler of `SIGINT` and `SIGTERM` sets. -/
inductive DemoCall
  | watchdog (c : WatchdogCall)
  | sigactionInt
  | sigactionTerm
  | nanosleep (request : ℤ × ℤ)
  | stopRequested

abbrev DemoCall.Ret : DemoCall → Type
  | .watchdog c => c.Ret
  | .sigactionInt | .sigactionTerm => CallResult
  | .nanosleep _ => SleepResult
  | .stopRequested => Bool

abbrev DemoProg := Prog DemoCall DemoCall.Ret

def onWatchdog {α : Type} (p : WatchdogProg α) : DemoProg α := p.link fun c => .call (.watchdog c) .ret

def installSignalHandlers : DemoProg ℤ :=
  .call .sigactionInt fun r =>
    if r.ret < 0 then .ret (-1)
    else .call .sigactionTerm fun r => if r.ret < 0 then .ret (-1) else .ret 0

def sleepSeconds (seconds : ℤ) : DemoProg ℤ :=
  .iter (fun request => .call (.nanosleep request) fun r =>
    if r.ret < 0 then
      if r.errno ≠ EINTR then .ret (.inr (-1))
      else .call .stopRequested fun stop => if stop then .ret (.inr 0) else .ret (.inl r.remaining)
    else .ret (.inr 0)) (seconds, 0)

def parsePositiveInt (s : List Byte) : Option ℤ :=
  let parsed := strtol s
  if parsed.erange ∨ parsed.rest ≠ [] ∨ parsed.number ≤ 0 ∨ parsed.number > 86400 then none else some parsed.number

def runInfo (device : WatchdogDevice) : DemoProg ℤ :=
  (onWatchdog (watchdogDeviceGetTimeleft device)).bind fun _ => .ret 0

/-- A turn of the loop of `run_keepalive`, with `elapsed`. -/
def keepaliveTurn (device : WatchdogDevice) (duration elapsed : ℤ) : DemoProg (ℤ ⊕ ℤ) :=
  .call .stopRequested fun stop =>
    if !stop ∧ elapsed < duration then
      (onWatchdog (watchdogDeviceKeepalive device)).bind fun r =>
        if r.ret < 0 then .ret (.inr (-1))
        else (onWatchdog (watchdogDeviceGetTimeleft device)).bind fun _ => (sleepSeconds 1).bind fun ret =>
          if ret < 0 then .ret (.inr (-1)) else .ret (.inl (elapsed + 1))
    else .ret (.inr 0)

def runKeepalive (device : WatchdogDevice) (timeout duration : ℤ) : DemoProg (ℤ × WatchdogDevice) :=
  if device.info.options &&& WDIOF_SETTIMEOUT = 0 then .ret (-1, device)
  else (onWatchdog (watchdogDeviceSetTimeout device timeout)).bind fun r =>
    if r.1.ret < 0 then .ret (-1, r.2)
    else (Prog.iter (keepaliveTurn r.2 duration) 0).bind fun ret => .ret (ret, r.2)

/-- The command of the demo, from the second argument on. -/
def demoCommand (device : WatchdogDevice) (args : List (List Byte)) : DemoProg (ℤ × WatchdogDevice) :=
  match args with
  | [command] =>
    if command = text "info" then (runInfo device).bind fun ret => .ret (ret, device) else .ret (-1, device)
  | [command, timeout, duration] =>
    if command = text "keepalive" then
      match parsePositiveInt timeout, parsePositiveInt duration with
      | some timeout, some duration => runKeepalive device timeout duration
      | _, _ => .ret (-1, device)
    else .ret (-1, device)
  | _ => .ret (-1, device)

/-- `argv` without the name of the program. -/
def demoMain (args : List (List Byte)) : DemoProg ℤ :=
  match args with
  | path :: command :: rest =>
    installSignalHandlers.bind fun ret =>
      if ret < 0 then .ret 1
      else (onWatchdog (watchdogDeviceOpen watchdogDeviceInit path)).bind fun opened =>
        if opened.1.ret < 0 then .ret 1
        else (demoCommand opened.2 (command :: rest)).bind fun result =>
          (onWatchdog (watchdogDeviceClose result.2)).bind fun closed =>
            if closed.1.ret < 0 then .ret 1 else if result.1 = 0 then .ret 0 else .ret 1
  | _ => .ret 1

/-! ### The driver -/

open Prog

structure Watchdog where
  fd : Option ℤ
  armed : Bool
  release : Bool
  options : BitVec 32
  nowayout : Bool
  reported : ℤ
  magicFailed : Bool

/-- After `open`, which starts the watchdog. No `V` has been tried yet. -/
def Watchdog.opened (w : Watchdog) (fd : ℤ) : Watchdog :=
  { w with fd := some fd, armed := true, release := false, magicFailed := false }

/-- After `close`. -/
def Watchdog.closed (w : Watchdog) : Watchdog :=
  { w with
    fd := none
    armed := w.armed && (w.nowayout || (!w.release && w.options &&& WDIOF_MAGICCLOSE ≠ 0))
    release := false }

/-- A request that tells the timeout. -/
def Watchdog.Tells (w : Watchdog) (r : SecondsResult) (w' : Watchdog) : Prop :=
  (r.ret < 0 ∧ w' = w) ∨ (0 ≤ r.ret ∧ w' = { w with reported := r.value })

/-- Only one process has the device open. -/
def watchdogSem (w : Watchdog) : (c : WatchdogCall) → c.Ret → Watchdog → Prop
  | .open _, r, w' =>
    (r.ret < 0 ∧ w' = w) ∨ (0 ≤ r.ret ∧ w.fd = none ∧ w' = w.opened r.ret)
  | .getSupport _, r, w' => (r.ret < 0 ∨ r.info.options = w.options) ∧ w' = w
  | .getTimeout _, r, w' => w.Tells r w'
  | .setTimeout _ _, r, w' => w.Tells r w'
  | .keepalive _, _, w' => w' = w
  | .getTimeleft _, _, w' => w' = w
  | .setOptions _ options, r, w' =>
    (r.ret < 0 ∧ w' = w) ∨ (0 ≤ r.ret ∧ w' = { w with armed := w.armed && options &&& WDIOS_DISABLECARD = 0 })
  | .writeMagic _, r, w' =>
    (r.ret = 1 ∧ w' = { w with release := true }) ∨ (r.ret < 0 ∧ r.errno = EINTR ∧ w' = w) ∨
      (r.ret ≤ 0 ∧ ¬ (r.ret < 0 ∧ r.errno = EINTR) ∧ w' = { w with magicFailed := true })
  | .close _, _, w' => w' = w.closed

abbrev watchdogWorld : World WatchdogCall WatchdogCall.Ret Watchdog := World.alone watchdogSem

def demoSem (w : Watchdog) : (c : DemoCall) → c.Ret → Watchdog → Prop
  | .watchdog c, r, w' => watchdogSem w c r w'
  | _, _, w' => w' = w

abbrev demoWorld : World DemoCall DemoCall.Ret Watchdog := World.alone demoSem

/-- A request finds the device open, and no `V` written before; `close` finds
that the `V` was tried if the driver wants it. `A` are the timeouts that may be
set. -/
def WatchdogUse (A : ℤ → Watchdog → Prop) (c : WatchdogCall) (w : Watchdog) : Prop :=
  match c with
  | .open _ => w.fd = none
  | .getSupport fd => w.fd = some fd ∧ w.release = false
  | .getTimeout fd => w.fd = some fd ∧ w.release = false
  | .setTimeout fd value => (w.fd = some fd ∧ w.release = false) ∧ A value w
  | .keepalive fd => w.fd = some fd ∧ w.release = false
  | .getTimeleft fd => w.fd = some fd ∧ w.release = false
  | .setOptions fd _ => w.fd = some fd ∧ w.release = false
  | .writeMagic fd => w.fd = some fd
  | .close fd => w.fd = some fd ∧ (w.options &&& WDIOF_MAGICCLOSE ≠ 0 → w.release = true ∨ w.magicFailed = true)

def watchdogWatch (A : ℤ → Watchdog → Prop) : Watch WatchdogCall Watchdog := ⟨fun _ => True, WatchdogUse A⟩

/-- At most a day, and of a driver that can set it. -/
def DemoTimeout (value : ℤ) (w : Watchdog) : Prop :=
  0 < value ∧ value ≤ 86400 ∧ w.options &&& WDIOF_SETTIMEOUT ≠ 0

def demoWatch : Watch DemoCall Watchdog where
  always := fun _ => True
  atCall c w := match c with
    | .watchdog c => WatchdogUse DemoTimeout c w
    | _ => True

/-- The watchdog runs only if it cannot be stopped, or the `V` of the last time it
was open could not be written. -/
def Disarmed (w : Watchdog) : Prop := w.armed = true → w.nowayout = true ∨ w.magicFailed = true

/-- Nobody has the device open. -/
structure AtRest (w : Watchdog) : Prop where
  fd : w.fd = none
  release : w.release = false
  disarmed : Disarmed w

structure OpenOn (device : WatchdogDevice) (w : Watchdog) : Prop where
  low : 0 ≤ device.fd
  fd : w.fd = some device.fd
  hasInfo : device.hasInfo = true
  options : device.info.options = w.options
  timeout : device.timeout = w.reported
  release : w.release = false
  untried : w.magicFailed = false

/-- The fields of the device fit the driver. -/
inductive WatchdogFits : WatchdogDevice → Watchdog → Prop
  | closed {w : Watchdog} (h : AtRest w) : WatchdogFits watchdogDeviceInit w
  | opened {device : WatchdogDevice} {w : Watchdog} (h : OpenOn device w) : WatchdogFits device w

/-- A `V` was written, could not be written, or is not wanted. -/
inductive Tried (w : Watchdog) : CallResult → Watchdog → Prop
  | written {errno : ℕ} : Tried w ⟨0, errno⟩ { w with release := true }
  | refused {errno : ℕ} : Tried w ⟨-1, errno⟩ { w with magicFailed := true }
  | unwanted {errno : ℕ} (h : w.options &&& WDIOF_MAGICCLOSE = 0) : Tried w ⟨0, errno⟩ w

section Device

variable {α : Type} {A : ℤ → Watchdog → Prop} {w : Watchdog} {device : WatchdogDevice} {fd : ℤ}

theorem OpenOn.use (h : OpenOn device w) : w.fd = some device.fd ∧ w.release = false := ⟨h.fd, h.release⟩

theorem WatchdogFits.openOn (h : WatchdogFits device w) (hfd : ¬ device.fd < 0) : OpenOn device w := by
  cases h with
  | closed _ => exact absurd (by decide) hfd
  | opened h => exact h

theorem WatchdogFits.atRest (h : WatchdogFits device w) (hfd : device.fd < 0) :
    device = watchdogDeviceInit ∧ AtRest w := by
  cases h with
  | closed h => exact ⟨rfl, h⟩
  | opened h => exact absurd h.low (not_le.mpr hfd)

theorem writeMagicClose_safe (hfd : w.fd = some fd) :
    Safe watchdogWorld (watchdogWatch A) (Tried w) (writeMagicClose fd) w := by
  unfold writeMagicClose
  apply Safe.iter (I := fun _ v => v = w) (fun _ => stable_alone _) (fun _ => stable_alone _) (fun _ _ _ => trivial)
    (fun _ _ _ => trivial)
  · rintro _ v hv
    obtain rfl : w = v := hv.symm
    apply Safe.call_alone trivial hfd
    rintro r w' (⟨hone, rfl⟩ | ⟨hneg, hintr, rfl⟩ | ⟨hnot, hother, rfl⟩)
    · rw [if_pos hone]
      exact Safe.ret_alone trivial .written
    · rw [if_neg (by omega), if_pos ⟨hneg, hintr⟩]
      exact Safe.ret_alone trivial rfl
    · rw [if_neg (by omega), if_neg hother]
      split_ifs
      · exact Safe.ret_alone trivial .refused
      · exact Safe.ret_alone trivial .refused
  · rfl

theorem magicClose_safe {info : WatchdogInfo} (hfd : w.fd = some fd) (hoptions : info.options = w.options) :
    Safe watchdogWorld (watchdogWatch A) (Tried w) (magicClose fd info) w := by
  unfold magicClose
  rw [hoptions]
  by_cases hmagic : w.options &&& WDIOF_MAGICCLOSE ≠ 0
  · rw [if_pos hmagic]
    exact writeMagicClose_safe hfd
  · rw [if_neg hmagic]
    exact Safe.ret_alone trivial (.unwanted (not_not.mp hmagic))

/-- The driver stops the watchdog if it can. -/
theorem Tried.closed {r : CallResult} {w' : Watchdog} (h : Tried w r w') :
    AtRest w'.closed ∧ (r.ret = 0 → w'.closed.magicFailed = w.magicFailed) := by
  cases h with
  | written =>
    refine ⟨⟨rfl, rfl, fun harmed => Or.inl ?_⟩, fun _ => rfl⟩
    have hleft := (Bool.and_eq_true_iff.mp harmed).2
    show w.nowayout = true
    simpa using hleft
  | refused => exact ⟨⟨rfl, rfl, fun _ => Or.inr rfl⟩, fun hzero => absurd hzero (by simp)⟩
  | unwanted hmagic =>
    refine ⟨⟨rfl, rfl, fun harmed => Or.inl ?_⟩, fun _ => rfl⟩
    have hleft := (Bool.and_eq_true_iff.mp harmed).2
    rw [hmagic] at hleft
    show w.nowayout = true
    simpa using hleft

theorem Tried.use {r : CallResult} {w' : Watchdog} (h : Tried w r w') (hfd : w.fd = some fd) :
    WatchdogUse A (.close fd) w' := by
  cases h with
  | written => exact ⟨hfd, fun _ => Or.inl rfl⟩
  | refused => exact ⟨hfd, fun _ => Or.inr rfl⟩
  | unwanted hmagic => exact ⟨hfd, fun hwanted => absurd hmagic hwanted⟩

/-- A `V` and then `close`. -/
theorem Tried.bind {Q : α → Watchdog → Prop} {p : WatchdogProg CallResult}
    {k : CallResult → CallResult → WatchdogProg α}
    (hp : Safe watchdogWorld (watchdogWatch A) (Tried w) p w) (hfd : w.fd = some fd)
    (hk : ∀ magic r w', AtRest w' → (magic.ret = 0 → w'.magicFailed = w.magicFailed) →
      (magic.ret = 0 ∨ magic.ret = -1) →
      Safe watchdogWorld (watchdogWatch A) Q (k magic r) w') :
    Safe watchdogWorld (watchdogWatch A) Q (p.bind fun magic => .call (.close fd) (k magic)) w := by
  apply hp.bind
  intro magic w' htried _
  have huse : WatchdogUse A (.close fd) w' := htried.use hfd
  apply Safe.call_alone trivial huse
  intro r w'' hs
  obtain rfl : w'' = w'.closed := hs
  obtain ⟨hrest, hkept⟩ := htried.closed
  refine hk magic r w'.closed hrest hkept ?_
  cases htried with
  | written => exact Or.inl rfl
  | refused => exact Or.inr rfl
  | unwanted => exact Or.inl rfl

/-- `open` fails with the device as it was, or leaves it open. -/
def OpenOver (device : WatchdogDevice) (r : CallResult × WatchdogDevice) (w' : Watchdog) : Prop :=
  WatchdogFits r.2 w' ∧ ((r.1.ret = 0 ∧ 0 ≤ r.2.fd) ∨ (r.1.ret = -1 ∧ r.2 = device))

theorem watchdogDeviceOpen_safe (h : WatchdogFits device w) (path : List Byte) :
    Safe watchdogWorld (watchdogWatch A) (OpenOver device) (watchdogDeviceOpen device path) w := by
  unfold watchdogDeviceOpen
  by_cases hpath : path = []
  · rw [if_pos hpath]
    exact Safe.ret_alone trivial ⟨h, Or.inr ⟨rfl, rfl⟩⟩
  rw [if_neg hpath]
  by_cases hopen : device.fd ≥ 0
  · rw [if_pos hopen]
    exact Safe.ret_alone trivial ⟨h, Or.inr ⟨rfl, rfl⟩⟩
  rw [if_neg hopen]
  obtain ⟨rfl, hrest⟩ := h.atRest (not_le.mp hopen)
  apply Safe.call_alone trivial hrest.fd
  rintro fd w₁ (⟨hneg, rfl⟩ | ⟨hlow, -, rfl⟩)
  · rw [if_pos hneg]
    exact Safe.ret_alone trivial ⟨h, Or.inr ⟨rfl, rfl⟩⟩
  rw [if_neg (not_lt.mpr hlow)]
  have hfailed : ∀ (errno : ℕ) (magic r : CallResult) (w' : Watchdog), AtRest w' →
      (magic.ret = 0 → w'.magicFailed = false) → (magic.ret = 0 ∨ magic.ret = -1) →
      Safe watchdogWorld (watchdogWatch A) (OpenOver watchdogDeviceInit)
        (.ret (⟨-1, errno⟩, watchdogDeviceInit)) w' := by
    intro errno _ _ w' hrest' _ _
    exact Safe.ret_alone trivial ⟨.closed hrest', Or.inr ⟨rfl, rfl⟩⟩
  have huse : WatchdogUse A (.getSupport fd.ret) (w.opened fd.ret) := ⟨rfl, rfl⟩
  apply Safe.call_alone trivial huse
  rintro support w₂ ⟨hoptions, rfl⟩
  by_cases hsupport : support.ret < 0
  · rw [if_pos hsupport]
    exact Tried.bind (writeMagicClose_safe rfl) rfl (hfailed support.errno)
  rw [if_neg hsupport]
  have hoptions := hoptions.resolve_left hsupport
  have huse : WatchdogUse A (.getTimeout fd.ret) (w.opened fd.ret) := ⟨rfl, rfl⟩
  apply Safe.call_alone trivial huse
  rintro timeout w₃ (⟨hneg, rfl⟩ | ⟨hpos, rfl⟩)
  · rw [if_pos hneg]
    exact Tried.bind (magicClose_safe rfl hoptions) rfl (hfailed timeout.errno)
  · rw [if_neg (not_lt.mpr hpos)]
    exact Safe.ret_alone trivial ⟨.opened ⟨hlow, rfl, rfl, hoptions, rfl, rfl, rfl⟩, Or.inl ⟨rfl, hlow⟩⟩

/-- `close` leaves the device as `watchdog_device_init` does. If it succeeds on an
open device, the `V` was written or is not wanted. -/
theorem watchdogDeviceClose_safe (h : WatchdogFits device w) :
    Safe watchdogWorld (watchdogWatch A)
      (fun r w' => r.2 = watchdogDeviceInit ∧ AtRest w' ∧ (0 ≤ r.1.ret → 0 ≤ device.fd → w'.magicFailed = false))
      (watchdogDeviceClose device) w := by
  unfold watchdogDeviceClose
  by_cases hfd : device.fd < 0
  · rw [if_pos hfd]
    obtain ⟨rfl, hrest⟩ := h.atRest hfd
    exact Safe.ret_alone trivial ⟨rfl, hrest, fun _ hlow => absurd hlow (by omega)⟩
  rw [if_neg hfd]
  have hopen := h.openOn hfd
  rw [if_pos hopen.hasInfo]
  apply Tried.bind (magicClose_safe hopen.fd hopen.options) hopen.fd
  intro magic r w' hrest hkept hret
  refine Safe.ret_alone trivial ⟨rfl, hrest, fun hzero _ => (hkept ?_).trans hopen.untried⟩
  rcases hret with hzero' | hneg
  · exact hzero'
  · rw [if_pos (by omega)] at hzero
    have hfailed : (0 : ℤ) ≤ -1 := hzero
    exact absurd hfailed (by decide)

theorem watchdogDeviceGetTimeout_safe (h : WatchdogFits device w) :
    Safe watchdogWorld (watchdogWatch A) (fun r w' => WatchdogFits r.2 w' ∧ r.2.fd = device.fd)
      (watchdogDeviceGetTimeout device) w := by
  unfold watchdogDeviceGetTimeout
  by_cases hfd : device.fd < 0
  · rw [if_pos hfd]
    exact Safe.ret_alone trivial ⟨h, rfl⟩
  rw [if_neg hfd]
  have hopen := h.openOn hfd
  apply Safe.call_alone trivial hopen.use
  rintro r w' (⟨hneg, rfl⟩ | ⟨hpos, rfl⟩)
  · rw [if_pos hneg]
    exact Safe.ret_alone trivial ⟨h, rfl⟩
  · rw [if_neg (not_lt.mpr hpos)]
    exact Safe.ret_alone trivial
      ⟨.opened ⟨hopen.low, hopen.fd, hopen.hasInfo, hopen.options, rfl, hopen.release, hopen.untried⟩, rfl⟩

theorem watchdogDeviceSetTimeout_safe (h : WatchdogFits device w) (timeout : ℤ)
    (hset : 0 ≤ device.fd → 0 < timeout → A timeout w) :
    Safe watchdogWorld (watchdogWatch A) (fun r w' => WatchdogFits r.2 w' ∧ r.2.fd = device.fd)
      (watchdogDeviceSetTimeout device timeout) w := by
  unfold watchdogDeviceSetTimeout
  by_cases hinvalid : device.fd < 0 ∨ timeout ≤ 0
  · rw [if_pos hinvalid]
    exact Safe.ret_alone trivial ⟨h, rfl⟩
  rw [if_neg hinvalid]
  have hopen := h.openOn fun hfd => hinvalid (Or.inl hfd)
  have hvalid : A timeout w := hset hopen.low (not_le.mp fun hle => hinvalid (Or.inr hle))
  have huse : WatchdogUse A (.setTimeout device.fd timeout) w := ⟨hopen.use, hvalid⟩
  apply Safe.call_alone trivial huse
  rintro r w' (⟨hneg, rfl⟩ | ⟨hpos, rfl⟩)
  · rw [if_pos hneg]
    exact Safe.ret_alone trivial ⟨h, rfl⟩
  · rw [if_neg (not_lt.mpr hpos)]
    exact Safe.ret_alone trivial
      ⟨.opened ⟨hopen.low, hopen.fd, hopen.hasInfo, hopen.options, rfl, hopen.release, hopen.untried⟩, rfl⟩

theorem watchdogDeviceKeepalive_safe (h : WatchdogFits device w) :
    Safe watchdogWorld (watchdogWatch A) (fun _ w' => w' = w) (watchdogDeviceKeepalive device) w := by
  unfold watchdogDeviceKeepalive
  split_ifs with hfd
  · exact Safe.ret_alone trivial rfl
  · apply Safe.call_alone trivial (h.openOn hfd).use
    intro r w' hs
    obtain rfl : w' = w := hs
    split_ifs
    · exact Safe.ret_alone trivial rfl
    · exact Safe.ret_alone trivial rfl

theorem watchdogDeviceGetTimeleft_safe (h : WatchdogFits device w) :
    Safe watchdogWorld (watchdogWatch A) (fun _ w' => w' = w) (watchdogDeviceGetTimeleft device) w := by
  unfold watchdogDeviceGetTimeleft
  split_ifs with hfd
  · exact Safe.ret_alone trivial rfl
  · apply Safe.call_alone trivial (h.openOn hfd).use
    intro r w' hs
    obtain rfl : w' = w := hs
    split_ifs
    · exact Safe.ret_alone trivial rfl
    · exact Safe.ret_alone trivial rfl

theorem watchdogDeviceDisable_safe (h : WatchdogFits device w) :
    Safe watchdogWorld (watchdogWatch A) (fun _ w' => WatchdogFits device w') (watchdogDeviceDisable device) w := by
  unfold watchdogDeviceDisable
  by_cases hfd : device.fd < 0
  · rw [if_pos hfd]
    exact Safe.ret_alone trivial h
  rw [if_neg hfd]
  have hopen := h.openOn hfd
  apply Safe.call_alone trivial hopen.use
  rintro r w' (⟨hneg, rfl⟩ | ⟨hpos, rfl⟩)
  · rw [if_pos hneg]
    exact Safe.ret_alone trivial h
  · rw [if_neg (not_lt.mpr hpos)]
    exact Safe.ret_alone trivial
      (.opened ⟨hopen.low, hopen.fd, hopen.hasInfo, hopen.options, hopen.timeout, hopen.release, hopen.untried⟩)

/-! ### Whatever is done with the device -/

inductive WatchdogOperation
  | open (path : List Byte)
  | getTimeout
  | setTimeout (timeout : ℤ)
  | keepalive
  | getTimeleft
  | disable
  | close

/-- The device after an operation. -/
def watchdogOperate (device : WatchdogDevice) : WatchdogOperation → WatchdogProg WatchdogDevice
  | .open path => (watchdogDeviceOpen device path).bind fun r => .ret r.2
  | .getTimeout => (watchdogDeviceGetTimeout device).bind fun r => .ret r.2
  | .setTimeout timeout => (watchdogDeviceSetTimeout device timeout).bind fun r => .ret r.2
  | .keepalive => (watchdogDeviceKeepalive device).bind fun _ => .ret device
  | .getTimeleft => (watchdogDeviceGetTimeleft device).bind fun _ => .ret device
  | .disable => (watchdogDeviceDisable device).bind fun _ => .ret device
  | .close => (watchdogDeviceClose device).bind fun r => .ret r.2

theorem watchdogOperate_safe (h : WatchdogFits device w) (operation : WatchdogOperation) :
    Safe watchdogWorld (watchdogWatch fun timeout _ => 0 < timeout) WatchdogFits
      (watchdogOperate device operation) w := by
  cases operation with
  | «open» path => exact (watchdogDeviceOpen_safe h path).map fun _ _ hover => hover.1
  | getTimeout => exact (watchdogDeviceGetTimeout_safe h).map fun _ _ hover => hover.1
  | setTimeout timeout =>
    exact (watchdogDeviceSetTimeout_safe h timeout fun _ hpos => hpos).map fun _ _ hover => hover.1
  | keepalive =>
    apply (watchdogDeviceKeepalive_safe h).map
    rintro _ _ rfl
    exact h
  | getTimeleft =>
    apply (watchdogDeviceGetTimeleft_safe h).map
    rintro _ _ rfl
    exact h
  | disable => exact (watchdogDeviceDisable_safe h).map fun _ _ hover => hover
  | close =>
    apply (watchdogDeviceClose_safe h).map
    rintro r w' ⟨hinit, hrest, -⟩
    rw [hinit]
    exact .closed hrest

/-- Any operations in any order, whatever fails: the fields of the device fit
the driver after each, requests go only to the open device, a `V` is written
only for the `close` that follows, which is not made without one if the driver
wants it, and a watchdog that is not open has been stopped, unless nothing can
stop it or its last `V` could not be written. -/
theorem watchdog_session (operations : List WatchdogOperation) (device : WatchdogDevice) (w : Watchdog)
    (h : WatchdogFits device w) :
    Safe watchdogWorld (watchdogWatch fun timeout _ => 0 < timeout) WatchdogFits
      (operations.foldlM watchdogOperate device) w :=
  Safe.foldlM (I := WatchdogFits) (fun _ => stable_alone _) (fun _ _ _ => trivial)
    (fun _ operation _ h => watchdogOperate_safe h operation) operations h

/-- A watchdog that is stopped. -/
def restingWatchdog : Watchdog := ⟨none, false, false, WDIOF_SETTIMEOUT ||| WDIOF_MAGICCLOSE, false, 60, false⟩

theorem watchdog_session_resting :
    Safe watchdogWorld (watchdogWatch fun timeout _ => 0 < timeout) WatchdogFits
      ([.open (text "/dev/watchdog"), .setTimeout 30, .keepalive, .close, .open (text "/dev/watchdog0")].foldlM
        watchdogOperate watchdogDeviceInit) restingWatchdog :=
  watchdog_session _ _ _ (.closed ⟨rfl, rfl, fun h => absurd h (by decide)⟩)

end Device

/-! ### The demo -/

section Demo

variable {w : Watchdog} {device : WatchdogDevice}

theorem onWatchdog_safe {α : Type} {Q : α → Watchdog → Prop} {p : WatchdogProg α}
    (h : Safe watchdogWorld (watchdogWatch DemoTimeout) Q p w) : Safe demoWorld demoWatch Q (onWatchdog p) w :=
  h.embed DemoCall.watchdog (fun _ r => r) (fun _ _ he => he) (fun _ _ _ _ hs => hs) (fun _ _ => trivial)
    (fun _ _ hc => hc)

theorem parsePositiveInt_bounds {s : List Byte} {value : ℤ} (h : parsePositiveInt s = some value) :
    0 < value ∧ value ≤ 86400 := by
  unfold parsePositiveInt at h
  dsimp only at h
  split_ifs at h with hbad
  obtain rfl := Option.some.inj h
  simp only [not_or] at hbad
  omega

theorem sleepSeconds_safe (seconds : ℤ) :
    Safe demoWorld demoWatch (fun _ w' => w' = w) (sleepSeconds seconds) w := by
  have honly : (sleepSeconds seconds).Only fun c => ∀ o, c ≠ .watchdog o := by
    refine ⟨fun _ => ⟨fun _ => DemoCall.noConfusion, fun r => ?_⟩, fun _ => trivial⟩
    dsimp only
    split_ifs
    · trivial
    · refine ⟨fun _ => DemoCall.noConfusion, fun stop => ?_⟩
      cases stop <;> trivial
    · trivial
  have hcall : ∀ c w', (∀ o, c ≠ DemoCall.watchdog o) → w' = w → demoWatch.atCall c w' := by
    intro c w' hc _
    cases c with
    | watchdog o => exact absurd rfl (hc o)
    | _ => trivial
  have hsem : ∀ c w' (r : DemoCall.Ret c) w'', (∀ o, c ≠ DemoCall.watchdog o) → w' = w → demoSem w' c r w'' →
      w'' = w := by
    rintro c _ r w'' hc rfl hs
    cases c with
    | watchdog o => exact absurd rfl (hc o)
    | _ => exact hs
  exact Only.safe (stable_alone _) (fun _ _ => trivial) hcall hsem honly rfl

theorem keepaliveLoop_safe (h : WatchdogFits device w) (duration : ℤ) :
    Safe demoWorld demoWatch (fun _ w' => w' = w) (Prog.iter (keepaliveTurn device duration) 0) w := by
  apply Safe.iter (I := fun _ w' => w' = w) (fun _ => stable_alone _) (fun _ => stable_alone _) (fun _ _ _ => trivial)
    (fun _ _ _ => trivial)
  · intro elapsed v hv
    obtain rfl : w = v := hv.symm
    unfold keepaliveTurn
    apply Safe.call_alone trivial trivial
    intro stop w₁ hs
    obtain rfl : w₁ = w := hs
    split_ifs
    · apply (onWatchdog_safe (watchdogDeviceKeepalive_safe h)).bind
      rintro r _ rfl _
      split_ifs
      · exact Safe.ret_alone trivial rfl
      · apply (onWatchdog_safe (watchdogDeviceGetTimeleft_safe h)).bind
        rintro _ _ rfl _
        apply (sleepSeconds_safe 1).bind
        rintro ret _ rfl _
        split_ifs
        · exact Safe.ret_alone trivial rfl
        · exact Safe.ret_alone trivial rfl
    · exact Safe.ret_alone trivial rfl
  · rfl

theorem installSignalHandlers_safe (w : Watchdog) :
    Safe demoWorld demoWatch (fun _ w' => w' = w) installSignalHandlers w := by
  unfold installSignalHandlers
  apply Safe.call_alone trivial trivial
  intro r w₁ hs
  obtain rfl : w₁ = w := hs
  split_ifs
  · exact Safe.ret_alone trivial rfl
  · apply Safe.call_alone trivial trivial
    intro r' w₂ hs
    obtain rfl : w₂ = w₁ := hs
    split_ifs
    · exact Safe.ret_alone trivial rfl
    · exact Safe.ret_alone trivial rfl

/-- A command leaves the device open, for `close`. -/
def CommandOver (device : WatchdogDevice) (r : ℤ × WatchdogDevice) (w' : Watchdog) : Prop :=
  WatchdogFits r.2 w' ∧ r.2.fd = device.fd

theorem runKeepalive_safe (h : WatchdogFits device w) {timeout : ℤ} (htimeout : timeout ≤ 86400) (duration : ℤ) :
    Safe demoWorld demoWatch (CommandOver device) (runKeepalive device timeout duration) w := by
  unfold runKeepalive
  by_cases hset : device.info.options &&& WDIOF_SETTIMEOUT = 0
  · rw [if_pos hset]
    exact Safe.ret_alone trivial ⟨h, rfl⟩
  rw [if_neg hset]
  have hvalid : 0 ≤ device.fd → 0 < timeout → DemoTimeout timeout w := by
    intro hfd hpos
    rw [(h.openOn (not_lt.mpr hfd)).options] at hset
    exact ⟨hpos, htimeout, hset⟩
  apply (onWatchdog_safe (watchdogDeviceSetTimeout_safe h timeout hvalid)).bind
  rintro r w₁ ⟨hfits, hkept⟩ _
  split_ifs
  · exact Safe.ret_alone trivial ⟨hfits, hkept⟩
  · apply (keepaliveLoop_safe hfits duration).bind
    rintro ret _ rfl _
    exact Safe.ret_alone trivial ⟨hfits, hkept⟩

theorem demoCommand_safe (h : WatchdogFits device w) (args : List (List Byte)) :
    Safe demoWorld demoWatch (CommandOver device) (demoCommand device args) w := by
  have hsame : Safe demoWorld demoWatch (CommandOver device) (.ret (-1, device)) w := Safe.ret_alone trivial ⟨h, rfl⟩
  unfold demoCommand
  split
  · split_ifs
    · unfold runInfo
      rw [bind_assoc]
      apply (onWatchdog_safe (watchdogDeviceGetTimeleft_safe h)).bind
      rintro _ _ rfl _
      exact Safe.ret_alone trivial ⟨h, rfl⟩
    · exact hsame
  · split_ifs
    · split
      · exact runKeepalive_safe h (parsePositiveInt_bounds (by assumption)).2 _
      · exact hsame
    · exact hsame
  · exact hsame

/-- The device was closed, and a success means that the watchdog is stopped if
it can be. -/
def DemoOver (status : ℤ) (w : Watchdog) : Prop := AtRest w ∧ (status = 0 → w.armed = true → w.nowayout = true)

/-- Whatever its arguments, whatever fails and whenever it is stopped: the demo
keeps the rules of the device, sets only timeouts that it has read as such, and
if it ends with success the watchdog is stopped, unless nothing can stop it. -/
theorem watchdog_demo (args : List (List Byte)) (w : Watchdog) (h : AtRest w) :
    Safe demoWorld demoWatch DemoOver (demoMain args) w := by
  have hfailed : ∀ w', AtRest w' → Safe demoWorld demoWatch DemoOver (.ret 1) w' :=
    fun w' hrest => Safe.ret_alone trivial ⟨hrest, fun hzero => absurd hzero (by decide)⟩
  unfold demoMain
  split
  · rename_i path command rest
    apply (installSignalHandlers_safe w).bind
    rintro ret _ rfl _
    split_ifs
    · exact hfailed _ h
    apply (onWatchdog_safe (watchdogDeviceOpen_safe (.closed h) path)).bind
    rintro opened w₁ ⟨hfits₁, hopened⟩ _
    by_cases hopen : opened.1.ret < 0
    · rw [if_pos hopen]
      rcases hopened with ⟨hzero, -⟩ | ⟨-, hdevice⟩
      · omega
      · rw [hdevice] at hfits₁
        exact hfailed w₁ (hfits₁.atRest (by decide)).2
    rw [if_neg hopen]
    have hlow : 0 ≤ opened.2.fd := by
      rcases hopened with ⟨-, hlow⟩ | ⟨hneg, -⟩
      · exact hlow
      · omega
    apply (demoCommand_safe hfits₁ (command :: rest)).bind
    rintro result w₂ ⟨hfits₂, hsame⟩ _
    apply (onWatchdog_safe (watchdogDeviceClose_safe hfits₂)).bind
    rintro closed w₃ ⟨-, hrest, hwritten⟩ _
    by_cases hclosed : closed.1.ret < 0
    · rw [if_pos hclosed]
      exact hfailed w₃ hrest
    rw [if_neg hclosed]
    split_ifs
    · refine Safe.ret_alone trivial ⟨hrest, fun _ harmed => (hrest.disarmed harmed).resolve_right ?_⟩
      have hmagic : w₃.magicFailed = false := hwritten (not_lt.mp hclosed) (by omega)
      rw [hmagic]
      decide
    · exact hfailed w₃ hrest
  · exact hfailed w h

theorem watchdog_demo_keepalive :
    Safe demoWorld demoWatch DemoOver (demoMain [text "/dev/watchdog", text "keepalive", text "30", text "600"])
      restingWatchdog :=
  watchdog_demo _ _ ⟨rfl, rfl, fun h => absurd h (by decide)⟩

end Demo

end DeviceRuntime
