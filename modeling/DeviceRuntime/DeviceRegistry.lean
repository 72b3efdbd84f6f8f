/-
# The device registry

A client that may do anything with one manager: register, load, open and
close its devices, close all of them and destroy the manager, in any order,
with any file system at each load and any answer of the backends and of
`calloc`. `Heap` keeps the contexts that `calloc` gave and those that were
released.

`Registry` is what holds whenever the client holds the manager. `Owned` says
that the contexts in somebody's hands are exactly the ones created and not
released; every function of the manager hands its part of them on.

Key definitions: `ManagerOperation`, `registryClient`, `Heap`, `Owned`,
`Registry`, `Outcome`, `registryWatch`.
Key theorems: `loadDevices_safe`, `manage_safe`, `device_registry`.
-/
import DeviceRuntime.ConfigLanguage
import DeviceRuntime.DeviceManager
import DeviceRuntime.Lib.Safe

namespace DeviceRuntime

open Prog

/-- A table of the caller, not one of `device_backend.c`. -/
abbrev CallerOps := {ops : DeviceOps // ops.table.isCaller = true}

/-- What a client can do with a manager. -/
inductive ManagerOperation
  | register (config : Option DeviceConfig) (ops : Option CallerOps) (context : Option ℕ)
  | load (files : List Byte → Except ℕ ConfigFile) (filename : List Byte)
  | open (index : ℕ)
  | close (index : ℕ)
  | closeAll
  | destroy

/-- A function of the device layer on the device `device_manager_get` finds. -/
def onIndex (m : DeviceManager) (index : ℕ) (f : Device → DeviceProg DeviceResult) :
    ManagerProg (CallResult × DeviceManager) :=
  match deviceManagerGet m index with
  | none => .ret (⟨-1, EINVAL⟩, m)
  | some d => (onDevices (f d)).bind fun r => .ret (⟨r.ret, r.errno⟩, m.set index r.device)

/-- Carry out an operation; what it leaves is the manager. -/
def manage (m : DeviceManager) : ManagerOperation → ManagerProg (CallResult × DeviceManager)
  | .register config ops context => .ret (deviceManagerRegister m config (ops.map Subtype.val) context)
  | .load files filename => deviceManagerLoad m files filename
  | .open index => onIndex m index deviceOpen
  | .close index => onIndex m index deviceClose
  | .closeAll => deviceManagerCloseAll m
  | .destroy => (deviceManagerDestroy m).bind fun m => .ret (⟨0, 0⟩, m)

/-- The client holds the manager and is told what to do next, an operation has
returned, or it calls out. -/
inductive RegistryCall
  | idle (m : DeviceManager)
  | returned (m₀ : DeviceManager) (op : ManagerOperation) (r : CallResult) (m : DeviceManager)
  | manager (c : ManagerCall)

abbrev RegistryCall.Ret : RegistryCall → Type
  | .idle _ => ManagerOperation
  | .returned _ _ _ _ => Unit
  | .manager c => c.Ret

abbrev RegistryProg := Prog RegistryCall RegistryCall.Ret

/-- An operation of the manager, in the client. -/
def onManager {α : Type} (p : ManagerProg α) : RegistryProg α := p.link fun c => .call (.manager c) .ret

/-- Operation after operation on the same manager, for ever. -/
def registryClient (m : DeviceManager) : RegistryProg Empty :=
  .iter (fun m => .call (.idle m) fun op => (onManager (manage m op)).bind fun r =>
    .call (.returned m op r.1 r.2) fun _ => .ret (.inl r.2)) m

/-! ### The heap -/

/-- The contexts that were created and those that were released, in the
order in which that happened, the last one first. -/
structure Heap where
  created : List ℕ
  released : List ℕ

/-- `calloc` gives a context that was never given before, or fails; the
callbacks do not touch contexts. -/
def heapSem : Heap → (c : ManagerCall) → c.Ret → Heap → Prop
  | w, .device _, _, w' => w' = w
  | w, .calloc _, .ok context, w' => context ∉ w.created ∧ w' = { w with created := context :: w.created }
  | w, .calloc _, .error _, w' => w' = w
  | w, .free none, _, w' => w' = w
  | w, .free (some context), _, w' => w' = { w with released := context :: w.released }

abbrev heap : World ManagerCall ManagerCall.Ret Heap := .alone heapSem

def registrySem : Heap → (c : RegistryCall) → c.Ret → Heap → Prop
  | w, .idle _, _, w' => w' = w
  | w, .returned _ _ _ _, _, w' => w' = w
  | w, .manager c, r, w' => heapSem w c r w'

abbrev registry : World RegistryCall RegistryCall.Ret Heap := .alone registrySem

/-- The contexts `cs` are the ones created and not yet released. -/
structure Owned (cs : List ℕ) (w : Heap) : Prop where
  fresh : w.created.Nodup
  perm : (w.released ++ cs).Perm w.created

/-- The context `device_backend_init` made for a device. -/
def Device.owned (d : Device) : Option ℕ :=
  d.ops.bind fun ops => if ops.table.isCaller then none else d.context

def owned (ds : List Device) : List ℕ := ds.filterMap Device.owned

/-- A device with a table, whose context is the caller's or is destroyed with
the device. -/
def Device.Backed (d : Device) : Prop := ∃ ops, d.ops = some ops ∧ (ops.table.isCaller = true ∨ ops.hasDestroy = true)

/-- The manager is consistent with the heap. -/
structure Registry (m : DeviceManager) (w : Heap) : Prop where
  distinct : (m.devices.map fun d => d.config.name).Nodup
  valid : ∀ d ∈ m.devices, deviceConfigValidate d.config = true
  backed : ∀ d ∈ m.devices, d.Backed
  contexts : Owned (owned m.devices) w

/-- The devices of a list of configurations, none of them open. -/
structure Loaded (list : List DeviceConfig) (ds : List Device) : Prop where
  configs : ds.map Device.config = list
  closed : ∀ d ∈ ds, d.opened = 0 ∧ d.state = if d.config.enabled ≠ 0 then .closed else .disabled

/-- What an operation that returned `r` has done to the manager `m₀`. -/
def Outcome (m₀ : DeviceManager) (op : ManagerOperation) (r : CallResult) (m : DeviceManager) (w : Heap) : Prop :=
  match op with
  | .register _ _ _ => r.ret ≠ 0 → m = m₀
  | .load files filename =>
    (r.ret ≠ 0 → m = m₀) ∧ ((∃ d ∈ m₀.devices, d.opened ≠ 0) → r.ret ≠ 0) ∧
      (r.ret = 0 → ∃ content list, files filename = .ok ⟨content, false, none⟩ ∧ FileOk content list ∧
        Loaded list m.devices)
  | .destroy => m.devices = [] ∧ w.released.Perm w.created
  | _ => True

/-- A context is released if it was created and not released before. -/
def managerWatch : Watch ManagerCall Heap where
  always _ := True
  atCall c w := match c with
    | .free (some context) => context ∈ w.created ∧ context ∉ w.released
    | _ => True

/-- What holds whenever the client holds the manager, when an operation has
returned, and when a context is released. -/
def registryWatch : Watch RegistryCall Heap where
  always _ := True
  atCall c w := match c with
    | .idle m => Registry m w
    | .returned m₀ op r m => Registry m w ∧ Outcome m₀ op r m w
    | .manager c => managerWatch.atCall c w

/-! ### Contexts -/

theorem Owned.of_perm {cs cs' : List ℕ} {w : Heap} (h : Owned cs w) (hp : cs.Perm cs') : Owned cs' w :=
  ⟨h.fresh, (hp.symm.append_left _).trans h.perm⟩

/-- A context in somebody's hands may be released. -/
theorem Owned.live {c : ℕ} {cs : List ℕ} {w : Heap} (h : Owned (c :: cs) w) : c ∈ w.created ∧ c ∉ w.released := by
  have hnodup : (w.released ++ c :: cs).Nodup := h.perm.nodup_iff.mpr h.fresh
  refine ⟨h.perm.mem_iff.mp (List.mem_append_right _ List.mem_cons_self), fun hmem => ?_⟩
  exact (List.nodup_append.mp hnodup).2.2 c hmem c List.mem_cons_self rfl

theorem Owned.release {c : ℕ} {cs : List ℕ} {w : Heap} (h : Owned (c :: cs) w) :
    Owned cs { w with released := c :: w.released } :=
  ⟨h.fresh, List.perm_middle.symm.trans h.perm⟩

theorem Owned.create {c : ℕ} {cs : List ℕ} {w : Heap} (h : Owned cs w) (hc : c ∉ w.created) :
    Owned (c :: cs) { w with created := c :: w.created } :=
  ⟨List.nodup_cons.mpr ⟨hc, h.fresh⟩, List.perm_middle.trans (h.perm.cons c)⟩

/-! ### The device layer -/

/-- What the functions of the device layer leave alone. -/
structure Same (d d' : Device) : Prop where
  config : d'.config = d.config
  ops : d'.ops = d.ops
  context : d'.context = d.context

theorem deviceResult_same (d : Device) (r : CallResult) : Same d (deviceResult d r) := by
  unfold deviceResult
  split_ifs <;> exact ⟨rfl, rfl, rfl⟩

section Functions

variable {w : Heap}

theorem deviceOpen_same (d : Device) :
    Safe heap managerWatch (fun r w' => Same d r.device ∧ w' = w) (onDevices (deviceOpen d)) w := by
  unfold deviceOpen
  by_cases hops : (d.ops.all fun ops => !ops.hasOpen) = true
  · rw [if_pos hops]
    exact Safe.ret_alone trivial ⟨⟨rfl, rfl, rfl⟩, rfl⟩
  rw [if_neg hops]
  by_cases he : d.config.enabled = 0
  · rw [if_pos he]
    exact Safe.ret_alone trivial ⟨⟨rfl, rfl, rfl⟩, rfl⟩
  rw [if_neg he]
  by_cases ho : d.opened ≠ 0
  · rw [if_pos ho]
    split_ifs <;> exact Safe.ret_alone trivial ⟨⟨rfl, rfl, rfl⟩, rfl⟩
  rw [if_neg ho]
  refine Safe.call_alone trivial trivial fun r w' hs => Safe.ret_alone trivial ⟨?_, hs⟩
  have hsame := deviceResult_same (if r.ret = 0 then { d with opened := 1 } else d) r
  exact ⟨hsame.config.trans (by split_ifs <;> rfl), hsame.ops.trans (by split_ifs <;> rfl),
    hsame.context.trans (by split_ifs <;> rfl)⟩

theorem deviceClose_same (d : Device) :
    Safe heap managerWatch (fun r w' => Same d r.device ∧ w' = w) (onDevices (deviceClose d)) w := by
  unfold deviceClose
  by_cases hops : d.ops = none
  · rw [if_pos hops]
    exact Safe.ret_alone trivial ⟨⟨rfl, rfl, rfl⟩, rfl⟩
  rw [if_neg hops]
  by_cases ho : d.opened = 0
  · rw [if_pos ho]
    exact Safe.ret_alone trivial ⟨⟨rfl, rfl, rfl⟩, rfl⟩
  rw [if_neg ho]
  by_cases hc : (d.ops.all fun ops => !ops.hasClose) = true
  · rw [if_pos hc]
    exact Safe.ret_alone trivial ⟨⟨rfl, rfl, rfl⟩, rfl⟩
  rw [if_neg hc]
  refine Safe.call_alone trivial trivial fun r w' hs => Safe.ret_alone trivial ⟨?_, hs⟩
  have hsame := deviceResult_same (if r.ret = 0 then { d with opened := 0 } else d) r
  exact ⟨hsame.config.trans (by split_ifs <;> rfl), hsame.ops.trans (by split_ifs <;> rfl),
    hsame.context.trans (by split_ifs <;> rfl)⟩

theorem Same.owned {d d' : Device} (h : Same d d') : d'.owned = d.owned := by
  unfold Device.owned
  rw [h.ops, h.context]

theorem onDevices_bind {α β : Type} (p : DeviceProg α) (f : α → DeviceProg β) :
    onDevices (p.bind f) = (onDevices p).bind fun a => onDevices (f a) := link_bind _ p f

/-! ### Destroying devices -/

/-- The destructor of a backend releases the context of the device. -/
theorem backendDestroy_safe {d : Device} {cs : List ℕ} (h : Owned (d.context.toList ++ cs) w) :
    Safe heap managerWatch (fun _ w' => Owned cs w') (backendDestroy d) w := by
  have hfree : ∀ w, Owned (d.context.toList ++ cs) w →
      Safe heap managerWatch (fun _ w' => Owned cs w') (.call (.free d.context) .ret) w := by
    intro w h
    cases hc : d.context with
    | none =>
      rw [hc] at h
      refine Safe.call_alone trivial trivial fun r w' hs => Safe.ret_alone trivial ?_
      obtain rfl : w' = w := hs
      exact h
    | some c =>
      rw [hc] at h
      have h : Owned (c :: cs) w := h
      refine Safe.call_alone trivial h.live fun r w' hs => Safe.ret_alone trivial ?_
      obtain rfl : w' = { w with released := c :: w.released } := hs
      exact h.release
  unfold backendDestroy
  by_cases hclose : d.ops.any (·.hasClose) = true
  · rw [if_pos hclose]
    refine Safe.call_alone trivial trivial fun r w' hs => ?_
    obtain rfl : w' = w := hs
    exact hfree w' h
  · rw [if_neg hclose]
    exact hfree w h

theorem deviceDestroy_safe {d : Device} {cs : List ℕ} (hd : d.Backed) (h : Owned (d.owned.toList ++ cs) w) :
    Safe heap managerWatch (fun _ w' => Owned cs w') (onDevices (deviceDestroy d)) w := by
  obtain ⟨ops, hops, hback⟩ := hd
  unfold deviceDestroy
  rw [if_pos (by rw [hops]; rfl), bind_eq, onDevices_bind]
  refine (deviceClose_same d).bind fun r w' hr _ => ?_
  obtain ⟨hsame, rfl⟩ := hr
  have hops' : r.device.ops = some ops := hsame.ops.trans hops
  rw [← hsame.owned] at h
  by_cases hcaller : ops.table.isCaller = true
  · have howned : r.device.owned = none := by simp only [Device.owned, hops', Option.bind_some, if_pos hcaller]
    rw [howned] at h
    by_cases hdestroy : r.device.ops.any (·.hasDestroy) = true
    · rw [if_pos hdestroy]
      have hcall : onDevices (DeviceCall.callDestroy r.device) =
          .call (.device (.backendDestroy r.device)) .ret := by
        simp only [onDevices, DeviceCall.callDestroy, link_call, deviceCallback, hops', Option.all_some, hcaller,
          if_true, link_ret, call_bind, ret_bind]
      rw [hcall]
      refine Safe.call_alone trivial trivial fun r w'' hs => Safe.ret_alone trivial ?_
      obtain rfl : w'' = w' := hs
      exact h
    · rw [if_neg hdestroy]
      exact Safe.ret_alone trivial h
  · have howned : r.device.owned = r.device.context := by
      simp only [Device.owned, hops', Option.bind_some, if_neg hcaller]
    rw [howned] at h
    have hdestroy : r.device.ops.any (·.hasDestroy) = true := by
      rw [hops']
      exact hback.resolve_left hcaller
    have hcall : onDevices (DeviceCall.callDestroy r.device) =
        (backendDestroy r.device).bind fun r => .ret r := by
      simp only [onDevices, DeviceCall.callDestroy, link_call, deviceCallback, hops', Option.all_some, hcaller,
        link_ret, if_neg, Bool.false_eq_true, not_false_eq_true]
    rw [if_pos hdestroy, hcall]
    exact (backendDestroy_safe h).bind fun r w'' hr _ => Safe.ret_alone trivial hr

theorem owned_cons (d : Device) (ds : List Device) : owned (d :: ds) = d.owned.toList ++ owned ds := by
  unfold owned
  cases hd : d.owned with
  | none => rw [List.filterMap_cons_none hd]; rfl
  | some c => rw [List.filterMap_cons_some hd]; rfl

/-- Destroying devices releases the contexts they own, each once. -/
theorem destroyDevices_safe {cs : List ℕ} : ∀ {ds : List Device} {w : Heap}, (∀ d ∈ ds, d.Backed) →
    Owned (owned ds ++ cs) w →
    Safe heap managerWatch (fun _ w' => Owned cs w') (destroyDevices ds) w
  | [], w, _, h => Safe.ret_alone trivial h
  | d :: ds, w, hds, h => by
    obtain ⟨hd, hds⟩ := List.forall_mem_cons.mp hds
    rw [owned_cons, List.append_assoc] at h
    exact (deviceDestroy_safe hd h).bind fun _ w' hw' _ => destroyDevices_safe hds hw'

theorem deviceManagerDestroy_safe {m : DeviceManager} {cs : List ℕ} (hm : ∀ d ∈ m.devices, d.Backed)
    (h : Owned (owned m.devices ++ cs) w) :
    Safe heap managerWatch (fun m' w' => m' = deviceManagerInit ∧ Owned cs w') (deviceManagerDestroy m) w :=
  (destroyDevices_safe hm h).bind fun _ _ hw' _ => Safe.ret_alone trivial ⟨rfl, hw'⟩

/-! ### Loading -/

/-- A device as `device_backend_init` leaves it. -/
structure Initialised (d : Device) : Prop where
  valid : deviceConfigValidate d.config = true
  closed : d.opened = 0 ∧ d.state = if d.config.enabled ≠ 0 then .closed else .disabled
  backed : d.Backed

theorem backendOps_backed (type : DeviceType) :
    (backendOps type).table.isCaller = false ∧ (backendOps type).hasDestroy = true := by
  cases type <;> exact ⟨rfl, rfl⟩

/-- A device and its context, or neither. -/
theorem deviceBackendInit_safe {cs : List ℕ} (config : DeviceConfig) (h : Owned cs w) :
    Safe heap managerWatch (fun r w' => match r with
      | .error _ => Owned cs w'
      | .ok d => d.config = config ∧ Initialised d ∧ Owned (d.owned.toList ++ cs) w')
      (deviceBackendInit config) w := by
  unfold deviceBackendInit
  by_cases hvalid : (!deviceConfigValidate config) = true
  · rw [if_pos hvalid]
    exact Safe.ret_alone trivial h
  rw [if_neg hvalid]
  have hvalid : deviceConfigValidate config = true := by simpa using hvalid
  refine Safe.call_alone trivial trivial fun r w' hs => ?_
  cases r with
  | error e =>
    obtain rfl : w' = w := hs
    exact Safe.ret_alone trivial h
  | ok c =>
    obtain ⟨hc, rfl⟩ : c ∉ w.created ∧ w' = { w with created := c :: w.created } := hs
    have hcreate := h.create hc
    rw [ret_bind]
    dsimp only
    by_cases hpath : config.type = .led ∧ (brightnessPath config.ledName).length ≥ BRIGHTNESS_PATH_SIZE
    · rw [if_pos hpath]
      refine Safe.call_alone trivial hcreate.live fun r w' hs => Safe.ret_alone trivial ?_
      obtain rfl := hs
      exact hcreate.release
    · rw [if_neg hpath]
      obtain ⟨htable, hdestroy⟩ := backendOps_backed config.type
      have howned : (deviceInit (some config) (some (backendOps config.type)) (some c)).owned = some c := by
        simp only [Device.owned, deviceInit, Option.bind_some, htable, Bool.false_eq_true, if_false]
      refine Safe.ret_alone trivial ⟨rfl, ⟨hvalid, ⟨rfl, rfl⟩, _, rfl, .inr hdestroy⟩, ?_⟩
      rw [howned]
      exact hcreate

theorem owned_append (ds ds' : List Device) : owned (ds ++ ds') = owned ds ++ owned ds' := List.filterMap_append

/-- The devices of the configurations, or none of them. -/
theorem loadDevices_safe {cs : List ℕ} : ∀ {configs : List DeviceConfig} {temporary : DeviceManager} {w : Heap}
    (hlen : temporary.devices.length + configs.length ≤ DEVICE_MAX_COUNT),
    (∀ d ∈ temporary.devices, Initialised d) → Owned (owned temporary.devices ++ cs) w →
    Safe heap managerWatch (fun r w' => match r with
      | .error _ => Owned cs w'
      | .ok m => m.devices.map Device.config = temporary.devices.map Device.config ++ configs ∧
          (∀ d ∈ m.devices, Initialised d) ∧ Owned (owned m.devices ++ cs) w')
      (loadDevices temporary configs hlen) w
  | [], temporary, w, hlen, hdone, h => Safe.ret_alone trivial ⟨(List.append_nil _).symm, hdone, h⟩
  | config :: configs, temporary, w, hlen, hdone, h => by
    unfold loadDevices
    refine (deviceBackendInit_safe config h).bind fun r w' hr _ => ?_
    cases r with
    | error e =>
      exact (deviceManagerDestroy_safe (fun d hd => (hdone d hd).backed) hr).bind fun _ w'' hw'' _ =>
        Safe.ret_alone trivial hw''.2
    | ok d =>
      obtain ⟨rfl, hd, hr⟩ := hr
      have hdone' : ∀ d' ∈ temporary.devices ++ [d], Initialised d' := by
        intro d' hd'
        rcases List.mem_append.mp hd' with hd' | hd'
        · exact hdone d' hd'
        · rw [List.mem_singleton.mp hd']
          exact hd
      have howned : Owned (owned (temporary.devices ++ [d]) ++ cs) w' := by
        refine hr.of_perm ?_
        rw [owned_append, owned_cons, show owned [] = [] from rfl, List.append_nil, ← List.append_assoc]
        exact List.perm_append_comm.append_right cs
      refine (loadDevices_safe _ hdone' howned).weaken fun r w'' _ hr => ?_
      cases r with
      | error e => exact hr
      | ok m =>
        rw [List.map_append, List.append_assoc] at hr
        exact hr

/-! ### The operations -/

/-- What an operation leaves. -/
def Managed (m₀ : DeviceManager) (op : ManagerOperation) (r : CallResult × DeviceManager) (w : Heap) : Prop :=
  Registry r.2 w ∧ Outcome m₀ op r.1 r.2 w

/-- Distinct names are a property of the configurations. -/
theorem names_eq (ds : List Device) :
    ds.map (fun d => d.config.name) = (ds.map Device.config).map DeviceConfig.name := by
  rw [List.map_map]
  rfl

theorem deviceManagerLoad_safe {m : DeviceManager} (h : Registry m w)
    (files : List Byte → Except ℕ ConfigFile) (filename : List Byte) :
    Safe heap managerWatch (Managed m (.load files filename)) (deviceManagerLoad m files filename) w := by
  have hfail : ∀ e w, Registry m w → Managed m (.load files filename) (⟨-1, e⟩, m) w := fun e w h =>
    ⟨h, fun _ => rfl, fun _ => (by decide : (-1 : ℤ) ≠ 0), fun hr => absurd hr (by decide : ¬ (-1 : ℤ) = 0)⟩
  unfold deviceManagerLoad
  by_cases hopen : m.devices.any (fun device => device.opened ≠ 0) = true
  · rw [if_pos hopen]
    exact Safe.ret_alone trivial (hfail _ _ h)
  rw [if_neg hopen]
  have hclosed : ¬ ∃ d ∈ m.devices, d.opened ≠ 0 := by
    rintro ⟨d, hd, ho⟩
    exact hopen (List.any_eq_true.mpr ⟨d, hd, by simpa using ho⟩)
  dsimp only
  rcases deviceConfigLoad_cases files ⟨[], Nat.zero_le _⟩ filename with ⟨hret, -⟩ | ⟨hret, content, hfile, hok⟩
  · rw [if_pos (by omega)]
    exact Safe.ret_alone trivial (hfail _ _ h)
  rw [if_neg (by omega)]
  have hempty : ∀ d ∈ deviceManagerInit.devices, Initialised d := fun d hd => absurd hd List.not_mem_nil
  refine (loadDevices_safe _ hempty h.contexts).bind fun r w' hr _ => ?_
  cases r with
  | error e => exact Safe.ret_alone trivial (hfail _ _ ⟨h.distinct, h.valid, h.backed, hr⟩)
  | ok temporary =>
    obtain ⟨hconfigs, hinit, howned⟩ := hr
    have hconfigs : temporary.devices.map Device.config =
        (deviceConfigLoad files ⟨[], Nat.zero_le _⟩ filename).list.devices := hconfigs
    have howned' : Owned (owned m.devices ++ owned temporary.devices) w' :=
      howned.of_perm List.perm_append_comm
    refine (deviceManagerDestroy_safe h.backed howned').bind fun _ w'' hw'' _ => Safe.ret_alone trivial ?_
    refine ⟨⟨?_, fun d hd => (hinit d hd).valid, fun d hd => (hinit d hd).backed, hw''.2⟩,
      fun hne => absurd rfl hne, fun ho => absurd ho hclosed, fun _ => ⟨content, _, hfile, hok, ?_⟩⟩
    · rw [names_eq, hconfigs]
      exact hok.distinct
    · exact ⟨hconfigs, fun d hd => (hinit d hd).closed⟩

theorem deviceManagerRegister_managed {m : DeviceManager} (h : Registry m w) (config : Option DeviceConfig)
    (ops : Option CallerOps) (context : Option ℕ) :
    Managed m (.register config ops context)
      (deviceManagerRegister m config (ops.map Subtype.val) context) w := by
  have hfail : ∀ e, Managed m (.register config ops context) (⟨-1, e⟩, m) w := fun e => ⟨h, fun _ => rfl⟩
  cases config with
  | none => exact hfail _
  | some config =>
    cases ops with
    | none => exact hfail _
    | some ops =>
      simp only [deviceManagerRegister, Option.map_some]
      by_cases hbad : (!ops.1.hasOpen) = true ∨ (!ops.1.hasClose) = true ∨ (!deviceConfigValidate config) = true
      · rw [if_pos hbad]
        exact hfail _
      rw [if_neg hbad]
      by_cases hfind : (deviceManagerFind m config.name).isSome = true
      · rw [if_pos hfind]
        exact hfail _
      rw [if_neg hfind]
      by_cases hfull : m.devices.length < DEVICE_MAX_COUNT
      · rw [dif_pos hfull]
        rw [not_or, not_or] at hbad
        have hvalid : deviceConfigValidate config = true := by simpa using hbad.2.2
        refine ⟨⟨?_, ?_, ?_, ?_⟩, fun hne => absurd rfl hne⟩
        · rw [List.map_append, List.map_singleton, List.nodup_append]
          refine ⟨h.distinct, List.nodup_singleton _, fun a ha b hb hab => hfind ?_⟩
          obtain ⟨d, hd, hname⟩ := List.mem_map.mp ha
          rw [deviceManagerFind, List.find?_isSome]
          refine ⟨d, hd, ?_⟩
          rw [List.mem_singleton.mp hb] at hab
          rw [decide_eq_true_eq]
          exact hname.trans hab
        · intro d hd
          rcases List.mem_append.mp hd with hd | hd
          · exact h.valid d hd
          · rw [List.mem_singleton.mp hd]
            exact hvalid
        · intro d hd
          rcases List.mem_append.mp hd with hd | hd
          · exact h.backed d hd
          · rw [List.mem_singleton.mp hd]
            exact ⟨ops.1, rfl, .inl ops.2⟩
        · have hnone : (deviceInit (some config) (some ops.1) context).owned = none := by
            simp only [Device.owned, deviceInit, Option.bind_some, ops.2, if_true]
          rw [owned_append, owned_cons, hnone]
          exact h.contexts.of_perm (by rw [show owned [] = [] from rfl, Option.toList_none, List.append_nil,
            List.append_nil])
      · rw [dif_neg hfull]
        exact hfail _

/-- A device is replaced by one with the same configuration and context. -/
theorem Registry.set {m : DeviceManager} (h : Registry m w) {i : ℕ} {d d' : Device}
    (hi : deviceManagerGet m i = some d) (hs : Same d d') : Registry (m.set i d') w := by
  have hmap : ∀ {α : Type} (f : Device → α), f d' = f d → (m.devices.set i d').map f = m.devices.map f := by
    intro α f hf
    obtain ⟨hlt, hget⟩ := List.getElem?_eq_some_iff.mp hi
    rw [List.map_set, hf, ← hget]
    exact List.ext_getElem (by simp) fun j hj hj' => by
      rw [List.getElem_set]
      split_ifs with hij
      · subst hij
        rw [List.getElem_map]
      · rfl
  have hmem : ∀ {P : Device → Prop}, P d' → (∀ x ∈ m.devices, P x) → ∀ x ∈ m.devices.set i d', P x := by
    intro P hd' hall x hx
    rcases List.mem_or_eq_of_mem_set hx with hx | rfl
    · exact hall x hx
    · exact hd'
  have hd : d ∈ m.devices := List.mem_of_getElem? hi
  refine ⟨?_, hmem (by rw [hs.config]; exact h.valid d hd) h.valid, hmem ?_ h.backed, ?_⟩
  · rw [DeviceManager.set, hmap _ (by rw [hs.config])]
    exact h.distinct
  · obtain ⟨ops, hops, hback⟩ := h.backed d hd
    exact ⟨ops, hs.ops.trans hops, hback⟩
  · have howned : owned (m.devices.set i d') = owned m.devices := by
      have hid : ∀ ds : List Device, owned ds = (ds.map Device.owned).filterMap id := fun ds => by
        rw [List.filterMap_map]
        rfl
      rw [hid, hid, hmap _ hs.owned]
    rw [DeviceManager.set, howned]
    exact h.contexts

theorem onIndex_safe {m : DeviceManager} (h : Registry m w) (i : ℕ) {f : Device → DeviceProg DeviceResult}
    (hf : ∀ d w, Safe heap managerWatch (fun r w' => Same d r.device ∧ w' = w) (onDevices (f d)) w) :
    Safe heap managerWatch (fun r w' => Registry r.2 w') (onIndex m i f) w := by
  unfold onIndex
  cases hget : deviceManagerGet m i with
  | none => exact Safe.ret_alone trivial h
  | some d =>
    refine (hf d w).bind fun r w' hr _ => ?_
    obtain ⟨hsame, rfl⟩ := hr
    exact Safe.ret_alone trivial (h.set hget hsame)

theorem deviceManagerCloseAll_safe {m : DeviceManager} (h : Registry m w) :
    Safe heap managerWatch (fun r w' => Registry r.2 w') (deviceManagerCloseAll m) w := by
  have hturn : ∀ (s : DeviceManager × ℕ) (i : ℕ) (w : Heap), Registry s.1 w →
      Safe heap managerWatch (fun s w => Registry s.1 w) (closeDevice s i) w := by
    intro s i w hs
    unfold closeDevice
    cases hget : deviceManagerGet s.1 i with
    | none => exact Safe.ret_alone trivial hs
    | some d =>
      refine (deviceClose_same d).bind fun r w' hr _ => ?_
      obtain ⟨hsame, rfl⟩ := hr
      exact Safe.ret_alone trivial (hs.set hget hsame)
  have hloop := Safe.foldlM (I := fun (s : DeviceManager × ℕ) w => Registry s.1 w) (fun _ => stable_alone _)
    (fun _ _ _ => trivial) hturn (List.range m.devices.length) (s := (m, 0)) h
  refine hloop.bind fun s w' hs _ => ?_
  by_cases hsaved : s.2 ≠ 0
  · rw [if_pos hsaved]
    exact Safe.ret_alone trivial hs
  · rw [if_neg hsaved]
    exact Safe.ret_alone trivial hs

/-- Any operation, whatever `calloc` and the backends answer. -/
theorem manage_safe {m : DeviceManager} (h : Registry m w) (op : ManagerOperation) :
    Safe heap managerWatch (Managed m op) (manage m op) w := by
  cases op with
  | register config ops context => exact Safe.ret_alone trivial (deviceManagerRegister_managed h config ops context)
  | load files filename => exact deviceManagerLoad_safe h files filename
  | «open» i => exact (onIndex_safe h i fun d w => deviceOpen_same d).weaken fun r w' _ hr => ⟨hr, trivial⟩
  | close i => exact (onIndex_safe h i fun d w => deviceClose_same d).weaken fun r w' _ hr => ⟨hr, trivial⟩
  | closeAll => exact (deviceManagerCloseAll_safe h).weaken fun r w' _ hr => ⟨hr, trivial⟩
  | destroy =>
    have hall : Owned (owned m.devices ++ []) w := by
      rw [List.append_nil]
      exact h.contexts
    refine (deviceManagerDestroy_safe h.backed hall).bind fun m' w' hr _ => Safe.ret_alone trivial ?_
    obtain ⟨rfl, howned⟩ := hr
    have hperm := howned.perm
    rw [List.append_nil] at hperm
    have hnone : ∀ {P : Device → Prop}, ∀ d ∈ deviceManagerInit.devices, P d := fun d hd => absurd hd List.not_mem_nil
    exact ⟨⟨List.nodup_nil, hnone, hnone, howned⟩, rfl, hperm⟩

end Functions

/-- Whatever is done with a manager, it stays consistent: the names are
distinct and the configurations valid, a failing operation leaves it as it was,
and every context is released once. -/
theorem device_registry :
    Safe registry registryWatch (fun _ _ => True) (registryClient deviceManagerInit) ⟨[], []⟩ := by
  refine Safe.loop (I := fun m w => Registry m w) (fun _ => stable_alone _) (fun _ _ _ => trivial) ?_ ?_
  · intro m w hm
    refine Safe.call_alone trivial hm fun op w' hs => ?_
    obtain rfl : w' = w := hs
    have henv : ∀ w w', registry.env w w' → heap.env w w' := fun _ _ he => he
    have hcall : ∀ c w,
        (∀ w', Relation.ReflTransGen heap.env w w' → managerWatch.always w' ∧ managerWatch.atCall c w') →
        (∀ r w', Happens heap w c r w' → managerWatch.always w') →
        Safe registry registryWatch (Happens heap w c) (.call (.manager c) .ret) w := fun c w hbefore hafter =>
      Safe.happens registry (.manager c) (fun r => r) henv (fun _ _ _ hs => hs) hbefore hafter
    have hop : Safe registry registryWatch (Managed m op) (onManager (manage m op)) w' :=
      Safe.link henv (fun _ _ => trivial) hcall (manage_safe hm op)
    refine hop.bind fun r w' hr _ => Safe.call_alone trivial hr fun _ w'' hs => ?_
    obtain rfl : w'' = w' := hs
    exact Safe.ret_alone trivial hr.1
  · have hnone : ∀ {P : Device → Prop}, ∀ d ∈ deviceManagerInit.devices, P d := fun d hd => absurd hd List.not_mem_nil
    exact ⟨List.nodup_nil, hnone, hnone, List.nodup_nil, List.Perm.refl []⟩

end DeviceRuntime
