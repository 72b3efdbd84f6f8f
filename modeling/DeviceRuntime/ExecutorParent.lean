/-
# The parent of a job

What the executor does by itself, whatever its children do: every call can
have any result that the kernel may give. The state has the job table, the
descriptors of the parent and a log of what happened. A call that fails for
good leaves an event `failed`; one that is tried again, or whose failure is
expected, leaves nothing.

`LogOk` is what the log always satisfies: a gate byte is written only when the
job is `Ready`, and after a failure no byte is written any more. `Returned` is
what a return leaves: the descriptors of the entry, and nothing of a start
that did not get to its last gate byte.

Key definitions: `FdTable`, `StartEvent`, `parentSem`, `Ready`, `Failure`,
`LogOk`, `Owns`, `ForkOk`, `Returned`, `parentWatch`, `Begun`.
Key theorems: `LogOk.append`, `startupGateCreate_safe`, `rollbackPipeline_safe`.
-/
import Mathlib.Data.List.Nodup
import DeviceRuntime.Executor
import DeviceRuntime.JobTable

namespace DeviceRuntime

open Prog

/-! ### Descriptors, events and calls -/

/-- What a descriptor is open on: the files of the shell, an end of the event
pipe, a device, a file of a redirection, or an end of a pipe of the executor. -/
inductive Descriptor
  | file (n : ℕ)
  | event
  | device (n : ℕ)
  | redirected (file : List Byte) (flags : OpenFlags)
  | readEnd (pipe : ℕ)
  | writeEnd (pipe : ℕ)
deriving DecidableEq, Repr

abbrev FdTable := ℤ → Option Descriptor

/-- `foreground` and `modes` are what the terminal was set to, `wrote` is a
byte that was written to the gate, and `waited` a child that `waitpid`
returned as ended. -/
inductive StartEvent
  | forked (pid : ℕ)
  | stored (m : JobManager)
  | foreground (pgid : ℤ)
  | modes (modes : Termios)
  | running (running : Bool)
  | wrote
  | killed (pid : ℕ)
  | waited (pid : ℕ)
  | failed (c : ExecCall)

abbrev StartLog := List StartEvent

def StartEvent.isWrote : StartEvent → Bool
  | .wrote => true
  | _ => false

def StartEvent.forked? : StartEvent → Option ℕ
  | .forked pid => some pid
  | _ => none

def gateBytes (log : StartLog) : ℕ := log.countP StartEvent.isWrote

def forkedPids (log : StartLog) : List ℕ := log.filterMap StartEvent.forked?

/-- `pipes` have been made so far. -/
structure ParentState where
  manager : JobManager
  fds : FdTable
  pipes : ℕ
  log : StartLog

def ParentState.extend (s : ParentState) (es : StartLog) : ParentState := { s with log := s.log ++ es }

/-- A child that was not waited for. -/
def HasChild (log : StartLog) (pid : ℕ) : Prop := .forked pid ∈ log ∧ .waited pid ∉ log

/-- A child that has ended is gone once it was reported. -/
def parentWaitpid (s : ParentState) (target : Target) (flags : WaitFlags) : WaitResult → ParentState → Prop
  | .reported pid st, s' => (∀ p, target = .process p → p = pid) ∧ flags.admit st = true ∧
      if st.processStatus = .done then .waited pid ∉ s.log ∧ s' = s.extend [.waited pid] else s' = s
  | .nothing, s' => flags.nohang = true ∧ s' = s
  | .failed errno, s' => s' = s ∧
      (errno = EINTR ∨ (errno = ECHILD ∧ ∀ pid, target = .process pid → ¬ HasChild s.log pid))

/-- An assumption about `kill`: a `SIGKILL` of a child that was not waited for
does not fail. It is the shell's own child, with the shell's own user. A child
that has got past the gate while the rest of the bytes could not be written may
have changed its user with the program it runs; that it can be killed all the
same is assumed here. -/
def OwnChildKilled (s : ParentState) (pid : ℕ) (r : CallResult) : Prop := HasChild s.log pid → r.ret = 0

/-- `kill`, under `OwnChildKilled`. -/
def parentKill (s : ParentState) (target : Target) (sig : KillSignal) (r : CallResult) (s' : ParentState) : Prop :=
  match target, sig with
  | .process pid, .sigkill => OwnChildKilled s pid r ∧ s' = if r.ret = 0 then s.extend [.killed pid] else s
  | _, _ => s' = s

def parentJob (s : ParentState) : (c : JobCall) → c.Ret → ParentState → Prop
  | .getJobs, m, s' => m = s.manager ∧ s' = s
  | .setJobs m, _, s' => s' = { s with manager := m }.extend [.stored m]
  | .malloc, ok, s' => s' = if ok then s else s.extend [.failed (.job .malloc)]
  | .waitpid target flags, r, s' => parentWaitpid s target flags r s'
  | .kill target sig, r, s' => parentKill s target sig r s'
  | .printf _, _, s' => s' = s

def parentTerminal (s : ParentState) : (c : TerminalCall) → c.Ret → ParentState → Prop
  | .tcsetpgrp pgid, r, s' => s' =
      if r.ret < 0 then if r.errno = EINTR then s else s.extend [.failed (.terminal (.tcsetpgrp pgid))]
      else s.extend [.foreground pgid]
  | .tcgetattr, _, s' => s' = s
  | .tcsetattr modes, r, s' => s' =
      if r.ret < 0 then if r.errno = EINTR then s else s.extend [.failed (.terminal (.tcsetattr modes))]
      else s.extend [.modes modes]

/-- The descriptors of a new pipe. -/
structure NewPipe (fds : FdTable) (p : ℤ × ℤ) : Prop where
  read : 0 ≤ p.1 ∧ fds p.1 = none
  write : 0 ≤ p.2 ∧ fds p.2 = none
  ne : p.1 ≠ p.2

def FdTable.addPipe (fds : FdTable) (p : ℤ × ℤ) (pipe : ℕ) : FdTable :=
  Function.update (Function.update fds p.1 (some (.readEnd pipe))) p.2 (some (.writeEnd pipe))

/-- `setpgid` of a child that already runs its program, or is gone, is let
pass. -/
def parentSem (s : ParentState) : (c : ExecCall) → c.Ret → ParentState → Prop
  | .job c, r, s' => parentJob s c r s'
  | .terminal c, r, s' => parentTerminal s c r s'
  | .pipe, r, s' =>
    (r.ret = 0 ∧ NewPipe s.fds r.fds ∧ s' = { s with fds := s.fds.addPipe r.fds s.pipes, pipes := s.pipes + 1 }) ∨
    (r.ret < 0 ∧ s' = s.extend [.failed .pipe])
  | .getCloexec fd, r, s' => s' = if r.ret < 0 then s.extend [.failed (.getCloexec fd)] else s
  | .setCloexec fd, r, s' => s' = if r.ret < 0 then s.extend [.failed (.setCloexec fd)] else s
  | .close fd, _, s' => s' = { s with fds := Function.update s.fds fd none }
  | .fork child, r, s' =>
    (0 < r.ret ∧ r.ret.toNat ∉ forkedPids s.log ∧ s' = s.extend [.forked r.ret.toNat]) ∨
    (r.ret < 0 ∧ s' = s.extend [.failed (.fork child)])
  | .setpgid pid pgid, r, s' => s' =
      if r.ret < 0 then
        if r.errno = EINTR then s
        else if r.errno = EACCES ∨ r.errno = ESRCH then s
        else s.extend [.failed (.setpgid pid pgid)]
      else s
  | .write fd value, r, s' =>
    if r.ret = 1 then (∃ pipe, s.fds fd = some (.writeEnd pipe)) ∧ s' = s.extend [.wrote]
    else s' = if r.ret < 0 ∧ r.errno = EINTR then s else s.extend [.failed (.write fd value)]
  | .setRunning running, _, s' => s' = s.extend [.running running]

/-- Only the parent moves. -/
abbrev parent : World ExecCall ExecCall.Ret ParentState := World.alone parentSem

/-! ### What is to hold -/

/-- The shell when the executor is called. Job pointers are told apart by
their `id`, so the next one is new. -/
structure ExecEntry where
  manager : JobManager
  fds : FdTable
  fresh : ∀ job ∈ manager.jobs, job.id < manager.nextid

def ExecEntry.parent (e : ExecEntry) : ParentState := ⟨e.manager, e.fds, 0, []⟩

/-- A command without arguments, in the foreground. -/
def plainCommand : Command :=
  ⟨1, (Vector.replicate MAX_ARGS none).set 0 (some (text "a")) argv_pos, 0, ⟨none, none, 0⟩, argv_one⟩

/-- A shell with a terminal and room for jobs. -/
def plainContext : ExecContext := ⟨8, ⟨true, 1, none⟩⟩

def plainEntry : ExecEntry := ⟨jobmanagerInit, fun _ => none, fun _ h => absurd h List.not_mem_nil⟩

/-- The parent has `owned` open, on what the list says, besides what was open at
the entry. -/
structure Owns (e : ExecEntry) (owned : List (ℤ × Descriptor)) (fds : FdTable) : Prop where
  nodup : (owned.map Prod.fst).Nodup
  opened : ∀ x ∈ owned, e.fds x.1 = none ∧ fds x.1 = some x.2
  rest : ∀ fd, fd ∉ owned.map Prod.fst → fds fd = e.fds fd

/-- A descriptor, if there is one. -/
def fdList (fd : ℤ) (d : Descriptor) : List (ℤ × Descriptor) := if fd ≥ 0 then [(fd, d)] else []

/-- Both ends of a pipe, if there is one. -/
def pipeEnds (p : ℤ × ℤ) (pipe : ℕ) : List (ℤ × Descriptor) := fdList p.1 (.readEnd pipe) ++ fdList p.2 (.writeEnd pipe)

/-- The gate is the first pipe. -/
def gateEnds (gate : ℤ × ℤ) : List (ℤ × Descriptor) := [(gate.1, .readEnd 0), (gate.2, .writeEnd 0)]

/-- What a child gets when `i` children were forked before it: the descriptors
of the parent, with the read end of pipe `i` and both ends of pipe `i + 1`,
and the first child as leader of the group. -/
def ForkOk (chain : List Command) (e : ExecEntry) (s : ParentState) : ForkedChild → Prop
  | .single com gate => chain = [com] ∧ forkedPids s.log = [] ∧ Owns e (gateEnds gate) s.fds
  | .stage current next gate pgid pipeFd pipefd =>
    chain[(forkedPids s.log).length]? = some current ∧
    (next = true ↔ (forkedPids s.log).length + 1 < chain.length) ∧
    (0 ≤ pipeFd ↔ 0 < (forkedPids s.log).length) ∧
    (if next then 0 ≤ pipefd.1 ∧ 0 ≤ pipefd.2 else pipefd = (-1, -1)) ∧
    pgid = (forkedPids s.log).headD 0 ∧
    Owns e (pipeEnds pipefd ((forkedPids s.log).length + 1) ++
      (fdList pipeFd (.readEnd (forkedPids s.log).length) ++ gateEnds gate)) s.fds

section Spec

variable (chain : List Command) (ctx : ExecContext)

/-- The job gets the terminal. -/
def Foreground : Prop := ∃ com, chain.head? = some com ∧ com.background = 0 ∧ ctx.terminal.initialized = true

/-- The table had one job with all children in order, and the job's group has
been given the terminal if it is to have it. -/
def Ready (log : StartLog) : Prop :=
  ∃ m job, .stored m ∈ log ∧ job ∈ m.jobs ∧ job.pids = forkedPids log ∧ job.pids.length = chain.length ∧
    (Foreground chain ctx → .foreground (job.pgid : ℤ) ∈ log)

/-- No start is possible: there are too many commands, or there is no name for
the job. -/
def Refused : Prop := MAX_PIPELINE < chain.length ∨ ∃ com, chain.head? = some com ∧ getElem com.argv 0 argv_pos = none

/-- A step failed before the `k`-th byte was written to the gate. -/
def Failure (k : ℕ) (log : StartLog) : Prop :=
  (∃ before c after, log = before ++ .failed c :: after ∧ gateBytes before < k) ∨ Refused chain

/-- What the log satisfies at every step. -/
structure LogOk (log : StartLog) : Prop where
  ready : 0 < gateBytes log → Ready chain ctx log
  failed : ∀ before c after, log = before ++ .failed c :: after → gateBytes before < chain.length →
    gateBytes log = gateBytes before
  refused : Refused chain → gateBytes log = 0
  bytes : gateBytes log ≤ chain.length
  forks : (forkedPids log).length ≤ chain.length

/-- Nothing is left of a start. -/
structure Undone (e : ExecEntry) (s : ParentState) : Prop where
  jobs : s.manager.jobs = e.manager.jobs
  children : ∀ pid ∈ forkedPids s.log, .killed pid ∈ s.log ∧ .waited pid ∈ s.log

structure Returned (e : ExecEntry) (ret : ℤ) (s : ParentState) : Prop where
  fds : s.fds = e.fds
  undone : gateBytes s.log < chain.length → ret < 0 ∧ Undone e s

/-- The log is fine at every step. Only a descriptor that is open and was not
open at the entry is closed. No pipe is made once a byte is written, a child is
forked with the descriptors it is to have, and a byte is written to the gate
only, which is then all that is left open. The parent waits for a job in the
foreground when all bytes are written. -/
def parentWatch (e : ExecEntry) : Watch ExecCall ParentState where
  always s := LogOk chain ctx s.log
  atCall c s := match c with
    | .close fd => e.fds fd = none ∧ s.fds fd ≠ none
    | .pipe => gateBytes s.log = 0
    | .fork child => ForkOk chain e s child
    | .write fd value => Owns e [(fd, .writeEnd 0)] s.fds ∧ value = 'G'.toUInt8
    | .job (.waitpid _ flags) => flags.untraced = true → chain.length ≤ gateBytes s.log
    | _ => True

end Spec

/-! ### The log -/

theorem gateBytes_append (log es : StartLog) : gateBytes (log ++ es) = gateBytes log + gateBytes es :=
  List.countP_append

theorem forkedPids_append (log es : StartLog) : forkedPids (log ++ es) = forkedPids log ++ forkedPids es :=
  List.filterMap_append

theorem mem_forkedPids {log : StartLog} {pid : ℕ} : pid ∈ forkedPids log ↔ .forked pid ∈ log := by
  unfold forkedPids
  rw [List.mem_filterMap]
  constructor
  · rintro ⟨e, he, hpid⟩
    cases e <;> cases hpid
    exact he
  · intro h
    exact ⟨.forked pid, h, rfl⟩

/-- Events that write no byte and fork no child. -/
structure Silent (es : StartLog) : Prop where
  bytes : gateBytes es = 0
  forks : forkedPids es = []

theorem Silent.nil : Silent [] := ⟨rfl, rfl⟩

theorem Silent.append {es es' : StartLog} (h : Silent es) (h' : Silent es') : Silent (es ++ es') := by
  constructor
  · rw [gateBytes_append, h.bytes, h'.bytes]
  · rw [forkedPids_append, h.forks, h'.forks, List.append_nil]

section Log

variable {chain : List Command} {ctx : ExecContext} {log es : StartLog}

theorem Ready.append (h : Ready chain ctx log) (hes : forkedPids es = []) : Ready chain ctx (log ++ es) := by
  obtain ⟨m, job, hm, hjob, hpids, hlen, hfg⟩ := h
  refine ⟨m, job, List.mem_append_left _ hm, hjob, ?_, hlen, fun h => List.mem_append_left _ (hfg h)⟩
  rw [forkedPids_append, hes, List.append_nil, hpids]

/-- A failure in a longer log is in the log or in what was added. -/
theorem failed_split {before after : StartLog} {c : ExecCall} (h : log ++ es = before ++ .failed c :: after) :
    (∃ a, before = log ++ a ∧ es = a ++ .failed c :: after) ∨ (∃ b, log = before ++ .failed c :: b) := by
  rcases List.append_eq_append_iff.mp h with ⟨a, hbefore, hes⟩ | ⟨b, hlog, hes⟩
  · exact .inl ⟨a, hbefore, hes⟩
  · cases b with
    | nil => exact .inl ⟨[], by rw [hlog, List.append_nil, List.append_nil], hes.symm⟩
    | cons x b =>
      rw [List.cons_append] at hes
      obtain ⟨rfl, -⟩ := List.cons.inj hes
      exact .inr ⟨b, hlog⟩

theorem LogOk.append (h : LogOk chain ctx log) (hes : Silent es) : LogOk chain ctx (log ++ es) := by
  have hbytes : gateBytes (log ++ es) = gateBytes log := by rw [gateBytes_append, hes.bytes, Nat.add_zero]
  refine ⟨?_, ?_, ?_, ?_, ?_⟩
  · rw [hbytes]
    exact fun hpos => (h.ready hpos).append hes.forks
  · intro before c after heq hlt
    rw [hbytes]
    rcases failed_split heq with ⟨a, rfl, rfl⟩ | ⟨b, hlog⟩
    · have ha : gateBytes a = 0 := by
        have hzero := hes.bytes
        rw [gateBytes_append] at hzero
        omega
      rw [gateBytes_append, ha, Nat.add_zero]
    · exact h.failed before c b hlog hlt
  · rw [hbytes]
    exact h.refused
  · rw [hbytes]
    exact h.bytes
  · rw [forkedPids_append, hes.forks, List.append_nil]
    exact h.forks

/-- Before the first byte there is not much to say. -/
theorem LogOk.start (hbytes : gateBytes log = 0) (hforks : (forkedPids log).length ≤ chain.length) :
    LogOk chain ctx log := by
  refine ⟨?_, ?_, ?_, ?_, hforks⟩
  · rw [hbytes]
    exact fun h0 => absurd h0 (Nat.lt_irrefl 0)
  · intro before c after heq _
    have hsum := congrArg gateBytes heq
    rw [hbytes, gateBytes_append] at hsum
    omega
  · exact fun _ => hbytes
  · rw [hbytes]
    exact Nat.zero_le _

/-- A byte for a job that is ready, when nothing has failed. -/
theorem LogOk.write (h : LogOk chain ctx log) (hready : Ready chain ctx log) (hclean : ∀ c, .failed c ∉ log)
    (hrefused : ¬ Refused chain) (hlt : gateBytes log < chain.length) : LogOk chain ctx (log ++ [.wrote]) := by
  have hone : gateBytes (log ++ [.wrote]) = gateBytes log + 1 := gateBytes_append _ _
  refine ⟨fun _ => hready.append rfl, ?_, fun h => absurd h hrefused, ?_, ?_⟩
  · intro before c after heq _
    rcases failed_split heq with ⟨a, -, ha⟩ | ⟨b, hlog⟩
    · have hmem : StartEvent.failed c ∈ [StartEvent.wrote] := ha ▸ List.mem_append_right _ List.mem_cons_self
      cases List.mem_singleton.mp hmem
    · exact absurd (hlog ▸ List.mem_append_right _ List.mem_cons_self) (hclean c)
  · rw [hone]
    exact hlt
  · rw [forkedPids_append]
    exact (congrArg List.length (List.append_nil _)).trans_le h.forks

theorem Failure.bytes (h : LogOk chain ctx log) {k : ℕ} (hk : k ≤ chain.length) (hpos : 0 < k)
    (hf : Failure chain k log) : gateBytes log < k := by
  rcases hf with ⟨before, c, after, hlog, hlt⟩ | hf
  · rw [h.failed before c after hlog (by omega)]
    exact hlt
  · rw [h.refused hf]
    exact hpos

end Log

/-! ### Descriptors -/

section Descriptors

variable {e : ExecEntry} {owned owned' : List (ℤ × Descriptor)} {fds : FdTable}

theorem Owns.none (e : ExecEntry) : Owns e [] e.fds :=
  ⟨List.nodup_nil, fun _ h => absurd h List.not_mem_nil, fun _ _ => rfl⟩

theorem Owns.perm (h : Owns e owned fds) (hp : owned.Perm owned') : Owns e owned' fds := by
  have hkeys : (owned.map Prod.fst).Perm (owned'.map Prod.fst) := hp.map _
  exact ⟨hkeys.nodup_iff.mp h.nodup, fun x hx => h.opened x (hp.mem_iff.mpr hx),
    fun fd hfd => h.rest fd fun hmem => hfd (hkeys.mem_iff.mp hmem)⟩

theorem Owns.entry (h : Owns e [] fds) : fds = e.fds := funext fun fd => h.rest fd List.not_mem_nil

theorem Owns.close {fd : ℤ} {d : Descriptor} (h : Owns e ((fd, d) :: owned) fds) :
    Owns e owned (Function.update fds fd Option.none) := by
  obtain ⟨hnot, hnodup⟩ := List.nodup_cons.mp h.nodup
  refine ⟨hnodup, ?_, ?_⟩
  · intro x hx
    have hmem : x.1 ∈ owned.map Prod.fst := List.mem_map_of_mem hx
    have hne : x.1 ≠ fd := fun heq => hnot (heq ▸ hmem)
    rw [Function.update_of_ne hne]
    exact h.opened x (List.mem_cons_of_mem _ hx)
  · intro x hx
    by_cases heq : x = fd
    · rw [heq, Function.update_self]
      exact (h.opened _ List.mem_cons_self).1.symm
    · rw [Function.update_of_ne heq]
      exact h.rest x fun hmem => (List.mem_cons.mp hmem).elim heq hx

/-- A descriptor that is closed is not one of the parent's. -/
theorem Owns.closed {fd : ℤ} (h : Owns e owned fds) (hfd : fds fd = Option.none) :
    fd ∉ owned.map Prod.fst ∧ e.fds fd = Option.none := by
  have hnot : fd ∉ owned.map Prod.fst := by
    intro hmem
    obtain ⟨x, hx, rfl⟩ := List.mem_map.mp hmem
    rw [(h.opened x hx).2] at hfd
    cases hfd
  exact ⟨hnot, (h.rest fd hnot).symm.trans hfd⟩

theorem addPipe_other {p : ℤ × ℤ} (n : ℕ) {fd : ℤ} (h1 : fd ≠ p.1) (h2 : fd ≠ p.2) :
    fds.addPipe p n fd = fds fd := by
  unfold FdTable.addPipe
  rw [Function.update_of_ne h2, Function.update_of_ne h1]

theorem addPipe_read {p : ℤ × ℤ} (n : ℕ) (hp : NewPipe fds p) : fds.addPipe p n p.1 = some (.readEnd n) := by
  unfold FdTable.addPipe
  rw [Function.update_of_ne hp.ne, Function.update_self]

theorem addPipe_write (p : ℤ × ℤ) (n : ℕ) : fds.addPipe p n p.2 = some (.writeEnd n) := Function.update_self ..

theorem Owns.pipe {p : ℤ × ℤ} (h : Owns e owned fds) (hp : NewPipe fds p) (n : ℕ) :
    Owns e ((p.1, .readEnd n) :: (p.2, .writeEnd n) :: owned) (fds.addPipe p n) := by
  obtain ⟨hread, heread⟩ := h.closed hp.read.2
  obtain ⟨hwrite, hewrite⟩ := h.closed hp.write.2
  refine ⟨?_, ?_, ?_⟩
  · refine List.nodup_cons.mpr ⟨?_, List.nodup_cons.mpr ⟨hwrite, h.nodup⟩⟩
    exact fun hmem => (List.mem_cons.mp hmem).elim hp.ne hread
  · intro x hx
    rcases List.mem_cons.mp hx with rfl | hx
    · exact ⟨heread, addPipe_read n hp⟩
    rcases List.mem_cons.mp hx with rfl | hx
    · exact ⟨hewrite, addPipe_write p n⟩
    · have hmem : x.1 ∈ owned.map Prod.fst := List.mem_map_of_mem hx
      have h1 : x.1 ≠ p.1 := fun heq => hread (heq ▸ hmem)
      have h2 : x.1 ≠ p.2 := fun heq => hwrite (heq ▸ hmem)
      rw [addPipe_other n h1 h2]
      exact h.opened x hx
  · intro fd hfd
    rw [List.map_cons, List.map_cons, List.mem_cons, List.mem_cons, not_or, not_or] at hfd
    rw [addPipe_other n hfd.1 hfd.2.1]
    exact h.rest fd hfd.2.2

theorem fdList_of_nonneg {fd : ℤ} (h : 0 ≤ fd) (d : Descriptor) : fdList fd d = [(fd, d)] := if_pos h

theorem pipeEnds_of_nonneg {p : ℤ × ℤ} (h : 0 ≤ p.1 ∧ 0 ≤ p.2) (n : ℕ) :
    pipeEnds p n = [(p.1, .readEnd n), (p.2, .writeEnd n)] := by
  unfold pipeEnds
  rw [fdList_of_nonneg h.1, fdList_of_nonneg h.2, List.cons_append, List.nil_append]

end Descriptors

/-! ### Calls and loops -/

def ParentState.setFds (s : ParentState) (fds : FdTable) : ParentState := { s with fds := fds }

@[simp] theorem ParentState.setFds_setFds (s : ParentState) (fds fds' : FdTable) :
    (s.setFds fds).setFds fds' = s.setFds fds' := rfl

@[simp] theorem ParentState.setFds_fds (s : ParentState) (fds : FdTable) : (s.setFds fds).fds = fds := rfl

@[simp] theorem ParentState.setFds_log (s : ParentState) (fds : FdTable) : (s.setFds fds).log = s.log := rfl

@[simp] theorem ParentState.setFds_manager (s : ParentState) (fds : FdTable) :
    (s.setFds fds).manager = s.manager := rfl

@[simp] theorem ParentState.setFds_pipes (s : ParentState) (fds : FdTable) : (s.setFds fds).pipes = s.pipes := rfl

@[simp] theorem ParentState.extend_fds (s : ParentState) (es : StartLog) : (s.extend es).fds = s.fds := rfl

@[simp] theorem ParentState.extend_log (s : ParentState) (es : StartLog) : (s.extend es).log = s.log ++ es := rfl

@[simp] theorem ParentState.extend_manager (s : ParentState) (es : StartLog) :
    (s.extend es).manager = s.manager := rfl

@[simp] theorem ParentState.extend_nil (s : ParentState) : s.extend [] = s := by
  unfold ParentState.extend
  rw [List.append_nil]

@[simp] theorem ParentState.extend_extend (s : ParentState) (es es' : StartLog) :
    (s.extend es).extend es' = s.extend (es ++ es') := by
  unfold ParentState.extend
  rw [List.append_assoc]

/-- A call succeeded and added `es` to the log, or failed for good. -/
def CallOutcome (s : ParentState) (es : StartLog) (ret : ℤ) (s' : ParentState) : Prop :=
  (0 ≤ ret ∧ s' = s.extend es) ∨ (ret < 0 ∧ ∃ c, s' = s.extend [.failed c])

section Calls

variable {chain : List Command} {ctx : ExecContext} {e : ExecEntry} {α β : Type} {Q : α → ParentState → Prop}
  {s : ParentState} {owned : List (ℤ × Descriptor)}

theorem closeFd_safe {fd : ℤ} {d : Descriptor} {k : Unit → ExecProg α} (hlog : LogOk chain ctx s.log)
    (howns : Owns e ((fd, d) :: owned) s.fds)
    (hk : ∀ fds, Owns e owned fds → Safe parent (parentWatch chain ctx e) Q (k ()) (s.setFds fds)) :
    Safe parent (parentWatch chain ctx e) Q ((closeFd fd).bind k) s := by
  obtain ⟨hentry, hopen⟩ := howns.opened _ List.mem_cons_self
  have hclose : e.fds fd = none ∧ s.fds fd ≠ none := ⟨hentry, fun h => Option.some_ne_none d (hopen.symm.trans h)⟩
  refine Safe.call_alone hlog hclose fun _ s' hs => ?_
  have hs : s' = s.setFds (Function.update s.fds fd none) := hs
  rw [hs]
  exact hk _ howns.close

theorem closeOpen_safe {fd : ℤ} {d : Descriptor} {k : Unit → ExecProg α} (hlog : LogOk chain ctx s.log)
    (howns : Owns e (fdList fd d ++ owned) s.fds)
    (hk : ∀ fds, Owns e owned fds → Safe parent (parentWatch chain ctx e) Q (k ()) (s.setFds fds)) :
    Safe parent (parentWatch chain ctx e) Q ((closeOpen fd).bind k) s := by
  unfold closeOpen
  unfold fdList at howns
  by_cases hfd : fd ≥ 0
  · rw [if_pos hfd] at howns ⊢
    exact closeFd_safe hlog howns hk
  · rw [if_neg hfd] at howns ⊢
    exact hk s.fds howns

/-- A loop whose turns leave the state as it is until the last one. -/
theorem iter_safe {body : Unit → ExecProg (Unit ⊕ α)} (hlog : LogOk chain ctx s.log)
    (hbody : Safe parent (parentWatch chain ctx e)
      (fun x s' => match x with
        | .inl _ => s' = s
        | .inr a => Q a s') (body ()) s) :
    Safe parent (parentWatch chain ctx e) Q (.iter body ()) s := by
  refine Safe.loop (I := fun _ s' => s' = s) (fun _ => stable_alone _) ?_ ?_ rfl
  · rintro _ _ rfl
    exact hlog
  · rintro _ _ rfl
    refine hbody.weaken fun x s' hok hx => ?_
    cases x with
    | inl _ => exact hx
    | inr a => exact Safe.ret_alone hok hx

theorem setpgidParent_safe (hlog : LogOk chain ctx s.log) (pid pgid : ℕ) :
    Safe parent (parentWatch chain ctx e) (CallOutcome s []) (setpgidParent pid pgid) s := by
  refine iter_safe hlog (Safe.call_alone hlog trivial fun r s' hs => ?_)
  have hs : s' = if r.ret < 0 then if r.errno = EINTR then s
    else if r.errno = EACCES ∨ r.errno = ESRCH then s else s.extend [.failed (.setpgid pid pgid)] else s := hs
  have hdone : CallOutcome s [] 0 s := .inl ⟨Int.le_refl 0, s.extend_nil.symm⟩
  by_cases hret : r.ret < 0
  · rw [if_pos hret] at hs ⊢
    by_cases hintr : r.errno = EINTR
    · rw [if_pos hintr] at hs ⊢
      subst hs
      exact Safe.ret_alone hlog rfl
    rw [if_neg hintr] at hs ⊢
    by_cases hgone : r.errno = EACCES ∨ r.errno = ESRCH
    · rw [if_pos hgone] at hs ⊢
      subst hs
      exact Safe.ret_alone hlog hdone
    · rw [if_neg hgone] at hs ⊢
      subst hs
      exact Safe.ret_alone (hlog.append ⟨rfl, rfl⟩) (.inr ⟨by decide, _, rfl⟩)
  · rw [if_neg hret] at hs ⊢
    subst hs
    exact Safe.ret_alone hlog hdone

theorem setCloexec_safe (hlog : LogOk chain ctx s.log) (fd : ℤ) :
    Safe parent (parentWatch chain ctx e) (CallOutcome s []) (setCloexec fd) s := by
  refine Safe.call_alone hlog trivial fun flags s' hs => ?_
  have hs : s' = if flags.ret < 0 then s.extend [.failed (.getCloexec fd)] else s := hs
  by_cases hflags : flags.ret < 0
  · rw [if_pos hflags] at hs ⊢
    subst hs
    exact Safe.ret_alone (hlog.append ⟨rfl, rfl⟩) (.inr ⟨by decide, _, rfl⟩)
  rw [if_neg hflags] at hs ⊢
  subst hs
  refine Safe.call_alone hlog trivial fun r s'' hs => ?_
  have hs : s'' = if r.ret < 0 then s'.extend [.failed (.setCloexec fd)] else s' := hs
  by_cases hret : r.ret < 0
  · rw [if_pos hret] at hs
    subst hs
    exact Safe.ret_alone (hlog.append ⟨rfl, rfl⟩) (.inr ⟨hret, _, rfl⟩)
  · rw [if_neg hret] at hs
    subst hs
    exact Safe.ret_alone hlog (.inl ⟨by omega, s''.extend_nil.symm⟩)

/-- One byte of the gate. -/
theorem writeGate_safe {fd : ℤ} (hlog : LogOk chain ctx s.log) (howns : Owns e [(fd, .writeEnd 0)] s.fds)
    (hok : LogOk chain ctx (s.log ++ [.wrote])) :
    Safe parent (parentWatch chain ctx e) (CallOutcome s [.wrote]) (writeGate fd) s := by
  refine iter_safe hlog (Safe.call_alone hlog ⟨howns, rfl⟩ fun r s' hs => ?_)
  have hs : if r.ret = 1 then (∃ pipe, s.fds fd = some (.writeEnd pipe)) ∧ s' = s.extend [.wrote]
    else s' = if r.ret < 0 ∧ r.errno = EINTR then s else s.extend [.failed (.write fd 'G'.toUInt8)] := hs
  by_cases hone : r.ret = 1
  · rw [if_pos hone] at hs ⊢
    rw [hs.2]
    exact Safe.ret_alone hok (.inl ⟨Int.le_refl 0, rfl⟩)
  rw [if_neg hone] at hs
  rw [if_neg hone]
  by_cases hintr : r.ret < 0 ∧ r.errno = EINTR
  · rw [if_pos hintr] at hs ⊢
    subst hs
    exact Safe.ret_alone hlog rfl
  · rw [if_neg hintr] at hs ⊢
    subst hs
    exact Safe.ret_alone (hlog.append ⟨rfl, rfl⟩) (.inr ⟨by decide, _, rfl⟩)

theorem terminalSetForeground_safe (hlog : LogOk chain ctx s.log) {pgid : ℕ} (hpgid : pgid ≠ 0)
    (hinit : ctx.terminal.initialized = true) :
    Safe parent (parentWatch chain ctx e) (CallOutcome s [.foreground pgid])
      (onTerminal (terminalSetForeground ctx.terminal pgid)) s := by
  have hpos : ¬ (pgid : ℤ) ≤ 0 := by omega
  unfold terminalSetForeground
  rw [hinit, if_neg (by decide), if_neg hpos]
  refine iter_safe hlog (Safe.call_alone hlog trivial fun r s' hs => ?_)
  have hs : s' = if r.ret < 0 then if r.errno = EINTR then s
      else s.extend [.failed (.terminal (.tcsetpgrp pgid))] else s.extend [.foreground pgid] := hs
  by_cases hret : r.ret < 0
  · rw [if_pos hret] at hs
    by_cases hintr : r.errno = EINTR
    · rw [if_pos hintr] at hs
      subst hs
      simp only [ret_bind, if_pos hret, if_pos hintr]
      exact Safe.ret_alone hlog rfl
    · rw [if_neg hintr] at hs
      subst hs
      simp only [ret_bind, if_pos hret, if_neg hintr]
      exact Safe.ret_alone (hlog.append ⟨rfl, rfl⟩) (.inr ⟨by decide, _, rfl⟩)
  · rw [if_neg hret] at hs
    subst hs
    simp only [ret_bind, if_neg hret]
    exact Safe.ret_alone (hlog.append ⟨rfl, rfl⟩) (.inl ⟨Int.le_refl 0, rfl⟩)

/-- The gate is open, or nothing is. -/
theorem startupGateCreate_safe (chain : List Command) (ctx : ExecContext) (e : ExecEntry) :
    Safe parent (parentWatch chain ctx e)
      (fun r s' => (0 ≤ r.1 ∧ NewPipe e.fds r.2 ∧ s' = ⟨e.manager, e.fds.addPipe r.2 0, 1, []⟩) ∨
        (r.1 < 0 ∧ s'.fds = e.fds ∧ s'.manager = e.manager ∧ ∃ c, s'.log = [.failed c]))
      startupGateCreate e.parent := by
  have hempty : LogOk chain ctx [] := LogOk.start rfl (Nat.zero_le _)
  refine Safe.call_alone hempty rfl fun p s₁ hs => ?_
  rcases hs with ⟨hret, hnew, hs⟩ | ⟨hret, hs⟩
  · have hs : s₁ = ⟨e.manager, e.fds.addPipe p.fds 0, 1, []⟩ := hs
    have howns : Owns e (gateEnds p.fds) s₁.fds := hs ▸ (Owns.none e).pipe hnew 0
    have hlog : LogOk chain ctx s₁.log := hs ▸ hempty
    have hmanager : s₁.manager = e.manager := hs ▸ rfl
    have hlogged : s₁.log = [] := hs ▸ rfl
    rw [if_neg (by omega)]
    -- both ends are closed again
    have hfail : ∀ c, Safe parent (parentWatch chain ctx e)
        (fun r s' => (0 ≤ r.1 ∧ NewPipe e.fds r.2 ∧ s' = ⟨e.manager, e.fds.addPipe r.2 0, 1, []⟩) ∨
          (r.1 < 0 ∧ s'.fds = e.fds ∧ s'.manager = e.manager ∧ ∃ c, s'.log = [.failed c]))
        ((closeFd p.fds.1).bind fun _ => (closeFd p.fds.2).bind fun _ => .ret (-1, -1, -1))
        (s₁.extend [.failed c]) := by
      intro c
      have hlog : LogOk chain ctx (s₁.extend [.failed c]).log := hlog.append ⟨rfl, rfl⟩
      refine closeFd_safe hlog howns fun fds howns => ?_
      refine closeFd_safe hlog howns fun fds howns => ?_
      refine Safe.ret_alone hlog (.inr ⟨by decide, howns.entry, hmanager, c, ?_⟩)
      exact congrArg (· ++ [StartEvent.failed c]) hlogged
    refine (setCloexec_safe hlog p.fds.1).bind fun ret s₂ h _ => ?_
    rcases h with ⟨hret, h⟩ | ⟨hret, c, h⟩
    · rw [ParentState.extend_nil] at h
      rw [if_neg (by omega), h]
      refine (setCloexec_safe hlog p.fds.2).bind fun ret s₃ h _ => ?_
      rcases h with ⟨hret, h⟩ | ⟨hret, c, h⟩
      · rw [ParentState.extend_nil] at h
        rw [if_neg (by omega), h]
        exact Safe.ret_alone hlog (.inl ⟨Int.le_refl 0, hnew, hs⟩)
      · rw [if_pos hret, h]
        exact hfail c
    · rw [if_pos hret, h]
      exact hfail c
  · have hs : s₁ = e.parent.extend [.failed .pipe] := hs
    rw [if_pos hret, hs]
    exact Safe.ret_alone (hempty.append ⟨rfl, rfl⟩) (.inr ⟨by decide, rfl, rfl, _, rfl⟩)

end Calls

/-! ### Undoing a start -/

/-- The children `pids` were forked and none was waited for; not all bytes
were written. -/
structure Begun (chain : List Command) (ctx : ExecContext) (pids : List ℕ) (log : StartLog) : Prop where
  ok : LogOk chain ctx log
  short : gateBytes log < chain.length
  forks : forkedPids log = pids
  waits : ∀ pid, .waited pid ∉ log
  positive : ∀ pid ∈ pids, pid ≠ 0

/-- All of `pids` have been killed and waited for. -/
def Cleared (pids : List ℕ) (s s' : ParentState) : Prop :=
  ∃ es, Silent es ∧ s' = s.extend es ∧ ∀ pid ∈ pids, .killed pid ∈ s'.log ∧ .waited pid ∈ s'.log

/-- What a rollback of `pids` has to do. -/
def IsRollback (chain : List Command) (ctx : ExecContext) (e : ExecEntry) (pids : List ℕ) (p : ExecProg Unit) : Prop :=
  ∀ s, Begun chain ctx pids s.log → Safe parent (parentWatch chain ctx e) (fun _ s' => Cleared pids s s') p s

section Rollback

variable {chain : List Command} {ctx : ExecContext} {e : ExecEntry} {s : ParentState} {pids : List ℕ}

theorem Begun.append {log es : StartLog} (h : Begun chain ctx pids log) (hes : Silent es)
    (hw : ∀ pid, .waited pid ∉ es) : Begun chain ctx pids (log ++ es) := by
  refine ⟨h.ok.append hes, ?_, ?_, ?_, h.positive⟩
  · rw [gateBytes_append, hes.bytes]
    exact h.short
  · rw [forkedPids_append, hes.forks, List.append_nil]
    exact h.forks
  · exact fun pid hmem => (List.mem_append.mp hmem).elim (h.waits pid) (hw pid)

theorem Begun.fail {log : StartLog} (h : Begun chain ctx pids log) (c : ExecCall) :
    Begun chain ctx pids (log ++ [.failed c]) :=
  h.append ⟨rfl, rfl⟩ fun _ hmem => StartEvent.noConfusion (List.mem_singleton.mp hmem)

theorem killGroup_safe (hlog : LogOk chain ctx s.log) (pgid : ℕ) :
    Safe parent (parentWatch chain ctx e) (fun _ s' => s' = s) (killGroup pgid) s := by
  unfold killGroup
  by_cases h0 : pgid = 0
  · rw [if_pos h0]
    exact Safe.ret_alone hlog rfl
  · rw [if_neg h0]
    refine Safe.call_alone hlog trivial fun r s' hs => ?_
    have hs : s' = s := hs
    subst hs
    exact Safe.ret_alone hlog rfl

theorem killPid_safe {pid : ℕ} (hlog : LogOk chain ctx s.log) (h0 : pid ≠ 0) (hchild : HasChild s.log pid) :
    Safe parent (parentWatch chain ctx e) (fun _ s' => s' = s.extend [.killed pid]) (killPid pid) s := by
  unfold killPid
  rw [if_neg h0]
  refine Safe.call_alone hlog trivial fun r s' hs => ?_
  have hs : OwnChildKilled s pid r ∧ s' = if r.ret = 0 then s.extend [.killed pid] else s := hs
  obtain ⟨hret, hs⟩ := hs
  rw [if_pos (hret hchild)] at hs
  subst hs
  exact Safe.ret_alone (hlog.append ⟨rfl, rfl⟩) rfl

theorem reapPid_safe {pid : ℕ} (hlog : LogOk chain ctx s.log) (h0 : pid ≠ 0) (hforked : .forked pid ∈ s.log) :
    Safe parent (parentWatch chain ctx e)
      (fun _ s' => ∃ es, Silent es ∧ s' = s.extend es ∧ .waited pid ∈ s'.log) (reapPid pid) s := by
  unfold reapPid
  rw [if_neg h0]
  refine iter_safe hlog (Safe.call_alone hlog (fun huntraced => nomatch huntraced) fun r s' hs => ?_)
  cases r with
  | failed errno =>
    have hs : s' = s ∧ (errno = EINTR ∨ (errno = ECHILD ∧ ∀ p, Target.process pid = .process p →
      ¬ HasChild s.log p)) := hs
    obtain ⟨rfl, herr⟩ := hs
    dsimp only
    by_cases hintr : errno = EINTR
    · rw [if_pos hintr]
      exact Safe.ret_alone hlog rfl
    · rw [if_neg hintr]
      obtain ⟨-, hnone⟩ := herr.resolve_left hintr
      -- there is no such child any more, and it was forked
      have hwaited : .waited pid ∈ s'.log := by
        by_contra hnot
        exact hnone pid rfl ⟨hforked, hnot⟩
      exact Safe.ret_alone hlog ⟨[], Silent.nil, s'.extend_nil.symm, hwaited⟩
  | nothing =>
    have hs : false = true ∧ s' = s := hs
    cases hs.1
  | reported p st =>
    have hs : (∀ p', Target.process pid = .process p' → p' = p) ∧
      WaitFlags.admit ⟨false, false, false⟩ st = true ∧
      if st.processStatus = .done then .waited p ∉ s.log ∧ s' = s.extend [.waited p] else s' = s := hs
    obtain ⟨hp, hadmit, hs⟩ := hs
    obtain rfl := hp pid rfl
    have hdone : st.processStatus = .done := by cases st <;> first | rfl | cases hadmit
    rw [if_pos hdone] at hs
    obtain ⟨-, rfl⟩ := hs
    exact Safe.ret_alone (hlog.append ⟨rfl, rfl⟩)
      ⟨[.waited pid], ⟨rfl, rfl⟩, rfl, List.mem_append_right _ List.mem_cons_self⟩

theorem silent_killed (pids : List ℕ) : Silent (pids.map .killed) := by
  induction pids with
  | nil => exact Silent.nil
  | cons pid pids ih =>
    have hone : Silent [StartEvent.killed pid] := ⟨rfl, rfl⟩
    exact hone.append ih

theorem killPids_safe : ∀ (pids : List ℕ) {s : ParentState}, LogOk chain ctx s.log → (∀ pid ∈ pids, pid ≠ 0) →
    (∀ pid ∈ pids, HasChild s.log pid) →
    Safe parent (parentWatch chain ctx e) (fun _ s' => s' = s.extend (pids.map .killed))
      (pids.foldlM (fun _ pid => killPid pid) ()) s
  | [], s, hlog, _, _ => Safe.ret_alone hlog s.extend_nil.symm
  | pid :: pids, s, hlog, h0, hchild => by
    rw [List.foldlM_cons]
    have hkill := killPid_safe (e := e) hlog (h0 pid List.mem_cons_self) (hchild pid List.mem_cons_self)
    refine hkill.bind fun _ s' hs hlog' => ?_
    subst hs
    have hrest : ∀ p ∈ pids, HasChild (s.extend [.killed pid]).log p := by
      intro p hp
      obtain ⟨hforked, hwaited⟩ := hchild p (List.mem_cons_of_mem _ hp)
      refine ⟨List.mem_append_left _ hforked, fun hmem => ?_⟩
      rcases List.mem_append.mp hmem with hmem | hmem
      · exact hwaited hmem
      · cases List.mem_singleton.mp hmem
    refine (killPids_safe pids hlog' (fun p hp => h0 p (List.mem_cons_of_mem _ hp)) hrest).weaken ?_
    rintro _ _ _ rfl
    rw [ParentState.extend_extend]
    rfl

theorem reapPids_safe : ∀ (pids : List ℕ) {s : ParentState}, LogOk chain ctx s.log → (∀ pid ∈ pids, pid ≠ 0) →
    (∀ pid ∈ pids, .forked pid ∈ s.log) →
    Safe parent (parentWatch chain ctx e)
      (fun _ s' => ∃ es, Silent es ∧ s' = s.extend es ∧ ∀ pid ∈ pids, .waited pid ∈ s'.log)
      (pids.foldlM (fun _ pid => reapPid pid) ()) s
  | [], s, hlog, _, _ =>
    Safe.ret_alone hlog ⟨[], Silent.nil, s.extend_nil.symm, fun _ h => absurd h List.not_mem_nil⟩
  | pid :: pids, s, hlog, h0, hforked => by
    rw [List.foldlM_cons]
    have hreap := reapPid_safe (e := e) hlog (h0 pid List.mem_cons_self) (hforked pid List.mem_cons_self)
    refine hreap.bind fun _ s' hs hlog' => ?_
    obtain ⟨es, hquiet, rfl, hwaited⟩ := hs
    have hrest : ∀ p ∈ pids, .forked p ∈ (s.extend es).log := fun p hp =>
      List.mem_append_left _ (hforked p (List.mem_cons_of_mem _ hp))
    refine (reapPids_safe pids hlog' (fun p hp => h0 p (List.mem_cons_of_mem _ hp)) hrest).weaken ?_
    rintro _ _ _ ⟨es', hquiet', rfl, hall⟩
    refine ⟨es ++ es', hquiet.append hquiet', ParentState.extend_extend .., fun p hp => ?_⟩
    rcases List.mem_cons.mp hp with rfl | hp
    · exact List.mem_append_left _ hwaited
    · exact hall p hp

theorem Begun.hasChild {log : StartLog} (h : Begun chain ctx pids log) {pid : ℕ} (hp : pid ∈ pids) :
    HasChild log pid := ⟨mem_forkedPids.mp (h.forks ▸ hp), h.waits pid⟩

/-- All are killed before the first is waited for. -/
theorem rollbackPipeline_safe (pgid : ℕ) (pids : List ℕ) :
    IsRollback chain ctx e pids (rollbackPipeline pgid pids) := by
  intro s h
  refine (killGroup_safe h.ok pgid).bind fun _ s' hs _ => ?_
  subst hs
  refine (killPids_safe pids h.ok h.positive fun _ hp => h.hasChild hp).bind fun _ s₁ hs hlog => ?_
  subst hs
  have hforked : ∀ pid ∈ pids, .forked pid ∈ (s'.extend (pids.map .killed)).log := fun _ hp =>
    List.mem_append_left _ (h.hasChild hp).1
  refine (reapPids_safe pids hlog h.positive hforked).weaken ?_
  rintro _ _ _ ⟨es, hquiet, rfl, hall⟩
  refine ⟨pids.map .killed ++ es, (silent_killed pids).append hquiet, ParentState.extend_extend .., fun pid hp => ?_⟩
  have hkilled : .killed pid ∈ pids.map StartEvent.killed := List.mem_map_of_mem hp
  exact ⟨List.mem_append_left _ (List.mem_append_right _ hkilled), hall pid hp⟩

theorem rollbackSingle_safe (pid : ℕ) : IsRollback chain ctx e [pid] (rollbackSingle pid) := by
  intro s h
  have hpos : pid ≠ 0 := h.positive pid List.mem_cons_self
  have hchild : HasChild s.log pid := h.hasChild List.mem_cons_self
  unfold rollbackSingle
  rw [if_neg hpos]
  refine (killGroup_safe h.ok pid).bind fun _ s' hs _ => ?_
  subst hs
  refine (killPid_safe h.ok hpos hchild).bind fun _ s₁ hs hlog => ?_
  subst hs
  refine (reapPid_safe hlog hpos (List.mem_append_left _ hchild.1)).weaken ?_
  rintro _ _ _ ⟨es, hquiet, rfl, hwaited⟩
  have hone : Silent [StartEvent.killed pid] := ⟨rfl, rfl⟩
  refine ⟨[.killed pid] ++ es, hone.append hquiet, ParentState.extend_extend .., fun p hp => ?_⟩
  obtain rfl := List.mem_singleton.mp hp
  exact ⟨List.mem_append_left _ (List.mem_append_right _ List.mem_cons_self), hwaited⟩

end Rollback

end DeviceRuntime
