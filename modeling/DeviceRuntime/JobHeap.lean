/-
# The job table in memory

`src/job.c` once more, with the two levels of linked lists that the table
consists of: the nodes of the jobs and of the processes are in memory, a
pointer is an address, and every access is a call. A node is loaded before it
is read and stored as a whole; memory that was not allocated, or was freed,
cannot be loaded. The results of `malloc`, `waitpid` and `kill` are arbitrary.

The functions have the names they have in `DeviceRuntime.Job`, where the table
is a list.

Key definitions: `JobRecord`, `JobHeap`, `HeapCall`, `jobHeapSem`,
`Heap.jobUpdateStatus`, `Heap.jobAdd`, `Heap.jobFind`, `Heap.processAdd`,
`Heap.jobContinue`, `Heap.jobWaitForeground`, `Heap.jobReap`, `Heap.jobCleanupDone`,
`Heap.jobRemove`.
-/
import DeviceRuntime.Job
import DeviceRuntime.Lib.LinkedList
import DeviceRuntime.Lib.Safe

namespace DeviceRuntime

open LinkedList

/-- A job without the pointer to the next one. `processes` is the pointer to
its first process. -/
structure JobRecord where
  id : ℤ
  pgid : ℕ
  status : JobStatus
  command : List Byte
  processes : Option ℕ
  terminalModes : Option Termios
deriving DecidableEq, Repr

structure ManagerRecord where
  head : Option ℕ
  nextid : ℤ
deriving DecidableEq, Repr

structure JobHeap where
  manager : ManagerRecord
  jobs : Memory JobRecord
  processes : Memory Process

inductive HeapCall
  | loadManager
  | storeManager (m : ManagerRecord)
  | mallocJob
  | loadJob (job : ℕ)
  | storeJob (job : ℕ) (node : Node JobRecord)
  | freeJob (job : ℕ)
  | mallocProcess
  | loadProcess (process : ℕ)
  | storeProcess (process : ℕ) (node : Node Process)
  | freeProcess (process : ℕ)
  | waitpid (target : Target) (flags : WaitFlags)
  | kill (target : Target) (sig : KillSignal)
  | printf (line : List Byte)

abbrev HeapCall.Ret : HeapCall → Type
  | .loadManager => ManagerRecord
  | .mallocJob | .mallocProcess => Option ℕ
  | .loadJob _ => Node JobRecord
  | .loadProcess _ => Node Process
  | .waitpid _ _ => WaitResult
  | .kill _ _ => CallResult
  | .storeManager _ | .storeJob _ _ | .freeJob _ | .storeProcess _ _ | .freeProcess _ | .printf _ => Unit

abbrev HeapProg := Prog HeapCall HeapCall.Ret

namespace Heap

/-! ### Jobs and processes -/

/-- `job->field = value`. -/
def updateJob (job : ℕ) (f : Node JobRecord → Node JobRecord) : HeapProg Unit :=
  .call (.loadJob job) fun node => .call (.storeJob job (f node)) .ret

def updateProcess (process : ℕ) (f : Node Process → Node Process) : HeapProg Unit :=
  .call (.loadProcess process) fun node => .call (.storeProcess process (f node)) .ret

def processDestroy (process : Option ℕ) : HeapProg Unit :=
  .iter (fun
    | none => .ret (.inr ())
    | some process => .call (.loadProcess process) fun node => .call (.freeProcess process) fun _ =>
        .ret (.inl node.next)) process

def findTurn (pid : ℕ) : Option ℕ → HeapProg (Option ℕ ⊕ Option ℕ)
  | none => .ret (.inr none)
  | some process => .call (.loadProcess process) fun node =>
    if node.val.pid = pid then .ret (.inr (some process)) else .ret (.inl node.next)

def processFind (job pid : ℕ) : HeapProg (Option ℕ) :=
  if pid = 0 then .ret none else .call (.loadJob job) fun node => .iter (findTurn pid) node.val.processes

/-- The loop of `job_update_status`, with `has_running` and `has_stopped`. -/
def countStatus : Option ℕ × Bool × Bool → HeapProg (Option ℕ × Bool × Bool ⊕ Bool × Bool)
  | (none, hasRunning, hasStopped) => .ret (.inr (hasRunning, hasStopped))
  | (some process, hasRunning, hasStopped) => .call (.loadProcess process) fun node =>
      .ret (.inl (node.next, hasRunning || node.val.status = .running, hasStopped || node.val.status = .stopped))

def jobUpdateStatus (job : ℕ) : HeapProg Unit :=
  .call (.loadJob job) fun node =>
    if node.val.processes = none then .ret ()
    else (Prog.iter countStatus (node.val.processes, false, false)).bind fun found =>
      updateJob job fun node => { node with val := { node.val with status :=
        if found.1 then .running else if found.2 then .stopped else .done } }

/-- `while (process) { ..; process = process->next; }` -/
def eachProcess (body : ℕ → HeapProg Unit) (process : Option ℕ) : HeapProg Unit :=
  .iter (fun
    | none => .ret (.inr ())
    | some process => (body process).bind fun _ =>
      .call (.loadProcess process) fun node => .ret (.inl node.next)) process

def applyWaitStatus (process : ℕ) (status : WaitStatus) : HeapProg Unit :=
  updateProcess process fun node => { node with val := processApplyWaitStatus node.val status }

/-! ### The table -/

def jobmanagerInit : HeapProg Unit := .call (.storeManager ⟨none, 1⟩) .ret

/-- What `job_init` writes. -/
def jobInit : Node JobRecord := ⟨⟨0, 0, .running, [], none, none⟩, none⟩

/-- The value of an `int`. -/
def int (i : ℤ) : ℤ := Int.bmod i (2 ^ 32)

def jobAdd (pgid : ℤ) (command : Option (List Byte)) : HeapProg (Option ℕ) :=
  match command with
  | none => .ret none
  | some command =>
    if pgid ≤ 0 then .ret none
    else .call .mallocJob fun
      | none => .ret none
      | some job =>
        .call (.storeJob job jobInit) fun _ =>
        .call .loadManager fun m =>
        .call (.storeManager { m with nextid := int (m.nextid + 1) }) fun _ =>
        (updateJob job fun node => { node with val := { node.val with
          id := m.nextid, pgid := pgid.toNat, command := command.take (COMMAND_SIZE - 1) } }).bind fun _ =>
        .call .loadManager fun m =>
        (updateJob job fun node => { node with next := m.head }).bind fun _ =>
        .call (.storeManager { m with head := some job }) fun _ =>
        .ret (some job)

def jobFindTurn (pgid : ℤ) : Option ℕ → HeapProg (Option ℕ ⊕ Option ℕ)
  | none => .ret (.inr none)
  | some job => .call (.loadJob job) fun node =>
    if (node.val.pgid : ℤ) = pgid then .ret (.inr (some job)) else .ret (.inl node.next)

def jobFind (pgid : ℤ) : HeapProg (Option ℕ) :=
  if pgid ≤ 0 then .ret none else .call .loadManager fun m => .iter (jobFindTurn pgid) m.head

/-- `while (current->next) current = current->next;` -/
def lastProcess (current : ℕ) : HeapProg ℕ :=
  .iter (fun current => .call (.loadProcess current) fun
    | ⟨_, none⟩ => .ret (.inr current)
    | ⟨_, some next⟩ => .ret (.inl next)) current

def processAdd (job : Option ℕ) (pid : ℤ) : HeapProg ℤ :=
  match job with
  | none => .ret (-1)
  | some job =>
    if pid ≤ 0 then .ret (-1)
    else .call .mallocProcess fun
      | none => .ret (-1)
      | some process =>
        .call (.storeProcess process ⟨⟨pid.toNat, .running, none⟩, none⟩) fun _ =>
        .call (.loadJob job) fun node =>
          match node.val.processes with
          | none =>
            (updateJob job fun node => { node with val := { node.val with processes := some process } }).bind fun _ =>
            .ret 0
          | some current => (lastProcess current).bind fun current =>
            (updateProcess current fun node => { node with next := some process }).bind fun _ =>
            .ret 0

/-! ### Waiting and continuing -/

/-- `while (kill(-pgid, SIGCONT) < 0)`: 0, or -1 for a failure that is not
`EINTR`. -/
def continueGroup (pgid : ℕ) : HeapProg ℤ :=
  .iter (fun _ => .call (.kill (.group pgid) .sigcont) fun r =>
    if r.ret < 0 then if r.errno = EINTR then .ret (.inl ()) else .ret (.inr (-1)) else .ret (.inr 0)) ()

/-- `if (process->status == PROCESS_STOPPED) process->status = PROCESS_RUNNING;` -/
def resumeProcess (process : ℕ) : HeapProg Unit :=
  .call (.loadProcess process) fun node =>
    if node.val.status = .stopped then
      updateProcess process fun node => { node with val := { node.val with status := .running } }
    else .ret ()

def jobContinue (job : Option ℕ) : HeapProg ℤ :=
  match job with
  | none => .ret (-1)
  | some job => .call (.loadJob job) fun node =>
    if node.val.pgid = 0 then .ret (-1)
    else if node.val.status ≠ .stopped then .ret (-1)
    else (continueGroup node.val.pgid).bind fun ret =>
      if ret < 0 then .ret (-1)
      else .call (.loadJob job) fun node =>
        (eachProcess resumeProcess node.val.processes).bind fun _ =>
        (jobUpdateStatus job).bind fun _ =>
        .ret 0

/-- One turn of the loop of `job_wait_foreground`. -/
def waitTurn (job : ℕ) : HeapProg (Unit ⊕ ℤ) :=
  .call (.loadJob job) fun node =>
    if node.val.status ≠ .running then .ret (.inr 0)
    else .call (.waitpid (.group node.val.pgid) ⟨false, true, false⟩) fun
      | .failed errno => if errno = EINTR then .ret (.inl ()) else .ret (.inr (-1))
      | .nothing => .ret (.inr (-1))
      | .reported pid status => (processFind job pid).bind fun
        | none => .ret (.inr (-1))
        | some process =>
          (applyWaitStatus process status).bind fun _ =>
          (jobUpdateStatus job).bind fun _ =>
          .ret (.inl ())

def jobWaitForeground (job : Option ℕ) : HeapProg ℤ :=
  match job with
  | none => .ret (-1)
  | some job => .call (.loadJob job) fun node =>
    if node.val.pgid = 0 then .ret (-1) else .iter (fun _ => waitTurn job) ()

/-! ### Reaping -/

/-- The line that `job_reap` prints for a child, if it prints one. -/
def reapLine (id : ℤ) (pid : ℕ) : WaitStatus → Option (List Byte)
  | .exited code => some (text "\n[" ++ decimalInt id ++ text "] process " ++ decimal pid ++ text " exit " ++
      decimal code ++ text "\n")
  | .signaled sig => some (text "\n[" ++ decimalInt id ++ text "] process " ++ decimal pid ++ text " killed by " ++
      decimal sig ++ text "\n")
  | .stopped sig => some (text "\n[" ++ decimalInt id ++ text "] process " ++ decimal pid ++ text " stopped by " ++
      decimal sig ++ text "\n")
  | .continued => none

def printLine : Option (List Byte) → HeapProg Unit
  | none => .ret ()
  | some line => .call (.printf line) .ret

/-- What is done with the result of `waitpid` for a process that is not done. -/
def reapResult (job process pid : ℕ) : WaitResult → HeapProg Unit
  | .failed errno =>
    if errno = ECHILD then updateProcess process fun node => { node with val := { node.val with status := .done } }
    else .ret ()
  | .nothing => .ret ()
  | .reported ret status =>
    if ret = pid then (applyWaitStatus process status).bind fun _ =>
      .call (.loadJob job) fun node => printLine (reapLine node.val.id pid status)
    else .ret ()

def reapProcess (job process : ℕ) : HeapProg Unit :=
  .call (.loadProcess process) fun node =>
    if node.val.status = .done then .ret ()
    else .call (.waitpid (.process node.val.pid) ⟨true, true, true⟩) (reapResult job process node.val.pid)

def reapJob (job : ℕ) : HeapProg Unit :=
  .call (.loadJob job) fun node => (eachProcess (reapProcess job) node.val.processes).bind fun _ =>
    jobUpdateStatus job

/-- One turn of the outer loop. -/
def reapTurn : Option ℕ → HeapProg (Option ℕ ⊕ Unit)
  | none => .ret (.inr ())
  | some job => (reapJob job).bind fun _ => .call (.loadJob job) fun node => .ret (.inl node.next)

def jobReap : HeapProg Unit := .call .loadManager fun m => .iter reapTurn m.head

/-! ### Removing -/

/-- `if (!prev) manager->head = next; else prev->next = next;` -/
def setNext (prev next : Option ℕ) : HeapProg Unit :=
  match prev with
  | none => .call .loadManager fun m => .call (.storeManager { m with head := next }) .ret
  | some prev => updateJob prev fun node => { node with next := next }

/-- A job is taken out of the list and freed with its processes; `prev` is the
job before it. -/
def jobUnlink (prev : Option ℕ) (current : ℕ) (next : Option ℕ) : HeapProg Unit :=
  (setNext prev next).bind fun _ =>
  .call (.loadJob current) fun node => (processDestroy node.val.processes).bind fun _ =>
  .call (.freeJob current) .ret

/-- One turn of the loop of `job_cleanup_done`, with `prev` and `current`. -/
def cleanupTurn : Option ℕ × Option ℕ → HeapProg (Option ℕ × Option ℕ ⊕ Unit)
  | (_, none) => .ret (.inr ())
  | (prev, some current) => .call (.loadJob current) fun node =>
    if node.val.status = .done then (jobUnlink prev current node.next).bind fun _ => .ret (.inl (prev, node.next))
    else .ret (.inl (some current, node.next))

def jobCleanupDone : HeapProg Unit := .call .loadManager fun m => .iter cleanupTurn (none, m.head)

def removeTurn (pgid : ℤ) : Option ℕ × Option ℕ → HeapProg (Option ℕ × Option ℕ ⊕ Unit)
  | (_, none) => .ret (.inr ())
  | (prev, some current) => .call (.loadJob current) fun node =>
    if (node.val.pgid : ℤ) = pgid then (jobUnlink prev current node.next).bind fun _ => .ret (.inr ())
    else .ret (.inl (some current, node.next))

def jobRemove (pgid : ℤ) : HeapProg Unit :=
  if pgid ≤ 0 then .ret () else .call .loadManager fun m => .iter (removeTurn pgid) (none, m.head)

end Heap

/-! ### Memory -/

open Prog

def JobHeap.setJob (w : JobHeap) (job : ℕ) (node : Node JobRecord) : JobHeap :=
  { w with jobs := w.jobs.write job node }

def JobHeap.setProcess (w : JobHeap) (process : ℕ) (node : Node Process) : JobHeap :=
  { w with processes := w.processes.write process node }

/-- What `malloc` gives is not allocated yet, and its contents are arbitrary. -/
def jobHeapSem (w : JobHeap) : (c : HeapCall) → c.Ret → JobHeap → Prop
  | .loadManager, m, w' => m = w.manager ∧ w' = w
  | .storeManager m, _, w' => w' = { w with manager := m }
  | .mallocJob, r, w' =>
    (r = none ∧ w' = w) ∨
      ∃ job node, r = some job ∧ w.jobs job = none ∧ w' = w.setJob job node
  | .loadJob job, node, w' => w.jobs job = some node ∧ w' = w
  | .storeJob job node, _, w' => w.jobs job ≠ none ∧ w' = w.setJob job node
  | .freeJob job, _, w' => w.jobs job ≠ none ∧ w' = { w with jobs := w.jobs.free job }
  | .mallocProcess, r, w' =>
    (r = none ∧ w' = w) ∨
      ∃ process node, r = some process ∧ w.processes process = none ∧ w' = w.setProcess process node
  | .loadProcess process, node, w' => w.processes process = some node ∧ w' = w
  | .storeProcess process node, _, w' => w.processes process ≠ none ∧ w' = w.setProcess process node
  | .freeProcess process, _, w' => w.processes process ≠ none ∧ w' = { w with processes := w.processes.free process }
  | .waitpid _ _, _, w' => w' = w
  | .kill _ _, _, w' => w' = w
  | .printf _, _, w' => w' = w

abbrev heapWorld : World HeapCall HeapCall.Ret JobHeap := World.alone jobHeapSem

end DeviceRuntime
