/-
# The job table

`src/job.c`: the table with its jobs and their processes, the functions that
change it, and those that wait for children. The table is memory that calls
read and write; a pointer to a job is its `id` and a pointer to a process of a
job its `pid`. `waitpid` and `kill` are calls, with the process or the group
that the sign of their argument tells apart.

Key definitions: `Job`, `JobManager`, `JobCall`, `jobUpdateStatus`,
`processApplyWaitStatus`, `jobAdd`, `processAdd`, `jobContinue`,
`jobWaitForeground`, `jobReap`.
-/
import DeviceRuntime.Lib.Prog
import DeviceRuntime.Libc

namespace DeviceRuntime

abbrev COMMAND_SIZE : ℕ := 128

/-- The `int` of `waitpid`, as its macros see it. -/
inductive WaitStatus
  | exited (code : ℕ)
  | signaled (sig : ℕ)
  | stopped (sig : ℕ)
  | continued
deriving DecidableEq, Repr

inductive ProcessStatus
  | running | stopped | done
deriving DecidableEq, Repr

inductive JobStatus
  | running | stopped | done
deriving DecidableEq, Repr

/-- `waitStatus` is `none` while it is not valid. -/
structure Process where
  pid : ℕ
  status : ProcessStatus
  waitStatus : Option WaitStatus
deriving DecidableEq, Repr

/-- The modes of a terminal. -/
abbrev Termios := ℕ

structure Job where
  id : ℕ
  pgid : ℕ
  status : JobStatus
  command : List Byte
  processes : List Process
  terminalModes : Option Termios
deriving DecidableEq, Repr

structure JobManager where
  jobs : List Job
  nextid : ℕ
deriving DecidableEq, Repr

/-! ### Jobs and processes -/

def processFind (job : Job) (pid : ℕ) : Option Process :=
  if pid = 0 then none else job.processes.find? fun process => process.pid = pid

def jobUpdateStatus (job : Job) : Job :=
  if job.processes = [] then job
  else { job with status :=
    if job.processes.any fun process => process.status = .running then .running
    else if job.processes.any fun process => process.status = .stopped then .stopped
    else .done }

/-- The status that a wait status stands for. -/
def WaitStatus.processStatus : WaitStatus → ProcessStatus
  | .exited _ | .signaled _ => .done
  | .stopped _ => .stopped
  | .continued => .running

def processApplyWaitStatus (process : Process) (status : WaitStatus) : Process :=
  { process with waitStatus := some status, status := status.processStatus }

/-- Change one process of a job. -/
def Job.modifyProcess (job : Job) (pid : ℕ) (f : Process → Process) : Job :=
  { job with processes := job.processes.map fun process => if process.pid = pid then f process else process }

/-- The stopped processes of a job that is continued are running. -/
def Job.resume (job : Job) : Job :=
  { job with processes := job.processes.map fun process =>
      if process.status = .stopped then { process with status := .running } else process }

def jobExitStatus (job : Job) : ℤ :=
  match job.processes.getLast?.bind Process.waitStatus with
  | some (.exited code) => code
  | some (.signaled sig) => 128 + sig
  | _ => -1

/-! ### The table -/

def jobmanagerInit : JobManager := ⟨[], 1⟩

/-- The job a pointer points to. -/
def JobManager.find (m : JobManager) (id : ℕ) : Option Job := m.jobs.find? fun job => job.id = id

/-- Change the job a pointer points to. -/
def JobManager.modify (m : JobManager) (id : ℕ) (f : Job → Job) : JobManager :=
  { m with jobs := m.jobs.map fun job => if job.id = id then f job else job }

def jobFind (m : JobManager) (pgid : ℕ) : Option Job :=
  if pgid = 0 then none else m.jobs.find? fun job => job.pgid = pgid

def jobCountActive (m : JobManager) : ℕ :=
  m.jobs.countP fun job => job.status = .running || job.status = .stopped

def jobCleanupDone (m : JobManager) : JobManager :=
  { m with jobs := m.jobs.filter fun job => job.status ≠ .done }

/-- The first job of the group is removed. -/
def jobRemove (m : JobManager) (pgid : ℕ) : JobManager :=
  if pgid = 0 then m else { m with jobs := m.jobs.eraseP fun job => job.pgid = pgid }

/-! ### Calls -/

/-- The argument of `waitpid` and `kill`: positive or negative. -/
inductive Target
  | process (pid : ℕ)
  | group (pgid : ℕ)
deriving DecidableEq, Repr

structure WaitFlags where
  nohang : Bool
  untraced : Bool
  continued : Bool
deriving DecidableEq, Repr

/-- What `waitpid` returns: -1 with an `errno`, 0, or a child. -/
inductive WaitResult
  | failed (errno : ℕ)
  | nothing
  | reported (pid : ℕ) (status : WaitStatus)
deriving DecidableEq, Repr

inductive KillSignal
  | sigcont | sigterm | sigkill
deriving DecidableEq, Repr

inductive JobCall
  | getJobs
  | setJobs (m : JobManager)
  | malloc
  | waitpid (target : Target) (flags : WaitFlags)
  | kill (target : Target) (sig : KillSignal)
  | printf (line : List Byte)

/-- `malloc` says whether it succeeded. -/
abbrev JobCall.Ret : JobCall → Type
  | .getJobs => JobManager
  | .setJobs _ => Unit
  | .malloc => Bool
  | .waitpid _ _ => WaitResult
  | .kill _ _ => CallResult
  | .printf _ => Unit

abbrev JobProg := Prog JobCall JobCall.Ret

def getJobs : JobProg JobManager := .call .getJobs .ret
def setJobs (m : JobManager) : JobProg Unit := .call (.setJobs m) .ret

/-- Read the table, and write it with one job changed. -/
def modifyJob (id : ℕ) (f : Job → Job) : JobProg Unit :=
  .call .getJobs fun m => .call (.setJobs (m.modify id f)) .ret

/-- The pointer to the new job, or `none` for NULL. -/
def jobAdd (pgid : ℕ) (command : Option (List Byte)) : JobProg (Option ℕ) :=
  match command with
  | none => .ret none
  | some command =>
    if pgid = 0 then .ret none
    else .call .malloc fun allocated =>
      if !allocated then .ret none
      else .call .getJobs fun m =>
        .call (.setJobs ⟨⟨m.nextid, pgid, .running, command.take (COMMAND_SIZE - 1), [], none⟩ :: m.jobs,
          m.nextid + 1⟩) fun _ => .ret (some m.nextid)

def processAdd (id pid : ℕ) : JobProg ℤ :=
  if pid = 0 then .ret (-1)
  else .call .malloc fun allocated =>
    if !allocated then .ret (-1)
    else (modifyJob id fun job => { job with processes := job.processes ++ [⟨pid, .running, none⟩] }).bind fun _ =>
      .ret 0

/-- `while (kill(-pgid, SIGCONT) < 0)`: 0, or -1 for a failure that is not
`EINTR`. -/
def continueGroup (pgid : ℕ) : JobProg ℤ :=
  .iter (fun _ => .call (.kill (.group pgid) .sigcont) fun r =>
    if r.ret < 0 then if r.errno = EINTR then .ret (.inl ()) else .ret (.inr (-1)) else .ret (.inr 0)) ()

def jobContinue (id : ℕ) : JobProg ℤ :=
  .call .getJobs fun m =>
    match m.find id with
    | none => .ret (-1)
    | some job =>
      if job.pgid = 0 then .ret (-1)
      else if job.status ≠ .stopped then .ret (-1)
      else (continueGroup job.pgid).bind fun ret =>
        if ret < 0 then .ret (-1)
        else (modifyJob id Job.resume).bind fun _ => (modifyJob id jobUpdateStatus).bind fun _ => .ret 0

/-- One turn of the loop of `job_wait_foreground`. -/
def waitTurn (id : ℕ) : JobProg (Unit ⊕ ℤ) :=
  .call .getJobs fun m =>
    match m.find id with
    | none => .ret (.inr (-1))
    | some job =>
      if job.pgid = 0 then .ret (.inr (-1))
      else if job.status ≠ .running then .ret (.inr 0)
      else .call (.waitpid (.group job.pgid) ⟨false, true, false⟩) fun
        | .failed errno => if errno = EINTR then .ret (.inl ()) else .ret (.inr (-1))
        | .nothing => .ret (.inr (-1))
        | .reported pid status =>
          if processFind job pid = none then .ret (.inr (-1))
          else (modifyJob id fun job => job.modifyProcess pid fun p => processApplyWaitStatus p status).bind fun _ =>
            (modifyJob id jobUpdateStatus).bind fun _ => .ret (.inl ())

def jobWaitForeground (id : ℕ) : JobProg ℤ := .iter (fun _ => waitTurn id) ()

/-- The line `job_reap` prints for a child, if it prints one. -/
def reapLine (id pid : ℕ) : WaitStatus → Option (List Byte)
  | .exited code => some (text "\n[" ++ decimal id ++ text "] process " ++ decimal pid ++ text " exit " ++
      decimal code ++ text "\n")
  | .signaled sig => some (text "\n[" ++ decimal id ++ text "] process " ++ decimal pid ++ text " killed by " ++
      decimal sig ++ text "\n")
  | .stopped sig => some (text "\n[" ++ decimal id ++ text "] process " ++ decimal pid ++ text " stopped by " ++
      decimal sig ++ text "\n")
  | .continued => none

def printLine : Option (List Byte) → JobProg Unit
  | none => .ret ()
  | some line => .call (.printf line) .ret

/-- One turn of the inner loop of `job_reap`. -/
def reapProcess (id pid : ℕ) : JobProg Unit :=
  .call .getJobs fun m =>
    match (m.find id).bind fun job => processFind job pid with
    | none => .ret ()
    | some process =>
      if process.status = .done then .ret ()
      else .call (.waitpid (.process pid) ⟨true, true, true⟩) fun
        | .failed errno =>
          if errno = ECHILD then modifyJob id fun job => job.modifyProcess pid fun p => { p with status := .done }
          else .ret ()
        | .nothing => .ret ()
        | .reported ret status =>
          if ret = pid then
            (modifyJob id fun job => job.modifyProcess pid fun p => processApplyWaitStatus p status).bind fun _ =>
              printLine (reapLine id pid status)
          else .ret ()

/-- One turn of the outer loop. -/
def reapJob (id : ℕ) : JobProg Unit :=
  .call .getJobs fun m =>
    match m.find id with
    | none => .ret ()
    | some job =>
      ((job.processes.map Process.pid).foldlM (fun _ pid => reapProcess id pid) ()).bind fun _ =>
        modifyJob id jobUpdateStatus

def jobReap : JobProg Unit :=
  .call .getJobs fun m => (m.jobs.map Job.id).foldlM (fun _ id => reapJob id) ()

end DeviceRuntime
