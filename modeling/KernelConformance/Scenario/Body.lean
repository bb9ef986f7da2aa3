import KernelConformance.Injection.Observation
import KernelConformance.Kernel.Machine
import KernelConformance.Scenario.Script
import KernelConformance.Suite.Programs

/-! The bodies of the programs of a scenario: one part of the suite, observed, with a record of what
it made of the kernel.
-/

namespace KernelConformance

open Randomness

/-- An operation on a spawner. A child that was tried is named by the order of the successes. -/
inductive SpawnerOp where
  | tryStart (job : Job)
  | issue (job : Job)
  | retire
  | joinAll
  | join (index : Nat)
  | report
  | outstanding
  deriving DecidableEq

/-- What an operation on a spawner returns. -/
inductive SpawnerReply where
  | spawned (child : Child)
  | atCapacity
  | submitted
  | retired (any : Bool)
  | report (report : Spawner.Report)
  | violation (violation : Violation)
  | joined (reply : Except Errno ExitStatus)
  | nothing

namespace SpawnerReply

/-- A violation, or what the value stands for. -/
def ofResult {α : Type} (f : α → SpawnerReply) : Except Violation α → SpawnerReply
  | .ok value => f value
  | .error broken => .violation broken

end SpawnerReply

namespace SpawnerOp

/-- Makes an operation on a spawner, with the children that were tried so far. -/
def run (handles : List Child) (spawner : Spawner)
    : SpawnerOp → Prog (SpawnerReply × List Child × Spawner)
  | tryStart job => do
      match ← spawner.tryStart job with
      | (some child, spawner) => pure (.spawned child, handles ++ [child], spawner)
      | (none, spawner) => pure (.atCapacity, handles, spawner)
  | issue job => do
      let (result, spawner) ← spawner.issue job
      pure (.ofResult (fun _ => .submitted) result, handles, spawner)
  | retire => do
      let (result, spawner) ← spawner.joinOldest
      pure (.ofResult .retired result, handles, spawner)
  | joinAll => do
      let (result, spawner) ← spawner.joinAll
      pure (.ofResult (fun _ => .report spawner.report) result, handles, spawner)
  | join index => do
      match handles[index]? with
      | none => pure (.nothing, handles, spawner)
      | some child =>
          let reply ← Prog.perform (.join child.pid)
          pure (.joined reply, handles, spawner)
  | report => pure (.report spawner.report, handles, spawner)
  | outstanding => pure (.nothing, handles, spawner)

/-- Makes operations in order. Each reply comes with the number of outstanding children after it. -/
def runAll : List SpawnerOp → List Child → Spawner → Prog (List (SpawnerReply × Nat))
  | [], _, _ => pure []
  | op :: rest, handles, spawner => do
      let (reply, handles, spawner) ← op.run handles spawner
      let replies ← runAll rest handles spawner
      pure ((reply, spawner.outstanding.length) :: replies)

end SpawnerOp

/-- What a body does. -/
inductive Task where
  | program (name : String)
  | script (calls : List ScriptCall)
  | probe (probe : Probe) (source : Source)
  | rounds (pair : FilePair) (count : Nat)
  | validate (pair : FilePair)
  | runAll (jobs : List Job)
  | spawner (ops : List SpawnerOp)
  | fault
  deriving DecidableEq

/-- What a body comes to. -/
inductive TaskResult where
  | nothing
  | replies (replies : List ScriptReply)
  | probed (fds : List Fd) (used : Option Nat)
  | value (value : Int32)
  | valid
  | report (report : Spawner.Report)
  | operated (replies : List (SpawnerReply × Nat))
  | violation (violation : Violation)

/-- A task with the faults that its calls suffer from, the number of log entries to keep, and the
status to exit with.
-/
structure Body where
  task : Task
  faults : List Fault
  logSize : Nat
  status : Int32
  deriving DecidableEq

/-- What the process of a body leaves: the observation of its calls and its result. -/
structure BodyReport where
  observation : Observation
  result : TaskResult

namespace Body

variable {α : Type}

/-- What a body has come to: the end that the process is about to make, its result, and what was
observed until then.
-/
structure Progress where
  ending : Ending
  result : TaskResult
  observation : Observation

/-- A process that has faulted without a result. -/
def faulted (observation : Observation) : Progress := ⟨.fault, .nothing, observation⟩

/-- Runs a computation that comes to a result, and exits with the status of the body. -/
def runPlain (body : Body) (result : α → TaskResult) (prog : Prog α) : Prog Progress := do
  match ← Observation.observe body.faults prog .empty with
  | (none, observation) => pure (faulted observation)
  | (some value, observation) => pure ⟨.exit body.status, result value, observation⟩

/-- Runs a check. A violation is the result, and the process ends by it; a fault while it is printed
comes too late to change that.
-/
def runCheck (body : Body) (name : String) (result : α → TaskResult) (check : Check α)
    : Prog Progress := do
  match ← Observation.observe body.faults check.run .empty with
  | (none, observation) | (some (.error .fault), observation) => pure (faulted observation)
  | (some (.ok value), observation) => pure ⟨.exit body.status, result value, observation⟩
  | (some (.error (.violation broken)), observation) =>
      let (ending, observation) ← Observation.observe body.faults (broken.ending name) observation
      pure ⟨ending.getD .fault, .violation broken, observation⟩

/-- What a script comes to if its process ends in a call. The replies before it are the result if it
is a call that does not return, and a fault in any other leaves no result.
-/
def cutShort (call : ScriptCall) (replies : List ScriptReply) : TaskResult :=
  if call.returns then .nothing else .replies replies

/-- Runs the calls of a script in order. The result holds the replies of the calls that returned. -/
def runScript (body : Body) (name : String) (argv : List String)
    : List ScriptCall → List Pid → List ScriptReply → Observation → Prog Progress
  | [], _, replies, observation => pure ⟨.exit body.status, .replies replies, observation⟩
  | call :: rest, children, replies, observation => do
      match ← Observation.observe body.faults (call.run name argv children) observation with
      | (none, observation) => pure ⟨.fault, cutShort call replies, observation⟩
      | (some (.ended ending), observation) => pure ⟨ending, cutShort call replies, observation⟩
      | (some (.returned reply children), observation) =>
          runScript body name argv rest children (replies ++ [reply]) observation

/-- Runs the task of a body. -/
def runTask (body : Body) (name : String) (argv : List String) : Prog Progress :=
  match body.task with
  | .program program => do
      let main := (testProgram? program).getD fun _ _ => pure (.exit 0)
      let (ending, observation) ← Observation.observe body.faults (main name argv) .empty
      pure ⟨ending.getD .fault, .nothing, observation⟩
  | .script calls => runScript body name argv calls [] [] .empty
  | .probe probe source =>
      runCheck body name (fun (fds, stream) => .probed fds (source.used? stream))
        (probe.run source.stream)
  | .rounds pair count => runCheck body name .value (Recurrence.run pair count)
  | .validate pair => runCheck body name (fun _ => .valid) (Recurrence.check pair)
  | .runAll jobs => runCheck body name .report (Spawner.runJobs jobs)
  | .spawner ops => runPlain body .operated (SpawnerOp.runAll ops [] .empty)
  | .fault => pure (faulted .empty)

/-- The image of a body: its task, then the end of the process, which is observed too. -/
def image (body : Body) : Image (Option BodyReport) := fun name argv => do
  let progress ← runTask body name argv
  let (ending, observation) :=
    Observation.observeEnding body.faults progress.ending progress.observation
  let log := observation.log.take body.logSize
  pure (ending, some ⟨{ observation with log }, progress.result⟩)

end Body

end KernelConformance
