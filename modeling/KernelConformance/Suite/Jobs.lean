import KernelConformance.Suite.Check

/-! Spawning without knowing how many processes there can be. A spawner starts children until one is
refused, and then makes room by joining the oldest; each child must exit with its own signature.
-/

namespace KernelConformance

/-- A program run to be issued, and the status that it must exit with. -/
structure Job where
  program : String
  argv : List String
  signature : Int32
  deriving DecidableEq

namespace Job

/-- A run of a program whose only argument is its own name. -/
def of (program : String) (signature : Int32) : Job := ⟨program, [program], signature⟩

/-- Adds an argument. -/
def arg (argument : String) (job : Job) : Job :=
  { job with argv := job.argv ++ [argument] }

/-- The description of a job. -/
def description (job : Job) : String :=
  Text.described "WorkUnit"
    [("program", Text.quoted job.program), ("argv", Text.quotedList job.argv),
      ("signature", Decimal.write job.signature)]

end Job

/-- A child that was started and not joined yet. -/
structure Child where
  pid : Pid
  signature : Int32
  order : Nat
  deriving DecidableEq

/-- Judges the reply to the join of a child: it must have exited with its signature. -/
def Child.judge (child : Child) : Except Errno ExitStatus → Except Violation Unit
  | .error error => .error (.failure s!"join {child.pid.text} failed: {error.message}")
  | .ok status =>
      if status.isAbnormal then
        .error (.failure s!"child {child.pid.text} (spawn #{child.order}) {status.text}")
      else if status.code = child.signature then .ok ()
      else
        .error (.failure
          (s!"wrong status: child {child.pid.text} (spawn #{child.order}) exited with "
            ++ s!"{Decimal.write status.code}, expected {Decimal.write child.signature}"))

/-- What a spawner has done. Children are retired when they are joined with the right status. -/
structure Spawner.Report where
  spawned : Nat
  retired : Nat
  refusals : Nat
  peakOutstanding : Nat
  retirementOrder : List Nat
  deriving DecidableEq

/-- A queue of children, the oldest first, the number of the next child, and the report. -/
structure Spawner where
  outstanding : List Child
  nextOrder : Nat
  report : Spawner.Report
  deriving DecidableEq

namespace Spawner

/-- A spawner that has done nothing. -/
def empty : Spawner := ⟨[], 0, ⟨0, 0, 0, 0, []⟩⟩

/-- Notes that a child was started. -/
def noteSpawned (spawner : Spawner) : Spawner :=
  { spawner with
    nextOrder := spawner.nextOrder + 1
    report := { spawner.report with spawned := spawner.report.spawned + 1 } }

/-- Notes that a child was refused. -/
def noteRefusal (spawner : Spawner) : Spawner :=
  { spawner with report := { spawner.report with refusals := spawner.report.refusals + 1 } }

/-- Notes that a child was retired. -/
def noteRetired (child : Child) (spawner : Spawner) : Spawner :=
  { spawner with report := { spawner.report with
      retired := spawner.report.retired + 1
      retirementOrder := spawner.report.retirementOrder ++ [child.order] } }

/-- Puts a child at the end of the queue. -/
def enqueue (child : Child) (spawner : Spawner) : Spawner :=
  let outstanding := spawner.outstanding ++ [child]
  { spawner with
    outstanding
    report := { spawner.report with
      peakOutstanding := max spawner.report.peakOutstanding outstanding.length } }

/-- Tries once to start a job. The child is the caller's to join; there is none if
it was refused.
-/
def tryStart (job : Job) (spawner : Spawner) : Prog (Option Child × Spawner) := do
  match ← Prog.perform (.exec job.program job.argv) with
  | .ok pid => pure (some ⟨pid, job.signature, spawner.nextOrder⟩, spawner.noteSpawned)
  | .error _ => pure (none, spawner.noteRefusal)

/-- Joins a child that has left the queue, and retires it unless its status is wrong. -/
def retire (child : Child) (spawner : Spawner) : Prog (Except Violation Unit × Spawner) := do
  match child.judge (← Prog.perform (.join child.pid)) with
  | .ok () => pure (.ok (), spawner.noteRetired child)
  | .error violation => pure (.error violation, spawner)

/-- Retires the oldest child, and says whether there was one. A child that fails its check has left
the queue too.
-/
def joinOldest (spawner : Spawner) : Prog (Except Violation Bool × Spawner) := do
  match spawner.outstanding with
  | [] => pure (.ok false, spawner)
  | oldest :: rest =>
      let (result, spawner) ← retire oldest { spawner with outstanding := rest }
      pure (result.map fun _ => true, spawner)

/-- Starts a job, retiring children of the given queue from its front until there is room. -/
def issueFrom (job : Job) : List Child → Spawner
    → Prog (Except Violation Unit × Spawner)
  | queue, spawner => do
      match ← tryStart job spawner with
      | (some child, spawner) => pure (.ok (), spawner.enqueue child)
      | (none, spawner) =>
          match queue with
          | [] =>
              let message := s!"cannot exec {job.program} with no children outstanding"
              pure (.error (.failure message), spawner)
          | oldest :: rest =>
              match ← retire oldest { spawner with outstanding := rest } with
              | (.error violation, spawner) => pure (.error violation, spawner)
              | (.ok (), spawner) => issueFrom job rest spawner

/-- Starts a job, retiring the oldest children until there is room. -/
def issue (job : Job) (spawner : Spawner) : Prog (Except Violation Unit × Spawner) :=
  issueFrom job spawner.outstanding spawner

/-- Retires the children of the given queue. -/
def joinFrom : List Child → Spawner → Prog (Except Violation Unit × Spawner)
  | [], spawner => pure (.ok (), spawner)
  | oldest :: rest, spawner => do
      match ← retire oldest { spawner with outstanding := rest } with
      | (.error violation, spawner) => pure (.error violation, spawner)
      | (.ok (), spawner) => joinFrom rest spawner

/-- Retires all children, the oldest first. -/
def joinAll (spawner : Spawner) : Prog (Except Violation Unit × Spawner) :=
  joinFrom spawner.outstanding spawner

/-- Issues jobs in order, up to the first violation. -/
def issueAll : List Job → Spawner → Prog (Except Violation Unit × Spawner)
  | [], spawner => pure (.ok (), spawner)
  | job :: rest, spawner => do
      match ← issue job spawner with
      | (.error violation, spawner) => pure (.error violation, spawner)
      | (.ok (), spawner) => issueAll rest spawner

/-- Retires all children after the jobs were issued, and returns the report. -/
def conclude (issued : Prog (Except Violation Unit × Spawner)) : Check Spawner.Report := do
  let (result, spawner) ← ExceptT.lift issued
  Check.ofResult result
  let (result, spawner) ← ExceptT.lift (joinAll spawner)
  Check.ofResult result
  pure spawner.report

/-- Issues jobs in order and retires all children. -/
def runJobs (jobs : List Job) : Check Spawner.Report := conclude (issueAll jobs empty)

end Spawner

end KernelConformance
