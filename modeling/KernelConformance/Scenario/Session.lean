import KernelConformance.Kernel.Wait
import KernelConformance.Scenario.Body
import KernelConformance.Suite.Programs

/-! Sessions with a kernel. The host registers programs, starts and waits for processes, and looks
at what is there. Processes with a body run to their end when they are started; those without one
are puppets, which make one call whenever they are told to.
-/

namespace KernelConformance

open Utf8 (Bytes)

/-- What is registered under the name of a program. -/
inductive Registration where
  | puppet
  | body (body : Body)
  deriving DecidableEq

/-- A machine with what was taken from its journal, what is registered, the joins that are blocked,
and the children that each puppet has started.
-/
structure Session where
  machine : Machine (Option BodyReport)
  taken : List Event
  registered : FiniteMap String Registration
  pending : List Wait
  children : FiniteMap Pid (List Pid)

/-- A step of a session. -/
inductive Step where
  | register (name : String) (registration : Registration)
  | spawn (program : String) (argv : List String)
  | run (program : String) (argv : List String)
  | wait (pid : Pid)
  | call (pid : Pid) (call : ScriptCall)
  | usage
  | journal
  | takeJournal
  | console
  | takeConsole
  | install (name : String) (bytes : Bytes)
  | file (name : String)
  | report (pid : Pid)
  | config

/-- Why a step makes no sense. -/
inductive Misuse where
  | notLive
  | blocked
  | alreadyWaiting
  | runPuppet
  deriving DecidableEq

/-- The wording of a misuse. -/
def Misuse.message : Misuse → String
  | .notLive => "not a live puppet"
  | .blocked => "blocked"
  | .alreadyWaiting => "already waiting"
  | .runPuppet => "cannot run a puppet"

/-- What a step answers. -/
inductive Answer where
  | registered
  | spawned (reply : Except Errno Pid)
  | ran (reply : Except Errno ExitStatus) (report : Option BodyReport)
  | joined (reply : Except Errno ExitStatus)
  | blocked
  | returned (reply : ScriptReply)
  | exited (status : ExitStatus)
  | usage (usage : Usage)
  | events (events : List Event)
  | text (text : String)
  | installed (reply : Except Errno Unit)
  | contents (bytes : Option Bytes)
  | report (report : Option BodyReport)
  | config (config : Config)
  | misuse (misuse : Misuse)

namespace Session

/-- A session on a fresh kernel, with or without the test programs. -/
def start (config : Config) (withTests : Bool) : Session where
  machine := ⟨if withTests then .bootWithTests config else .boot config, []⟩
  taken := []
  registered := .empty
  pending := []
  children := .empty

/-- The kernel of a session. -/
def kernel (session : Session) : Kernel := session.machine.kernel

/-- Replaces the kernel of a session. -/
def setKernel (kernel : Kernel) (session : Session) : Session :=
  { session with machine := { session.machine with kernel } }

/-- The images of a session: what is registered, and the test programs otherwise. Where no thread
can be named after a program, its processes never do anything.
-/
def images (session : Session) : Images (Option BodyReport) := fun name =>
  match session.registered.get? name with
  | some .puppet => none
  | some (.body body) => if canNameThread name then some body.image else none
  | none => (testProgram? name).map fun main name argv => (·, none) <$> main name argv

/-- Whether a process was given a thread. -/
def hasThread (session : Session) (pid : Pid) : Bool :=
  (session.taken ++ session.kernel.processes.events).all fun
    | .spawned started _ program => started ≠ pid || canNameThread program
    | _ => true

/-- Whether processes of a program are puppets. -/
def isPuppet (session : Session) (program : String) : Bool :=
  session.registered.get? program = some .puppet

/-- The report of a process. -/
def reportOf (session : Session) (pid : Pid) : Option BodyReport :=
  (session.machine.reports.lookup pid).join

/-- Whether somebody is waiting. -/
def isWaiting (session : Session) (waiter : Parent) : Bool :=
  session.pending.any fun wait => wait.waiter = waiter

/-- Notes a join that is blocked. -/
def addWait (wait : Wait) (session : Session) : Session :=
  { session with pending := session.pending ++ [wait] }

/-- Waits for a process of the host. -/
def wait (pid : Pid) (session : Session) : Answer × Session :=
  let wait : Wait := ⟨.host, pid⟩
  if wait ∈ session.pending then (.misuse .alreadyWaiting, session)
  else
    match session.machine.wait pid with
    | none => (.blocked, session.addWait wait)
    | some (reply, machine) => (.joined reply, { session with machine })

/-- Runs a program for the host. -/
def run (program : String) (argv : List String) (session : Session) : Answer × Session :=
  if session.isPuppet program then (.misuse .runPuppet, session)
  else
    match session.machine.run session.images program argv with
    | (none, machine) => (.blocked, { session with machine })
    | (some (.error error), machine) => (.ran (.error error) none, { session with machine })
    | (some (.ok (pid, status)), machine) =>
        let session := { session with machine }
        (.ran (.ok status) (session.reportOf pid), session)

/-- The child for which a call waits if it is a join. -/
def joinTarget (children : List Pid) : ScriptCall → Option Pid
  | .syscall (.join pid) => some pid
  | .joinChild index => some (ScriptCall.child children index)
  | _ => none

/-- Lets a puppet make a call. -/
def call (pid : Pid) (call : ScriptCall) (session : Session) : Answer × Session :=
  if !session.kernel.processes.isRunning pid then (.misuse .notLive, session)
  else if session.isWaiting (.proc pid) then (.misuse .blocked, session)
  else
    let context := session.kernel.context pid
    let children := (session.children.get? pid).getD []
    let step := Observation.observe [] (call.run context.name context.argv children) .empty
    match session.machine.runFor session.images pid step with
    | (none, machine) =>
        let session := { session with machine }
        match joinTarget children call with
        | none => (.blocked, session)
        | some child => (.blocked, session.addWait ⟨.proc pid, child⟩)
    | (some (step, _), machine) =>
        let session := { session with machine }
        match step.getD (.ended .fault) with
        | .ended ending =>
            (.exited ending.status, session.setKernel (session.kernel.finish pid ending))
        | .returned reply children =>
            (.returned reply, { session with children := session.children.insert pid children })

/-- Makes a step, without what it ends for those who wait. -/
def act (session : Session) : Step → Answer × Session
  | .register name registration =>
      (.registered, { session.setKernel (session.kernel.register name) with
        registered := session.registered.insert name registration })
  | .spawn program argv =>
      let (reply, machine) := session.machine.spawn session.images program argv
      (.spawned reply, { session with machine })
  | .run program argv => session.run program argv
  | .wait pid => session.wait pid
  | .call pid call => session.call pid call
  | .usage => (.usage session.kernel.usage, session)
  | .journal => (.events session.kernel.processes.events, session)
  | .takeJournal =>
      let events := session.kernel.processes.events
      (.events events,
        { session.setKernel session.kernel.clearJournal with taken := session.taken ++ events })
  | .console => (.text session.kernel.console.text, session)
  | .takeConsole =>
      (.text session.kernel.console.text, session.setKernel session.kernel.clearConsole)
  | .install name bytes =>
      let (reply, kernel) := session.kernel.install name bytes
      (.installed reply, session.setKernel kernel)
  | .file name => (.contents (session.kernel.files.contents? name), session)
  | .report pid => (.report (session.reportOf pid), session)
  | .config => (.config session.kernel.config, session)

/-- Tries the joins that are blocked. -/
def wake (session : Session) : List Woken × Session :=
  let (woken, pending, kernel) := wakeAll session.pending session.kernel
  (woken, { session.setKernel kernel with pending })

/-- Makes a step, and ends the joins that its effect ends. -/
def step (step : Step) (session : Session) : Answer × List Woken × Session :=
  let (answer, session) := session.act step
  let (woken, session) := session.wake
  (answer, woken, session)

/-- Makes steps in order. -/
def steps : List Step → Session → List (Answer × List Woken) × Session
  | [], session => ([], session)
  | next :: rest, session =>
      let (answer, woken, session) := session.step next
      let (answers, session) := steps rest session
      ((answer, woken) :: answers, session)

/-- Lets processes exit with zero, one after the other, and ends the joins that this ends. -/
def exitAll : List Pid → Session → List Woken × Session
  | [], session => ([], session)
  | pid :: rest, session =>
      let exited := session.setKernel (session.kernel.finish pid (.exit 0))
      let (woken, session) := exited.wake
      let (more, session) := exitAll rest session
      (woken ++ more, session)

/-- The processes that run and can exit, the youngest first. No process waits for an older one. -/
def running (session : Session) : List Pid :=
  let live := session.kernel.processes.slots.keys.filter fun pid =>
    session.kernel.processes.isRunning pid && session.hasThread pid
  live.mergeSort fun left right => right.number ≤ left.number

/-- Ends a session: all processes that run and can exit do so with zero. -/
def close (session : Session) : List Woken × Session :=
  let (woken, session) := exitAll session.running session
  (woken.mergeSort fun left right => left.wait.before right.wait, session)

end Session

end KernelConformance
