import KernelConformance.Kernel.Machine
import KernelConformance.Randomness.Source
import KernelConformance.Suite.Probe
import KernelConformance.Suite.Recurrence
import KernelConformance.Suite.Jobs

/-! The test programs. The body of each is a check that comes to the status to exit with. -/

namespace KernelConformance

open Randomness

namespace ExitCode

/-- The name of the program. -/
def program : String := "exitcode"

/-- Comes to the status that its argument says. -/
def body (argv : List String) : Check Int32 := do
  match ← argumentInt32 "status" 1 argv with
  | some status => pure status
  | none => Check.violate (.failure "usage: exitcode <status>")

end ExitCode

namespace ExecTest

/-- The name of the program. -/
def program : String := "exectest"

/-- The number of children. -/
def childCount : Nat := 10

/-- A program that does not exist. -/
def absentProgram : String := "asd.coff"

/-- The number of a process that is no child of this program. -/
def strangerPid : Pid := ⟨100, by decide⟩

/-- Starts and joins one child, which must exit with the status it is told. -/
def runChild (name : String) (status : Int32) : Check Unit := do
  let text := Decimal.write status
  let pid ← Check.demand (.exec ExitCode.program [ExitCode.program, text]) fun error =>
    s!"exec exitcode {text} failed: {error.message}"
  let joined ← Check.demand (.join pid) fun error => s!"join {pid.text} failed: {error.message}"
  ExceptT.lift (Prog.putMessage name s!"new pid: {joined.text} {pid.text}")
  Check.require (joined = .exited status) (.failure s!"exitcode {text}: {joined.text}")

/-- Starts and joins children one after the other, with statuses that go up from `status`. -/
def runChildren (name : String) : Nat → Int32 → Check Unit
  | 0, _ => pure ()
  | count + 1, status => do
      runChild name status
      runChildren name count (status + 1)

/-- Checks that processes start, exit and are joined, and that what does not exist is refused. -/
def body (name : String) : Check Int32 := do
  runChildren name childCount 1
  let missing ← Check.perform (.exec absentProgram [absentProgram])
  let description := outcomeDescription Pid.description missing
  ExceptT.lift (Prog.putMessage name s!"no process: {description}")
  Check.require (!missing.toBool) (.failure s!"exec {absentProgram} succeeded")
  let unrelated ← Check.perform (.join strangerPid)
  let description := outcomeDescription ExitStatus.description unrelated
  ExceptT.lift (Prog.putMessage name s!"join un-child: {description}")
  Check.require (match unrelated with
    | .error error => error = .noChild
    | .ok _ => false) (.failure s!"join {strangerPid.text}: {description}")
  ExceptT.lift (Prog.putLine "--- PASS exectest")
  pure 0

end ExecTest

namespace FdTest

/-- The name of the program. -/
def program : String := "fdtest"

/-- The seed of the probe that is alone; the others take their number. -/
def loneSeed : Nat := 0

/-- Makes a probe: alone without arguments, and otherwise as the one of several that the arguments
name, which exits with its number.
-/
def body (argv : List String) : Check Int32 := do
  if argv.length ≤ 1 then
    let _ ← Probe.alone.run (.ofSeed loneSeed)
    ExceptT.lift (Prog.putLine "--- PASS test_fd")
    pure 0
  else
    Check.require (3 ≤ argv.length) (.wrongResult "test_fd: argc < 3")
    let text := argv.getD 1 ""
    ExceptT.lift (Prog.putLine s!"multiprogramming: {text}")
    let index := (← argumentInt32 "instance" 1 argv).getD 0
    let _ ← (Probe.shared index (argv.getD 2 "")).run (.ofSeed index.toInt.natAbs)
    ExceptT.lift (Prog.putLine s!"--- PASS test_fd {Decimal.write index}")
    pure index

end FdTest

namespace Fibonacci

/-- The name of the program. -/
def program : String := "fibonacci"

/-- Makes a full run of the recurrence and comes to the status it is told. -/
def body (argv : List String) : Check Int32 := do
  Check.require (argv.length ≠ 2) (.failure "usage: fibonacci [signature instance]")
  let signature := (← argumentInt32 "signature" 1 argv).getD 0
  let index := (← argumentInt32 "instance" 2 argv).getD 0
  Recurrence.check (.ofIndex index)
  ExceptT.lift (Prog.putLine s!"--- PASS fibonacci {Decimal.write index}")
  pure signature

end Fibonacci

namespace MultiProg

/-- The name of the program. -/
def program : String := "multiprog"

/-- The number of children. -/
def instances : Nat := 2

/-- The file of a child. -/
def instanceFile (index : Int32) : String := "test.txt.test." ++ Decimal.write index

/-- The numbers of the children. -/
def indices : List Int32 := (List.range instances).map Int32.ofNat

/-- The run of one probe of several. -/
def job (index : Int32) : Job :=
  ((Job.of FdTest.program index).arg (Decimal.write index)).arg (instanceFile index)

/-- Removes files. -/
def removeAll : List String → Prog Unit
  | [] => pure ()
  | file :: rest => do
      Prog.attempt (.unlink file)
      removeAll rest

/-- Makes several probes at the same time, and removes their files whatever came of it. -/
def body : Check Int32 := do
  let _ ← (Spawner.runJobs (indices.map job)).andFinally fun _ =>
    removeAll (indices.map instanceFile)
  ExceptT.lift (Prog.putLine "--- PASS multiprogramming")
  pure 0

end MultiProg

namespace SeqFib

/-- The name of the program. -/
def program : String := "seqfib"

/-- The number of jobs if the arguments do not say. -/
def standardJobs : Nat := 100

/-- The seed if the arguments do not say. -/
def standardSeed : Nat := 0

/-- Signatures are drawn below this number. -/
def signatureBound : Nat := 16

/-- The run of the recurrence with a number and a signature. -/
def job (signature index : Nat) : Job :=
  ((Job.of Fibonacci.program (Int32.ofNat signature)).arg (toString signature)).arg
    (toString index)

/-- Issues the jobs from number `count` down to 1, with a signature drawn for each. -/
def issueJobs : Nat → Stream → Spawner → Prog (Except Violation Unit × Spawner)
  | 0, _, spawner => pure (.ok (), spawner)
  | count + 1, stream, spawner => do
      let (signature, stream) := stream.below signatureBound
      match ← spawner.issue (job signature (count + 1)) with
      | (.error violation, spawner) => pure (.error violation, spawner)
      | (.ok (), spawner) => issueJobs count stream spawner

/-- Runs the recurrence many times under admission control. -/
def body (argv : List String) : Check Int32 := do
  let jobs := (← argumentNat64 "unit count" 1 argv).getD standardJobs
  let seed := (← argumentNat64 "seed" 2 argv).getD standardSeed
  let _ ← Spawner.conclude (issueJobs jobs (.ofSeed seed) .empty)
  ExceptT.lift (Prog.putLine "--- PASS sequential fibonacci")
  pure 0

end SeqFib

/-- The test programs by name. -/
def testPrograms : List (String × Main) :=
  [(ExecTest.program, fun name _ => (ExecTest.body name).ending name),
    (ExitCode.program, fun name argv => (ExitCode.body argv).ending name),
    (FdTest.program, fun name argv => (FdTest.body argv).ending name),
    (Fibonacci.program, fun name argv => (Fibonacci.body argv).ending name),
    (MultiProg.program, fun name _ => MultiProg.body.ending name),
    (SeqFib.program, fun name argv => (SeqFib.body argv).ending name)]

/-- The test program with a name. -/
def testProgram? (name : String) : Option Main := testPrograms.lookup name

/-- Makes all test programs loadable. -/
def Kernel.installTests (kernel : Kernel) : Kernel :=
  testPrograms.foldl (fun kernel entry => kernel.register entry.1) kernel

/-- A kernel that has just been started and knows the test programs. -/
def Kernel.bootWithTests (config : Config) : Kernel := (boot config).installTests

/-- The images of the test programs. -/
def testImages : Images Unit := fun name => (testProgram? name).map Image.ofMain

end KernelConformance
