import KernelConformance.Runner.Options
import KernelConformance.Suite.Programs

/-! Runs of the suite. The runner is a computation that calls the kernel and reports: a pass runs
one test after the other and ends by comparing the resources in use with those before it. What the
runner does next depends on the replies alone, in whatever order the processes go on meanwhile.
-/

namespace KernelConformance

open Utf8 (Bytes)

/-- A test that is named after its program and tagged with its name and one more tag. -/
def TestCase.tagged (tag program : String) (args : List String) : TestCase :=
  ⟨program, program, args, [tag, program]⟩

/-- The tests of the suite, in the order in which they are run. -/
def suiteTests : List TestCase :=
  [.tagged "quick" ExecTest.program [],
    .tagged "quick" FdTest.program [],
    .tagged "quick" Fibonacci.program ["0", "0"],
    .tagged "quick" MultiProg.program [],
    .tagged "slow" SeqFib.program []]

/-- Something that a run reports. -/
inductive Notice where
  | printed (bytes : Bytes)
  | usage (usage : Usage)
  | starting
  | test (name : String)
  | passed
  | failed
  | endedWith (program : String) (status : ExitStatus)
  | cannotRun (program : String) (error : Errno)
  | output (text : String)
  | someFailed
  | leaked (before after : Usage)
  | noLeak
  | allPassed (prog : String)
  | testFailed (prog : String)
  | noneRun (prog : String)
  | noneSelected
  deriving DecidableEq

/-- A time in milliseconds as text. -/
def elapsedText (milliseconds : Nat) : String :=
  let padLeft (width : Nat) (fill : Char) (number : Nat) : String :=
    String.ofList ((toString number).toList.leftpad width fill)
  "[" ++ padLeft 3 ' ' (milliseconds / 1000) ++ "." ++ padLeft 3 '0' (milliseconds % 1000) ++ "s]"

namespace Notice

/-- What a notice adds to the standard output. -/
def out : Notice → Bytes
  | printed bytes => bytes
  | _ => []

/-- What a notice adds to the standard error output, if the given time has passed. -/
def err (milliseconds : Nat) : Notice → String
  | printed _ => ""
  | usage amount =>
      s!"usage: {amount.processes} processes, {amount.files} files {elapsedText milliseconds}\n"
  | starting => "starting\n"
  | test title => title ++ String.ofList (List.replicate (30 - title.length) ' ') ++ " "
  | passed => s!"PASS {elapsedText milliseconds}\n"
  | failed => s!"FAIL {elapsedText milliseconds}\n"
  | endedWith program status => s!"  {program}: {status.text}\n"
  | cannotRun program error => s!"  {program}: cannot run: {error.message}\n"
  | output text => text
  | someFailed => "SOME TESTS FAILED\n"
  | leaked before after =>
      s!"usage: FAIL -- leaked resources: {after.processes} processes, {after.files} files "
        ++ s!"(out of {before.processes}, {before.files})\n"
  | noLeak => "usage: PASS\n"
  | allPassed prog => s!"{prog}: ALL TESTS PASSED {elapsedText milliseconds}\n"
  | testFailed prog => s!"{prog}: TEST FAILED {elapsedText milliseconds}\n"
  | noneRun prog => s!"{prog}: no tests run\n"
  | noneSelected => "No tests matched the filter\n"

end Notice

/-- What the runner does with the kernel that it drives, or reports. It waits for the root process
of a test, takes what was printed, and counts what is in use.
-/
inductive HostCall where
  | tell (notice : Notice)
  | takeJournal
  | countProcesses
  | countFiles
  | start (test : TestCase)
  | await (root : Pid)
  | takeConsole

namespace HostCall

/-- What comes back. -/
abbrev Reply : HostCall → Type
  | tell _ => Unit
  | takeJournal => List Event
  | countProcesses | countFiles => Nat
  | start _ => Except Errno Pid
  | await _ => Except Errno ExitStatus
  | takeConsole => Console

/-- What is done to the kernel. There is no reply while the process runs that is waited for. -/
def perform (kernel : Kernel) : (call : HostCall) → Option (call.Reply × Kernel)
  | tell _ => some ((), kernel)
  | takeJournal => some (kernel.processes.events, kernel.clearJournal)
  | countProcesses => some (kernel.processes.size, kernel)
  | countFiles => some (kernel.files.size, kernel)
  | start test => some (kernel.start .host test.program (test.program :: test.args))
  | await root => kernel.reap .host root
  | takeConsole => some (kernel.console, kernel.clearConsole)

/-- The process that was started, with its program. -/
def started? : (call : HostCall) → call.Reply → Option (String × Pid)
  | start test, .ok pid => some (test.program, pid)
  | _, _ => none

/-- What is reported. -/
def notice? : HostCall → Option Notice
  | tell notice => some notice
  | _ => none

end HostCall

/-- A computation of the runner. -/
inductive Host (α : Type) where
  | done (value : α)
  | call (call : HostCall) (next : call.Reply → Host α)

namespace Host

variable {α β γ : Type}

/-- Goes on from the value of a computation. -/
def bind : Host α → (α → Host β) → Host β
  | done value, f => f value
  | call c next, f => call c fun reply => (next reply).bind f

instance : Monad Host where
  pure := done
  bind := bind

@[simp] theorem pure_eq (value : α) : (pure value : Host α) = done value := rfl

@[simp] theorem bind_done (value : α) (f : α → Host β) : (done value >>= f) = f value := rfl

@[simp] theorem bind_call (c : HostCall) (next : c.Reply → Host α) (f : α → Host β)
    : (call c next >>= f) = call c fun reply => next reply >>= f := rfl

/-- Makes one call. -/
def perform (c : HostCall) : Host c.Reply := call c done

/-- Reports something. -/
def tell (notice : Notice) : Host Unit := perform (.tell notice)

end Host

/-- Why tests are stopped. -/
inductive TestError where
  | testFailed
  deriving DecidableEq

/-- Whether a result stops the tests. -/
def Repetition.judge {ε : Type} : Repetition → Except ε Unit → Except ε Unit
  | once, result | untilFailure, result => result
  | forever, _ => .ok ()

/-- Starts the root process of a test and waits for it. -/
def TestCase.await (test : TestCase) : Host (Except Errno ExitStatus) := do
  match ← Host.perform (.start test) with
  | .error error => pure (.error error)
  | .ok root => Host.perform (.await root)

/-- Reports that a test has failed, and shows its output if it was not shown as it was printed. -/
def reportFailure (echoes : Bool) (console : Console) (cause : Notice)
    : Host (Except TestError Unit) := do
  Host.tell .failed
  Host.tell cause
  if !echoes then Host.tell (.output console.text)
  pure (.error .testFailed)

/-- Reports what has come of the root process of a test. If the console `echoes`, the output was
shown as it was printed; otherwise it is shown if the test has failed.
-/
def TestCase.report (echoes : Bool) (test : TestCase) (console : Console)
    (result : Except Errno ExitStatus)
    : Host (Except TestError Unit) := do
  if echoes then Host.tell (.printed console.bytes)
  match result with
  | .ok status =>
      if status.isSuccess then
        Host.tell .passed
        pure (.ok ())
      else reportFailure echoes console (.endedWith test.program status)
  | .error error => reportFailure echoes console (.cannotRun test.program error)

/-- Runs a test and reports what has come of it. -/
def TestCase.run (echoes : Bool) (test : TestCase) : Host (Except TestError Unit) := do
  Host.tell (.test test.name)
  let result ← test.await
  let console ← Host.perform .takeConsole
  test.report echoes console result

/-- What comes after a pass: another one, given how many tests were run, or the end with
an exit code.
-/
inductive Onward where
  | pass (runCount : Nat)
  | exit (code : Nat)
  deriving DecidableEq

namespace Options

/-- Runs those of some tests that are selected, up to the first that stops them, and counts on from
the tests that were run before.
-/
def runTests (options : Options) : Nat → List TestCase → Host (Except TestError Unit × Nat)
  | runCount, [] => pure (.ok (), runCount)
  | runCount, test :: rest =>
      if options.filter.accepts test then do
        match options.repetition.judge (← test.run options.config.echoConsole) with
        | .error error =>
            Host.tell .someFailed
            pure (.error error, runCount + 1)
        | .ok () => options.runTests (runCount + 1) rest
      else options.runTests runCount rest

/-- Counts the resources in use. -/
def sampleUsage : Host Usage := do
  let processes ← Host.perform .countProcesses
  let files ← Host.perform .countFiles
  Host.tell (.usage ⟨processes, files⟩)
  pure ⟨processes, files⟩

/-- Compares the resources in use with those before. -/
def compareUsage (before : Usage) : Host (Except TestError Unit) := do
  let after ← sampleUsage
  if before ≠ after then
    Host.tell (.leaked before after)
    pure (.error .testFailed)
  else
    Host.tell .noLeak
    pure (.ok ())

/-- Makes a pass: drops the journal, runs the tests, and compares the resources in use
with those before.
-/
def drivePass (options : Options) (tests : List TestCase) (runCount : Nat)
    : Host (Except TestError Unit × Nat) := do
  let _ ← Host.perform .takeJournal
  let before ← sampleUsage
  Host.tell .starting
  let (result, runCount) ← options.runTests runCount tests
  match options.repetition.judge result with
  | .error error => pure (.error error, runCount)
  | .ok () => do
      let verdict ← compareUsage before
      pure (verdict, runCount)

/-- Ends a run with its exit code. -/
def conclude (options : Options) (result : Except TestError Unit) (runCount : Nat) : Host Nat := do
  let fail : Host Nat := do
    Host.tell (.testFailed options.prog)
    if runCount = 0 then Host.tell (.noneRun options.prog)
    pure 1
  match result with
  | .ok () =>
      if 0 < runCount then
        Host.tell (.allPassed options.prog)
        pure 0
      else fail
  | .error _ => fail

/-- Makes a pass, and ends the run after it unless there is another one to make. -/
def drive (options : Options) (tests : List TestCase) (runCount : Nat) : Host Onward := do
  let (result, runCount) ← options.drivePass tests runCount
  match result with
  | .ok () =>
      if options.repetition = .once then Onward.exit <$> options.conclude result runCount
      else pure (.pass runCount)
  | .error _ => Onward.exit <$> options.conclude result runCount

/-- Begins a run: without a test there is nothing to do. -/
def begin (options : Options) (tests : List TestCase) : Host Onward :=
  if (options.selected tests).isEmpty then do
    Host.tell .noneSelected
    pure (.exit 1)
  else options.drive tests 0

end Options

/-- The state of a run in which every process runs to its end as soon as it is started. -/
structure Run where
  machine : Machine Unit
  rest : Host Onward

namespace Run

/-- The run of the selected tests on a fresh kernel. -/
def start (options : Options) (tests : List TestCase) : Run :=
  ⟨⟨.bootWithTests options.config, []⟩, options.begin tests⟩

/-- Makes one call, or begins another pass. A run that is over stays as it is. -/
def step (options : Options) (tests : List TestCase) (run : Run) : Option Notice × Run :=
  match run.rest with
  | .done (.exit _) => (none, run)
  | .done (.pass runCount) => (none, { run with rest := options.drive tests runCount })
  | .call c next =>
      match c.perform run.machine.kernel with
      | none => (none, run)
      | some (reply, kernel) =>
          let machine := { run.machine with kernel }
          let machine :=
            match c.started? reply with
            | some (program, pid) => Machine.launch testImages machine.levels pid program machine
            | none => machine
          (c.notice?, ⟨machine, next reply⟩)

/-- Makes steps until the run is over, but no more than `limit`. There is no exit code if the run is
not over by then.
-/
def finish (options : Options) (tests : List TestCase) : Nat → Run → List Notice × Option Nat
  | limit, run =>
      match run.rest, limit with
      | .done (.exit code), _ => ([], some code)
      | _, 0 => ([], none)
      | _, limit + 1 =>
          let (notice, run) := run.step options tests
          let (more, code) := finish options tests limit run
          (notice.toList ++ more, code)

end Run

/-- The options on a command line that are shown with a refusal. -/
def usageText (prog : String) : String :=
  s!"Usage: {prog} [-c] [-C] [-q] [-b] [-t tag] [-p procs] [-f files] [-h] [testname]\n"

/-- The meaning of the options. -/
def helpText : String :=
  "    -c          Run tests continuously until a failure\n"
    ++ "    -C          Run tests continuously forever\n"
    ++ "    -q          Do not echo the output of test programs\n"
    ++ "    -b          Beginning matching test name\n"
    ++ "    -t          Run only tests with the given tags\n"
    ++ "    -p          Process slots of the simulated kernel\n"
    ++ "    -f          Open files per process of the simulated kernel\n"
    ++ "    -h          Print this help message\n"
    ++ "    testname    Run only the test with the given name\n"

/-- What a refused command line is answered. -/
def refusalText (prog : String) : OptionError → String
  | .help => usageText prog ++ helpText
  | error => error.message ++ "\n" ++ usageText prog

/-- What a run leaves: both outputs and the exit code. -/
structure Transcript where
  out : Bytes
  err : String
  code : Option Nat

/-- A whole run from a command line, of at most `limit` steps, in which no time passes. -/
def transcript (limit : Nat) (prog : String) (args : List String) (tests : List TestCase)
    : Transcript :=
  match Options.read prog args with
  | .error error => ⟨[], refusalText prog error, some 1⟩
  | .ok options =>
      let (notices, code) := (Run.start options tests).finish options tests limit
      ⟨notices.flatMap Notice.out, String.join (notices.map (Notice.err 0)), code⟩

end KernelConformance
