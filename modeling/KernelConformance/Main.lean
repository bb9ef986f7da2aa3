import KernelConformance.Runner.Run

/-! The command line of the suite. -/

namespace KernelConformance

/-- When the run has begun, and when the last measurement. -/
structure Times where
  started : Nat
  since : Nat

/-- The time at which a notice counts from. -/
def Times.of (times : Times) : Notice → Nat
  | .allPassed _ | .testFailed _ => times.started
  | _ => times.since

/-- Whether a call begins a measurement. -/
def HostCall.isTimed : HostCall → Bool
  | start _ | countProcesses => true
  | _ => false

/-- Reports a notice; one with a time carries the milliseconds that have passed. -/
def report (times : Times) (notice : Notice) : IO Unit := do
  let now ← IO.monoMsNow
  let out ← IO.getStdout
  out.write (ByteArray.mk notice.out.toArray)
  out.flush
  IO.eprint (notice.err (now - times.of notice))

/-- Makes the steps of a run until it is over, and returns its exit code. -/
partial def proceed (options : Options) (times : Times) (run : Run) : IO UInt32 := do
  match run.rest with
  | .done (.exit code) => pure (UInt32.ofNat code)
  | .done (.pass _) => proceed options times (run.step options suiteTests).2
  | .call c _ =>
      let now ← IO.monoMsNow
      let times := if c.isTimed then { times with since := now } else times
      let (notice, next) := run.step options suiteTests
      notice.forM (report times)
      proceed options times next

end KernelConformance

open KernelConformance

/-- Reads the command line and runs the tests that it selects. -/
def main (args : List String) : IO UInt32 := do
  let prog := "usertests"
  match Options.read prog args with
  | .error error =>
      IO.eprint (refusalText prog error)
      pure 1
  | .ok options =>
      let started ← IO.monoMsNow
      proceed options ⟨started, started⟩ (.start options suiteTests)
