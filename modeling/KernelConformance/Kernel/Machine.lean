import KernelConformance.Kernel.Call

/-! A kernel together with what its processes leave behind, and the schedule in which a process runs
to its end as soon as it is started, before its parent goes on.
-/

namespace KernelConformance

/-- What stands behind the name of a program: a computation from the name and the arguments of the
process to its end and a report.
-/
abbrev Image (ρ : Type) := String → List String → Prog (Ending × ρ)

/-- What a program loads, by its name. A name may have no image; its processes do nothing by
themselves.
-/
abbrev Images (ρ : Type) := String → Option (Image ρ)

/-- The image of a program that leaves no report. -/
def Image.ofMain (main : Main) : Image Unit := fun name argv => (·, ()) <$> main name argv

/-- A kernel and the reports of the processes that have ended, the newest first. -/
structure Machine (ρ : Type) where
  kernel : Kernel
  reports : List (Pid × ρ)

namespace Machine

variable {ρ α : Type}

/-- Makes the calls of a process in order, and runs each process that it starts by `launch`. There
is no value if a join has no reply, as the child then waits for something else.
-/
def runCalls (launch : Pid → String → Machine ρ → Machine ρ) (pid : Pid)
    : Prog α → Machine ρ → Option α × Machine ρ
  | .done value, machine => (some value, machine)
  | .call call next, machine =>
      match machine.kernel.call pid call with
      | none => (none, machine)
      | some (reply, kernel) =>
          let after : Machine ρ := { machine with kernel }
          let after :=
            match call.started? reply with
            | some (program, child) => launch child program after
            | none => after
          runCalls launch pid (next reply) after

/-- Runs a process that has just been started, and those that it starts, down to `depth` levels. -/
def launch (images : Images ρ) : Nat → Pid → String → Machine ρ → Machine ρ
  | 0, _, _, machine => machine
  | depth + 1, pid, program, machine =>
      match images program with
      | none => machine
      | some image =>
          let context := machine.kernel.context pid
          match runCalls (launch images depth) pid (image context.name context.argv) machine with
          | (none, after) => after
          | (some (ending, report), after) =>
              { kernel := after.kernel.finish pid ending
                reports := (pid, report) :: after.reports }

/-- How many levels of processes can be below one that runs: each of them holds a slot. -/
def levels (machine : Machine ρ) : Nat := machine.kernel.processes.capacity

/-- Makes calls for a running process. -/
def runFor (images : Images ρ) (pid : Pid) (prog : Prog α) (machine : Machine ρ)
    : Option α × Machine ρ :=
  runCalls (launch images machine.levels) pid prog machine

/-- Starts a process for the host and runs it. -/
def spawn (images : Images ρ) (program : String) (argv : List String) (machine : Machine ρ)
    : Except Errno Pid × Machine ρ :=
  match machine.kernel.start .host program argv with
  | (.error error, kernel) => (.error error, { machine with kernel })
  | (.ok pid, kernel) => (.ok pid, launch images machine.levels pid program { machine with kernel })

/-- Reaps a process for the host. There is no reply while the process runs. -/
def wait (pid : Pid) (machine : Machine ρ)
    : Option (Except Errno ExitStatus × Machine ρ) :=
  (machine.kernel.reap .host pid).map fun (reply, kernel) => (reply, { machine with kernel })

/-- Starts a process for the host, runs it and reaps it. There is no reply if it cannot end. -/
def run (images : Images ρ) (program : String) (argv : List String) (machine : Machine ρ)
    : Option (Except Errno (Pid × ExitStatus)) × Machine ρ :=
  match machine.spawn images program argv with
  | (.error error, after) => (some (.error error), after)
  | (.ok pid, after) =>
      match after.wait pid with
      | none => (none, after)
      | some (reply, after) => (some (reply.map fun status => (pid, status)), after)

end Machine

end KernelConformance
