import KernelConformance.FiniteMap
import KernelConformance.Injection.Fault

/-! Programs under observation: their calls are counted, damaged and logged. -/

namespace KernelConformance

/-- A call with its reply, or the exit of the process. -/
inductive LogEntry where
  | answered (call : Syscall) (reply : call.Reply)
  | exited (status : Int32)

/-- How often each syscall was made, and the calls that were answered, newest first. -/
structure Observation where
  counts : FiniteMap SyscallKind Nat
  log : List LogEntry

namespace Observation

variable {α : Type}

/-- Nothing was observed. -/
def empty : Observation := ⟨.empty, []⟩

instance : Inhabited Observation := ⟨empty⟩

/-- How often a syscall was made. -/
def count (observation : Observation) (kind : SyscallKind) : Nat :=
  (observation.counts.get? kind).getD 0

/-- Counts one more call of a syscall. -/
def tally (kind : SyscallKind) (observation : Observation) : Observation :=
  { observation with counts := observation.counts.insert kind (observation.count kind + 1) }

/-- Adds an entry to the log. -/
def note (entry : LogEntry) (observation : Observation) : Observation :=
  { observation with log := entry :: observation.log }

/-- Observes a computation whose calls suffer from faults. There is no value if the process faults
inside a call or is broken by it.
-/
def observe (faults : List Fault) : Prog α → Observation → Prog (Option α × Observation)
  | .done value, observation => .done (some value, observation)
  | .call call next, observation =>
      let observation := observation.tally call.kind
      let damage := Fault.select faults call.kind (observation.count call.kind)
      match Treatment.of damage call with
      | .crash => .done (none, observation)
      | .answer reply => observe faults (next reply) (observation.note (.answered call reply))
      | .forward sent adapt =>
          .call sent fun reply =>
            if sent.breaks reply then .done (none, observation)
            else
              observe faults (next (adapt reply))
                (observation.note (.answered call (adapt reply)))

/-- Observes the end of a process. An exit can be turned into a fault. -/
def observeEnding (faults : List Fault) (ending : Ending) (observation : Observation)
    : Ending × Observation :=
  match ending with
  | .fault => (.fault, observation)
  | .exit status =>
      let observation := observation.tally .exit
      match Fault.select faults .exit (observation.count .exit) with
      | some .fault => (.fault, observation)
      | _ => (.exit status, observation.note (.exited status))

end Observation

end KernelConformance
