import KernelConformance.FiniteMap
import KernelConformance.Syscall.Errno
import KernelConformance.Syscall.Value

/-! The process table and the journal of what happens in it. A slot is held from the start of a
process until its parent reaps it, so a process that has exited still counts.
-/

namespace KernelConformance

/-- Who may join a process: the host that started it, the process that did, or nobody once that
process has exited.
-/
inductive Parent where
  | host
  | proc (pid : Pid)
  | detached
  deriving DecidableEq

/-- A step in the life of a process. -/
inductive Event where
  | spawned (pid : Pid) (parent : Parent) (program : String)
  | exited (pid : Pid) (status : ExitStatus)
  | reaped (pid : Pid) (parent : Parent) (status : ExitStatus)
  deriving DecidableEq

/-- Whether an event is the start of a process. -/
def Event.isStartOf (pid : Pid) : Event → Bool
  | spawned other _ _ => other = pid
  | _ => false

/-- Whether a process runs or has left a status for its parent. -/
inductive SlotState where
  | running
  | zombie (status : ExitStatus)
  deriving DecidableEq

/-- Whether a state is that of a process that has exited. -/
def SlotState.isZombie : SlotState → Bool
  | .running => false
  | .zombie _ => true

/-- What the table holds of a process: who may join it, and whether it still runs. -/
structure Slot where
  parent : Parent
  state : SlotState
  deriving DecidableEq

/-- The processes that hold a slot, the number of the next one, and the journal,
newest event first.
-/
structure ProcessTable where
  next : Pid
  slots : FiniteMap Pid Slot
  capacity : Nat
  journal : List Event
  deriving DecidableEq

namespace ProcessTable

/-- A table without processes. -/
def empty (capacity : Nat) : ProcessTable := ⟨.first, .empty, capacity, []⟩

/-- The number of slots in use. -/
def size (table : ProcessTable) : Nat := table.slots.size

/-- What has happened since the journal was last taken, oldest first. -/
def events (table : ProcessTable) : List Event := table.journal.reverse

/-- Adds an event to the journal. -/
def record (event : Event) (table : ProcessTable) : ProcessTable :=
  { table with journal := event :: table.journal }

/-- Empties the journal. -/
def clearJournal (table : ProcessTable) : ProcessTable := { table with journal := [] }

/-- Whether a process is running. -/
def isRunning (table : ProcessTable) (pid : Pid) : Bool :=
  (table.slots.get? pid).any fun slot => !slot.state.isZombie

/-- Takes a slot for a new process, under the next number. -/
def spawn (parent : Parent) (program : String) (table : ProcessTable)
    : Except Errno (Pid × ProcessTable) :=
  if table.capacity ≤ table.size then .error .unavailable
  else
    let pid := table.next
    let started := { table with
      next := pid.next
      slots := table.slots.insert pid ⟨parent, .running⟩ }
    .ok (pid, started.record (.spawned pid parent program))

/-- Gives back the slot of a process that has never run, and takes its start out of the journal. -/
def abandon (pid : Pid) (table : ProcessTable) : ProcessTable :=
  { table with
    slots := table.slots.erase pid
    journal := table.journal.filter fun event => !event.isStartOf pid }

/-- Frees the children of `pid` that have exited and detaches the others. -/
def disown (pid : Pid) (slots : FiniteMap Pid Slot) : FiniteMap Pid Slot :=
  (slots.filter fun _ slot => !(slot.parent = .proc pid && slot.state.isZombie)).mapValues
    fun _ slot => if slot.parent = .proc pid then { slot with parent := .detached } else slot

/-- Ends a process. It stays for its parent to reap, or is freed if nobody can reap it. -/
def exit (pid : Pid) (status : ExitStatus) (table : ProcessTable) : ProcessTable :=
  let slots := disown pid table.slots
  let slots :=
    match slots.get? pid with
    | none => slots
    | some slot =>
        if slot.parent = .detached then slots.erase pid
        else slots.insert pid { slot with state := .zombie status }
  { table with slots }.record (.exited pid status)

/-- Reaps a process for `caller`, which must be its parent. There is no answer yet while it runs. -/
def reap (caller : Parent) (pid : Pid) (table : ProcessTable)
    : Except Errno (Option (ExitStatus × ProcessTable)) :=
  match table.slots.get? pid with
  | none => .error .noChild
  | some slot =>
      if slot.parent = caller ∧ caller ≠ .detached then
        match slot.state with
        | .running => .ok none
        | .zombie status =>
            let freed := { table with slots := table.slots.erase pid }
            .ok (some (status, freed.record (.reaped pid caller status)))
      else .error .noChild

end ProcessTable

end KernelConformance
