import KernelConformance.Kernel.Call

/-! Joins that have no reply yet. They are tried again when a process has ended, those of the host
first, by child, and then those of processes, by waiter.
-/

namespace KernelConformance

/-- A join that is blocked: who waits, and for which child. -/
structure Wait where
  waiter : Parent
  child : Pid
  deriving DecidableEq

namespace Wait

/-- The order in which waits are tried. -/
def rank (wait : Wait) : Nat × Nat :=
  match wait.waiter with
  | .host => (0, wait.child.number)
  | .proc pid => (1, pid.number)
  | .detached => (2, wait.child.number)

/-- Whether a wait is tried before another one, or at the same rank. -/
def before (left right : Wait) : Bool :=
  left.rank.1 < right.rank.1 || left.rank.1 = right.rank.1 && left.rank.2 ≤ right.rank.2

/-- Tries a wait again. -/
def retry (wait : Wait) (kernel : Kernel) : Option (Except Errno ExitStatus × Kernel) :=
  match wait.waiter with
  | .proc pid => kernel.call pid (.join wait.child)
  | caller => kernel.reap caller wait.child

end Wait

/-- A wait that has ended, with its reply. -/
structure Woken where
  wait : Wait
  reply : Except Errno ExitStatus

/-- Tries waits one after the other: those that end, those that do not, and the
kernel after them.
-/
def wakeInOrder : List Wait → Kernel → List Woken × List Wait × Kernel
  | [], kernel => ([], [], kernel)
  | wait :: rest, kernel =>
      match wait.retry kernel with
      | none =>
          let (woken, pending, kernel) := wakeInOrder rest kernel
          (woken, wait :: pending, kernel)
      | some (reply, kernel) =>
          let (woken, pending, kernel) := wakeInOrder rest kernel
          (⟨wait, reply⟩ :: woken, pending, kernel)

/-- Tries all waits. -/
def wakeAll (pending : List Wait) (kernel : Kernel) : List Woken × List Wait × Kernel :=
  wakeInOrder (pending.mergeSort Wait.before) kernel

end KernelConformance
