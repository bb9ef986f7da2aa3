import KernelConformance.Proofs.Files.FileSystemSteps

/-! What a deed does to the bytes of a file: it fills a new one, empties one, or writes over a part
of one. It changes one inode at most.
-/

namespace KernelConformance

open Utf8 (Bytes)

/-- Bytes that are written at an offset. -/
structure Patch where
  offset : Nat
  bytes : Bytes
  deriving DecidableEq

/-- What can happen to the bytes of an inode. A file that is created is empty, whether it is new or
not, and one that is installed is new.
-/
inductive Change where
  | emptied
  | filled (bytes : Bytes)
  | patched (patch : Patch)
  deriving DecidableEq

/-- What a change makes of the bytes of an inode. -/
def Change.apply (data : Bytes) : Change → Bytes
  | emptied => []
  | filled bytes => bytes
  | patched patch => overlay patch.offset patch.bytes data

/-- The changes of one inode, in their order. -/
def changesOf (inode : Inode) (log : List (Inode × Change)) : List Change :=
  (log.filter fun entry => entry.1 = inode).map Prod.snd

@[simp] theorem changesOf_nil (inode : Inode) : changesOf inode [] = [] := rfl

theorem changesOf_append (inode : Inode) (log more : List (Inode × Change))
    : changesOf inode (log ++ more) = changesOf inode log ++ changesOf inode more := by
  simp [changesOf]

theorem changesOf_singleton (inode changed : Inode) (change : Change)
    : changesOf inode [(changed, change)] = if inode = changed then [change] else [] := by
  by_cases same : inode = changed
  · simp [changesOf, same]
  · have other : ¬changed = inode := fun h => same h.symm
    simp [changesOf, same, other]

namespace FileSystem

/-- The inode that an event changes, and how. -/
def change? (files : FileSystem) (fds : Pid → Descriptors)
    : Option FileEvent → Option (Inode × Change)
  | some (.created name) => some ((files.names.get? name).getD files.next, .emptied)
  | some (.installed _ bytes) => some (files.next, .filled bytes)
  | some (.written pid fd bytes) =>
      match (fds pid).get? fd with
      | some (.file inode offset) => some (inode, .patched ⟨offset, bytes⟩)
      | _ => none
  | _ => none

variable {files after : FileSystem} {fds : Pid → Descriptors} {event : Option FileEvent}
  {inode : Inode}

/-- An event makes of the bytes of every inode what its change says, by cases on the step. -/
theorem Step.data_eq (step : files.Step fds event after) (inode : Inode)
    : after.data inode
      = (changesOf inode (files.change? fds event).toList).foldl Change.apply
          (files.data inode) := by
  cases step with
  | @bind name unnamed =>
      simp only [change?, unnamed, Option.getD_none, Option.toList_some, changesOf_singleton,
        data_bind]
      split <;> rfl
  | @empty name emptied named =>
      simp only [change?, named, Option.getD_some, Option.toList_some, changesOf_singleton,
        data_setData]
      split <;> rfl
  | @write pid fd bytes written offset held =>
      simp only [change?, held, Option.toList_some, changesOf_singleton, data_setData]
      split
      · next same =>
          subst same
          rfl
      · rfl
  | print held => simp [change?, held]
  | unlink => rfl
  | install =>
      simp only [change?, Option.toList_some, changesOf_singleton, data_bind]
      split <;> rfl
  | idle => rfl

/-- An inode whose bytes are others after an event is the one that the event changes. -/
theorem Step.changed (step : files.Step fds event after)
    (differs : after.data inode ≠ files.data inode)
    : ∃ change, files.change? fds event = some (inode, change) := by
  rw [step.data_eq] at differs
  cases known : files.change? fds event with
  | none => exact absurd (by simp [known]) differs
  | some entry =>
      obtain ⟨changed, change⟩ := entry
      by_cases same : inode = changed
      · exact ⟨change, by rw [same]⟩
      · exact absurd (by simp [known, changesOf_singleton, same]) differs

/-- The inode that an event changes has the name of a creation, is new, or is written to through a
descriptor, by cases on the event.
-/
theorem change_cases {change : Change} (known : files.change? fds event = some (inode, change))
    : (∃ name, event = some (.created name) ∧ files.names.get? name = some inode)
      ∨ inode = files.next
      ∨ ∃ pid fd bytes offset,
          event = some (.written pid fd bytes)
          ∧ (fds pid).get? fd = some (.file inode offset)
          ∧ change = .patched ⟨offset, bytes⟩ := by
  unfold change? at known
  split at known
  · next name =>
      cases named : files.names.get? name with
      | none =>
          simp only [named, Option.getD_none, Option.some.injEq, Prod.mk.injEq] at known
          exact .inr (.inl known.1.symm)
      | some found =>
          simp only [named, Option.getD_some, Option.some.injEq, Prod.mk.injEq] at known
          exact .inl ⟨name, rfl, known.1 ▸ named⟩
  · cases known
    exact .inr (.inl rfl)
  · next pid fd bytes =>
      split at known
      · next held =>
          cases known
          exact .inr (.inr ⟨pid, fd, bytes, _, rfl, held, rfl⟩)
      · cases known
  · cases known

end FileSystem

/-- The inode that a deed changes, and how. -/
def Kernel.change? (kernel : Kernel) (deed : Deed) : Option (Inode × Change) :=
  kernel.files.change? kernel.fds deed.fileEvent?

end KernelConformance
