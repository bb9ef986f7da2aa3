import KernelConformance.Syscall.Errno
import KernelConformance.Syscall.Value

/-! The descriptors of one process. Files get the lowest free number from 2 on; the numbers of the
standard streams are never given out again, even when they are closed.
-/

namespace KernelConformance

/-- The contents of a file, apart from the names it has. -/
structure Inode where
  index : Nat
  deriving DecidableEq

/-- What a descriptor stands for: a stream of the console, or a file at an offset. -/
inductive Handle where
  | stdin
  | stdout
  | file (inode : Inode) (offset : Nat)
  deriving DecidableEq

/-- The slots of a descriptor table, by number, and the most that may be in use. -/
structure Descriptors where
  slots : List (Option Handle)
  limit : Nat
  deriving DecidableEq

namespace Descriptors

/-- The number of the lowest descriptor that files get. -/
def firstFile : Nat := 2

/-- The table of a process at its start. -/
def initial (limit : Nat) : Descriptors := ⟨[some .stdin, some .stdout], limit⟩

/-- The number of descriptors in use. -/
def size (table : Descriptors) : Nat := table.slots.countP Option.isSome

/-- Whether no further file can be opened. -/
def isExhausted (table : Descriptors) : Bool := table.limit ≤ table.size

/-- What a descriptor stands for, if it is in use. -/
def get? (table : Descriptors) (fd : Fd) : Option Handle := table.slots[fd.index]?.join

/-- Lets a descriptor in use stand for something else. -/
def set (fd : Fd) (handle : Handle) (table : Descriptors) : Descriptors :=
  { table with slots := table.slots.set fd.index (some handle) }

/-- The number of the descriptor that the next file gets. -/
def lowestFree (table : Descriptors) : Nat :=
  firstFile + (table.slots.drop firstFile).findIdx Option.isNone

/-- Puts a handle at the lowest free descriptor. -/
def insert (handle : Handle) (table : Descriptors) : Except Errno (Fd × Descriptors) :=
  if table.isExhausted then .error .tooManyOpenFiles
  else
    let index := table.lowestFree
    let slots :=
      if index < table.slots.length then table.slots.set index (some handle)
      else table.slots ++ [some handle]
    .ok (⟨index⟩, { table with slots })

/-- Frees a descriptor. -/
def erase (fd : Fd) (table : Descriptors) : Except Errno Descriptors :=
  match table.get? fd with
  | none => .error .badDescriptor
  | some _ => .ok { table with slots := table.slots.set fd.index none }

end Descriptors

end KernelConformance
