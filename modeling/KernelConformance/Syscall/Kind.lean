/-! The kinds of syscalls by number and name, and the sets of them that a mask of
bits stands for.
-/

namespace KernelConformance

/-- What a process can ask of the kernel. -/
inductive SyscallKind where
  | exit
  | exec
  | join
  | creat
  | openFile
  | read
  | write
  | close
  | unlink
  deriving DecidableEq

namespace SyscallKind

/-- All syscalls, by number. -/
def all : List SyscallKind := [exit, exec, join, creat, openFile, read, write, close, unlink]

/-- The number of a syscall; the first is 1. -/
def number : SyscallKind → Nat
  | exit => 1
  | exec => 2
  | join => 3
  | creat => 4
  | openFile => 5
  | read => 6
  | write => 7
  | close => 8
  | unlink => 9

/-- The name of a syscall. -/
def name : SyscallKind → String
  | exit => "exit"
  | exec => "exec"
  | join => "join"
  | creat => "creat"
  | openFile => "open"
  | read => "read"
  | write => "write"
  | close => "close"
  | unlink => "unlink"

/-- The name of a syscall in the description of a value, which begins with a capital. -/
def description : SyscallKind → String
  | exit => "Exit"
  | exec => "Exec"
  | join => "Join"
  | creat => "Creat"
  | openFile => "Open"
  | read => "Read"
  | write => "Write"
  | close => "Close"
  | unlink => "Unlink"

/-- The syscall with a number. -/
def ofNumber? (number : Nat) : Option SyscallKind := all.find? fun kind => kind.number = number

/-- The syscall with a name, whose ASCII letters may be of either case. -/
def ofName? (text : String) : Option SyscallKind :=
  all.find? fun kind => kind.name = text.map Char.toLower

/-- The bit of a syscall in a mask. -/
def maskBit (kind : SyscallKind) : Nat := 1 <<< kind.number

/-- Whether a mask has the bit of a syscall. -/
def inMask (mask : Nat) (kind : SyscallKind) : Bool := mask.testBit kind.number

end SyscallKind

end KernelConformance
