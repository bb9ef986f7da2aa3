import KernelConformance.Syscall.Kind
import KernelConformance.Syscall.Errno
import KernelConformance.Syscall.Value
import KernelConformance.Text.Utf8

/-! Calls of a process to the kernel that return, each with the type of its reply. -/

namespace KernelConformance

open Text
open Utf8 (Bytes)

/-- A call with its arguments. A read has room for a number of bytes, in a buffer that holds zeros
before it.
-/
inductive Syscall where
  | exec (program : String) (argv : List String)
  | join (pid : Pid)
  | creat (name : String)
  | openFile (name : String)
  | read (fd : Fd) (room : Nat)
  | write (fd : Fd) (bytes : Bytes)
  | close (fd : Fd)
  | unlink (name : String)
  deriving DecidableEq

/-- What a read leaves: the number of bytes it claims to have read, and those it has put in front of
the buffer, which still holds zeros behind them.
-/
structure Delivery where
  count : Nat
  bytes : Bytes
  deriving DecidableEq

namespace Delivery

/-- A true delivery of some bytes. -/
def of (bytes : Bytes) : Delivery := ⟨bytes.length, bytes⟩

/-- The first bytes of the buffer. -/
def front (size : Nat) (delivery : Delivery) : Bytes :=
  delivery.bytes.take size ++ List.replicate (size - delivery.bytes.length) 0

/-- The bytes that a read claims, as far as a buffer of a size holds them. -/
def claimed (room : Nat) (delivery : Delivery) : Bytes := delivery.front (min delivery.count room)

end Delivery

/-- Whether a thread can be named after a program: the name must not contain NUL. -/
def canNameThread (program : String) : Bool := !program.toList.contains (Char.ofNat 0)

namespace Syscall

/-- The kind of a call. -/
def kind : Syscall → SyscallKind
  | exec .. => .exec
  | join .. => .join
  | creat .. => .creat
  | openFile .. => .openFile
  | read .. => .read
  | write .. => .write
  | close .. => .close
  | unlink .. => .unlink

/-- What a call returns if it succeeds. -/
abbrev Value : Syscall → Type
  | exec .. => Pid
  | join .. => ExitStatus
  | creat .. => Fd
  | openFile .. => Fd
  | read .. => Delivery
  | write .. => Nat
  | close .. => Unit
  | unlink .. => Unit

/-- What a call returns. -/
abbrev Reply (call : Syscall) : Type := Except Errno call.Value

/-- The process that a call has started, after its program. -/
def started? : (call : Syscall) → call.Reply → Option (String × Pid)
  | exec program _, .ok pid => some (program, pid)
  | _, _ => none

/-- Whether a call breaks the process that makes it, although the kernel has done its part: the
thread of the process that it started cannot be named.
-/
def breaks : (call : Syscall) → call.Reply → Bool
  | exec program _, .ok _ => !canNameThread program
  | _, _ => false

/-- The arguments of a call on a trace line. -/
def argumentText : Syscall → String
  | exec program argv => quoted program ++ ", " ++ quotedList argv
  | join pid => pid.text
  | creat name => quoted name
  | openFile name => quoted name
  | read fd room => fd.text ++ ", " ++ toString room
  | write fd bytes => fd.text ++ ", " ++ toString bytes.length
  | close fd => fd.text
  | unlink name => quoted name

/-- The result of a call on a trace line. -/
def valueText : (call : Syscall) → call.Value → String
  | exec .., pid => pid.description
  | join .., status => status.description
  | creat .., fd => fd.description
  | openFile .., fd => fd.description
  | read .., delivery => toString delivery.count
  | write .., count => toString count
  | close .., _ => "()"
  | unlink .., _ => "()"

/-- The outcome of a call on a trace line. -/
def replyText (call : Syscall) : call.Reply → String
  | .ok value => call.valueText value
  | .error error => error.message ++ " (errno " ++ toString error.number ++ ")"

end Syscall

end KernelConformance
