import KernelConformance.Syscall.Prog

/-! Damage to the calls of a process on their way to the kernel and back. -/

namespace KernelConformance

open Utf8 (Bytes)

/-- What happens to a call: the process faults inside it; it fails, or succeeds with a value,
without the kernel; its bytes are replaced, on a read those delivered and on a write those sent; or
the kernel sees a buffer that is too short.
-/
inductive Damage where
  | fault
  | refuse (error : Errno)
  | grant (number : Nat)
  | grantStatus (status : ExitStatus)
  | replace (bytes : Bytes)
  | shorten (count : Nat)
  deriving DecidableEq

/-- Damage to one call of a syscall, counted from 1, or to all of them. -/
structure Fault where
  kind : SyscallKind
  nth : Option Nat
  damage : Damage
  deriving DecidableEq

/-- The damage that the first fault that applies does to the call with a number. -/
def Fault.select (faults : List Fault) (kind : SyscallKind) (number : Nat) : Option Damage :=
  (faults.find? fun fault => fault.kind = kind && fault.nth.all (· = number)).map Fault.damage

/-- How a call is answered: not at all, by a reply that is made up, or by the reply of a call to the
kernel.
-/
inductive Treatment (call : Syscall) where
  | crash
  | answer (reply : call.Reply)
  | forward (sent : Syscall) (adapt : sent.Reply → call.Reply)

namespace Damage

/-- A success with a number: of a process, of a descriptor, or of bytes. A read puts nothing in its
buffer.
-/
def granted (number : Nat) : (call : Syscall) → call.Reply
  | .exec .. => .ok (Pid.ofNat number)
  | .join .. => .ok (.exited (Int32.ofNat number))
  | .creat .. => .ok ⟨number⟩
  | .openFile .. => .ok ⟨number⟩
  | .read .. => .ok ⟨number, []⟩
  | .write .. => .ok number
  | .close .. => .ok ()
  | .unlink .. => .ok ()

/-- How a call fares with some damage. Damage of bytes leaves calls without bytes alone. -/
def treat : Damage → (call : Syscall) → Treatment call
  | .fault, _ => .crash
  | .refuse error, _ => .answer (.error error)
  | .grant number, call => .answer (granted number call)
  | .grantStatus status, .join _ => .answer (.ok status)
  | .grantStatus status, call => .answer (granted status.code.toInt.toNat call)
  | .replace bytes, .read _ room => .answer (.ok (.of (bytes.take room)))
  | .replace bytes, .write fd _ => .forward (.write fd bytes) id
  | .shorten count, .read fd room => .forward (.read fd (room - count)) id
  | .shorten count, .write fd bytes =>
      .forward (.write fd (bytes.take (bytes.length - count))) id
  | .replace _, call | .shorten _, call => .forward call id

end Damage

/-- How a call fares with damage or without. -/
def Treatment.of (damage : Option Damage) (call : Syscall) : Treatment call :=
  match damage with
  | none => .forward call id
  | some damage => damage.treat call

end KernelConformance
