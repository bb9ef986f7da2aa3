import KernelConformance.Text.Decimal
import KernelConformance.Text.Quoted

/-! The values that pass between a process and the kernel: process numbers, exit statuses and
descriptors.
-/

namespace KernelConformance

open Text

/-- The number of a process; the first is 1. -/
structure Pid where
  number : Nat
  positive : 0 < number
  deriving DecidableEq

namespace Pid

/-- The number of the first process. -/
def first : Pid := ⟨1, by decide⟩

instance : Inhabited Pid := ⟨first⟩

/-- The process number after this one. -/
def next (pid : Pid) : Pid := ⟨pid.number + 1, Nat.succ_pos _⟩

/-- The process with the given number, and the first one for zero. -/
def ofNat (number : Nat) : Pid := if h : 0 < number then ⟨number, h⟩ else first

/-- Reads the number of a process, which has at most 32 bits. -/
def read (text : String) : Except Decimal.ReadError Pid :=
  (Decimal.readPositive32 text).map fun number => ⟨number.val, number.property⟩

/-- The number as text. -/
def text (pid : Pid) : String := toString pid.number

/-- The description of a process number. -/
def description (pid : Pid) : String := "ProcId(" ++ pid.text ++ ")"

end Pid

/-- How a process ended: by publishing a status, or by a fault. -/
inductive ExitStatus where
  | exited (status : Int32)
  | faulted
  deriving DecidableEq

namespace ExitStatus

/-- The status of a process that published nothing else is success. -/
instance : Inhabited ExitStatus := ⟨.exited 0⟩

/-- The code of a status; a fault has one too. -/
def code : ExitStatus → Int32
  | .exited status => status
  | .faulted => -1

/-- Whether the process ended by a fault. -/
def isAbnormal : ExitStatus → Bool
  | .exited _ => false
  | .faulted => true

/-- Whether the process ended by publishing zero. -/
def isSuccess (status : ExitStatus) : Bool := status = .exited 0

/-- The wording of a status. -/
def text (status : ExitStatus) : String :=
  match status with
  | .exited code => "exit status " ++ Decimal.write code
  | .faulted => "faulted (" ++ Decimal.write status.code ++ ")"

/-- The description of a status. -/
def description (status : ExitStatus) : String :=
  described "ExitStatus"
    [("status", Decimal.write status.code), ("abnormal", toString status.isAbnormal)]

end ExitStatus

/-- The number by which a process names an open file. -/
structure Fd where
  index : Nat
  deriving DecidableEq

namespace Fd

/-- The console's input, open in every process at its start. -/
def stdin : Fd := ⟨0⟩

/-- The console's output, open in every process at its start. -/
def stdout : Fd := ⟨1⟩

/-- Whether a descriptor belongs to the console at the start of a process. -/
def isStandard (fd : Fd) : Bool := fd = stdin || fd = stdout

/-- The descriptor as text. -/
def text (fd : Fd) : String := toString fd.index

/-- The description of a descriptor. -/
def description (fd : Fd) : String := "RawFd(" ++ fd.text ++ ")"

end Fd

end KernelConformance
