import KernelConformance.Syscall.Prog

/-! Checks on a kernel: computations that come to a value unless they are stopped, as a rule by a
violation. A violation says what was not as it must be; a program prints it and exits with its code.
-/

namespace KernelConformance

/-- A broken expectation: a message, and the code with which a program exits because of it. -/
structure Violation where
  code : Int32
  message : String
  deriving DecidableEq

namespace Violation

/-- A violation with the code of ordinary failures. -/
def failure (message : String) : Violation := ⟨1, message⟩

/-- A violation with the code of wrong results. -/
def wrongResult (message : String) : Violation := ⟨-1, message⟩

/-- The description of a violation. -/
def description (violation : Violation) : String :=
  Text.described "Violation"
    [("code", Decimal.write violation.code), ("message", Text.quoted violation.message)]

end Violation

/-- What keeps a check from its value: a violation, or a fault of the process. -/
inductive Check.Stop where
  | violation (violation : Violation)
  | fault
  deriving DecidableEq

/-- A computation that makes calls and comes to a value unless it is stopped. -/
abbrev Check (α : Type) := ExceptT Check.Stop Prog α

namespace Check

variable {α : Type}

/-- Stops with a violation. -/
def violate (violation : Violation) : Check α := throw (.violation violation)

/-- Stops with a fault of the process. -/
def fault : Check α := throw .fault

/-- Goes on with the value of a result, or stops with its violation. -/
def ofResult : Except Violation α → Check α
  | .ok value => pure value
  | .error violation => violate violation

/-- Makes a call whose reply is for the check to judge. -/
def perform (call : Syscall) : Check call.Reply := ExceptT.lift (Prog.perform call)

/-- Makes a call that must succeed; a failure is worded by `wording`. -/
def demand (call : Syscall) (wording : Errno → String) : Check call.Value := do
  match ← perform call with
  | .ok value => pure value
  | .error error => violate (.failure (wording error))

/-- Demands a condition. -/
def require (condition : Bool) (violation : Violation) : Check Unit :=
  if condition then pure () else violate violation

/-- Goes on with `last` whatever the check comes to, but a process that has faulted does nothing
more.
-/
def andFinally (check : Check α) (last : Except Violation α → Prog Unit) : Check α :=
  ExceptT.mk do
    match ← check.run with
    | .ok value => do
        last (.ok value)
        pure (.ok value)
    | .error (.violation violation) => do
        last (.error violation)
        pure (.error (.violation violation))
    | .error .fault => pure (.error .fault)

end Check

namespace Prog

/-- Makes a call whose reply does not matter. -/
def attempt (call : Syscall) : Prog Unit := do
  let _ ← perform call
  pure ()

/-- Prints a line. A process that cannot print has no better place to say so. -/
def putLine (text : String) : Prog Unit :=
  attempt (.write .stdout (Utf8.encode (text ++ "\n")))

/-- Prints a line after the name of the process. -/
def putMessage (name text : String) : Prog Unit := putLine (name ++ ": " ++ text)

end Prog

/-- Prints the message of a violation and exits with its code. -/
def Violation.ending (name : String) (violation : Violation) : Prog Ending := do
  Prog.putMessage name violation.message
  pure (.exit violation.code)

/-- Ends a process by what its check came to: with a status, with a violation, or by a fault. -/
def Check.ending (name : String) (check : Check Int32) : Prog Ending := do
  match ← check.run with
  | .ok status => pure (.exit status)
  | .error (.violation violation) => violation.ending name
  | .error .fault => pure .fault

/-- Goes on with the value of a result, or ends by what is made of its error. -/
def valueOrEnding {α ε : Type} (exit : ε → Ending) : Except ε α → Except Ending α
  | .ok value => .ok value
  | .error error => .error (exit error)

/-- Reads the argument at a position; `what` names it in the message about one that is refused.
There is no value if there are fewer arguments.
-/
def argument {α : Type} (read : String → Except Decimal.ReadError α) (what : String) (index : Nat)
    (argv : List String) : Check (Option α) :=
  match argv[index]? with
  | none => pure none
  | some text =>
      match read text with
      | .ok value => pure (some value)
      | .error error =>
          Check.violate (.failure s!"invalid {what} {Text.quoted text}: {error.message}")

/-- Reads the argument at a position as an integer of 32 bits. -/
def argumentInt32 (what : String) (index : Nat) (argv : List String) : Check (Option Int32) :=
  argument Decimal.readInt32 what index argv

/-- Reads the argument at a position as an unsigned integer of 64 bits. -/
def argumentNat64 (what : String) (index : Nat) (argv : List String) : Check (Option Nat) :=
  argument Decimal.readNat64 what index argv

/-- The description of the outcome of a call. -/
def outcomeDescription {α : Type} (describe : α → String) : Except Errno α → String
  | .ok value => "Ok(" ++ describe value ++ ")"
  | .error error => "Err(" ++ error.description ++ ")"

end KernelConformance
