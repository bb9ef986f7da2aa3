import KernelConformance.Suite.Check

/-! Scripts: calls written down one by one, for programs that do as they are told. -/

namespace KernelConformance

/-- A step of a script. A child is named by the order in which the process started its children. -/
inductive ScriptCall where
  | syscall (call : Syscall)
  | joinChild (index : Nat)
  | programName
  | argv
  | line (text : String)
  | message (text : String)
  | twice (text : String)
  | exit (status : Int32)
  | violation (violation : Violation)
  | fault
  deriving DecidableEq

/-- What a step returns. -/
inductive ScriptReply where
  | answered (call : Syscall) (reply : call.Reply)
  | name (name : String)
  | arguments (argv : List String)
  | nothing

/-- The outcome of a step: a reply and the children so far, or the end of the process. -/
inductive ScriptStep where
  | returned (reply : ScriptReply) (children : List Pid)
  | ended (ending : Ending)

namespace ScriptCall

/-- Whether the process goes on after the step. -/
def returns : ScriptCall → Bool
  | exit _ | violation _ | fault => false
  | _ => true

/-- Whether a process has room for the buffer of a call. It addresses fewer than 0x8000000000000000
bytes.
-/
def hasRoom : Syscall → Bool
  | .read _ room => room < 0x8000000000000000
  | _ => true

/-- Makes a call and returns its reply. A process faults that has no room for the buffer. -/
def make (children : List Pid) (call : Syscall) : Prog ScriptStep := do
  if hasRoom call then
    let reply ← Prog.perform call
    pure (.returned (.answered call reply)
      (children ++ (call.started? reply).toList.map Prod.snd))
  else pure (.ended .fault)

/-- The child with an index; the first process stands in for one that there is not. -/
def child (children : List Pid) (index : Nat) : Pid := children.getD index .first

/-- Makes a step of a process with the given name, arguments and children. -/
def run (name : String) (argv : List String) (children : List Pid)
    : ScriptCall → Prog ScriptStep
  | syscall call => make children call
  | joinChild index => make children (.join (child children index))
  | programName => pure (.returned (.name name) children)
  | .argv => pure (.returned (.arguments argv) children)
  | line text => do
      Prog.putLine text
      pure (.returned .nothing children)
  | message text => do
      Prog.putMessage name text
      pure (.returned .nothing children)
  | twice text => do
      Prog.putLine (text ++ "|" ++ Text.quoted text)
      pure (.returned .nothing children)
  | exit status => pure (.ended (.exit status))
  | violation broken => .ended <$> broken.ending name
  | fault => pure (.ended .fault)

end ScriptCall

end KernelConformance
