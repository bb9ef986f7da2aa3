import KernelConformance.Syscall.Kind
import KernelConformance.Text.Quoted

/-! The limits of a kernel and what it shows of its work. -/

namespace KernelConformance

/-- The most arguments that a process can be given. -/
def maxArguments : Nat := 16

/-- The resource limits and diagnostics of a kernel. A process holds a slot until it is reaped, the
standard streams count as open files, and a file name is measured in bytes.
-/
structure Config where
  maxProcesses : Nat
  maxOpenFiles : Nat
  maxNameLength : Nat
  echoConsole : Bool
  traceMask : Nat
  deriving DecidableEq

namespace Config

/-- The limits of a kernel that nothing else is asked of. -/
def standard : Config where
  maxProcesses := 16
  maxOpenFiles := 16
  maxNameLength := 256
  echoConsole := false
  traceMask := 0

instance : Inhabited Config := ⟨standard⟩

/-- Traces one more syscall. -/
def trace (kind : SyscallKind) (config : Config) : Config :=
  { config with traceMask := config.traceMask ||| kind.maskBit }

/-- Whether the calls of a syscall are traced. -/
def traces (config : Config) (kind : SyscallKind) : Bool := kind.inMask config.traceMask

/-- The description of a configuration. -/
def description (config : Config) : String :=
  Text.described "KernelConfig"
    [("max_processes", toString config.maxProcesses),
      ("max_open_files", toString config.maxOpenFiles),
      ("max_name_len", toString config.maxNameLength),
      ("echo_console", toString config.echoConsole),
      ("trace_mask", toString config.traceMask)]

end Config

end KernelConformance
