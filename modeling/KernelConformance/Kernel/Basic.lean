import KernelConformance.Kernel.Config
import KernelConformance.Kernel.FileSystem
import KernelConformance.Kernel.ProcessTable

/-! The state of a kernel, with the console that every standard output writes to, and what the host
does with it.
-/

namespace KernelConformance

open Utf8 (Bytes)

/-- What was written to the console since it was last emptied, the newest write first. -/
structure Console where
  writes : List Bytes
  deriving DecidableEq

namespace Console

/-- A console to which nothing was written. -/
def empty : Console := ⟨[]⟩

/-- Adds a write. -/
def write (bytes : Bytes) (console : Console) : Console := ⟨bytes :: console.writes⟩

/-- All bytes, in the order in which they were written. -/
def bytes (console : Console) : Bytes := console.writes.reverse.flatten

/-- The bytes read as a text. -/
def text (console : Console) : String := Utf8.decodeLossy console.bytes

end Console

/-- What a running process has for itself: its name, its arguments and its descriptors. -/
structure Context where
  name : String
  argv : List String
  fds : Descriptors
  deriving DecidableEq

/-- A kernel: its limits, the names of the programs that it can load, the processes with the
contexts of those that run, the files and the console.
-/
structure Kernel where
  config : Config
  programs : List String
  processes : ProcessTable
  contexts : FiniteMap Pid Context
  files : FileSystem
  console : Console
  deriving DecidableEq

/-- The resources in use: process slots and names of files. -/
structure Usage where
  processes : Nat
  files : Nat
  deriving DecidableEq

namespace Kernel

/-- A kernel without processes and files that knows no programs. -/
def boot (config : Config) : Kernel where
  config
  programs := []
  processes := .empty config.maxProcesses
  contexts := .empty
  files := .empty config.maxNameLength
  console := .empty

/-- Makes a program loadable. Any name will do, also one that contains NUL, after which no thread
can be named, so that a start of the program breaks whoever makes it.
-/
def register (program : String) (kernel : Kernel) : Kernel :=
  if program ∈ kernel.programs then kernel
  else { kernel with programs := program :: kernel.programs }

/-- The resources in use. -/
def usage (kernel : Kernel) : Usage := ⟨kernel.processes.size, kernel.files.size⟩

/-- Empties the journal. -/
def clearJournal (kernel : Kernel) : Kernel :=
  { kernel with processes := kernel.processes.clearJournal }

/-- Writes to the console. -/
def print (bytes : Bytes) (kernel : Kernel) : Kernel :=
  { kernel with console := kernel.console.write bytes }

/-- Empties the console. -/
def clearConsole (kernel : Kernel) : Kernel := { kernel with console := .empty }

/-- Makes a name stand for a new file, from the host's side. -/
def install (name : String) (bytes : Bytes) (kernel : Kernel)
    : Except Errno Unit × Kernel :=
  match kernel.files.put name bytes with
  | .error error => (.error error, kernel)
  | .ok files => (.ok (), { kernel with files })

/-- The context of a process; one that does not run has no name and no descriptors. -/
def context (kernel : Kernel) (pid : Pid) : Context :=
  (kernel.contexts.get? pid).getD ⟨"", [], ⟨[], kernel.config.maxOpenFiles⟩⟩

/-- The descriptors of a process. -/
def fds (kernel : Kernel) (pid : Pid) : Descriptors := (kernel.context pid).fds

/-- Gives a process other descriptors. -/
def setFds (pid : Pid) (fds : Descriptors) (kernel : Kernel) : Kernel :=
  { kernel with contexts := kernel.contexts.insert pid { kernel.context pid with fds } }

/-- Takes the slot of a process that `parent` starts, unless the start is refused. -/
def allot (parent : Parent) (program : String) (argv : List String) (kernel : Kernel)
    : Except Errno Pid × Kernel :=
  if maxArguments < argv.length then (.error .argumentListTooLong, kernel)
  else if program ∉ kernel.programs then (.error .noSuchFile, kernel)
  else
    match kernel.processes.spawn parent program with
    | .error error => (.error error, kernel)
    | .ok (pid, processes) => (.ok pid, { kernel with processes })

/-- Lets a process run that has its slot, once its thread is there. It is named by its first
argument, or by its program.
-/
def enter (pid : Pid) (program : String) (argv : List String) (kernel : Kernel) : Kernel :=
  let context := ⟨argv.headD program, argv, .initial kernel.config.maxOpenFiles⟩
  { kernel with contexts := kernel.contexts.insert pid context }

/-- Gives back the slot of a process for which no thread could be created. -/
def abandon (pid : Pid) (kernel : Kernel) : Kernel :=
  { kernel with processes := kernel.processes.abandon pid }

/-- Starts a process for `parent`. This is a start whose thread is created, for which the name of
the program must not contain NUL, and in which nobody else does anything between its steps. All
other starts are steps of a `Dispatch`.
-/
def start (parent : Parent) (program : String) (argv : List String) (kernel : Kernel)
    : Except Errno Pid × Kernel :=
  match kernel.allot parent program argv with
  | (.error error, kernel) => (.error error, kernel)
  | (.ok pid, kernel) => (.ok pid, kernel.enter pid program argv)

/-- Reaps a process for `caller`. There is no reply while the process runs. -/
def reap (caller : Parent) (pid : Pid) (kernel : Kernel)
    : Option (Except Errno ExitStatus × Kernel) :=
  match kernel.processes.reap caller pid with
  | .error error => some (.error error, kernel)
  | .ok none => none
  | .ok (some (status, processes)) => some (.ok status, { kernel with processes })

/-- Ends a process: it gives up its descriptors and publishes a status. -/
def terminate (pid : Pid) (status : ExitStatus) (kernel : Kernel) : Kernel :=
  { kernel with
    processes := kernel.processes.exit pid status
    contexts := kernel.contexts.erase pid }

end Kernel

end KernelConformance
