import KernelConformance.Kernel.Basic
import KernelConformance.Syscall.Prog

/-! The calls of processes: what each does to the kernel and what it replies. A traced call adds a
line to the console after its own effect.
-/

namespace KernelConformance

open Utf8 (Bytes)

namespace Kernel

/-- How the lines about a process name it. -/
def processText (kernel : Kernel) (pid : Pid) : String :=
  (kernel.context pid).name ++ "(" ++ pid.text ++ ")"

/-- The line that traces a call. -/
def traceLine (kernel : Kernel) (pid : Pid) (kind : SyscallKind) (arguments outcome : String)
    : String :=
  kernel.processText pid ++ ": syscall " ++ kind.name ++ " (" ++ arguments ++ ") -> " ++ outcome
    ++ "\n"

/-- Traces a call if its syscall is traced. -/
def trace (pid : Pid) (kind : SyscallKind) (arguments outcome : String) (kernel : Kernel)
    : Kernel :=
  if kernel.config.traces kind then
    kernel.print (Utf8.encode (kernel.traceLine pid kind arguments outcome))
  else kernel

/-- Opens the file of an inode. -/
def addFile (pid : Pid) (inode : Inode) (kernel : Kernel) : Except Errno Fd × Kernel :=
  match (kernel.fds pid).insert (.file inode 0) with
  | .error error => (.error error, kernel)
  | .ok (fd, fds) => (.ok fd, kernel.setFds pid fds)

/-- Creates or empties a file and opens it. Nothing is created if no file can be opened. -/
def creat (pid : Pid) (name : String) (kernel : Kernel) : Except Errno Fd × Kernel :=
  if (kernel.fds pid).isExhausted then (.error .tooManyOpenFiles, kernel)
  else
    match kernel.files.create name with
    | .error error => (.error error, kernel)
    | .ok (inode, files) => { kernel with files }.addFile pid inode

/-- Opens a file that exists. -/
def openFile (pid : Pid) (name : String) (kernel : Kernel) : Except Errno Fd × Kernel :=
  if (kernel.fds pid).isExhausted then (.error .tooManyOpenFiles, kernel)
  else
    match kernel.files.find name with
    | .error error => (.error error, kernel)
    | .ok inode => kernel.addFile pid inode

/-- Reads as many bytes as there is room for: none from the console, and from a file those that
follow the offset, which moves on by what was read.
-/
def read (pid : Pid) (fd : Fd) (room : Nat) (kernel : Kernel)
    : Except Errno Delivery × Kernel :=
  let fds := kernel.fds pid
  match fds.get? fd with
  | none | some .stdout => (.error .badDescriptor, kernel)
  | some .stdin => (.ok (.of []), kernel)
  | some (.file inode offset) =>
      let bytes := slice offset room (kernel.files.data inode)
      (.ok (.of bytes),
        kernel.setFds pid (fds.set fd (.file inode (offset + bytes.length))))

/-- Writes to the console, or to a file at the offset, which moves on by what was written. -/
def write (pid : Pid) (fd : Fd) (bytes : Bytes) (kernel : Kernel)
    : Except Errno Nat × Kernel :=
  let fds := kernel.fds pid
  match fds.get? fd with
  | none | some .stdin => (.error .badDescriptor, kernel)
  | some .stdout => (.ok bytes.length, kernel.print bytes)
  | some (.file inode offset) =>
      let data := overlay offset bytes (kernel.files.data inode)
      let written := { kernel with files := kernel.files.setData inode data }
      (.ok bytes.length,
        written.setFds pid (fds.set fd (.file inode (offset + bytes.length))))

/-- Frees a descriptor. -/
def close (pid : Pid) (fd : Fd) (kernel : Kernel) : Except Errno Unit × Kernel :=
  match (kernel.fds pid).erase fd with
  | .error error => (.error error, kernel)
  | .ok fds => (.ok (), kernel.setFds pid fds)

/-- Removes the name of a file. -/
def unlink (name : String) (kernel : Kernel) : Except Errno Unit × Kernel :=
  match kernel.files.remove name with
  | .error error => (.error error, kernel)
  | .ok files => (.ok (), { kernel with files })

/-- The effect and the reply of a call. Only a join can have no reply yet. -/
def perform (pid : Pid) (kernel : Kernel) : (call : Syscall) → Option (call.Reply × Kernel)
  | .exec program argv => some (kernel.start (.proc pid) program argv)
  | .join child => kernel.reap (.proc pid) child
  | .creat name => some (kernel.creat pid name)
  | .openFile name => some (kernel.openFile pid name)
  | .read fd room => some (kernel.read pid fd room)
  | .write fd bytes => some (kernel.write pid fd bytes)
  | .close fd => some (kernel.close pid fd)
  | .unlink name => some (kernel.unlink name)

/-- A call of a process, with its trace. The effect and the line are one step, although the console
is locked anew for the line, so that others may write to it in between.
-/
def call (pid : Pid) (call : Syscall) (kernel : Kernel) : Option (call.Reply × Kernel) :=
  (kernel.perform pid call).map fun (reply, after) =>
    (reply, after.trace pid call.kind call.argumentText (call.replyText reply))

/-- The end of a process. An exit is a call too, and is traced before the process is gone. Its line
and the end are one step, as for other calls.
-/
def finish (pid : Pid) (ending : Ending) (kernel : Kernel) : Kernel :=
  match ending with
  | .exit status =>
      (kernel.trace pid .exit (Decimal.write status) "()").terminate pid ending.status
  | .fault => kernel.terminate pid ending.status

end Kernel

end KernelConformance
