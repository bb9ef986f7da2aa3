import KernelConformance.Proofs.Runs

/-! What calls come to: each of them fails with the kernel as it was, or succeeds with one change. A
call that opens a file has no effect before it is certain to succeed.
-/

namespace KernelConformance

open Utf8 (Bytes)

theorem Descriptors.insert_of_room {table : Descriptors} (room : table.isExhausted = false)
    (handle : Handle)
    : ∃ fd after, table.insert handle = .ok (fd, after) := by
  unfold insert
  rw [room]
  exact ⟨_, _, rfl⟩

namespace Kernel

variable {kernel after : Kernel} {pid : Pid} {name : String} {fd : Fd} {inode : Inode}
  {error : Errno}

theorem call_of_perform {call : Syscall} {reply : call.Reply}
    (performed : kernel.perform pid call = some (reply, after))
    : kernel.call pid call
      = some (reply, after.trace pid call.kind call.argumentText (call.replyText reply)) := by
  simp [Kernel.call, performed]

theorem addFile_of_room (room : (kernel.fds pid).isExhausted = false) (inode : Inode)
    : ∃ fd fds,
        (kernel.fds pid).insert (.file inode 0) = .ok (fd, fds)
        ∧ kernel.addFile pid inode = (.ok fd, kernel.setFds pid fds) := by
  obtain ⟨fd, fds, inserted⟩ := Descriptors.insert_of_room room (.file inode 0)
  refine ⟨fd, fds, inserted, ?_⟩
  unfold addFile
  rw [inserted]

/-- A table that is full refuses before anything is created. -/
theorem creat_of_exhausted (full : (kernel.fds pid).isExhausted = true) (name : String)
    : kernel.creat pid name = (.error .tooManyOpenFiles, kernel) := by
  simp [creat, full]

theorem openFile_of_exhausted (full : (kernel.fds pid).isExhausted = true) (name : String)
    : kernel.openFile pid name = (.error .tooManyOpenFiles, kernel) := by
  simp [openFile, full]

/-- With room in the table, a name that can be created is opened too. -/
theorem creat_of_room {files : FileSystem}
    (room : (kernel.fds pid).isExhausted = false)
    (created : kernel.files.create name = .ok (inode, files))
    : ∃ fd fds,
        (kernel.fds pid).insert (.file inode 0) = .ok (fd, fds)
        ∧ kernel.creat pid name = (.ok fd, { kernel with files }.setFds pid fds) := by
  have roomAfter : (({ kernel with files } : Kernel).fds pid).isExhausted = false := room
  obtain ⟨fd, fds, inserted, added⟩ := addFile_of_room roomAfter inode
  refine ⟨fd, fds, inserted, ?_⟩
  simpa [creat, room, created] using added

theorem openFile_of_room (room : (kernel.fds pid).isExhausted = false)
    (found : kernel.files.find name = .ok inode)
    : ∃ fd fds,
        (kernel.fds pid).insert (.file inode 0) = .ok (fd, fds)
        ∧ kernel.openFile pid name = (.ok fd, kernel.setFds pid fds) := by
  obtain ⟨fd, fds, inserted, added⟩ := addFile_of_room room inode
  refine ⟨fd, fds, inserted, ?_⟩
  simpa [openFile, room, found] using added

theorem creat_of_refused (room : (kernel.fds pid).isExhausted = false)
    (refused : kernel.files.create name = .error error)
    : kernel.creat pid name = (.error error, kernel) := by
  simp [creat, room, refused]

theorem openFile_of_missing (room : (kernel.fds pid).isExhausted = false)
    (missing : kernel.files.find name = .error error)
    : kernel.openFile pid name = (.error error, kernel) := by
  simp [openFile, room, missing]

/-- There is nothing to read where a descriptor stands for nothing or for the output. -/
theorem read_of_unreadable
    (held : (kernel.fds pid).get? fd = none ∨ (kernel.fds pid).get? fd = some .stdout) (room : Nat)
    : kernel.read pid fd room = (.error .badDescriptor, kernel) := by
  rcases held with held | held <;> simp only [read, held]

theorem read_of_stdin (held : (kernel.fds pid).get? fd = some .stdin) (room : Nat)
    : kernel.read pid fd room = (.ok (.of []), kernel) := by
  simp only [read, held]

theorem read_of_file {offset : Nat} (held : (kernel.fds pid).get? fd = some (.file inode offset))
    (room : Nat)
    : kernel.read pid fd room
      = (.ok (.of (slice offset room (kernel.files.data inode))),
          kernel.setFds pid ((kernel.fds pid).set fd (.file inode
            (offset + (slice offset room (kernel.files.data inode)).length)))) := by
  simp only [read, held]

/-- Nothing can be written where a descriptor stands for nothing or for the input. -/
theorem write_of_unwritable
    (held : (kernel.fds pid).get? fd = none ∨ (kernel.fds pid).get? fd = some .stdin)
    (bytes : Bytes)
    : kernel.write pid fd bytes = (.error .badDescriptor, kernel) := by
  rcases held with held | held <;> simp only [write, held]

theorem write_of_stdout (held : (kernel.fds pid).get? fd = some .stdout) (bytes : Bytes)
    : kernel.write pid fd bytes = (.ok bytes.length, kernel.print bytes) := by
  simp only [write, held]

theorem write_of_file {offset : Nat} (held : (kernel.fds pid).get? fd = some (.file inode offset))
    (bytes : Bytes)
    : kernel.write pid fd bytes
      = (.ok bytes.length,
          { kernel with
            files := kernel.files.setData inode
              (overlay offset bytes (kernel.files.data inode)) }.setFds pid
            ((kernel.fds pid).set fd (.file inode (offset + bytes.length)))) := by
  simp only [write, held]

theorem close_of_unused (unused : (kernel.fds pid).erase fd = .error error)
    : kernel.close pid fd = (.error error, kernel) := by
  simp only [close, unused]

theorem close_of_erased {fds : Descriptors} (erased : (kernel.fds pid).erase fd = .ok fds)
    : kernel.close pid fd = (.ok (), kernel.setFds pid fds) := by
  simp only [close, erased]

theorem unlink_of_missing (missing : kernel.files.remove name = .error error)
    : kernel.unlink name = (.error error, kernel) := by
  simp only [unlink, missing]

theorem unlink_of_removed {files : FileSystem} (removed : kernel.files.remove name = .ok files)
    : kernel.unlink name = (.ok (), { kernel with files }) := by
  simp only [unlink, removed]

theorem start_failed {parent : Parent} {program : String} {argv : List String} {error : Errno}
    (failed : kernel.start parent program argv = (.error error, after))
    : after = kernel := by
  rcases start_cases failed with ⟨_, -, same⟩ | ⟨_, _, replied, -⟩
  · exact same
  · cases replied

/-- What a call that returns has done, before its trace: nothing if it has failed, and else the one
change that it is for.
-/
inductive Effect (kernel : Kernel) (pid : Pid)
    : (call : Syscall) → call.Reply → Kernel → Prop where
  | failed {call error} : Effect kernel pid call (.error error) kernel
  | exec {program argv child after}
    (started : kernel.start (.proc pid) program argv = (.ok child, after))
    : Effect kernel pid (.exec program argv) (.ok child) after
  | join {child status processes}
    (reaped : kernel.processes.reap (.proc pid) child = .ok (some (status, processes)))
    : Effect kernel pid (.join child) (.ok status) { kernel with processes }
  | creat {name inode files fd fds} (created : kernel.files.create name = .ok (inode, files))
    (inserted : (kernel.fds pid).insert (.file inode 0) = .ok (fd, fds))
    : Effect kernel pid (.creat name) (.ok fd) ({ kernel with files }.setFds pid fds)
  | openFile {name inode fd fds} (found : kernel.files.find name = .ok inode)
    (inserted : (kernel.fds pid).insert (.file inode 0) = .ok (fd, fds))
    : Effect kernel pid (.openFile name) (.ok fd) (kernel.setFds pid fds)
  | readInput {fd room} (held : (kernel.fds pid).get? fd = some .stdin)
    : Effect kernel pid (.read fd room) (.ok (.of [])) kernel
  | read {fd room inode offset} (held : (kernel.fds pid).get? fd = some (.file inode offset))
    : Effect kernel pid (.read fd room) (.ok (.of (slice offset room (kernel.files.data inode))))
        (kernel.setFds pid ((kernel.fds pid).set fd (.file inode
          (offset + (slice offset room (kernel.files.data inode)).length))))
  | print {fd bytes} (held : (kernel.fds pid).get? fd = some .stdout)
    : Effect kernel pid (.write fd bytes) (.ok bytes.length) (kernel.print bytes)
  | write {fd bytes inode offset} (held : (kernel.fds pid).get? fd = some (.file inode offset))
    : Effect kernel pid (.write fd bytes) (.ok bytes.length)
        ({ kernel with
          files := kernel.files.setData inode
            (overlay offset bytes (kernel.files.data inode)) }.setFds pid
          ((kernel.fds pid).set fd (.file inode (offset + bytes.length))))
  | close {fd fds} (erased : (kernel.fds pid).erase fd = .ok fds)
    : Effect kernel pid (.close fd) (.ok ()) (kernel.setFds pid fds)
  | unlink {name files} (removed : kernel.files.remove name = .ok files)
    : Effect kernel pid (.unlink name) (.ok ()) { kernel with files }

/-- A creation fails, or succeeds in both of its parts, by cases on the room in the table and on the
name.
-/
theorem creat_effect {reply : Except Errno Fd} (done : kernel.creat pid name = (reply, after))
    : kernel.Effect pid (.creat name) reply after := by
  cases room : (kernel.fds pid).isExhausted with
  | true =>
      rw [creat_of_exhausted room] at done
      cases done
      exact .failed
  | false =>
      rcases created : kernel.files.create name with error | ⟨inode, files⟩
      · rw [creat_of_refused room created] at done
        cases done
        exact .failed
      · obtain ⟨fd, fds, inserted, same⟩ := creat_of_room room created
        rw [same] at done
        cases done
        exact .creat created inserted

theorem openFile_effect {reply : Except Errno Fd}
    (done : kernel.openFile pid name = (reply, after))
    : kernel.Effect pid (.openFile name) reply after := by
  cases room : (kernel.fds pid).isExhausted with
  | true =>
      rw [openFile_of_exhausted room] at done
      cases done
      exact .failed
  | false =>
      rcases found : kernel.files.find name with error | inode
      · rw [openFile_of_missing room found] at done
        cases done
        exact .failed
      · obtain ⟨fd, fds, inserted, same⟩ := openFile_of_room room found
        rw [same] at done
        cases done
        exact .openFile found inserted

theorem read_effect {room : Nat} {reply : Except Errno Delivery}
    (done : kernel.read pid fd room = (reply, after))
    : kernel.Effect pid (.read fd room) reply after := by
  simp only [read] at done
  split at done
  · cases done
    exact .failed
  · cases done
    exact .failed
  · next held =>
      cases done
      exact .readInput held
  · next held =>
      cases done
      exact .read held

theorem write_effect {bytes : Bytes} {reply : Except Errno Nat}
    (done : kernel.write pid fd bytes = (reply, after))
    : kernel.Effect pid (.write fd bytes) reply after := by
  simp only [write] at done
  split at done
  · cases done
    exact .failed
  · cases done
    exact .failed
  · next held =>
      cases done
      exact .print held
  · next held =>
      cases done
      exact .write held

theorem close_effect {reply : Except Errno Unit}
    (done : kernel.close pid fd = (reply, after))
    : kernel.Effect pid (.close fd) reply after := by
  unfold close at done
  split at done
  · cases done
    exact .failed
  · next erased =>
      cases done
      exact .close erased

theorem unlink_effect {reply : Except Errno Unit} (done : kernel.unlink name = (reply, after))
    : kernel.Effect pid (.unlink name) reply after := by
  unfold unlink at done
  split at done
  · cases done
    exact .failed
  · next removed =>
      cases done
      exact .unlink removed

theorem perform_effect {call : Syscall} {reply : call.Reply}
    (performed : kernel.perform pid call = some (reply, after))
    : kernel.Effect pid call reply after := by
  cases call with
  | exec program argv =>
      have done := Option.some.inj performed
      cases reply with
      | ok child => exact .exec done
      | error error =>
          obtain rfl := start_failed done
          exact .failed
  | join child =>
      rcases reap_cases performed with ⟨_, rfl, rfl⟩ | ⟨_, _, rfl, reaped, rfl⟩
      · exact .failed
      · exact .join reaped
  | creat name => exact creat_effect (Option.some.inj performed)
  | openFile name => exact openFile_effect (Option.some.inj performed)
  | read fd room => exact read_effect (Option.some.inj performed)
  | write fd bytes => exact write_effect (Option.some.inj performed)
  | close fd => exact close_effect (Option.some.inj performed)
  | unlink name => exact unlink_effect (Option.some.inj performed)

/-- A call that returns has its effect, and is traced after it. -/
theorem call_effect {call : Syscall} {reply : call.Reply}
    (done : kernel.call pid call = some (reply, after))
    : ∃ middle,
        kernel.Effect pid call reply middle
        ∧ after = middle.trace pid call.kind call.argumentText (call.replyText reply) := by
  obtain ⟨middle, performed, same⟩ := call_cases done
  exact ⟨middle, perform_effect performed, same⟩

theorem install_cases {bytes : Bytes} {reply : Except Errno Unit}
    (done : kernel.install name bytes = (reply, after))
    : (∃ error, reply = .error error ∧ after = kernel)
      ∨ ∃ files,
          kernel.files.put name bytes = .ok files
          ∧ reply = .ok ()
          ∧ after = { kernel with files } := by
  unfold install at done
  split at done
  · cases done
    exact .inl ⟨_, rfl, rfl⟩
  · next files put =>
      cases done
      exact .inr ⟨files, put, rfl, rfl⟩

-----------------------------------------------------------------------------------------
-- What is left as it was
-----------------------------------------------------------------------------------------

/-- No call configures the kernel or makes a program loadable, by cases on its effect. -/
theorem call_frame {call : Syscall} {reply : call.Reply}
    (done : kernel.call pid call = some (reply, after))
    : after.config = kernel.config ∧ after.programs = kernel.programs := by
  obtain ⟨middle, effect, rfl⟩ := call_effect done
  rw [trace_eq]
  cases effect with
  | exec started =>
      rcases start_cases started with ⟨_, -, rfl⟩ | ⟨_, _, -, -, rfl⟩ <;> exact ⟨rfl, rfl⟩
  | _ => exact ⟨rfl, rfl⟩

/-- Neither does the end of a process. -/
theorem finish_frame (pid : Pid) (ending : Ending) (kernel : Kernel)
    : (kernel.finish pid ending).config = kernel.config
      ∧ (kernel.finish pid ending).programs = kernel.programs := by
  cases ending with
  | exit status =>
      rw [finish, trace_eq]
      exact ⟨rfl, rfl⟩
  | fault => exact ⟨rfl, rfl⟩

theorem register_console (program : String) (kernel : Kernel)
    : (kernel.register program).console = kernel.console := by
  unfold register
  split <;> rfl

theorem start_console {parent : Parent} {program : String} {argv : List String}
    {reply : Except Errno Pid} (done : kernel.start parent program argv = (reply, after))
    : after.console = kernel.console := by
  rcases start_cases done with ⟨_, -, rfl⟩ | ⟨_, _, -, -, rfl⟩ <;> rfl

theorem reap_console {caller : Parent} {reply : Except Errno ExitStatus}
    (done : kernel.reap caller pid = some (reply, after))
    : after.console = kernel.console := by
  rcases reap_cases done with ⟨_, -, rfl⟩ | ⟨_, _, -, -, rfl⟩ <;> rfl

theorem install_console {bytes : Bytes} {reply : Except Errno Unit}
    (done : kernel.install name bytes = (reply, after))
    : after.console = kernel.console := by
  rcases install_cases done with ⟨_, -, rfl⟩ | ⟨_, -, -, rfl⟩ <;> rfl

end Kernel

end KernelConformance
