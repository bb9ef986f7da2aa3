import KernelConformance.Proofs.Files.Correspondence
import KernelConformance.Proofs.Processes.ShiftedTables
import KernelConformance.Proofs.Programs.ConsoleOutput
import KernelConformance.Proofs.Programs.Families

/-! Kernels that give out different numbers. A process can tell from no reply to a call on files in
which of them it is; who starts a process learns its number, and who joins it learns the same of it
in both. What the console shows does not matter, as nobody reads it.
-/

namespace KernelConformance

open Utf8 (Bytes)

-----------------------------------------------------------------------------------------
-- Files
-----------------------------------------------------------------------------------------

namespace Offset

variable (offset : Offset)

/-- The inode that a file has in the later kernel. -/
def inode (inode : Inode) : Inode := ⟨inode.index + offset.inodes⟩

/-- The context that a process has in the later kernel. -/
def context (context : Context) : Context := { context with fds := context.fds.rename offset.inode }

theorem inode_inj {left right : Inode} : offset.inode left = offset.inode right ↔ left = right := by
  cases left
  cases right
  simp [Offset.inode]

end Offset

namespace FileSystem

/-- Whether files are others with later inodes. What is left of inodes from before
does not matter.
-/
structure Shifted (left : FileSystem) (offset : Offset) (right : FileSystem) : Prop where
  acceptsName : right.acceptsName = left.acceptsName
  next : right.next = offset.inode left.next
  names : ∀ name, right.names.get? name = (left.names.get? name).map offset.inode
  data
    : ∀ inode,
        inode.index < left.next.index
        → right.data (offset.inode inode) = left.data inode

namespace Shifted

variable {offset : Offset} {left right : FileSystem} {inode : Inode} {name : String}

theorem setData (shifted : left.Shifted offset right) (inode : Inode) (bytes : Bytes)
    : (left.setData inode bytes).Shifted offset (right.setData (offset.inode inode) bytes) where
  acceptsName := shifted.acceptsName
  next := shifted.next
  names := shifted.names
  data other taken := by
    rw [data_setData, data_setData]
    by_cases same : other = inode
    · rw [if_pos same, if_pos (congrArg offset.inode same)]
    · rw [if_neg same, if_neg (mt offset.inode_inj.mp same)]
      exact shifted.data other taken

theorem bind (shifted : left.Shifted offset right) (name : String) (bytes : Bytes)
    : (left.bind name bytes).2.Shifted offset (right.bind name bytes).2 where
  acceptsName := shifted.acceptsName
  next := by
    change (⟨right.next.index + 1⟩ : Inode) = offset.inode ⟨left.next.index + 1⟩
    rw [shifted.next]
    simp [Offset.inode, Nat.add_right_comm]
  names other := by
    rw [names_bind, names_bind, shifted.names, shifted.next]
    split <;> rfl
  data other taken := by
    rw [data_bind, data_bind, shifted.next]
    by_cases same : other = left.next
    · rw [if_pos same, if_pos (congrArg offset.inode same)]
    · rw [if_neg same, if_neg (mt offset.inode_inj.mp same)]
      refine shifted.data other (Nat.lt_of_le_of_ne (Nat.le_of_lt_succ taken) fun equal => same ?_)
      cases other
      exact congrArg Inode.mk equal

theorem erase (shifted : left.Shifted offset right) (name : String)
    : { left with names := left.names.erase name }.Shifted offset
        { right with names := right.names.erase name } where
  acceptsName := shifted.acceptsName
  next := shifted.next
  names other := by
    rw [FiniteMap.get?_erase, FiniteMap.get?_erase, shifted.names]
    split <;> rfl
  data := shifted.data

/-- A creation fails in both, or makes or empties corresponding files. -/
theorem create (shifted : left.Shifted offset right) (name : String)
    : (∃ error, left.create name = .error error ∧ right.create name = .error error)
      ∨ ∃ inode leftAfter rightAfter,
          left.create name = .ok (inode, leftAfter)
          ∧ right.create name = .ok (offset.inode inode, rightAfter)
          ∧ leftAfter.Shifted offset rightAfter := by
  have accepts := congrFun shifted.acceptsName name
  have namedToo := shifted.names name
  rcases accepted : left.acceptsName name with _ | _ <;> rw [accepted] at accepts
  · exact .inl
      ⟨.badFileName, by simp [FileSystem.create, accepted], by simp [FileSystem.create, accepts]⟩
  · rcases named : left.names.get? name with _ | inode <;> rw [named] at namedToo
    · refine .inr ⟨left.next, _, _, ?_, ?_, shifted.bind name []⟩
      · simp [FileSystem.create, accepted, named, FileSystem.bind]
      · simp [FileSystem.create, accepts, namedToo, FileSystem.bind, shifted.next]
    · refine .inr ⟨inode, _, _, ?_, ?_, shifted.setData inode []⟩
      · simp [FileSystem.create, accepted, named]
      · simp [FileSystem.create, accepts, namedToo]

theorem find (shifted : left.Shifted offset right) (name : String)
    : right.find name = (left.find name).map offset.inode := by
  simp only [FileSystem.find, shifted.acceptsName, shifted.names]
  split
  · rfl
  · rcases left.names.get? name with _ | inode <;> rfl

theorem remove (shifted : left.Shifted offset right) (name : String)
    : (∃ error, left.remove name = .error error ∧ right.remove name = .error error)
      ∨ ∃ leftAfter rightAfter,
          left.remove name = .ok leftAfter
          ∧ right.remove name = .ok rightAfter
          ∧ leftAfter.Shifted offset rightAfter := by
  have accepts := congrFun shifted.acceptsName name
  have namedToo := shifted.names name
  rcases accepted : left.acceptsName name with _ | _ <;> rw [accepted] at accepts
  · exact .inl
      ⟨.badFileName, by simp [FileSystem.remove, accepted], by simp [FileSystem.remove, accepts]⟩
  · rcases named : left.names.get? name with _ | inode <;> rw [named] at namedToo
    · exact .inl ⟨.noSuchFile, by simp [FileSystem.remove, accepted, named],
        by simp [FileSystem.remove, accepts, namedToo]⟩
    · exact .inr ⟨_, _, by simp [FileSystem.remove, accepted, named],
        by simp [FileSystem.remove, accepts, namedToo], shifted.erase name⟩

end Shifted

end FileSystem

-----------------------------------------------------------------------------------------
-- Processes that do not run
-----------------------------------------------------------------------------------------

namespace Kernel

section Stopped

variable {config : Config} {deeds : List Deed} {kernel after : Kernel} {deed : Deed} {pid : Pid}
  {program : String}

theorem context_finish (kernel : Kernel) (pid : Pid) (ending : Ending) (other : Pid)
    : (kernel.finish pid ending).context other
      = if other = pid then ⟨"", [], ⟨[], kernel.config.maxOpenFiles⟩⟩
        else kernel.context other := by
  have terminated (status : ExitStatus)
      : (kernel.terminate pid status).context other
        = if other = pid then ⟨"", [], ⟨[], kernel.config.maxOpenFiles⟩⟩
          else kernel.context other := by
    simp only [context, terminate, FiniteMap.get?_erase]
    split <;> rfl
  cases ending with
  | exit status =>
      rw [finish, trace_eq]
      exact terminated (Ending.exit status).status
  | fault => exact terminated Ending.fault.status

/-- A start gives a context to the process that it starts alone. -/
theorem start_context {parent : Parent} {argv : List String} {reply : Except Errno Pid}
    (started : kernel.start parent program argv = (reply, after)) (other : reply ≠ .ok pid)
    : after.context pid = kernel.context pid := by
  rcases start_cases started with ⟨_, -, rfl⟩ | ⟨child, _, rfl, -, rfl⟩
  · rfl
  · have different : pid ≠ child := by
      rintro rfl
      exact other rfl
    simp only [context, FiniteMap.get?_insert, if_neg different]

theorem trace_context (kernel : Kernel) (caller : Pid) (kind : SyscallKind)
    (arguments outcome : String)
    : (kernel.trace caller kind arguments outcome).context pid = kernel.context pid := by
  rw [trace_eq]
  rfl

/-- A deed leaves the context of a process that runs neither before it nor after it, by
cases on the deed.
-/
theorem Step.context (step : kernel.Step deed after)
    (stopped : kernel.processes.isRunning pid = false)
    (stoppedToo : after.processes.isRunning pid = false)
    : after.context pid = kernel.context pid := by
  have apart {other : Pid} {kernel : Kernel} (runs : kernel.processes.isRunning other = true)
      (stopped : kernel.processes.isRunning pid = false)
      : pid ≠ other := by
    rintro rfl
    exact Bool.false_ne_true (stopped.symm.trans runs)
  cases step with
  | register program =>
      unfold Kernel.register
      split <;> rfl
  | spawn done =>
      refine start_context done ?_
      rintro rfl
      exact apart (newborn_of_start done).runs stoppedToo rfl
  | wait done => rcases reap_cases done with ⟨_, -, rfl⟩ | ⟨_, _, -, -, rfl⟩ <;> rfl
  | install done => rcases install_cases done with ⟨_, -, rfl⟩ | ⟨_, -, -, rfl⟩ <;> rfl
  | @call caller c reply _ runs done =>
      have different := apart runs stopped
      cases c with
      | exec program argv =>
          obtain ⟨middle, performed, rfl⟩ := call_cases done
          rw [trace_context]
          refine start_context (Option.some.inj performed) ?_
          rintro rfl
          exact apart (newborn_of_call done).runs stoppedToo rfl
      | join child =>
          obtain ⟨middle, performed, rfl⟩ := call_cases done
          rw [trace_context]
          rcases reap_cases performed with ⟨_, -, rfl⟩ | ⟨_, _, -, -, rfl⟩ <;> rfl
      | _ => exact (call_elsewhere rfl done).contexts pid different
  | finish runs => rw [context_finish, if_neg (apart runs stopped)]
  | _ => rfl

/-- A process that does not run has no name, no arguments and no descriptors, by induction
on the run.
-/
theorem Run.context_stopped (run : Run config deeds kernel)
    (stopped : kernel.processes.isRunning pid = false)
    : kernel.context pid = ⟨"", [], ⟨[], config.maxOpenFiles⟩⟩ := by
  induction run with
  | boot => rfl
  | @step _ kernel deed after run step ih =>
      rcases ran : kernel.processes.isRunning pid
      · rw [step.context ran stopped, ih ran]
      · have ended : deed.fdEvent? = some (pid, .ended) := by
          by_contra stays
          exact Bool.false_ne_true (stopped.symm.trans (run.running_after step ran stays))
        obtain ⟨ending, rfl⟩ := Deed.eq_finish_of_ended ended
        cases step with
        | finish => rw [context_finish, if_pos rfl, run.tidy.configured]

end Stopped

end Kernel

-----------------------------------------------------------------------------------------
-- Kernels
-----------------------------------------------------------------------------------------

namespace Kernel

/-- Whether a kernel is another one with later numbers, as far as processes can tell that start only
some programs.
-/
structure Shifted (left : Kernel) (offset : Offset) (starts : String → Prop) (right : Kernel)
    : Prop where
  config : right.config = left.config
  programs : ∀ program, starts program → (program ∈ right.programs ↔ program ∈ left.programs)
  processes : left.processes.Shifted offset right.processes
  contexts : ∀ pid, right.context (offset.pid pid) = offset.context (left.context pid)
  files : left.files.Shifted offset right.files

namespace Shifted

variable {config : Config} {deeds : List Deed} {offset : Offset} {starts : String → Prop}
  {left right : Kernel} {pid : Pid}

theorem fds (shifted : left.Shifted offset starts right) (pid : Pid)
    : right.fds (offset.pid pid) = (left.fds pid).rename offset.inode :=
  congrArg Context.fds (shifted.contexts pid)

/-- A trace is not seen by processes, whatever it says. -/
theorem traced (shifted : left.Shifted offset starts right) (leftKind rightKind : SyscallKind)
    (leftPid rightPid : Pid) (leftArguments rightArguments leftOutcome rightOutcome : String)
    : (left.trace leftPid leftKind leftArguments leftOutcome).Shifted offset starts
        (right.trace rightPid rightKind rightArguments rightOutcome) := by
  rw [trace_eq, trace_eq right]
  exact ⟨shifted.config, shifted.programs, shifted.processes, shifted.contexts, shifted.files⟩

/-- Corresponding contexts that a process gets in both kernels. -/
theorem insert (shifted : left.Shifted offset starts right) {processes processesToo : ProcessTable}
    (tables : processes.Shifted offset processesToo) {files filesToo : FileSystem}
    (contents : files.Shifted offset filesToo) (pid : Pid) (context : Context)
    : Kernel.Shifted
        { left with processes, files, contexts := left.contexts.insert pid context } offset starts
        { right with
          processes := processesToo
          files := filesToo
          contexts := right.contexts.insert (offset.pid pid) (offset.context context) } where
  config := shifted.config
  programs := shifted.programs
  processes := tables
  contexts other := by
    have before := shifted.contexts other
    simp only [Kernel.context, FiniteMap.get?_insert, offset.pid_inj] at before ⊢
    split
    · rfl
    · exact before
  files := contents

theorem setFds (shifted : left.Shifted offset starts right) {files filesToo : FileSystem}
    (contents : files.Shifted offset filesToo) (pid : Pid) (table : Descriptors)
    : ({ left with files }.setFds pid table).Shifted offset starts
        ({ right with files := filesToo }.setFds (offset.pid pid) (table.rename offset.inode)) := by
  have inserted :=
    shifted.insert shifted.processes contents pid { left.context pid with fds := table }
  have same : offset.context { left.context pid with fds := table }
      = { right.context (offset.pid pid) with fds := table.rename offset.inode } := by
    rw [shifted.contexts]
    rfl
  rw [same] at inserted
  exact inserted

/-- The tables of both processes are full together. -/
theorem isExhausted (shifted : left.Shifted offset starts right) (pid : Pid)
    : (right.fds (offset.pid pid)).isExhausted = (left.fds pid).isExhausted := by
  rw [shifted.fds, Descriptors.isExhausted_rename]

theorem get? (shifted : left.Shifted offset starts right) (pid : Pid) (fd : Fd)
    : (right.fds (offset.pid pid)).get? fd
      = ((left.fds pid).get? fd).map (Handle.rename offset.inode) := by
  rw [shifted.fds, Descriptors.get?_rename]

/-- What a call on files comes to in both kernels: one reply, and kernels that differ as before. -/
def Answers (left : Kernel) (offset : Offset) (starts : String → Prop) (right : Kernel) (pid : Pid)
    (c : Syscall)
    : Prop :=
  ∃ reply leftAfter rightAfter,
    left.perform pid c = some (reply, leftAfter)
    ∧ right.perform (offset.pid pid) c = some (reply, rightAfter)
    ∧ leftAfter.Shifted offset starts rightAfter

/-- A file that is opened in both kernels gets the same descriptor. -/
theorem opened (shifted : left.Shifted offset starts right) {files filesToo : FileSystem}
    (contents : files.Shifted offset filesToo) {inode : Inode} {fd fdToo : Fd}
    {table tableToo : Descriptors} {c : Syscall} (replyOf : Fd → c.Reply)
    (inserted : (left.fds pid).insert (.file inode 0) = .ok (fd, table))
    (insertedToo
      : (right.fds (offset.pid pid)).insert (.file (offset.inode inode) 0) = .ok (fdToo, tableToo))
    (done : left.perform pid c = some (replyOf fd, { left with files }.setFds pid table))
    (doneToo
      : right.perform (offset.pid pid) c
        = some (replyOf fdToo, { right with files := filesToo }.setFds (offset.pid pid) tableToo))
    : Answers left offset starts right pid c := by
  rw [shifted.fds] at insertedToo
  have renamed := insertedToo.symm.trans (Descriptors.insert_rename inserted offset.inode)
  cases renamed
  exact ⟨_, _, _, done, doneToo, shifted.setFds contents pid table⟩

theorem creat (shifted : left.Shifted offset starts right) (pid : Pid) (name : String)
    : Answers left offset starts right pid (.creat name) := by
  have full := shifted.isExhausted pid
  cases room : (left.fds pid).isExhausted with
  | true =>
      rw [room] at full
      exact ⟨_, _, _, congrArg some (creat_of_exhausted room name),
        congrArg some (creat_of_exhausted full name), shifted⟩
  | false =>
      rw [room] at full
      rcases shifted.files.create name with
        ⟨error, failed, failedToo⟩ | ⟨inode, files, filesToo, created, createdToo, contents⟩
      · exact ⟨_, _, _, congrArg some (creat_of_refused room failed),
          congrArg some (creat_of_refused full failedToo), shifted⟩
      · obtain ⟨fd, table, inserted, done⟩ := creat_of_room room created
        obtain ⟨fdToo, tableToo, insertedToo, doneToo⟩ := creat_of_room full createdToo
        exact shifted.opened contents .ok inserted insertedToo (congrArg some done)
          (congrArg some doneToo)

theorem openFile (shifted : left.Shifted offset starts right) (pid : Pid) (name : String)
    : Answers left offset starts right pid (.openFile name) := by
  have full := shifted.isExhausted pid
  cases room : (left.fds pid).isExhausted with
  | true =>
      rw [room] at full
      exact ⟨_, _, _, congrArg some (openFile_of_exhausted room name),
        congrArg some (openFile_of_exhausted full name), shifted⟩
  | false =>
      rw [room] at full
      have foundToo := shifted.files.find name
      rcases found : left.files.find name with error | inode <;> rw [found] at foundToo
      · exact ⟨_, _, _, congrArg some (openFile_of_missing room found),
          congrArg some (openFile_of_missing full foundToo), shifted⟩
      · obtain ⟨fd, table, inserted, done⟩ := openFile_of_room room found
        obtain ⟨fdToo, tableToo, insertedToo, doneToo⟩ := openFile_of_room full foundToo
        exact shifted.opened shifted.files .ok inserted insertedToo (congrArg some done)
          (congrArg some doneToo)

theorem read (shifted : left.Shifted offset starts right) (run : Run config deeds left) (pid : Pid)
    (fd : Fd) (room : Nat)
    : Answers left offset starts right pid (.read fd room) := by
  have heldToo := shifted.get? pid fd
  rcases held : (left.fds pid).get? fd with _ | _ | _ | ⟨inode, place⟩ <;> rw [held] at heldToo
  · exact ⟨_, _, _, congrArg some (read_of_unreadable (.inl held) room),
      congrArg some (read_of_unreadable (.inl heldToo) room), shifted⟩
  · exact ⟨_, _, _, congrArg some (read_of_stdin held room),
      congrArg some (read_of_stdin heldToo room), shifted⟩
  · exact ⟨_, _, _, congrArg some (read_of_unreadable (.inr held) room),
      congrArg some (read_of_unreadable (.inr heldToo) room), shifted⟩
  · have data := shifted.files.data inode (run.opens_taken (Descriptors.opens_of_held held))
    refine ⟨_, _, _, congrArg some (read_of_file held room), ?_,
      shifted.setFds shifted.files pid ((left.fds pid).set fd
        (.file inode (place + (slice place room (left.files.data inode)).length)))⟩
    rw [Descriptors.rename_set, ← shifted.fds, ← data]
    exact congrArg some (read_of_file heldToo room)

theorem write (shifted : left.Shifted offset starts right) (run : Run config deeds left) (pid : Pid)
    (fd : Fd) (bytes : Bytes)
    : Answers left offset starts right pid (.write fd bytes) := by
  have heldToo := shifted.get? pid fd
  rcases held : (left.fds pid).get? fd with _ | _ | _ | ⟨inode, place⟩ <;> rw [held] at heldToo
  · exact ⟨_, _, _, congrArg some (write_of_unwritable (.inl held) bytes),
      congrArg some (write_of_unwritable (.inl heldToo) bytes), shifted⟩
  · exact ⟨_, _, _, congrArg some (write_of_unwritable (.inr held) bytes),
      congrArg some (write_of_unwritable (.inr heldToo) bytes), shifted⟩
  · refine ⟨_, _, _, congrArg some (write_of_stdout held bytes),
      congrArg some (write_of_stdout heldToo bytes), ?_⟩
    exact ⟨shifted.config, shifted.programs, shifted.processes, shifted.contexts, shifted.files⟩
  · have data := shifted.files.data inode (run.opens_taken (Descriptors.opens_of_held held))
    refine ⟨_, _, _, congrArg some (write_of_file held bytes), ?_,
      shifted.setFds (shifted.files.setData inode (overlay place bytes (left.files.data inode))) pid
        ((left.fds pid).set fd (.file inode (place + bytes.length)))⟩
    rw [Descriptors.rename_set, ← shifted.fds, ← data]
    exact congrArg some (write_of_file heldToo bytes)

theorem close (shifted : left.Shifted offset starts right) (pid : Pid) (fd : Fd)
    : Answers left offset starts right pid (.close fd) := by
  rcases erased : (left.fds pid).erase fd with error | table
  · have erasedToo := Descriptors.erase_rename_error erased offset.inode
    rw [← shifted.fds] at erasedToo
    exact ⟨_, _, _, congrArg some (close_of_unused erased),
      congrArg some (close_of_unused erasedToo), shifted⟩
  · have erasedToo := Descriptors.erase_rename erased offset.inode
    rw [← shifted.fds] at erasedToo
    exact ⟨_, _, _, congrArg some (close_of_erased erased),
      congrArg some (close_of_erased erasedToo), shifted.setFds shifted.files pid table⟩

theorem unlink (shifted : left.Shifted offset starts right) (pid : Pid) (name : String)
    : Answers left offset starts right pid (.unlink name) := by
  rcases shifted.files.remove name with
    ⟨error, failed, failedToo⟩ | ⟨files, filesToo, removed, removedToo, contents⟩
  · exact ⟨_, _, _, congrArg some (unlink_of_missing failed),
      congrArg some (unlink_of_missing failedToo), shifted⟩
  · refine ⟨_, _, _, congrArg some (unlink_of_removed removed),
      congrArg some (unlink_of_removed removedToo), ?_⟩
    exact ⟨shifted.config, shifted.programs, shifted.processes, shifted.contexts, contents⟩

/-- A call on files gets the same reply in both kernels, by cases on it. -/
theorem call (shifted : left.Shifted offset starts right) (run : Run config deeds left) (pid : Pid)
    {c : Syscall} (onFiles : c.onFiles = true)
    : ∃ reply leftAfter rightAfter,
        left.call pid c = some (reply, leftAfter)
        ∧ right.call (offset.pid pid) c = some (reply, rightAfter)
        ∧ leftAfter.Shifted offset starts rightAfter := by
  have answers : Answers left offset starts right pid c := by
    cases c with
    | exec => cases onFiles
    | join => cases onFiles
    | creat name => exact shifted.creat pid name
    | openFile name => exact shifted.openFile pid name
    | read fd room => exact shifted.read run pid fd room
    | write fd bytes => exact shifted.write run pid fd bytes
    | close fd => exact shifted.close pid fd
    | unlink name => exact shifted.unlink pid name
  obtain ⟨reply, leftAfter, rightAfter, done, doneToo, after⟩ := answers
  exact ⟨reply, _, _, call_of_perform done, call_of_perform doneToo, after.traced ..⟩

/-- What is printed need not be the same. -/
theorem print (shifted : left.Shifted offset starts right) (run : Run config deeds left) (pid : Pid)
    (bytes bytesToo : Bytes)
    : ∃ reply replyToo leftAfter rightAfter,
        left.call pid (.write .stdout bytes) = some (reply, leftAfter)
        ∧ right.call (offset.pid pid) (.write .stdout bytesToo) = some (replyToo, rightAfter)
        ∧ leftAfter.Shifted offset starts rightAfter := by
  suffices performed
      : ∃ reply replyToo leftAfter rightAfter,
          left.perform pid (.write .stdout bytes) = some (reply, leftAfter)
          ∧ right.perform (offset.pid pid) (.write .stdout bytesToo) = some (replyToo, rightAfter)
          ∧ leftAfter.Shifted offset starts rightAfter by
    obtain ⟨reply, replyToo, leftAfter, rightAfter, done, doneToo, after⟩ := performed
    exact ⟨reply, replyToo, _, _, call_of_perform done, call_of_perform doneToo, after.traced ..⟩
  have heldToo : (right.fds (offset.pid pid)).get? .stdout
      = ((left.fds pid).get? .stdout).map (Handle.rename offset.inode) := by
    rw [shifted.fds, Descriptors.get?_rename]
  rcases held : (left.fds pid).get? .stdout with _ | handle <;> rw [held] at heldToo
  · exact ⟨.error .badDescriptor, .error .badDescriptor, left, right,
      by simp [Kernel.perform, Kernel.write, held], by simp [Kernel.perform, Kernel.write, heldToo],
      shifted⟩
  · obtain rfl : handle = .stdout := (run.hasOneOutput pid _ handle held).mpr rfl
    refine ⟨.ok bytes.length, .ok bytesToo.length, left.print bytes, right.print bytesToo,
      by simp [Kernel.perform, Kernel.write, held],
      by simp [Kernel.perform, Kernel.write, heldToo, Handle.rename], ?_⟩
    exact ⟨shifted.config, shifted.programs, shifted.processes, shifted.contexts, shifted.files⟩

-----------------------------------------------------------------------------------------
-- Starts, joins and ends
-----------------------------------------------------------------------------------------

/-- A start is refused in both kernels, or gives out corresponding numbers. -/
theorem start (shifted : left.Shifted offset starts right) (parent : Parent) {program : String}
    (known : starts program) (argv : List String)
    : (∃ error,
        left.start parent program argv = (.error error, left)
        ∧ right.start (offset.parent parent) program argv = (.error error, right))
      ∨ ∃ child leftAfter rightAfter,
          left.start parent program argv = (.ok child, leftAfter)
          ∧ right.start (offset.parent parent) program argv = (.ok (offset.pid child), rightAfter)
          ∧ leftAfter.Shifted offset starts rightAfter := by
  by_cases long : maxArguments < argv.length
  · exact .inl ⟨.argumentListTooLong, by simp [Kernel.start, Kernel.allot, long],
      by simp [Kernel.start, Kernel.allot, long]⟩
  · have loads := shifted.programs program known
    by_cases loaded : program ∈ left.programs
    · rcases shifted.processes.spawn parent program with
        ⟨error, failed, failedToo⟩ | ⟨child, processes, processesToo, spawned, spawnedToo, tables⟩
      · exact .inl ⟨error, by simp [Kernel.start, Kernel.allot, long, loaded, failed],
          by simp [Kernel.start, Kernel.allot, long, loads.mpr loaded, failedToo]⟩
      · refine .inr
          ⟨child, _, _, by simp [Kernel.start, Kernel.allot, Kernel.enter, long, loaded, spawned],
          ?_,
          shifted.insert tables shifted.files child
            ⟨argv.headD program, argv, .initial left.config.maxOpenFiles⟩⟩
        simp [Kernel.start, Kernel.allot, Kernel.enter, long, loads.mpr loaded, spawnedToo,
          shifted.config, Offset.context, Descriptors.rename, Descriptors.initial, Handle.rename]
    · exact .inl ⟨.noSuchFile, by simp [Kernel.start, Kernel.allot, long, loaded],
        by simp [Kernel.start, Kernel.allot, long, mt loads.mp loaded]⟩

theorem exec (shifted : left.Shifted offset starts right) (pid : Pid) {program : String}
    (known : starts program) (argv : List String)
    : (∃ error leftAfter rightAfter,
        left.call pid (.exec program argv) = some (.error error, leftAfter)
        ∧ right.call (offset.pid pid) (.exec program argv) = some (.error error, rightAfter)
        ∧ leftAfter.Shifted offset starts rightAfter)
      ∨ ∃ child leftAfter rightAfter,
          left.call pid (.exec program argv) = some (.ok child, leftAfter)
          ∧ right.call (offset.pid pid) (.exec program argv)
            = some (.ok (offset.pid child), rightAfter)
          ∧ leftAfter.Shifted offset starts rightAfter := by
  rcases shifted.start (.proc pid) known argv with
    ⟨error, failed, failedToo⟩ | ⟨child, leftAfter, rightAfter, started, startedToo, after⟩
  · exact .inl ⟨error, _, _, call_of_perform (congrArg some failed),
      call_of_perform (congrArg some failedToo), shifted.traced ..⟩
  · exact .inr ⟨child, _, _, call_of_perform (congrArg some started),
      call_of_perform (congrArg some startedToo), after.traced ..⟩

/-- A join is blocked in both kernels, or gets one reply. -/
theorem reap (shifted : left.Shifted offset starts right) (caller : Parent) (child : Pid)
    : (left.reap caller child = none ∧ right.reap (offset.parent caller) (offset.pid child) = none)
      ∨ ∃ reply leftAfter rightAfter,
          left.reap caller child = some (reply, leftAfter)
          ∧ right.reap (offset.parent caller) (offset.pid child) = some (reply, rightAfter)
          ∧ leftAfter.Shifted offset starts rightAfter := by
  rcases shifted.processes.reap caller child with
    ⟨error, failed, failedToo⟩ | ⟨waits, waitsToo⟩
      | ⟨status, processes, processesToo, reaped, reapedToo, tables⟩
  · exact .inr ⟨.error error, left, right, by simp [Kernel.reap, failed],
      by simp [Kernel.reap, failedToo], shifted⟩
  · exact .inl ⟨by simp [Kernel.reap, waits], by simp [Kernel.reap, waitsToo]⟩
  · refine .inr ⟨.ok status, { left with processes }, { right with processes := processesToo },
      by simp [Kernel.reap, reaped], by simp [Kernel.reap, reapedToo], ?_⟩
    exact ⟨shifted.config, shifted.programs, tables, shifted.contexts, shifted.files⟩

theorem join (shifted : left.Shifted offset starts right) (pid child : Pid)
    : (left.call pid (.join child) = none
        ∧ right.call (offset.pid pid) (.join (offset.pid child)) = none)
      ∨ ∃ reply leftAfter rightAfter,
          left.call pid (.join child) = some (reply, leftAfter)
          ∧ right.call (offset.pid pid) (.join (offset.pid child)) = some (reply, rightAfter)
          ∧ leftAfter.Shifted offset starts rightAfter := by
  rcases shifted.reap (.proc pid) child with
    ⟨blocked, blockedToo⟩ | ⟨reply, leftAfter, rightAfter, done, doneToo, after⟩
  · exact .inl ⟨congrArg (Option.map _) blocked, congrArg (Option.map _) blockedToo⟩
  · exact .inr ⟨reply, _, _, call_of_perform done, call_of_perform doneToo, after.traced ..⟩

/-- A process without children is refused the join of any process, whatever the numbers are. -/
theorem join_childless (shifted : left.Shifted offset starts right)
    (childless
      : ∀ child slot, left.processes.slots.get? child = some slot → slot.parent ≠ .proc pid)
    (stranger strangerToo : Pid)
    : ∃ leftAfter rightAfter,
        left.call pid (.join stranger) = some (.error .noChild, leftAfter)
        ∧ right.call (offset.pid pid) (.join strangerToo) = some (.error .noChild, rightAfter)
        ∧ leftAfter.Shifted offset starts rightAfter := by
  have refused : left.reap (.proc pid) stranger = some (.error .noChild, left) := by
    rw [Kernel.reap, ProcessTable.reap_noChild (childless stranger)]
  have refusedToo
      : right.reap (.proc (offset.pid pid)) strangerToo = some (.error .noChild, right) := by
    rw [Kernel.reap, shifted.processes.reap_childless childless]
  exact ⟨_, _, call_of_perform refused, call_of_perform refusedToo, shifted.traced ..⟩

/-- The end of a process does the same to both kernels. -/
theorem finish (shifted : left.Shifted offset starts right) (pid : Pid) (ending : Ending)
    : (left.finish pid ending).Shifted offset starts (right.finish (offset.pid pid) ending) := by
  have terminate {left right : Kernel} (shifted : left.Shifted offset starts right)
      : (left.terminate pid ending.status).Shifted offset starts
          (right.terminate (offset.pid pid) ending.status) := by
    refine ⟨shifted.config, shifted.programs, shifted.processes.exit pid ending.status,
      fun other => ?_,
      shifted.files⟩
    have before := shifted.contexts other
    simp only [Kernel.context, Kernel.terminate, FiniteMap.get?_erase, offset.pid_inj] at before ⊢
    split
    · rw [shifted.config]
      rfl
    · exact before
  cases ending with
  | exit status => exact terminate (shifted.traced ..)
  | fault => exact terminate shifted

end Shifted

end Kernel

end KernelConformance
