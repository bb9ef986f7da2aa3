import KernelConformance.Proofs.Files.DescriptorTables
import KernelConformance.Proofs.Files.FileSystemSteps
import KernelConformance.Proofs.Processes.JoinOutcomes
import Mathlib.Logic.Function.Basic

/-! What a deed does to descriptors. One law says what becomes of a descriptor in any step: it is
opened, closed, or moves on by what was read or written through it.
-/

namespace KernelConformance

open Function (update)

/-- What a deed of a process means for its descriptors. -/
inductive FdEvent where
  | started
  | ended
  | opened (fd : Fd) (name : String)
  | moved (fd : Fd) (count : Nat)
  | closed (fd : Fd)

/-- The start or the end of a process, or a call on its descriptors that succeeds. A read or a write
moves its descriptor by the count that it returns.
-/
def Deed.fdEvent? : Deed → Option (Pid × FdEvent)
  | spawn _ _ (.ok pid) => some (pid, .started)
  | call _ (.exec _ _) (some (.ok pid)) => some (pid, .started)
  | finish pid _ => some (pid, .ended)
  | call pid (.creat name) (some (.ok fd)) => some (pid, .opened fd name)
  | call pid (.openFile name) (some (.ok fd)) => some (pid, .opened fd name)
  | call pid (.read fd _) (some (.ok delivery)) => some (pid, .moved fd delivery.count)
  | call pid (.write fd _) (some (.ok count)) => some (pid, .moved fd count)
  | call pid (.close fd) (some (.ok _)) => some (pid, .closed fd)
  | _ => none

namespace Handle

/-- A handle after some bytes were read or written: a file has its offset moved, a stream of the
console has none.
-/
def advance (count : Nat) : Handle → Handle
  | file inode offset => file inode (offset + count)
  | stream => stream

@[simp] theorem advance_zero (handle : Handle) : handle.advance 0 = handle := by
  cases handle <;> rfl

end Handle

namespace Kernel

/-- What an event does to the descriptors of all processes, given the files after it. -/
inductive FdStep (kernel : Kernel) (files : FileSystem)
    : Option (Pid × FdEvent) → (Pid → Descriptors) → Prop where
  | start {pid} (numbered : pid = kernel.processes.next)
    (idle : kernel.processes.isRunning pid = false)
    : FdStep kernel files (some (pid, .started))
        (update kernel.fds pid (.initial kernel.config.maxOpenFiles))
  | finish {pid} (runs : kernel.processes.isRunning pid = true)
    : FdStep kernel files (some (pid, .ended))
        (update kernel.fds pid ⟨[], kernel.config.maxOpenFiles⟩)
  | opened {pid fd name inode fds} (runs : kernel.processes.isRunning pid = true)
    (named : files.names.get? name = some inode)
    (accepted : kernel.files.acceptsName name = true)
    (inserted : (kernel.fds pid).insert (.file inode 0) = .ok (fd, fds))
    : FdStep kernel files (some (pid, .opened fd name)) (update kernel.fds pid fds)
  | moved {pid fd inode offset count} (runs : kernel.processes.isRunning pid = true)
    (held : (kernel.fds pid).get? fd = some (.file inode offset))
    : FdStep kernel files (some (pid, .moved fd count))
        (update kernel.fds pid ((kernel.fds pid).set fd (.file inode (offset + count))))
  | streamed {pid fd count handle} (runs : kernel.processes.isRunning pid = true)
    (held : (kernel.fds pid).get? fd = some handle)
    (stream : handle.advance count = handle)
    : FdStep kernel files (some (pid, .moved fd count)) kernel.fds
  | closed {pid fd fds} (runs : kernel.processes.isRunning pid = true)
    (erased : (kernel.fds pid).erase fd = .ok fds)
    : FdStep kernel files (some (pid, .closed fd)) (update kernel.fds pid fds)
  | idle : FdStep kernel files none kernel.fds

/-- What an event does to the descriptors of one process: nothing if it is about another one. -/
inductive TableStep (kernel : Kernel) (files : FileSystem) (pid : Pid)
    : Option (Pid × FdEvent) → Descriptors → Prop where
  | elsewhere {event} (other : ∀ change, event ≠ some (pid, change))
    : TableStep kernel files pid event (kernel.fds pid)
  | start (numbered : pid = kernel.processes.next) (idle : kernel.processes.isRunning pid = false)
    : TableStep kernel files pid (some (pid, .started)) (.initial kernel.config.maxOpenFiles)
  | finish (runs : kernel.processes.isRunning pid = true)
    : TableStep kernel files pid (some (pid, .ended)) ⟨[], kernel.config.maxOpenFiles⟩
  | opened {fd name inode fds} (runs : kernel.processes.isRunning pid = true)
    (named : files.names.get? name = some inode)
    (accepted : kernel.files.acceptsName name = true)
    (inserted : (kernel.fds pid).insert (.file inode 0) = .ok (fd, fds))
    : TableStep kernel files pid (some (pid, .opened fd name)) fds
  | moved {fd inode offset count} (runs : kernel.processes.isRunning pid = true)
    (held : (kernel.fds pid).get? fd = some (.file inode offset))
    : TableStep kernel files pid (some (pid, .moved fd count))
        ((kernel.fds pid).set fd (.file inode (offset + count)))
  | streamed {fd count handle} (runs : kernel.processes.isRunning pid = true)
    (held : (kernel.fds pid).get? fd = some handle)
    (stream : handle.advance count = handle)
    : TableStep kernel files pid (some (pid, .moved fd count)) (kernel.fds pid)
  | closed {fd fds} (runs : kernel.processes.isRunning pid = true)
    (erased : (kernel.fds pid).erase fd = .ok fds)
    : TableStep kernel files pid (some (pid, .closed fd)) fds

variable {kernel after : Kernel}

-----------------------------------------------------------------------------------------
-- Every deed makes a step
-----------------------------------------------------------------------------------------

theorem fds_insert (kernel : Kernel) (processes : ProcessTable) (files : FileSystem) (pid : Pid)
    (context : Context)
    : ({ kernel with
        processes, files, contexts := kernel.contexts.insert pid context } : Kernel).fds
      = update kernel.fds pid context.fds := by
  funext other
  simp only [fds, Kernel.context, FiniteMap.get?_insert, Function.update_apply]
  split <;> rfl

theorem fds_setFds (pid : Pid) (fds : Descriptors) (files : FileSystem) (kernel : Kernel)
    : ({ kernel with files }.setFds pid fds).fds = update kernel.fds pid fds :=
  fds_insert kernel kernel.processes files pid _

theorem fds_trace (kernel : Kernel) (pid : Pid) (kind : SyscallKind) (arguments outcome : String)
    : (kernel.trace pid kind arguments outcome).fds = kernel.fds := by
  rw [trace_eq]
  rfl

theorem fds_terminate (pid : Pid) (status : ExitStatus) (kernel : Kernel)
    : (kernel.terminate pid status).fds
      = update kernel.fds pid ⟨[], kernel.config.maxOpenFiles⟩ := by
  funext other
  simp only [fds, Kernel.context, terminate, FiniteMap.get?_erase, Function.update_apply]
  split <;> rfl

theorem fds_finish (pid : Pid) (ending : Ending) (kernel : Kernel)
    : (kernel.finish pid ending).fds
      = update kernel.fds pid ⟨[], kernel.config.maxOpenFiles⟩ := by
  cases ending with
  | exit status => rw [finish, fds_terminate, fds_trace, trace_eq]
  | fault => rw [finish, fds_terminate]

/-- A start puts a process into the tables that did not run before. -/
theorem start_fds {parent : Parent} {program : String} {argv : List String} {pid : Pid}
    {files : FileSystem} (rooted : kernel.processes.Rooted)
    (done : kernel.start parent program argv = (.ok pid, after))
    : kernel.FdStep files (some (pid, .started)) after.fds := by
  rcases start_cases done with ⟨_, replied, -⟩ | ⟨_, processes, same, spawned, rfl⟩
  · cases replied
  · cases same
    have started := ProcessTable.started_of_spawn spawned
    have idle : kernel.processes.isRunning pid = false := by
      rw [Bool.eq_false_iff]
      exact fun runs => rooted.ne_started started runs rfl
    rw [fds_insert kernel processes kernel.files]
    exact .start started.numbered idle

theorem call_fds {pid : Pid} {call : Syscall} {reply : call.Reply}
    (rooted : kernel.processes.Rooted) (runs : kernel.processes.isRunning pid = true)
    (done : kernel.call pid call = some (reply, after))
    : kernel.FdStep after.files (Deed.call pid call (some reply)).fdEvent? after.fds := by
  obtain ⟨middle, effect, rfl⟩ := call_effect done
  rw [trace_files, fds_trace]
  cases effect with
  | @failed _ error =>
      have silent : (Deed.call pid call (some (.error error))).fdEvent? = none := by
        cases call <;> rfl
      rw [silent]
      exact .idle
  | exec started => exact start_fds rooted started
  | creat created inserted =>
      rw [fds_setFds]
      have accepted := (FileSystem.create_cases created).1
      exact .opened runs (FileSystem.named_of_create created) accepted inserted
  | openFile found inserted =>
      obtain ⟨accepted, named⟩ := FileSystem.find_cases found
      rw [fds_setFds pid _ kernel.files kernel]
      exact .opened runs named accepted inserted
  | readInput held => exact .streamed runs held rfl
  | read held =>
      rw [fds_setFds pid _ kernel.files kernel]
      exact .moved runs held
  | print held => exact .streamed runs held rfl
  | write held =>
      rw [fds_setFds]
      exact .moved runs held
  | close erased =>
      rw [fds_setFds pid _ kernel.files kernel]
      exact .closed runs erased
  | join => exact .idle
  | unlink => exact .idle

/-- A deed does to the descriptors what its event says, by cases on the deed. -/
theorem Step.fds {deed : Deed} (step : kernel.Step deed after)
    (rooted : kernel.processes.Rooted)
    : kernel.FdStep after.files deed.fdEvent? after.fds := by
  cases step with
  | register program =>
      unfold Kernel.register
      split <;> exact .idle
  | @spawn program argv reply _ done =>
      cases reply with
      | ok pid => exact start_fds rooted done
      | error error =>
          obtain rfl := start_failed done
          exact .idle
  | wait done =>
      rcases reap_cases done with ⟨_, rfl, rfl⟩ | ⟨_, _, rfl, -, rfl⟩ <;> exact .idle
  | waitBlocked => exact .idle
  | install done =>
      rcases install_cases done with ⟨_, rfl, rfl⟩ | ⟨_, -, rfl, rfl⟩ <;> exact .idle
  | takeJournal => exact .idle
  | takeConsole => exact .idle
  | call runs done => exact call_fds rooted runs done
  | @callBlocked pid call runs blocked =>
      have silent : (Deed.call pid call none).fdEvent? = none := by cases call <;> rfl
      rw [silent]
      exact .idle
  | @finish pid ending runs =>
      rw [fds_finish]
      exact .finish runs

-----------------------------------------------------------------------------------------
-- What becomes of a descriptor
-----------------------------------------------------------------------------------------

/-- An event that takes a descriptor from a process: it is closed, or the process ends. -/
def Releases (pid : Pid) (fd : Fd) (event : Option (Pid × FdEvent)) : Prop :=
  event = some (pid, .closed fd) ∨ event = some (pid, .ended)

/-- How far an event moves a descriptor. -/
def distance (pid : Pid) (fd : Fd) : Option (Pid × FdEvent) → Nat
  | some (caller, .moved other count) => if caller = pid ∧ other = fd then count else 0
  | _ => 0

theorem distance_elsewhere {pid : Pid} {event : Option (Pid × FdEvent)}
    (other : ∀ change, event ≠ some (pid, change)) (fd : Fd)
    : distance pid fd event = 0 := by
  unfold distance
  split
  · next caller moved count =>
      have elsewhere : ¬(caller = pid ∧ moved = fd) := fun same =>
        other (.moved moved count) (same.1 ▸ rfl)
      exact if_neg elsewhere
  · rfl

/-- Every process that runs has the slots of the console in its table. -/
def HasStreams (kernel : Kernel) : Prop :=
  ∀ pid,
    kernel.processes.isRunning pid = true
    → Descriptors.firstFile ≤ (kernel.fds pid).slots.length

namespace FdStep

variable {files : FileSystem} {event : Option (Pid × FdEvent)} {fds : Pid → Descriptors}
  {pid : Pid} {fd : Fd}

/-- An event leaves the tables of all processes but its own as they are, by cases on the step. -/
theorem elsewhere (step : kernel.FdStep files event fds)
    (other : ∀ change, event ≠ some (pid, change))
    : fds pid = kernel.fds pid := by
  have different {caller : Pid} {change : FdEvent} (same : event = some (caller, change))
      : pid ≠ caller := fun here => other change (here ▸ same)
  cases step with
  | streamed => rfl
  | idle => rfl
  | _ => exact Function.update_of_ne (different rfl) _ _

/-- What an event does to all tables it does to each of them, by cases on the step. -/
theorem table (step : kernel.FdStep files event fds) (pid : Pid)
    : kernel.TableStep files pid event (fds pid) := by
  by_cases here : ∃ change, event = some (pid, change)
  · obtain ⟨change, rfl⟩ := here
    cases step with
    | streamed runs held stream => exact .streamed runs held stream
    | start numbered idle =>
        rw [Function.update_self]
        exact .start numbered idle
    | finish runs =>
        rw [Function.update_self]
        exact .finish runs
    | opened runs named accepted inserted =>
        rw [Function.update_self]
        exact .opened runs named accepted inserted
    | moved runs held =>
        rw [Function.update_self]
        exact .moved runs held
    | closed runs erased =>
        rw [Function.update_self]
        exact .closed runs erased
  · have other := not_exists.mp here
    rw [step.elsewhere other]
    exact .elsewhere other

/-- A descriptor that an event neither opens nor releases stands for what it did, moved by as much
as the event says, by cases on the step.
-/
theorem get?_kept (step : kernel.FdStep files event fds) (streams : kernel.HasStreams)
    (runs : kernel.processes.isRunning pid = true) (kept : ¬Releases pid fd event)
    (old : ∀ name, event ≠ some (pid, .opened fd name))
    : (fds pid).get? fd
      = ((kernel.fds pid).get? fd).map (Handle.advance (distance pid fd event)) := by
  have unmoved : (kernel.fds pid).get? fd = ((kernel.fds pid).get? fd).map (Handle.advance 0) := by
    cases (kernel.fds pid).get? fd <;> simp
  have table := step.table pid
  generalize fds pid = own at table ⊢
  cases table with
  | elsewhere other =>
      rw [distance_elsewhere other]
      exact unmoved
  | start _ idle => cases runs.symm.trans idle
  | finish => exact absurd (.inr rfl) kept
  | @opened opened name _ _ _ _ _ inserted =>
      have different : fd ≠ opened := fun same => old name (same ▸ rfl)
      have found := (Descriptors.inserted_of_insert (streams pid runs) inserted).get? fd
      rw [if_neg different] at found
      rw [found]
      exact unmoved
  | @moved moved inode offset count _ held =>
      rw [Descriptors.get?_set held]
      by_cases this : fd = moved
      · subst this
        simp [held, distance, Handle.advance]
      · simpa [distance, this, Ne.symm this] using unmoved
  | @streamed moved count handle _ held stream =>
      by_cases this : moved = fd
      · subst this
        simp [held, distance, stream]
      · simpa [distance, this] using unmoved
  | @closed closed _ _ erased =>
      have different : fd ≠ closed := fun same => kept (.inl (same ▸ rfl))
      have found := (Descriptors.erased_of_erase erased).get? fd
      rw [if_neg different] at found
      rw [found]
      exact unmoved

theorem size_kept (step : kernel.FdStep files event fds)
    (runs : kernel.processes.isRunning pid = true) (kept : ∀ fd, ¬Releases pid fd event)
    (old : ∀ fd name, event ≠ some (pid, .opened fd name))
    : (fds pid).size = (kernel.fds pid).size := by
  have table := step.table pid
  generalize fds pid = own at table ⊢
  cases table with
  | elsewhere | streamed => rfl
  | start _ idle => cases runs.symm.trans idle
  | finish => exact absurd (.inr rfl) (kept .stdin)
  | @opened fd name => exact absurd rfl (old fd name)
  | moved _ held => rw [Descriptors.size_set held]
  | @closed fd => exact absurd (.inl rfl) (kept fd)

theorem table_started (step : kernel.FdStep files (some (pid, .started)) fds)
    : pid = kernel.processes.next ∧ fds pid = .initial kernel.config.maxOpenFiles := by
  cases step with
  | start numbered idle => exact ⟨numbered, Function.update_self ..⟩

/-- A descriptor that is opened is put in for the beginning of the file with the name. -/
theorem inserted_of_opened {name : String}
    (step : kernel.FdStep files (some (pid, .opened fd name)) fds) (streams : kernel.HasStreams)
    : kernel.processes.isRunning pid = true
      ∧ kernel.files.acceptsName name = true
      ∧ ∃ inode,
          files.names.get? name = some inode
          ∧ (kernel.fds pid).Inserted (.file inode 0) fd (fds pid) := by
  cases step with
  | @opened _ _ _ inode _ runs named accepted inserted =>
      refine ⟨runs, accepted, inode, named, ?_⟩
      rw [Function.update_self]
      exact Descriptors.inserted_of_insert (streams pid runs) inserted

theorem get?_closed (step : kernel.FdStep files (some (pid, .closed fd)) fds)
    : (fds pid).get? fd = none := by
  cases step with
  | closed runs erased =>
      rw [Function.update_self, (Descriptors.erased_of_erase erased).get?, if_pos rfl]

end FdStep

end Kernel

end KernelConformance
