import KernelConformance.Kernel.Call
import KernelConformance.Proofs.Processes.TableSteps

/-! Runs of a kernel from its boot: any sequence of deeds of the host and of the processes that run,
in any order. A deed carries its reply, so that a history says what came of everything.
-/

namespace KernelConformance

open Utf8 (Bytes)

/-- Something done to a kernel, with what it gave. A join that is blocked has no reply; it can be
tried again.
-/
inductive Deed where
  | register (program : String)
  | spawn (program : String) (argv : List String) (reply : Except Errno Pid)
  | wait (pid : Pid) (reply : Option (Except Errno ExitStatus))
  | install (name : String) (bytes : Bytes) (reply : Except Errno Unit)
  | takeJournal (events : List Event)
  | takeConsole (text : String)
  | call (pid : Pid) (call : Syscall) (reply : Option call.Reply)
  | finish (pid : Pid) (ending : Ending)

namespace Deed

/-- What a deed means for the life of a process, if anything: a start or a join that succeeds, or
an end.
-/
def event? : Deed → Option Event
  | spawn program _ (.ok pid) => some (.spawned pid .host program)
  | call parent (.exec program _) (some (.ok pid)) => some (.spawned pid (.proc parent) program)
  | wait pid (some (.ok status)) => some (.reaped pid .host status)
  | call caller (.join pid) (some (.ok status)) => some (.reaped pid (.proc caller) status)
  | finish pid ending => some (.exited pid ending.status)
  | _ => none

/-- A start by the host or by a process. -/
def start (caller : Parent) (program : String) (argv : List String) (reply : Except Errno Pid)
    : Deed :=
  match caller with
  | .proc parent => .call parent (.exec program argv) (some reply)
  | _ => .spawn program argv reply

/-- A join by the host or by a process. -/
def join (caller : Parent) (pid : Pid) (reply : Option (Except Errno ExitStatus)) : Deed :=
  match caller with
  | .proc parent => .call parent (.join pid) reply
  | _ => .wait pid reply

/-- The process that a deed has started. -/
def startedPid? : Deed → Option Pid
  | spawn _ _ (.ok pid) => some pid
  | call _ (.exec _ _) (some (.ok pid)) => some pid
  | _ => none

/-- The process that a deed has joined. -/
def joinedPid? : Deed → Option Pid
  | wait pid (some (.ok _)) => some pid
  | call _ (.join pid) (some (.ok _)) => some pid
  | _ => none

/-- The events that a deed takes out of the journal. -/
def taken : Deed → List Event
  | takeJournal events => events
  | _ => []

end Deed

/-- What has happened to processes in the course of some deeds. -/
def history (deeds : List Deed) : List Event := deeds.filterMap Deed.event?

/-- Whether somebody has started a process. -/
def StartedBy (deeds : List Deed) (caller : Parent) (pid : Pid) : Prop :=
  ∃ program argv, .start caller program argv (.ok pid) ∈ deeds

/-- Whether somebody has joined a process. -/
def JoinedBy (deeds : List Deed) (caller : Parent) (pid : Pid) : Prop :=
  ∃ status, .join caller pid (some (.ok status)) ∈ deeds

/-- Whether a process was joined. -/
def Joined (deeds : List Deed) (pid : Pid) : Prop := ∃ caller, JoinedBy deeds caller pid

/-- Whether a process has ended. -/
def Ended (deeds : List Deed) (pid : Pid) : Prop := ∃ ending, .finish pid ending ∈ deeds

-----------------------------------------------------------------------------------------
-- The history of deeds
-----------------------------------------------------------------------------------------

theorem filterMap_snoc {α β : Type} (f : α → Option β) (list : List α) (last : α)
    : (list ++ [last]).filterMap f = list.filterMap f ++ (f last).toList := by
  cases mapped : f last <;> simp [mapped]

/-- A list that is cut at an element, and grows by another one, is cut at its last element or at one
before it.
-/
theorem cut_snoc {α : Type} {list before after : List α} {cut last : α}
    (whole : before ++ cut :: after = list ++ [last])
    : before = list ∧ cut = last ∨ ∃ rest, before ++ cut :: rest = list := by
  rcases List.eq_nil_or_concat after with rfl | ⟨rest, other, rfl⟩
  · obtain ⟨sameList, one⟩ := List.append_inj' whole rfl
    exact .inl ⟨sameList, List.singleton_inj.mp one⟩
  · rw [List.concat_eq_append, ← List.cons_append, ← List.append_assoc] at whole
    exact .inr ⟨rest, (List.append_inj' whole rfl).1⟩

@[simp] theorem history_nil : history [] = [] := rfl

@[simp] theorem history_snoc (deeds : List Deed) (deed : Deed)
    : history (deeds ++ [deed]) = history deeds ++ deed.event?.toList :=
  filterMap_snoc _ _ _

namespace Deed

variable {deed : Deed} {caller : Parent} {pid : Pid}

theorem event?_start (known : caller ≠ .detached) (program : String) (argv : List String)
    : (start caller program argv (.ok pid)).event? = some (.spawned pid caller program) := by
  cases caller with
  | detached => exact absurd rfl known
  | _ => rfl

theorem event?_join (known : caller ≠ .detached) (status : ExitStatus)
    : (join caller pid (some (.ok status))).event? = some (.reaped pid caller status) := by
  cases caller with
  | detached => exact absurd rfl known
  | _ => rfl

/-- A join is not the end of a process, by cases on the caller. -/
theorem join_ne_finish {reply : Option (Except Errno ExitStatus)} {other : Pid} {ending : Ending}
    : join caller pid reply ≠ finish other ending := by
  cases caller <;> simp [join]

@[simp] theorem joinedPid?_join_none : (join caller pid none).joinedPid? = none := by
  cases caller <;> rfl

/-- Joins that are one deed are made by one caller, of one process and with one reply. -/
theorem join_inj {other : Parent} {child : Pid} {reply given : Option (Except Errno ExitStatus)}
    (known : caller ≠ .detached) (knownOther : other ≠ .detached)
    (same : join caller pid reply = join other child given)
    : caller = other ∧ pid = child ∧ reply = given := by
  cases caller with
  | detached => exact absurd rfl known
  | host =>
      cases other with
      | detached => exact absurd rfl knownOther
      | host => simpa [join] using same
      | proc _ => cases same
  | proc _ =>
      cases other with
      | detached => exact absurd rfl knownOther
      | host => cases same
      | proc _ => simpa [join, and_assoc] using same

/-- Only a start is logged as one, by cases on the deed. -/
theorem eq_start {program : String} (logged : deed.event? = some (.spawned pid caller program))
    : ∃ argv, deed = start caller program argv (.ok pid) := by
  unfold event? at logged
  split at logged <;> cases logged <;> exact ⟨_, rfl⟩

/-- Only a join is logged as one, by cases on the deed. -/
theorem eq_join {status : ExitStatus} (logged : deed.event? = some (.reaped pid caller status))
    : deed = join caller pid (some (.ok status)) := by
  unfold event? at logged
  split at logged <;> cases logged <;> rfl

/-- Only an end is logged as one, by cases on the deed. -/
theorem eq_finish {status : ExitStatus} (logged : deed.event? = some (.exited pid status))
    : ∃ ending, deed = finish pid ending ∧ ending.status = status := by
  unfold event? at logged
  split at logged <;> cases logged
  exact ⟨_, rfl, rfl⟩

end Deed

section History

variable {deeds : List Deed} {caller : Parent} {pid : Pid}

/-- The starts of a history are the deeds that have started a process. -/
theorem startedBy_iff (known : caller ≠ .detached)
    : StartedBy deeds caller pid ↔ ∃ program, .spawned pid caller program ∈ history deeds := by
  constructor
  · intro started
    obtain ⟨program, argv, member⟩ := started
    exact ⟨program, List.mem_filterMap.mpr ⟨_, member, Deed.event?_start known program argv⟩⟩
  · intro started
    obtain ⟨program, member⟩ := started
    obtain ⟨deed, done, logged⟩ := List.mem_filterMap.mp member
    obtain ⟨argv, rfl⟩ := Deed.eq_start logged
    exact ⟨program, argv, done⟩

theorem joinedBy_iff (known : caller ≠ .detached)
    : JoinedBy deeds caller pid ↔ ∃ status, .reaped pid caller status ∈ history deeds := by
  constructor
  · intro joined
    obtain ⟨status, member⟩ := joined
    exact ⟨status, List.mem_filterMap.mpr ⟨_, member, Deed.event?_join known status⟩⟩
  · intro joined
    obtain ⟨status, member⟩ := joined
    obtain ⟨deed, done, logged⟩ := List.mem_filterMap.mp member
    obtain rfl := Deed.eq_join logged
    exact ⟨status, done⟩

/-- A process was joined exactly if its history has a join, made by the host or by a process. -/
theorem joined_iff
    : Joined deeds pid ↔ ∃ parent status, .reaped pid parent status ∈ history deeds := by
  constructor
  · intro joined
    obtain ⟨caller, status, member⟩ := joined
    cases caller with
    | detached =>
        have byHost : JoinedBy deeds .host pid := ⟨status, member⟩
        exact ⟨_, (joinedBy_iff (by simp)).mp byHost⟩
    | _ => exact ⟨_, (joinedBy_iff (by simp)).mp ⟨status, member⟩⟩
  · intro joined
    obtain ⟨parent, status, member⟩ := joined
    obtain ⟨deed, done, logged⟩ := List.mem_filterMap.mp member
    obtain rfl := Deed.eq_join logged
    exact ⟨parent, status, done⟩

/-- The ends of a history are the deeds that have ended a process. -/
theorem exited_iff {status : ExitStatus}
    : .exited pid status ∈ history deeds
      ↔ ∃ ending, .finish pid ending ∈ deeds ∧ ending.status = status := by
  constructor
  · intro member
    obtain ⟨deed, done, logged⟩ := List.mem_filterMap.mp member
    obtain ⟨ending, rfl, same⟩ := Deed.eq_finish logged
    exact ⟨ending, done, same⟩
  · intro finished
    obtain ⟨ending, member, rfl⟩ := finished
    exact List.mem_filterMap.mpr ⟨_, member, rfl⟩

theorem StartedBy.snoc (started : StartedBy deeds caller pid) (deed : Deed)
    : StartedBy (deeds ++ [deed]) caller pid := by
  obtain ⟨program, argv, member⟩ := started
  exact ⟨program, argv, List.mem_append_left _ member⟩

theorem joined_snoc {deed : Deed}
    : Joined (deeds ++ [deed]) pid ↔ Joined deeds pid ∨ deed.joinedPid? = some pid := by
  have single : Joined [deed] pid ↔ deed.joinedPid? = some pid := by
    constructor
    · intro joined
      obtain ⟨caller, status, member⟩ := joined
      obtain rfl := List.mem_singleton.mp member
      cases caller <;> rfl
    · intro joined
      unfold Deed.joinedPid? at joined
      split at joined <;> cases joined
      · exact ⟨.host, _, List.mem_singleton.mpr rfl⟩
      · exact ⟨.proc _, _, List.mem_singleton.mpr rfl⟩
  rw [← single]
  simp only [Joined, JoinedBy, List.mem_append, exists_or]

/-- A join is no end, so that the ends are the same after it. -/
theorem finish_mem_snoc_join {ending : Ending} {child : Pid}
    {reply : Option (Except Errno ExitStatus)}
    : .finish pid ending ∈ deeds ++ [.join caller child reply] ↔ .finish pid ending ∈ deeds := by
  rw [List.mem_append, List.mem_singleton, or_iff_left Deed.join_ne_finish.symm]

theorem ended_snoc {deed : Deed}
    : Ended (deeds ++ [deed]) pid ↔ Ended deeds pid ∨ ∃ ending, deed = .finish pid ending := by
  simp only [Ended, List.mem_append, List.mem_singleton, exists_or, eq_comm]

end History

namespace Kernel

/-- One deed of the host, of a process that runs, or the end of one. -/
inductive Step (kernel : Kernel) : Deed → Kernel → Prop where
  | register (program : String) : Step kernel (.register program) (kernel.register program)
  | spawn {program argv reply after} (done : kernel.start .host program argv = (reply, after))
    : Step kernel (.spawn program argv reply) after
  | wait {pid reply after} (done : kernel.reap .host pid = some (reply, after))
    : Step kernel (.wait pid (some reply)) after
  | waitBlocked {pid} (blocked : kernel.reap .host pid = none)
    : Step kernel (.wait pid none) kernel
  | install {name bytes reply after} (done : kernel.install name bytes = (reply, after))
    : Step kernel (.install name bytes reply) after
  | takeJournal : Step kernel (.takeJournal kernel.processes.events) kernel.clearJournal
  | takeConsole : Step kernel (.takeConsole kernel.console.text) kernel.clearConsole
  | call {pid call reply after} (runs : kernel.processes.isRunning pid = true)
    (done : kernel.call pid call = some (reply, after))
    : Step kernel (.call pid call (some reply)) after
  | callBlocked {pid call} (runs : kernel.processes.isRunning pid = true)
    (blocked : kernel.call pid call = none)
    : Step kernel (.call pid call none) kernel
  | finish {pid ending} (runs : kernel.processes.isRunning pid = true)
    : Step kernel (.finish pid ending) (kernel.finish pid ending)

/-- The deeds of a run from boot, oldest first, and the kernel after them. -/
inductive Run (config : Config) : List Deed → Kernel → Prop where
  | boot : Run config [] (.boot config)
  | step {deeds kernel deed after} (run : Run config deeds kernel)
    (step : kernel.Step deed after)
    : Run config (deeds ++ [deed]) after

/-- Deeds one after the other, from any kernel. -/
inductive Steps : Kernel → List Deed → Kernel → Prop where
  | nil {kernel} : Steps kernel [] kernel
  | cons {kernel deed middle deeds after} (step : kernel.Step deed middle)
    (rest : Steps middle deeds after)
    : Steps kernel (deed :: deeds) after

/-- A run goes on with more deeds, by induction on them. -/
theorem Run.extend {config : Config} {deeds more : List Deed} {kernel after : Kernel}
    (run : Run config deeds kernel) (steps : Steps kernel more after)
    : Run config (deeds ++ more) after := by
  induction steps generalizing deeds with
  | nil => simpa using run
  | cons step _ ih => simpa using ih (run.step step)

/-- A run that contains a deed has made it from a kernel that the earlier deeds led to, by induction
on the run.
-/
theorem Run.split {config : Config} {before after : List Deed} {deed : Deed} {kernel : Kernel}
    (run : Run config (before ++ deed :: after) kernel)
    : ∃ middle next, Run config before middle ∧ middle.Step deed next := by
  generalize whole : before ++ deed :: after = deeds at run
  induction run generalizing after with
  | boot => simp at whole
  | @step deeds kernel last next run step ih =>
      rcases cut_snoc whole with ⟨rfl, rfl⟩ | ⟨rest, earlier⟩
      · exact ⟨kernel, next, run, step⟩
      · exact ih earlier

variable {kernel after : Kernel}

-----------------------------------------------------------------------------------------
-- What a call can do
-----------------------------------------------------------------------------------------

theorem trace_eq (kernel : Kernel) (pid : Pid) (kind : SyscallKind) (arguments outcome : String)
    : kernel.trace pid kind arguments outcome
      = { kernel with console := (kernel.trace pid kind arguments outcome).console } := by
  unfold trace
  split <;> rfl

@[simp] theorem trace_processes (kernel : Kernel) (pid : Pid) (kind : SyscallKind)
    (arguments outcome : String)
    : (kernel.trace pid kind arguments outcome).processes = kernel.processes := by
  rw [trace_eq]

/-- A start is refused and changes nothing, or takes a slot. -/
theorem allot_cases {parent : Parent} {program : String} {argv : List String}
    {reply : Except Errno Pid} (done : kernel.allot parent program argv = (reply, after))
    : (∃ error, reply = .error error ∧ after = kernel)
      ∨ ∃ pid processes,
          reply = .ok pid
          ∧ kernel.processes.spawn parent program = .ok (pid, processes)
          ∧ after = { kernel with processes } := by
  unfold allot at done
  split at done
  · cases done
    exact .inl ⟨_, rfl, rfl⟩
  · split at done
    · cases done
      exact .inl ⟨_, rfl, rfl⟩
    · split at done
      · cases done
        exact .inl ⟨_, rfl, rfl⟩
      · next pid processes spawned =>
          cases done
          exact .inr ⟨pid, processes, rfl, spawned, rfl⟩

/-- A start fails and changes nothing, or takes a slot and gives the new process its context. -/
theorem start_cases {parent : Parent} {program : String} {argv : List String}
    {reply : Except Errno Pid} (done : kernel.start parent program argv = (reply, after))
    : (∃ error, reply = .error error ∧ after = kernel)
      ∨ ∃ pid processes,
          reply = .ok pid
          ∧ kernel.processes.spawn parent program = .ok (pid, processes)
          ∧ after = { kernel with
              processes
              contexts := kernel.contexts.insert pid
                ⟨argv.headD program, argv, .initial kernel.config.maxOpenFiles⟩ } := by
  rw [start] at done
  rcases taken : kernel.allot parent program argv with ⟨reply, middle⟩
  rw [taken] at done
  rcases allot_cases taken with ⟨error, rfl, rfl⟩ | ⟨pid, processes, rfl, spawned, rfl⟩
  · cases done
    exact .inl ⟨error, rfl, rfl⟩
  · cases done
    exact .inr ⟨pid, processes, rfl, spawned, rfl⟩

/-- A join that returns fails and changes nothing, or reaps the child. -/
theorem reap_cases {caller : Parent} {pid : Pid} {reply : Except Errno ExitStatus}
    (done : kernel.reap caller pid = some (reply, after))
    : (∃ error, reply = .error error ∧ after = kernel)
      ∨ ∃ status processes,
          reply = .ok status
          ∧ kernel.processes.reap caller pid = .ok (some (status, processes))
          ∧ after = { kernel with processes } := by
  unfold reap at done
  split at done
  · cases done
    exact .inl ⟨_, rfl, rfl⟩
  · cases done
  · next status processes reaped =>
      cases done
      exact .inr ⟨status, processes, rfl, reaped, rfl⟩

/-- A call that returns has its effect, and then its trace. -/
theorem call_cases {pid : Pid} {call : Syscall} {reply : call.Reply}
    (done : kernel.call pid call = some (reply, after))
    : ∃ middle,
        kernel.perform pid call = some (reply, middle)
        ∧ after = middle.trace pid call.kind call.argumentText (call.replyText reply) := by
  obtain ⟨⟨_, middle⟩, performed, same⟩ := Option.map_eq_some_iff.mp done
  cases same
  exact ⟨middle, performed, rfl⟩

@[simp] theorem addFile_processes (pid : Pid) (inode : Inode) (kernel : Kernel)
    : (kernel.addFile pid inode).2.processes = kernel.processes := by
  unfold addFile
  split <;> rfl

@[simp] theorem creat_processes (pid : Pid) (name : String) (kernel : Kernel)
    : (kernel.creat pid name).2.processes = kernel.processes := by
  unfold creat
  split
  · rfl
  · split
    · rfl
    · simp

@[simp] theorem openFile_processes (pid : Pid) (name : String) (kernel : Kernel)
    : (kernel.openFile pid name).2.processes = kernel.processes := by
  unfold openFile
  split
  · rfl
  · split
    · rfl
    · simp

@[simp] theorem read_processes (pid : Pid) (fd : Fd) (room : Nat) (kernel : Kernel)
    : (kernel.read pid fd room).2.processes = kernel.processes := by
  simp only [read]
  split <;> rfl

@[simp] theorem write_processes (pid : Pid) (fd : Fd) (bytes : Bytes) (kernel : Kernel)
    : (kernel.write pid fd bytes).2.processes = kernel.processes := by
  simp only [write]
  split <;> rfl

@[simp] theorem close_processes (pid : Pid) (fd : Fd) (kernel : Kernel)
    : (kernel.close pid fd).2.processes = kernel.processes := by
  unfold close
  split <;> rfl

@[simp] theorem unlink_processes (name : String) (kernel : Kernel)
    : (kernel.unlink name).2.processes = kernel.processes := by
  unfold unlink
  split <;> rfl

-----------------------------------------------------------------------------------------
-- What a step does to the processes
-----------------------------------------------------------------------------------------

/-- A call of a process that runs is a step of the process table: an exec or a join as its reply
says, and any other call none, by cases on the call.
-/
theorem call_processes {pid : Pid} {call : Syscall} {reply : call.Reply}
    (runs : kernel.processes.isRunning pid = true)
    (done : kernel.call pid call = some (reply, after))
    : kernel.processes.Step (Deed.call pid call (some reply)).event? [] after.processes := by
  obtain ⟨middle, performed, rfl⟩ := call_cases done
  rw [trace_processes]
  cases call with
  | exec program argv =>
      rcases start_cases (Option.some.inj performed) with
        ⟨error, rfl, rfl⟩ | ⟨child, processes, rfl, spawned, rfl⟩
      · exact .idle
      · exact .spawn runs (ProcessTable.started_of_spawn spawned)
  | join child =>
      rcases reap_cases performed with ⟨error, rfl, rfl⟩ | ⟨status, processes, rfl, reaped, rfl⟩
      · exact .idle
      · exact .reap runs (ProcessTable.freed_of_reap reaped)
  | _ =>
      obtain rfl := congrArg Prod.snd (Option.some.inj performed)
      simpa [Deed.event?] using .idle

@[simp] theorem finish_processes (pid : Pid) (ending : Ending) (kernel : Kernel)
    : (kernel.finish pid ending).processes = kernel.processes.exit pid ending.status := by
  cases ending <;> simp [finish, terminate]

/-- A deed does to the process table what its event says, by cases on the deed. -/
theorem Step.processes {deed : Deed} (step : kernel.Step deed after)
    : kernel.processes.Step deed.event? deed.taken after.processes := by
  cases step with
  | register program =>
      unfold Kernel.register
      split <;> exact .idle
  | spawn done =>
      rcases start_cases done with ⟨error, rfl, rfl⟩ | ⟨pid, processes, rfl, spawned, rfl⟩
      · exact .idle
      · exact .spawn rfl (ProcessTable.started_of_spawn spawned)
  | wait done =>
      rcases reap_cases done with ⟨error, rfl, rfl⟩ | ⟨status, processes, rfl, reaped, rfl⟩
      · exact .idle
      · exact .reap rfl (ProcessTable.freed_of_reap reaped)
  | waitBlocked => exact .idle
  | install done =>
      unfold Kernel.install at done
      split at done <;> cases done <;> exact .idle
  | takeJournal => exact .clearJournal
  | takeConsole => exact .idle
  | call runs done => exact call_processes runs done
  | @callBlocked pid call runs blocked =>
      have silent : (Deed.call pid call none).event? = none := by cases call <;> rfl
      rw [silent]
      exact .idle
  | finish runs =>
      rw [finish_processes]
      exact .exit runs

end Kernel

end KernelConformance
