import KernelConformance.Kernel.Wait
import KernelConformance.Proofs.Processes.JournalReplay

/-! What a join comes to. The process table decides it from the entry of the child; the log decides
it from who started the child, whether it has ended and whether it was joined.
-/

namespace KernelConformance

namespace ProcessTable

variable {table : ProcessTable}

theorem ne_detached_of_canAct {caller : Parent} (acts : table.canAct caller = true)
    : caller ≠ .detached := by
  intro same
  subst same
  cases acts

/-- A join of an entry that has another parent, or of none, is refused. -/
theorem reap_noChild {caller : Parent} {pid : Pid}
    (foreign : ∀ slot, table.slots.get? pid = some slot → slot.parent ≠ caller)
    : table.reap caller pid = .error .noChild := by
  unfold reap
  split
  · rfl
  · next slot found => rw [if_neg fun owned => foreign slot found owned.1]

theorem reap_running {caller : Parent} {pid : Pid} (acts : table.canAct caller = true)
    (found : table.slots.get? pid = some ⟨caller, .running⟩)
    : table.reap caller pid = .ok none := by
  simp [reap, found, ne_detached_of_canAct acts]

theorem reap_zombie {caller : Parent} {pid : Pid} {status : ExitStatus}
    (acts : table.canAct caller = true)
    (found : table.slots.get? pid = some ⟨caller, .zombie status⟩)
    : ∃ after, table.reap caller pid = .ok (some (status, after)) := by
  simp [reap, found, ne_detached_of_canAct acts]

end ProcessTable

namespace Wait

variable (wait : Wait) {kernel : Kernel}

/-- The kernel after a join has returned, with the line that traces the join of a process. -/
def traced (wait : Wait) (reply : Except Errno ExitStatus) (kernel : Kernel) : Kernel :=
  match wait.waiter with
  | .proc pid =>
      kernel.trace pid .join wait.child.text ((Syscall.join wait.child).replyText reply)
  | _ => kernel

/-- A join asks the process table, and is traced if it returns, by cases on the caller. -/
theorem retry_eq (kernel : Kernel)
    : wait.retry kernel
      = (kernel.reap wait.waiter wait.child).map fun (reply, after) =>
          (reply, wait.traced reply after) := by
  obtain ⟨waiter, child⟩ := wait
  cases waiter with
  | proc pid => rfl
  | host => cases done : kernel.reap .host child <;> simp [retry, traced, done]
  | detached => cases done : kernel.reap .detached child <;> simp [retry, traced, done]

@[simp] theorem traced_processes (reply : Except Errno ExitStatus) (kernel : Kernel)
    : (wait.traced reply kernel).processes = kernel.processes := by
  unfold traced
  split <;> simp

theorem traced_eq (reply : Except Errno ExitStatus) (kernel : Kernel)
    : wait.traced reply kernel = { kernel with console := (wait.traced reply kernel).console } := by
  unfold traced
  split
  · exact Kernel.trace_eq _ _ _ _ _
  · rfl

/-- A join by the host is not traced, and one by a process only if the configuration asks for it. -/
theorem traced_silent {reply : Except Errno ExitStatus}
    (silent : wait.waiter = .host ∨ kernel.config.traces .join = false)
    : wait.traced reply kernel = kernel := by
  unfold traced
  split
  · next pid process =>
      rcases silent with host | untraced
      · cases process.symm.trans host
      · simp [Kernel.trace, untraced]
  · rfl

/-- A join of an entry that has another parent, or of none, fails and leaves all but a trace. -/
theorem retry_noChild
    (foreign
      : ∀ slot, kernel.processes.slots.get? wait.child = some slot → slot.parent ≠ wait.waiter)
    : wait.retry kernel = some (.error .noChild, wait.traced (.error .noChild) kernel) := by
  simp [retry_eq, Kernel.reap, ProcessTable.reap_noChild foreign]

theorem retry_running (acts : kernel.processes.canAct wait.waiter = true)
    (found : kernel.processes.slots.get? wait.child = some ⟨wait.waiter, .running⟩)
    : wait.retry kernel = none := by
  simp [retry_eq, Kernel.reap, ProcessTable.reap_running acts found]

theorem retry_zombie {status : ExitStatus} (acts : kernel.processes.canAct wait.waiter = true)
    (found : kernel.processes.slots.get? wait.child = some ⟨wait.waiter, .zombie status⟩)
    : ∃ after,
        wait.retry kernel = some (.ok status, after)
        ∧ kernel.processes.Freed wait.waiter wait.child status after.processes := by
  obtain ⟨processes, reaped⟩ := ProcessTable.reap_zombie acts found
  refine ⟨wait.traced (.ok status) { kernel with processes }, ?_, ?_⟩
  · simp [retry_eq, Kernel.reap, reaped]
  · simpa using ProcessTable.freed_of_reap reaped

/-- A join that has returned is a step of the kernel, by cases on the caller. -/
theorem step_of_retry {reply : Except Errno ExitStatus} {after : Kernel}
    (acts : kernel.processes.canAct wait.waiter = true)
    (done : wait.retry kernel = some (reply, after))
    : kernel.Step (.join wait.waiter wait.child (some reply)) after := by
  obtain ⟨waiter, child⟩ := wait
  cases waiter with
  | proc pid => exact .call acts done
  | host => exact .wait done
  | detached => cases acts

/-- A join that is blocked was made by somebody who can act, and it leaves the kernel as it was, by
cases on the caller.
-/
theorem blocked_of_step {after : Kernel} (known : wait.waiter ≠ .detached)
    (step : kernel.Step (.join wait.waiter wait.child none) after)
    : kernel.processes.canAct wait.waiter = true ∧ wait.retry kernel = none ∧ after = kernel := by
  obtain ⟨waiter, child⟩ := wait
  cases waiter with
  | detached => exact absurd rfl known
  | host =>
      cases step with
      | waitBlocked blocked => exact ⟨rfl, blocked, rfl⟩
  | proc pid =>
      cases step with
      | callBlocked runs blocked => exact ⟨runs, blocked, rfl⟩

end Wait

namespace Accounts

open Journal

variable {log : List Event} {table : ProcessTable}

/-- Nobody who can act has ended in the log. -/
theorem present_of_canAct (accounts : Accounts log table) {caller : Parent}
    (acts : table.canAct caller = true)
    : isGone log caller = false := by
  cases caller with
  | proc pid => simp [isGone, (accounts.running acts).2]
  | host => rfl
  | detached => rfl

/-- For those who can act, the entry of a child that was not joined is in the table under them: it
runs until the log has its end.
-/
theorem slot_of_child (accounts : Accounts log table) {caller : Parent} {pid : Pid}
    (acts : table.canAct caller = true) (started : spawner? log pid = some caller)
    (kept : wasReaped log pid = false)
    : table.slots.get? pid
      = some ⟨caller, ((exitStatus? log pid).map SlotState.zombie).getD .running⟩ := by
  have present := accounts.present_of_canAct acts
  rw [accounts.slots]
  exact slot?_eq_some.mpr ⟨caller, started, kept, fun _ => present, by simp [present], rfl⟩

/-- An entry with a parent was started by that parent and was not joined. -/
theorem child_of_slot (accounts : Accounts log table) {pid : Pid} {slot : Slot}
    (found : table.slots.get? pid = some slot) (attached : slot.parent ≠ .detached)
    : spawner? log pid = some slot.parent ∧ wasReaped log pid = false := by
  rw [accounts.slots] at found
  obtain ⟨parent, started, kept, -, owned, -⟩ := slot?_eq_some.mp found
  split at owned
  · exact absurd owned attached
  · exact ⟨owned ▸ started, kept⟩

end Accounts

namespace Kernel.Run

open Journal

variable {config : Config} {deeds : List Deed} {kernel : Kernel} {caller : Parent} {pid : Pid}

/-- The deeds of a run tell who started a process as its log does. -/
theorem startedBy_iff_spawner? (run : Run config deeds kernel) (known : caller ≠ .detached)
    : StartedBy deeds caller pid ↔ spawner? (history deeds) pid = some caller := by
  rw [startedBy_iff known, run.accounts.orderly.spawner?_eq_some]

/-- A process is joined by the one that started it alone. -/
theorem joinedBy_of_joined (run : Run config deeds kernel) (started : StartedBy deeds caller pid)
    (known : caller ≠ .detached) (joined : Joined deeds pid)
    : JoinedBy deeds caller pid := by
  obtain ⟨parent, status, member⟩ := joined_iff.mp joined
  have owner := (run.accounts.orderly.of_reaped member).1
  rw [(run.startedBy_iff_spawner? known).mp started, Option.some.injEq] at owner
  exact (joinedBy_iff known).mpr ⟨status, owner ▸ member⟩

theorem exitStatus?_of_finish (run : Run config deeds kernel) {ending : Ending}
    (member : .finish pid ending ∈ deeds)
    : exitStatus? (history deeds) pid = some ending.status :=
  run.accounts.orderly.exitStatus?_eq_some.mpr (exited_iff.mpr ⟨ending, member, rfl⟩)

theorem exitStatus?_of_not_ended (run : Run config deeds kernel) (alive : ¬Ended deeds pid)
    : exitStatus? (history deeds) pid = none := by
  rcases ended : exitStatus? (history deeds) pid with _ | status
  · rfl
  · have logged := run.accounts.orderly.exitStatus?_eq_some.mp ended
    obtain ⟨ending, member, -⟩ := exited_iff.mp logged
    exact absurd ⟨ending, member⟩ alive

/-- A process that was joined with a status has ended with it. -/
theorem finish_of_reaped (run : Run config deeds kernel) {parent : Parent} {status : ExitStatus}
    (joined : .reaped pid parent status ∈ history deeds)
    : ∃ ending, .finish pid ending ∈ deeds ∧ ending.status = status := by
  have ended := (run.accounts.orderly.of_reaped joined).2
  exact exited_iff.mp (run.accounts.orderly.exitStatus?_eq_some.mp ended)

theorem not_joined_of_not_ended (run : Run config deeds kernel) (alive : ¬Ended deeds pid)
    : ¬Joined deeds pid := by
  intro joined
  obtain ⟨parent, status, logged⟩ := joined_iff.mp joined
  obtain ⟨ending, finished, -⟩ := run.finish_of_reaped logged
  exact alive ⟨ending, finished⟩

/-- A process runs exactly if it was started and has not ended. -/
theorem isRunning_iff (run : Run config deeds kernel)
    : kernel.processes.isRunning pid = true
      ↔ (∃ caller, caller ≠ .detached ∧ StartedBy deeds caller pid) ∧ ¬Ended deeds pid := by
  have orderly := run.accounts.orderly
  constructor
  · intro runs
    obtain ⟨started, alive⟩ := run.accounts.running runs
    obtain ⟨caller, started⟩ := Option.isSome_iff_exists.mp started
    have known := (orderly.spawner?_older started).1
    refine ⟨⟨caller, known, (run.startedBy_iff_spawner? known).mpr started⟩, ?_⟩
    intro finished
    obtain ⟨ending, ended⟩ := finished
    rw [run.exitStatus?_of_finish ended] at alive
    cases alive
  · intro lives
    obtain ⟨⟨caller, known, started⟩, alive⟩ := lives
    have running := run.exitStatus?_of_not_ended alive
    have kept : wasReaped (history deeds) pid = false := Bool.eq_false_iff.mpr fun joined => by
      have ended := orderly.exited_of_reaped joined
      rw [running] at ended
      cases ended
    have found
        : slot? (history deeds) pid
          = some ⟨if isGone (history deeds) caller then .detached else caller, .running⟩ :=
      slot?_eq_some.mpr ⟨caller, (run.startedBy_iff_spawner? known).mp started, kept,
        by simp [running], rfl, by simp [running]⟩
    exact ProcessTable.isRunning_iff.mpr ⟨_, (run.accounts.slots pid).trans found⟩

/-- Who can act can do so after a deed too, unless it is their end. -/
theorem canAct_step (run : Run config deeds kernel) {deed : Deed} {after : Kernel}
    (step : kernel.Step deed after) (acts : kernel.processes.canAct caller = true)
    (stays : ∀ pid ending, deed = .finish pid ending → caller ≠ .proc pid)
    : after.processes.canAct caller = true := by
  cases caller with
  | host => rfl
  | detached => cases acts
  | proc pid =>
      obtain ⟨⟨parent, known, started⟩, alive⟩ := run.isRunning_iff.mp acts
      refine (run.step step).isRunning_iff.mpr ⟨⟨parent, known, started.snoc deed⟩, ?_⟩
      rw [ended_snoc]
      intro finished
      rcases finished with before | ⟨ending, now⟩
      · exact alive before
      · exact stays pid ending now rfl

/-- A process that runs does so after a call too, whoever makes it. -/
theorem isRunning_call (run : Run config deeds kernel) {caller : Pid} {c : Syscall}
    {reply : Option c.Reply} {after : Kernel} (step : kernel.Step (.call caller c reply) after)
    (runs : kernel.processes.isRunning pid = true)
    : after.processes.isRunning pid = true :=
  @canAct_step _ _ _ (.proc pid) run _ _ step runs fun _ _ finished => by cases finished

/-- The entry of a child that was not joined, for those who can act: it has exited with the status
of its end, or it runs if it has none.
-/
theorem slot_of_child (run : Run config deeds kernel)
    (acts : kernel.processes.canAct caller = true) (started : StartedBy deeds caller pid)
    (kept : ¬Joined deeds pid)
    : kernel.processes.slots.get? pid
      = some ⟨caller, ((exitStatus? (history deeds) pid).map SlotState.zombie).getD .running⟩ := by
  have known := ProcessTable.ne_detached_of_canAct acts
  rw [joined_iff, ← wasReaped_iff, Bool.not_eq_true] at kept
  exact run.accounts.slot_of_child acts ((run.startedBy_iff_spawner? known).mp started) kept

/-- An entry is that of a child that was not joined, for its parent. -/
theorem child_of_slot (run : Run config deeds kernel) {slot : Slot}
    (found : kernel.processes.slots.get? pid = some slot) (attached : slot.parent ≠ .detached)
    : StartedBy deeds slot.parent pid ∧ ¬Joined deeds pid := by
  obtain ⟨started, kept⟩ := run.accounts.child_of_slot found attached
  refine ⟨(run.startedBy_iff_spawner? attached).mpr started, fun joined => ?_⟩
  rw [wasReaped_iff.mpr (joined_iff.mp joined)] at kept
  cases kept

-----------------------------------------------------------------------------------------
-- The three answers to a join
-----------------------------------------------------------------------------------------

/-- A join is refused if the caller did not start the process or it was joined before. -/
theorem join_refused (run : Run config deeds kernel)
    (acts : kernel.processes.canAct caller = true)
    (foreign : ¬StartedBy deeds caller pid ∨ Joined deeds pid)
    : (Wait.mk caller pid).retry kernel
      = some (.error .noChild, (Wait.mk caller pid).traced (.error .noChild) kernel) := by
  refine Wait.retry_noChild ⟨caller, pid⟩ fun slot found owned => ?_
  have same : slot.parent = caller := owned
  subst same
  obtain ⟨started, kept⟩ := run.child_of_slot found (ProcessTable.ne_detached_of_canAct acts)
  exact foreign.elim (fun other => other started) kept

theorem join_blocked (run : Run config deeds kernel)
    (acts : kernel.processes.canAct caller = true) (started : StartedBy deeds caller pid)
    (kept : ¬Joined deeds pid) (alive : ¬Ended deeds pid)
    : (Wait.mk caller pid).retry kernel = none := by
  have found := run.slot_of_child acts started kept
  rw [run.exitStatus?_of_not_ended alive] at found
  exact Wait.retry_running ⟨caller, pid⟩ acts found

/-- A join of a child that has ended and was not joined before returns its status. -/
theorem join_returns (run : Run config deeds kernel)
    (acts : kernel.processes.canAct caller = true) (started : StartedBy deeds caller pid)
    (kept : ¬Joined deeds pid) {ending : Ending} (ended : .finish pid ending ∈ deeds)
    : ∃ after, (Wait.mk caller pid).retry kernel = some (.ok ending.status, after) := by
  have found := run.slot_of_child acts started kept
  rw [run.exitStatus?_of_finish ended] at found
  obtain ⟨after, done, -⟩ := Wait.retry_zombie ⟨caller, pid⟩ acts found
  exact ⟨after, done⟩

/-- A process that runs can end and be joined by the one that started it. -/
theorem finish_join (run : Run config deeds kernel) {parent : Pid}
    (acts : kernel.processes.isRunning parent = true)
    (runs : kernel.processes.isRunning pid = true) (started : StartedBy deeds (.proc parent) pid)
    (different : parent ≠ pid) (ending : Ending)
    : ∃ after,
        Run config
          (deeds ++ [.finish pid ending, .call parent (.join pid) (some (.ok ending.status))]) after
        ∧ after.processes.isRunning parent = true := by
  have unjoined := run.not_joined_of_not_ended (run.isRunning_iff.mp runs).2
  have ends : kernel.Step (.finish pid ending) (kernel.finish pid ending) := .finish runs
  have still : (kernel.finish pid ending).processes.isRunning parent = true := by
    refine @canAct_step _ _ _ (.proc parent) run _ _ ends acts fun other _ finished equal => ?_
    cases finished
    cases equal
    exact different rfl
  have finished := run.step ends
  have kept : ¬Joined (deeds ++ [.finish pid ending]) pid :=
    mt joined_snoc.mp (not_or.mpr ⟨unjoined, nofun⟩)
  obtain ⟨after, done⟩ :=
    @join_returns _ _ _ (.proc parent) pid finished still (started.snoc _) kept
    ending (List.mem_append_right _ (.head _))
  have joins
      : (kernel.finish pid ending).Step
          (.call parent (.join pid) (some (.ok ending.status))) after :=
    .call still done
  exact ⟨after, by simpa using finished.step joins, finished.isRunning_call joins still⟩

/-- A join fails exactly if it is refused: otherwise it is blocked or returns a status. -/
theorem join_fails_iff (run : Run config deeds kernel)
    (acts : kernel.processes.canAct caller = true)
    : (∃ error after, (Wait.mk caller pid).retry kernel = some (.error error, after))
      ↔ ¬StartedBy deeds caller pid ∨ Joined deeds pid := by
  constructor
  · intro fails
    obtain ⟨error, after, failed⟩ := fails
    rcases Classical.em (StartedBy deeds caller pid) with started | other
    · rcases Classical.em (Joined deeds pid) with gone | kept
      · exact .inr gone
      · rcases Classical.em (Ended deeds pid) with ⟨ending, ended⟩ | alive
        · obtain ⟨next, done⟩ := run.join_returns acts started kept ended
          rw [done] at failed
          cases failed
        · rw [run.join_blocked acts started kept alive] at failed
          cases failed
    · exact .inl other
  · intro foreign
    exact ⟨_, _, run.join_refused acts foreign⟩

theorem event?_of_joinedPid? {deed : Deed} (joined : deed.joinedPid? = some pid)
    : ∃ caller status, deed.event? = some (.reaped pid caller status) := by
  unfold Deed.joinedPid? at joined
  split at joined <;> cases joined <;> exact ⟨_, _, rfl⟩

/-- Only the one that started a process joins it, and only as long as it can act. -/
theorem eq_join_of_joined (run : Run config deeds kernel) {deed : Deed} {after : Kernel}
    (step : kernel.Step deed after) (joined : deed.joinedPid? = some pid)
    (known : caller ≠ .detached) (started : StartedBy deeds caller pid)
    : kernel.processes.canAct caller = true
      ∧ ∃ status, deed = .join caller pid (some (.ok status)) := by
  obtain ⟨joiner, status, logged⟩ := event?_of_joinedPid? joined
  have change := step.processes
  rw [logged] at change
  generalize deed.taken = taken at change
  cases change with
  | reap acts freed =>
      have attached := ProcessTable.ne_detached_of_canAct acts
      have own := (run.child_of_slot freed.found attached).1
      rw [run.startedBy_iff_spawner? attached] at own
      rw [run.startedBy_iff_spawner? known, own, Option.some.injEq] at started
      subst started
      exact ⟨acts, status, Deed.eq_join logged⟩

end Kernel.Run

end KernelConformance
