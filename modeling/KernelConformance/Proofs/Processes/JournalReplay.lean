import KernelConformance.Proofs.Processes.LogOrder
import KernelConformance.Proofs.Processes.Ownership

/-! A log of events tells the process table. The entry of a process is read off its start, its end
and its join, and the end of the process that started it; the frees that leave no event follow.
-/

namespace KernelConformance

namespace Journal

variable {log : List Event}

/-- The slot of a process after a log. It is free once the process was joined, and once both the
process and the one that started it have exited.
-/
def slot? (log : List Event) (pid : Pid) : Option Slot :=
  (spawner? log pid).bind fun parent =>
    if wasReaped log pid || (exitStatus? log pid).isSome && isGone log parent then none
    else some {
      parent := if isGone log parent then .detached else parent
      state := ((exitStatus? log pid).map SlotState.zombie).getD .running
    }

/-- A slot is taken by a process that was started, was not joined, and was not freed, by cases on
the look-ups.
-/
theorem slot?_eq_some {pid : Pid} {slot : Slot}
    : slot? log pid = some slot
      ↔ ∃ parent,
          spawner? log pid = some parent
          ∧ wasReaped log pid = false
          ∧ ((exitStatus? log pid).isSome = true → isGone log parent = false)
          ∧ slot.parent = (if isGone log parent then .detached else parent)
          ∧ slot.state = ((exitStatus? log pid).map SlotState.zombie).getD .running := by
  obtain ⟨owner, state⟩ := slot
  rcases started : spawner? log pid with _ | parent
  · simp [slot?, started]
  · simp only [slot?, started, Option.bind_some, Option.some.injEq, exists_eq_left']
    cases wasReaped log pid <;> cases (exitStatus? log pid).isSome <;>
      cases isGone log parent <;> grind

/-- A process that a log finds running was started and has neither ended nor been joined. -/
theorem slot?_running {pid : Pid} {owner : Parent} (found : slot? log pid = some ⟨owner, .running⟩)
    : ∃ parent,
        spawner? log pid = some parent
        ∧ exitStatus? log pid = none
        ∧ wasReaped log pid = false
        ∧ owner = if isGone log parent then .detached else parent := by
  obtain ⟨parent, started, kept, -, owned, state⟩ := slot?_eq_some.mp found
  refine ⟨parent, started, ?_, kept, owned⟩
  rcases ended : exitStatus? log pid with _ | status
  · rfl
  · simp [ended] at state

/-- A process that a log finds to have exited was started by its owner, which has not exited, has
ended with the status, and was not joined.
-/
theorem slot?_zombie {pid : Pid} {owner : Parent} {status : ExitStatus}
    (found : slot? log pid = some ⟨owner, .zombie status⟩)
    : spawner? log pid = some owner
      ∧ exitStatus? log pid = some status
      ∧ wasReaped log pid = false
      ∧ isGone log owner = false := by
  obtain ⟨parent, started, kept, attached, owned, state⟩ := slot?_eq_some.mp found
  rcases ended : exitStatus? log pid with _ | ending
  · simp [ended] at state
  · have present := attached (by simp [ended])
    obtain rfl : owner = parent := by simpa [present] using owned
    obtain rfl : status = ending := by simpa [ended] using state
    exact ⟨started, rfl, kept, present⟩

-----------------------------------------------------------------------------------------
-- The slot of a process after one more event
-----------------------------------------------------------------------------------------

theorem isGone_snoc (log : List Event) {event : Event}
    (other : ∀ pid, event.statusOf? pid = none) (parent : Parent)
    : isGone (log ++ [event]) parent = isGone log parent := by
  cases parent <;> simp [isGone, other]

theorem isGone_exited (log : List Event) (pid : Pid) (status : ExitStatus) (parent : Parent)
    : isGone (log ++ [.exited pid status]) parent
      = (isGone log parent || decide (parent = .proc pid)) := by
  cases parent with
  | proc other => by_cases same : pid = other <;> simp [isGone, Event.statusOf?, same, eq_comm]
  | _ => simp [isGone]

/-- A start makes the new process run and changes no other slot. -/
theorem slot?_spawned (orderly : Orderly log) {pid : Pid} {parent : Parent} {program : String}
    (follows : CanFollow log (.spawned pid parent program)) (other : Pid)
    : slot? (log ++ [.spawned pid parent program]) other
      = if other = pid then some ⟨parent, .running⟩ else slot? log other := by
  obtain ⟨numbered, -, present, -⟩ := follows
  have gone : isGone (log ++ [.spawned pid parent program]) = isGone log :=
    funext (isGone_snoc log fun _ => rfl)
  by_cases same : other = pid
  · subst same
    obtain ⟨unknown, running, kept⟩ := orderly.fresh numbered
    simp [slot?, gone, unknown, running, kept, present, Event.parentOf?, Event.statusOf?,
      Event.isJoinOf]
  · have different : ¬pid = other := fun h => same h.symm
    simp [slot?, gone, same, different, Event.parentOf?, Event.statusOf?, Event.isJoinOf]

/-- A join frees the slot of the child and changes no other. -/
theorem slot?_reaped (log : List Event) (pid : Pid) (parent : Parent) (status : ExitStatus)
    (other : Pid)
    : slot? (log ++ [.reaped pid parent status]) other
      = if other = pid then none else slot? log other := by
  have gone : isGone (log ++ [.reaped pid parent status]) = isGone log :=
    funext (isGone_snoc log fun _ => rfl)
  by_cases same : other = pid
  · subst same
    cases spawner? log other <;> simp [slot?, Event.isJoinOf]
  · have different : ¬pid = other := fun h => same h.symm
    simp [slot?, gone, same, different, Event.parentOf?, Event.statusOf?, Event.isJoinOf]

/-- The end of a process detaches the children that still run and frees the others, by cases on who
started the other process.
-/
theorem slot?_exited_other {pid other : Pid} {status : ExitStatus}
    (running : exitStatus? log pid = none) (different : other ≠ pid)
    : slot? (log ++ [.exited pid status]) other
      = (slot? log other).bind fun slot =>
          if slot.parent = .proc pid then slot.orphan else some slot := by
  have apart : ¬pid = other := fun h => different h.symm
  rcases started : spawner? log other with _ | parent
  · simp [slot?, started, Event.parentOf?]
  · simp only [slot?, spawner?_snoc, exitStatus?_snoc, wasReaped_snoc, isGone_exited, started,
      Event.parentOf?, Event.statusOf?, Event.isJoinOf, apart, if_false, Option.or_none,
      Bool.or_false, Option.bind_some]
    by_cases child : parent = .proc pid
    · subst child
      have here : isGone log (.proc pid) = false := by simp [isGone, running]
      cases wasReaped log other <;> cases exitStatus? log other <;>
        simp [here, Slot.orphan, SlotState.isZombie]
    · cases wasReaped log other <;> cases exitStatus? log other <;>
        cases gone : isGone log parent <;> simp [child]

/-- The end of a process leaves a status for the one that started it, and nothing once that one is
gone.
-/
theorem slot?_exited_self (orderly : Orderly log) {pid : Pid} {owner : Parent}
    {status : ExitStatus} (found : slot? log pid = some ⟨owner, .running⟩)
    : slot? (log ++ [.exited pid status]) pid = Slot.ended status ⟨owner, .running⟩ := by
  obtain ⟨parent, started, running, kept, rfl⟩ := slot?_running found
  obtain ⟨attached, older⟩ := orderly.spawner?_older started
  have other : ¬parent = .proc pid := fun self => Nat.lt_irrefl _ (older pid self)
  simp only [slot?, spawner?_snoc, exitStatus?_snoc, wasReaped_snoc, isGone_exited, started,
    running, kept, other, Event.parentOf?, Event.statusOf?, Event.isJoinOf, if_true,
    Option.or_none, Option.none_or, Option.bind_some, decide_false, Bool.or_false]
  cases gone : isGone log parent <;> simp [Slot.ended, attached]

end Journal

-----------------------------------------------------------------------------------------
-- The log tells the table
-----------------------------------------------------------------------------------------

/-- A log accounts for a table: it is orderly, it has numbered the processes up to the next one, and
every slot is what it says.
-/
structure Accounts (log : List Event) (table : ProcessTable) : Prop where
  orderly : Journal.Orderly log
  next : table.next.number = Journal.spawnCount log + 1
  slots : ∀ pid, table.slots.get? pid = Journal.slot? log pid

namespace Accounts

open Journal

variable {log : List Event} {table after : ProcessTable}

/-- A process that runs was started and has not ended. -/
theorem running (accounts : Accounts log table) {pid : Pid} (runs : table.isRunning pid = true)
    : (spawner? log pid).isSome ∧ exitStatus? log pid = none := by
  obtain ⟨owner, found⟩ := ProcessTable.isRunning_iff.mp runs
  rw [accounts.slots] at found
  obtain ⟨parent, started, running, -, -⟩ := slot?_running found
  exact ⟨by rw [started]; rfl, running⟩

/-- The event of a step can follow the log, by cases on the step. -/
theorem canFollow (accounts : Accounts log table) {event : Event} {taken : List Event}
    (step : table.Step (some event) taken after)
    : CanFollow log event := by
  cases step with
  | @spawn parent program pid _ acts started =>
      refine ⟨started.numbered ▸ accounts.next, ?_, ?_, ?_⟩
      · intro same
        subst same
        cases acts
      · cases parent with
        | proc older => simp [isGone, (accounts.running acts).2]
        | _ => rfl
      · intro older same
        subst same
        exact (accounts.running acts).1
  | exit runs => exact accounts.running runs
  | reap _ freed =>
      have found := freed.found
      rw [accounts.slots] at found
      obtain ⟨started, ended, kept, -⟩ := slot?_zombie found
      exact ⟨started, ended, kept⟩

/-- What the end of a process does to the table, its event does to what the log tells: its children
are disowned, and it has a parent other than itself.
-/
theorem exit_slots (accounts : Accounts log table) (rooted : table.Rooted) {pid : Pid}
    (runs : table.isRunning pid = true) (status : ExitStatus) (other : Pid)
    : (table.exit pid status).slots.get? other = slot? (log ++ [.exited pid status]) other := by
  rw [ProcessTable.get?_exit, ProcessTable.get?_disown]
  by_cases same : other = pid
  · subst same
    obtain ⟨owner, found⟩ := ProcessTable.isRunning_iff.mp runs
    have notSelf : ¬owner = .proc other := fun self =>
      Nat.lt_irrefl _ (rooted.parentRuns found self).2
    rw [slot?_exited_self accounts.orderly (accounts.slots other ▸ found), found]
    simp [notSelf]
  · rw [slot?_exited_other (accounts.running runs).2 same, ← accounts.slots]
    simp [same]

/-- A step keeps the account if the log grows by its event, by cases on the step. -/
theorem step (accounts : Accounts log table) (rooted : table.Rooted) {event : Option Event}
    {taken : List Event} (step : table.Step event taken after)
    : Accounts (log ++ event.toList) after := by
  cases event with
  | none =>
      rw [Option.toList_none, List.append_nil]
      cases step with
      | clearJournal => exact ⟨accounts.orderly, accounts.next, accounts.slots⟩
      | idle => exact accounts
  | some event =>
      have follows := accounts.canFollow step
      refine ⟨.snoc accounts.orderly follows, ?_, ?_⟩
      · rw [Option.toList_some, spawnCount_snoc]
        cases step with
        | spawn _ started =>
            rw [started.next, Pid.number_next, started.numbered, accounts.next]
            rfl
        | exit => exact accounts.next
        | reap _ freed => exact freed.next ▸ accounts.next
      · intro other
        rw [Option.toList_some]
        cases step with
        | spawn _ started =>
            rw [started.get?, slot?_spawned accounts.orderly follows, accounts.slots]
        | exit runs => exact accounts.exit_slots rooted runs _ other
        | reap _ freed => rw [freed.get?, slot?_reaped, accounts.slots]

end Accounts

namespace Kernel.Run

variable {config : Config} {deeds : List Deed} {kernel : Kernel}

/-- The history of a run accounts for its process table, by induction on the run. -/
theorem accounts (run : Run config deeds kernel) : Accounts (history deeds) kernel.processes := by
  induction run with
  | boot => exact ⟨.nil, rfl, fun _ => rfl⟩
  | step run step ih =>
      rw [history_snoc]
      exact ih.step run.rooted step.processes

/-- What was taken out of the journal and what is in it is the history, by induction on the run. -/
theorem journal (run : Run config deeds kernel)
    : deeds.flatMap Deed.taken ++ kernel.processes.events = history deeds := by
  induction run with
  | boot => rfl
  | @step deeds kernel deed after _ step ih =>
      have grown := step.processes.events
      rw [history_snoc, ← ih, List.append_assoc, ← grown]
      simp

end Kernel.Run

end KernelConformance
