import KernelConformance.Proofs.Runs

/-! Who owns the entries of the process table. Parents are running processes with smaller numbers,
and a process that has exited always has a parent, so that nothing stays that nobody can reap.
-/

namespace KernelConformance

namespace ProcessTable

variable {table after : ProcessTable}

/-- The table fits its capacity, its entries were numbered before the next one, the processes that
its entries call their parents run and are older, and those that have exited have a parent.
-/
structure Rooted (table : ProcessTable) : Prop where
  bounded : table.size ≤ table.capacity
  numbered : ∀ {pid slot}, table.slots.get? pid = some slot → pid.number < table.next.number
  parentRuns
    : ∀ {pid slot parent},
        table.slots.get? pid = some slot
        → slot.parent = .proc parent
        → table.isRunning parent = true ∧ parent.number < pid.number
  zombieOwned
    : ∀ {pid slot},
        table.slots.get? pid = some slot
        → slot.state.isZombie = true
        → slot.parent ≠ .detached

theorem rooted_empty (capacity : Nat) : (empty capacity).Rooted where
  bounded := Nat.zero_le _
  numbered found := by cases found
  parentRuns found := by cases found
  zombieOwned found := by cases found

theorem Rooted.running_lt (rooted : table.Rooted) {pid : Pid} (runs : table.isRunning pid = true)
    : pid.number < table.next.number := by
  obtain ⟨parent, found⟩ := isRunning_iff.mp runs
  exact rooted.numbered found

/-- A process that is started was not in the table before. -/
theorem Rooted.get?_started (rooted : table.Rooted) {parent : Parent} {program : String} {pid : Pid}
    (started : table.Started parent program pid after)
    : table.slots.get? pid = none := by
  rcases found : table.slots.get? pid with _ | slot
  · rfl
  · have older := rooted.numbered found
    rw [started.numbered] at older
    exact absurd older (Nat.lt_irrefl _)

/-- A process that is started is none of those that run. -/
theorem Rooted.ne_started (rooted : table.Rooted) {parent : Parent} {program : String}
    {pid other : Pid} (started : table.Started parent program pid after)
    (runs : table.isRunning other = true)
    : other ≠ pid := by
  rintro rfl
  obtain ⟨owner, found⟩ := isRunning_iff.mp runs
  cases (rooted.get?_started started).symm.trans found

-----------------------------------------------------------------------------------------
-- Look-ups after a step
-----------------------------------------------------------------------------------------

theorem Started.get? {parent : Parent} {program : String} {pid : Pid}
    (started : table.Started parent program pid after) (other : Pid)
    : after.slots.get? other
      = if other = pid then some ⟨parent, .running⟩ else table.slots.get? other := by
  rw [started.slots, FiniteMap.get?_insert]

theorem Freed.get? {caller : Parent} {pid : Pid} {status : ExitStatus}
    (freed : table.Freed caller pid status after) (other : Pid)
    : after.slots.get? other = if other = pid then none else table.slots.get? other := by
  rw [freed.slots, FiniteMap.get?_erase]

/-- The start of a process leaves the others running or not, as they were. -/
theorem Started.isRunning_of_ne {parent : Parent} {program : String} {pid other : Pid}
    (started : table.Started parent program pid after) (different : other ≠ pid)
    : after.isRunning other = table.isRunning other := by
  rw [isRunning, isRunning, started.get?, if_neg different]

/-- So does a join. -/
theorem Freed.isRunning_of_ne {caller : Parent} {pid other : Pid} {status : ExitStatus}
    (freed : table.Freed caller pid status after) (different : other ≠ pid)
    : after.isRunning other = table.isRunning other := by
  rw [isRunning, isRunning, freed.get?, if_neg different]

/-- The end of a process leaves another one in the table as it was, or detaches it from the process
that has ended if it still runs.
-/
theorem exit_found_other {pid other : Pid} {status : ExitStatus} {slot : Slot}
    (different : other ≠ pid)
    (found : (table.exit pid status).slots.get? other = some slot)
    : (table.slots.get? other = some slot ∧ slot.parent ≠ .proc pid)
      ∨ (table.slots.get? other = some ⟨.proc pid, .running⟩ ∧ slot = ⟨.detached, .running⟩) := by
  rw [get?_exit, get?_disown] at found
  rcases before : table.slots.get? other with _ | ⟨parent, state⟩
  · simp [before] at found
  · simp only [before, different, if_false, Option.bind_some, Option.bind_fun_some] at found
    split at found
    · next child =>
        subst child
        cases state with
        | running =>
            simp only [Slot.orphan, SlotState.isZombie, Bool.false_eq_true, if_false,
              Option.some.injEq] at found
            exact .inr ⟨rfl, found.symm⟩
        | zombie => simp [Slot.orphan, SlotState.isZombie] at found
    · next other =>
        cases found
        exact .inl ⟨rfl, other⟩

/-- A process that stays in the table after its end has exited and has a parent, which is not the
process itself.
-/
theorem exit_found_self {pid : Pid} {status : ExitStatus} {slot : Slot}
    (found : (table.exit pid status).slots.get? pid = some slot)
    : ∃ old,
        table.slots.get? pid = some old
        ∧ old.parent ≠ .detached
        ∧ slot = { old with state := .zombie status } := by
  rw [get?_exit, get?_disown] at found
  rcases before : table.slots.get? pid with _ | old
  · simp [before] at found
  · simp only [before, Option.bind_some, if_true] at found
    split at found
    · simp only [Slot.orphan] at found
      split at found <;> simp [Slot.ended] at found
    · simp only [Option.bind_some, Slot.ended] at found
      split at found
      · cases found
      · next owned =>
          cases found
          exact ⟨old, rfl, owned, rfl⟩

/-- A process does not run after its end: at most its status stays in the table. -/
theorem isRunning_exit_self (pid : Pid) (status : ExitStatus)
    : (table.exit pid status).isRunning pid = false := by
  refine Bool.eq_false_iff.mpr fun alive => ?_
  obtain ⟨parent, found⟩ := isRunning_iff.mp alive
  obtain ⟨old, -, -, zombie⟩ := exit_found_self found
  cases congrArg Slot.state zombie

/-- The end of a process ends no other one. -/
theorem isRunning_exit {pid other : Pid} (status : ExitStatus) (different : other ≠ pid)
    : (table.exit pid status).isRunning other = table.isRunning other := by
  rw [isRunning, isRunning, get?_exit, get?_disown]
  rcases table.slots.get? other with _ | ⟨parent, state⟩
  · rfl
  · by_cases child : parent = .proc pid <;> cases state <;>
      simp [different, child, Slot.orphan, SlotState.isZombie]

/-- Whence an entry comes that is in the table after a step, by cases on the step. -/
theorem Step.found {event : Option Event} {taken : List Event} (step : table.Step event taken after)
    {pid : Pid} {slot : Slot} (found : after.slots.get? pid = some slot)
    : table.slots.get? pid = some slot
      ∨ (∃ parent,
        table.slots.get? pid = some ⟨.proc parent, .running⟩ ∧ slot = ⟨.detached, .running⟩)
      ∨ (∃ parent program, event = some (.spawned pid parent program) ∧ slot = ⟨parent, .running⟩)
      ∨ ∃ status, event = some (.exited pid status) ∧ slot.state = .zombie status := by
  cases step with
  | @spawn parent program child _ _ started =>
      rw [started.get?] at found
      split at found
      · next same =>
          cases found
          exact .inr (.inr (.inl ⟨parent, program, same ▸ rfl, rfl⟩))
      · exact .inl found
  | @exit other status =>
      by_cases same : pid = other
      · subst same
        obtain ⟨old, -, -, rfl⟩ := exit_found_self found
        exact .inr (.inr (.inr ⟨status, rfl, rfl⟩))
      · rcases exit_found_other same found with ⟨before, -⟩ | ⟨before, detached⟩
        · exact .inl before
        · exact .inr (.inl ⟨_, before, detached⟩)
  | reap _ freed =>
      rw [freed.get?] at found
      split at found
      · cases found
      · exact .inl found
  | clearJournal => exact .inl found
  | idle => exact .inl found

-----------------------------------------------------------------------------------------
-- Every step keeps the table rooted
-----------------------------------------------------------------------------------------

/-- A start roots the new process in the one that makes it, which runs and is older. -/
theorem Rooted.started (rooted : table.Rooted) {parent : Parent} {program : String} {pid : Pid}
    (acts : table.canAct parent = true) (started : table.Started parent program pid after)
    : after.Rooted := by
  have next : pid = table.next := started.numbered
  have older {other : Pid} (runs : table.isRunning other = true) : other.number < pid.number :=
    next ▸ rooted.running_lt runs
  have stillRuns {other : Pid} (runs : table.isRunning other = true)
      : after.isRunning other = true := by
    rw [started.isRunning_of_ne (rooted.ne_started started runs)]
    exact runs
  constructor
  · have room := started.room
    have grown : after.size ≤ table.size + 1 := by
      rw [size, size, started.slots, FiniteMap.size_insert]
      split <;> omega
    rw [started.capacity]
    omega
  · intro other slot found
    rw [started.get?] at found
    rw [started.next, Pid.number_next]
    split at found
    · next same => exact same ▸ Nat.lt_succ_self _
    · have before := rooted.numbered found
      rw [next]
      omega
  · intro other slot owner found owned
    rw [started.get?] at found
    split at found
    · next same =>
        cases found
        obtain rfl : parent = .proc owner := owned
        exact ⟨stillRuns acts, same ▸ older acts⟩
    · obtain ⟨runs, smaller⟩ := rooted.parentRuns found owned
      exact ⟨stillRuns runs, smaller⟩
  · intro other slot found zombie
    rw [started.get?] at found
    split at found
    · cases found
      cases zombie
    · exact rooted.zombieOwned found zombie

/-- The end of a process detaches all that it was the parent of, so no entry keeps a parent that
does not run.
-/
theorem Rooted.exit (rooted : table.Rooted) (pid : Pid) (status : ExitStatus)
    : (table.exit pid status).Rooted := by
  have keepsRunning {other owner : Pid} {slot : Slot} (found : table.slots.get? other = some slot)
      (owned : slot.parent = .proc owner) (kept : owner ≠ pid)
      : (table.exit pid status).isRunning owner = true ∧ owner.number < other.number := by
    rw [isRunning_exit status kept]
    exact rooted.parentRuns found owned
  constructor
  · exact Nat.le_trans (size_exit_le table pid status) rooted.bounded
  · intro other slot found
    change other.number < table.next.number
    by_cases same : other = pid
    · subst same
      obtain ⟨old, before, -, -⟩ := exit_found_self found
      exact rooted.numbered before
    · rcases exit_found_other same found with ⟨before, -⟩ | ⟨before, -⟩ <;>
        exact rooted.numbered before
  · intro other slot owner found owned
    by_cases same : other = pid
    · subst same
      obtain ⟨old, before, -, rfl⟩ := exit_found_self found
      refine keepsRunning before owned fun self => ?_
      subst self
      exact Nat.lt_irrefl _ (rooted.parentRuns before owned).2
    · rcases exit_found_other same found with ⟨before, kept⟩ | ⟨-, rfl⟩
      · exact keepsRunning before owned fun self => kept (self ▸ owned)
      · cases owned
  · intro other slot found zombie
    by_cases same : other = pid
    · subst same
      obtain ⟨old, -, owned, rfl⟩ := exit_found_self found
      exact owned
    · rcases exit_found_other same found with ⟨before, -⟩ | ⟨-, rfl⟩
      · exact rooted.zombieOwned before zombie
      · cases zombie

/-- A join removes an entry that has exited, which is nobody's parent. -/
theorem Rooted.freed (rooted : table.Rooted) {caller : Parent} {pid : Pid} {status : ExitStatus}
    (freed : table.Freed caller pid status after)
    : after.Rooted := by
  have sub {other : Pid} {slot : Slot} (found : after.slots.get? other = some slot)
      : table.slots.get? other = some slot := by
    rw [freed.get?] at found
    split at found
    · cases found
    · exact found
  constructor
  · rw [freed.capacity, size, freed.slots]
    exact Nat.le_trans (FiniteMap.size_erase_le _ _) rooted.bounded
  · intro other slot found
    rw [freed.next]
    exact rooted.numbered (sub found)
  · intro other slot owner found owned
    obtain ⟨runs, smaller⟩ := rooted.parentRuns (sub found) owned
    obtain ⟨grandparent, running⟩ := isRunning_iff.mp runs
    have different : owner ≠ pid := fun same => by
      have ended := freed.found
      rw [← same, running] at ended
      cases ended
    rw [freed.isRunning_of_ne different]
    exact ⟨runs, smaller⟩
  · intro other slot found zombie
    exact rooted.zombieOwned (sub found) zombie

/-- Every step keeps the table rooted, by cases on the step. -/
theorem Step.rooted {event : Option Event} {taken : List Event}
    (step : table.Step event taken after) (rooted : table.Rooted)
    : after.Rooted := by
  cases step with
  | spawn acts started => exact rooted.started acts started
  | exit => exact rooted.exit _ _
  | reap _ freed => exact rooted.freed freed
  | clearJournal => exact ⟨rooted.bounded, rooted.numbered, rooted.parentRuns, rooted.zombieOwned⟩
  | idle => exact rooted

end ProcessTable

theorem Kernel.isRunning_finish_self (pid : Pid) (ending : Ending) (kernel : Kernel)
    : (kernel.finish pid ending).processes.isRunning pid = false := by
  rw [finish_processes]
  exact ProcessTable.isRunning_exit_self pid ending.status

namespace Kernel.Run

variable {config : Config} {deeds : List Deed} {kernel : Kernel}

/-- The process table is rooted throughout a run, by induction on the run. -/
theorem rooted (run : Run config deeds kernel) : kernel.processes.Rooted := by
  induction run with
  | boot => exact ProcessTable.rooted_empty _
  | step _ step ih => exact step.processes.rooted ih

theorem capacity (run : Run config deeds kernel)
    : kernel.processes.capacity = config.maxProcesses := by
  induction run with
  | boot => rfl
  | step _ step ih => exact step.processes.capacity.trans ih

end Kernel.Run

end KernelConformance
