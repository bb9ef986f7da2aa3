import KernelConformance.Kernel.ProcessTable

/-! What one operation does to the process table, seen through its look-ups, and the steps that a
table can make. Everything that is shown of runs rests on these steps alone.
-/

namespace KernelConformance

@[simp] theorem Pid.number_next (pid : Pid) : pid.next.number = pid.number + 1 := rfl

namespace Slot

/-- What the end of its parent makes of the slot of a child: nothing if the child
has exited too.
-/
def orphan (slot : Slot) : Option Slot :=
  if slot.state.isZombie then none else some { slot with parent := .detached }

/-- What the end of a process makes of its own slot: nothing if nobody is left to reap it. -/
def ended (status : ExitStatus) (slot : Slot) : Option Slot :=
  if slot.parent = .detached then none else some { slot with state := .zombie status }

end Slot

namespace ProcessTable

variable {table after : ProcessTable}

-----------------------------------------------------------------------------------------
-- Look-ups after one operation
-----------------------------------------------------------------------------------------

theorem isRunning_iff {pid : Pid}
    : table.isRunning pid = true
      ↔ ∃ parent, table.slots.get? pid = some ⟨parent, .running⟩ := by
  rw [isRunning]
  rcases table.slots.get? pid with _ | ⟨parent, _ | status⟩ <;> simp [SlotState.isZombie]

/-- What the start of a process does to the table: it takes the next number and a free slot. -/
structure Started (table : ProcessTable) (parent : Parent) (program : String) (pid : Pid)
    (after : ProcessTable)
    : Prop where
  room : table.size < table.capacity
  numbered : pid = table.next
  slots : after.slots = table.slots.insert pid ⟨parent, .running⟩
  next : after.next = pid.next
  capacity : after.capacity = table.capacity
  events : after.events = table.events ++ [.spawned pid parent program]

/-- What a join that succeeds does to the table: the process has exited, and leaves it. -/
structure Freed (table : ProcessTable) (caller : Parent) (pid : Pid) (status : ExitStatus)
    (after : ProcessTable)
    : Prop where
  found : table.slots.get? pid = some ⟨caller, .zombie status⟩
  slots : after.slots = table.slots.erase pid
  next : after.next = table.next
  capacity : after.capacity = table.capacity
  events : after.events = table.events ++ [.reaped pid caller status]

theorem started_of_spawn {parent : Parent} {program : String} {pid : Pid}
    (done : table.spawn parent program = .ok (pid, after))
    : table.Started parent program pid after := by
  unfold spawn at done
  split at done
  · cases done
  · next room =>
      cases done
      exact {
        room := Nat.lt_of_not_le room
        numbered := rfl
        slots := rfl
        next := rfl
        capacity := rfl
        events := by simp [events, record]
      }

/-- A join that succeeds has found the caller in the slot of a process that has exited. -/
theorem freed_of_reap {caller : Parent} {pid : Pid} {status : ExitStatus}
    (done : table.reap caller pid = .ok (some (status, after)))
    : table.Freed caller pid status after := by
  unfold reap at done
  split at done
  · cases done
  · next slot found =>
      split at done
      · next owned =>
          split at done
          · cases done
          · next zombie =>
              cases done
              obtain ⟨parent, state⟩ := slot
              obtain ⟨rfl, _⟩ := owned
              subst zombie
              exact {
                found
                slots := rfl
                next := rfl
                capacity := rfl
                events := by simp [events, record]
              }
      · cases done

/-- What is found of a child after its parent has disowned it. -/
theorem get?_disown (pid : Pid) (slots : FiniteMap Pid Slot) (other : Pid)
    : (disown pid slots).get? other
      = (slots.get? other).bind fun slot =>
          if slot.parent = .proc pid then slot.orphan else some slot := by
  rw [disown, FiniteMap.get?_mapValues, FiniteMap.get?_filter]
  rcases slots.get? other with _ | slot
  · rfl
  · by_cases child : slot.parent = .proc pid <;> cases zombie : slot.state.isZombie <;>
      simp [Option.filter, Slot.orphan, child, zombie]

/-- What is found after the end of a process: its children are disowned, and it ends itself. -/
theorem get?_exit (table : ProcessTable) (pid : Pid) (status : ExitStatus) (other : Pid)
    : (table.exit pid status).slots.get? other
      = ((disown pid table.slots).get? other).bind fun slot =>
          if other = pid then slot.ended status else some slot := by
  simp only [exit, record]
  rcases found : (disown pid table.slots).get? pid with _ | slot
  · by_cases same : other = pid
    · simp [same, found]
    · simp [same]
  · by_cases detached : slot.parent = .detached
    · simp only [detached, if_true, FiniteMap.get?_erase]
      by_cases same : other = pid
      · simp [same, found, Slot.ended, detached]
      · simp [same]
    · simp only [detached, if_false, FiniteMap.get?_insert]
      by_cases same : other = pid
      · simp [same, found, Slot.ended, detached]
      · simp [same]

/-- The end of a process takes no slot. -/
theorem size_exit_le (table : ProcessTable) (pid : Pid) (status : ExitStatus)
    : (table.exit pid status).size ≤ table.size := by
  have disowned : (disown pid table.slots).size ≤ table.slots.size := by
    rw [disown, FiniteMap.size_mapValues]
    exact FiniteMap.size_filter_le _ _
  refine Nat.le_trans ?_ disowned
  simp only [exit, record, size]
  split
  · exact Nat.le_refl _
  · next slot found =>
      split
      · exact FiniteMap.size_erase_le _ _
      · have present : (disown pid table.slots).contains pid = true := by
          simp [FiniteMap.contains, found]
        simp [FiniteMap.size_insert, present]

-----------------------------------------------------------------------------------------
-- Steps
-----------------------------------------------------------------------------------------

/-- Who can act: the host always, and a process as long as it runs. -/
def canAct (table : ProcessTable) : Parent → Bool
  | .host => true
  | .proc pid => table.isRunning pid
  | .detached => false

/-- What a step does to the process table, with the event that it logs and the events that it takes
out of the journal.
-/
inductive Step (table : ProcessTable) : Option Event → List Event → ProcessTable → Prop where
  | spawn {parent program pid after} (acts : table.canAct parent = true)
    (started : table.Started parent program pid after)
    : Step table (some (.spawned pid parent program)) [] after
  | exit {pid status} (runs : table.isRunning pid = true)
    : Step table (some (.exited pid status)) [] (table.exit pid status)
  | reap {caller pid status after} (acts : table.canAct caller = true)
    (freed : table.Freed caller pid status after)
    : Step table (some (.reaped pid caller status)) [] after
  | clearJournal : Step table none table.events table.clearJournal
  | idle : Step table none [] table

variable {event : Option Event} {taken : List Event}

/-- No step changes the number of slots there are. -/
theorem Step.capacity (step : table.Step event taken after) : after.capacity = table.capacity := by
  cases step with
  | spawn _ started => exact started.capacity
  | exit => rfl
  | reap _ freed => exact freed.capacity
  | clearJournal => rfl
  | idle => rfl

/-- Processes are numbered in order. -/
theorem Step.next_le (step : table.Step event taken after)
    : table.next.number ≤ after.next.number := by
  cases step with
  | spawn _ started =>
      rw [started.next, Pid.number_next, started.numbered]
      exact Nat.le_succ _
  | exit => exact Nat.le_refl _
  | reap _ freed => exact Nat.le_of_eq (congrArg Pid.number freed.next.symm)
  | clearJournal => exact Nat.le_refl _
  | idle => exact Nat.le_refl _

/-- The journal grows by the event of a step, and what is taken out of it was its front. -/
theorem Step.events (step : table.Step event taken after)
    : taken ++ after.events = table.events ++ event.toList := by
  cases step with
  | spawn _ started => exact started.events
  | @exit pid status =>
      change (Event.exited pid status :: table.journal).reverse = _
      simp [ProcessTable.events]
  | reap _ freed => exact freed.events
  | clearJournal => simp [ProcessTable.events, ProcessTable.clearJournal]
  | idle => simp

end ProcessTable

end KernelConformance
