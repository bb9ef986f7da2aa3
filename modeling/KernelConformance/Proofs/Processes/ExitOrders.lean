import KernelConformance.Proofs.Processes.Ownership
import Mathlib.Data.List.Nodup

/-! Processes that exit one after the other. An exit sets parents and states, each on its own,
and drops who has exited and has no parent. What is dropped early would be dropped at the end as
well, so that the order of exits does not matter to the table; only the journal tells in which
order they came.
-/

namespace KernelConformance

/-- The end of a process with a status. -/
structure Exit where
  pid : Pid
  status : ExitStatus

/-- The event that an exit is. -/
def Exit.event (exit : Exit) : Event := .exited exit.pid exit.status

namespace Slot

variable {exit first second : Exit} {pid : Pid} {slot : Slot}

-----------------------------------------------------------------------------------------
-- What exits make of one slot
-----------------------------------------------------------------------------------------

/-- Who may reap the process of a slot after an exit: nobody if its parent was the one to exit. -/
def parentAfter (exit : Exit) (parent : Parent) : Parent :=
  if parent = .proc exit.pid then .detached else parent

/-- Whether the process `pid` runs after an exit, given its state before. -/
def stateAfter (exit : Exit) (pid : Pid) (state : SlotState) : SlotState :=
  if pid = exit.pid then .zombie exit.status else state

/-- What an exit sets in the slot of `pid`. -/
def mark (pid : Pid) (slot : Slot) (exit : Exit) : Slot :=
  ⟨parentAfter exit slot.parent, stateAfter exit pid slot.state⟩

/-- Drops a slot that nobody can reap any more. -/
def keep (slot : Slot) : Option Slot :=
  if slot.parent = .detached ∧ slot.state.isZombie = true then none else some slot

/-- Two exits set the same in either order, as they set parents and states of
different processes.
-/
theorem mark_comm (different : first.pid ≠ second.pid)
    : (slot.mark pid first).mark pid second = (slot.mark pid second).mark pid first := by
  have parents (parent : Parent)
      : parentAfter second (parentAfter first parent)
        = parentAfter first (parentAfter second parent) := by
    unfold parentAfter
    split <;> split <;> simp_all
  have states (state : SlotState)
      : stateAfter second pid (stateAfter first pid state)
        = stateAfter first pid (stateAfter second pid state) := by
    unfold stateAfter
    split <;> split <;> simp_all
  simp only [mark, parents, states]

theorem keep_eq_none : slot.keep = none ↔ slot.parent = .detached ∧ slot.state.isZombie = true := by
  simp [keep]

/-- Who was dropped before an exit is dropped after it. -/
theorem keep_mark_of_keep (dropped : slot.keep = none) : (slot.mark pid exit).keep = none := by
  obtain ⟨detached, zombie⟩ := keep_eq_none.mp dropped
  apply keep_eq_none.mpr
  constructor
  · simp [mark, parentAfter, detached]
  · simp only [mark, stateAfter]
    split
    · rfl
    · exact zombie

/-- Who was dropped before some exits is dropped after them, by induction on the exits. -/
theorem keep_marks_of_keep (exits : List Exit) (dropped : slot.keep = none)
    : (exits.foldl (mark pid) slot).keep = none := by
  induction exits generalizing slot with
  | nil => exact dropped
  | cons exit rest ih => exact ih (keep_mark_of_keep dropped)

/-- The end of a process does to a slot in a table what its exit sets there, and drops it if nobody
can reap it: by cases on whose slot it is.
-/
theorem orphan_ended_eq (owned : slot.keep = some slot)
    : ((if slot.parent = .proc exit.pid then slot.orphan else some slot).bind fun slot =>
        if pid = exit.pid then slot.ended exit.status else some slot)
      = (slot.mark pid exit).keep := by
  obtain ⟨parent, state⟩ := slot
  by_cases child : parent = .proc exit.pid
  · subst child
    by_cases self : pid = exit.pid <;> cases state
      <;> simp [mark, keep, parentAfter, stateAfter, orphan, ended, SlotState.isZombie, self]
  · by_cases self : pid = exit.pid
    · by_cases detached : parent = .detached
        <;> simp [mark, keep, parentAfter, stateAfter, ended, SlotState.isZombie, self, child,
          detached]
    · simpa [mark, keep, parentAfter, stateAfter, self, child] using owned.symm

end Slot

namespace ProcessTable

variable {table : ProcessTable} {exits reordered : List Exit}

-----------------------------------------------------------------------------------------
-- What exits make of a table
-----------------------------------------------------------------------------------------

/-- Lets processes exit, one after the other. -/
def exitAll (exits : List Exit) (table : ProcessTable) : ProcessTable :=
  exits.foldl (fun table exit => table.exit exit.pid exit.status) table

/-- Whether every process that has exited has a parent to reap it. -/
def Owned (table : ProcessTable) : Prop :=
  ∀ pid slot, table.slots.get? pid = some slot → slot.keep = some slot

theorem Rooted.owned (rooted : table.Rooted) : table.Owned := by
  intro pid slot found
  exact if_neg fun gone => rooted.zombieOwned found gone.2 gone.1

theorem Owned.get?_exit (owned : table.Owned) (exit : Exit) (pid : Pid)
    : (table.exit exit.pid exit.status).slots.get? pid
      = (table.slots.get? pid).bind fun slot => (slot.mark pid exit).keep := by
  rw [ProcessTable.get?_exit, get?_disown]
  rcases found : table.slots.get? pid with _ | slot
  · rfl
  · exact Slot.orphan_ended_eq (owned pid slot found)

theorem Owned.exit (owned : table.Owned) (exit : Exit)
    : (table.exit exit.pid exit.status).Owned := by
  intro pid slot found
  rw [owned.get?_exit] at found
  obtain ⟨before, -, kept⟩ := Option.bind_eq_some_iff.mp found
  unfold Slot.keep at kept
  split at kept
  · cases kept
  · next stays =>
      cases kept
      exact if_neg stays

/-- What is left of a process after some exits is what they set in its slot, unless nobody can reap
it then. By induction on the exits.
-/
theorem Owned.get?_exitAll (owned : table.Owned) (exits : List Exit) (pid : Pid)
    : (table.exitAll exits).slots.get? pid
      = (table.slots.get? pid).bind fun slot => (exits.foldl (Slot.mark pid) slot).keep := by
  induction exits generalizing table with
  | nil =>
      rcases found : table.slots.get? pid with _ | slot
      · exact found
      · exact found.trans (owned pid slot found).symm
  | cons exit rest ih =>
      refine (ih (owned.exit exit)).trans ?_
      rw [owned.get?_exit exit pid]
      rcases table.slots.get? pid with _ | slot
      · rfl
      · change (slot.mark pid exit).keep.bind _
          = (rest.foldl (Slot.mark pid) (slot.mark pid exit)).keep
        rcases kept : (slot.mark pid exit).keep with _ | left
        · exact (Slot.keep_marks_of_keep rest kept).symm
        · unfold Slot.keep at kept
          split at kept <;> cases kept
          rfl

/-- Exits add their events to the journal, in their order. -/
theorem events_exitAll (exits : List Exit) (table : ProcessTable)
    : (table.exitAll exits).events = table.events ++ exits.map Exit.event := by
  induction exits generalizing table with
  | nil => exact (List.append_nil _).symm
  | cons exit rest ih =>
      refine (ih _).trans ?_
      simp [events, ProcessTable.exit, record, Exit.event]

theorem frame_exitAll (exits : List Exit) (table : ProcessTable)
    : (table.exitAll exits).next = table.next
      ∧ (table.exitAll exits).capacity = table.capacity := by
  induction exits generalizing table with
  | nil => exact ⟨rfl, rfl⟩
  | cons exit rest ih => exact ih _

/-- Exits that each end another process set the same in a slot in every order. -/
theorem marks_perm (once : (exits.map Exit.pid).Nodup) (perm : reordered.Perm exits) (pid : Pid)
    (slot : Slot)
    : reordered.foldl (Slot.mark pid) slot = exits.foldl (Slot.mark pid) slot := by
  have apart : ∀ first ∈ exits, ∀ second ∈ exits, first.pid = second.pid → first = second :=
    List.inj_on_of_nodup_map once
  refine (perm.symm.foldl_eq' ?_ slot).symm
  intro first memberFirst second memberSecond slot
  by_cases same : first.pid = second.pid
  · rw [apart first memberFirst second memberSecond same]
  · exact Slot.mark_comm same

end ProcessTable

namespace Kernel.Run

open ProcessTable

variable {config : Config} {deeds : List Deed} {kernel : Kernel} {exits reordered : List Exit}

/-- In whatever order processes exit, whoever started whom, the same ones are left in the table with
the same parents and the same states. The journals say the same before the exits, and differ in the
order of these.
-/
theorem exits_commute (run : Run config deeds kernel) (once : (exits.map Exit.pid).Nodup)
    (perm : reordered.Perm exits)
    : (∀ pid,
        (kernel.processes.exitAll reordered).slots.get? pid
        = (kernel.processes.exitAll exits).slots.get? pid)
      ∧ (kernel.processes.exitAll reordered).next = (kernel.processes.exitAll exits).next
      ∧ (kernel.processes.exitAll reordered).capacity = (kernel.processes.exitAll exits).capacity
      ∧ (kernel.processes.exitAll exits).events = kernel.processes.events ++ exits.map Exit.event
      ∧ (kernel.processes.exitAll reordered).events
        = kernel.processes.events ++ reordered.map Exit.event := by
  have owned := run.rooted.owned
  obtain ⟨next, capacity⟩ := frame_exitAll exits kernel.processes
  obtain ⟨nextToo, capacityToo⟩ := frame_exitAll reordered kernel.processes
  refine ⟨?_, nextToo.trans next.symm, capacityToo.trans capacity.symm, events_exitAll ..,
    events_exitAll ..⟩
  intro pid
  simp only [owned.get?_exitAll, marks_perm once perm]

/-- The exits of three generations, the oldest first. -/
def generations : List Exit :=
  [⟨.ofNat 1, .exited 1⟩, ⟨.ofNat 2, .exited 2⟩, ⟨.ofNat 3, .faulted⟩]

/-- The deeds that start three generations, and another child of the oldest that
exits before them.
-/
def generationDeeds : List Deed :=
  [
    .register "p",
    .spawn "p" [] (.ok (.ofNat 1)),
    .call (.ofNat 1) (.exec "p" []) (some (.ok (.ofNat 2))),
    .call (.ofNat 2) (.exec "p" []) (some (.ok (.ofNat 3))),
    .call (.ofNat 1) (.exec "p" []) (some (.ok (.ofNat 4))),
    .finish (.ofNat 4) (.exit 4)
  ]

/-- The youngest first or the oldest first, three generations leave one slot, which is for the host
to reap.
-/
theorem exits_commute_generations
    : ∃ kernel,
        Run .standard generationDeeds kernel
        ∧ (∀ exit ∈ generations, kernel.processes.isRunning exit.pid = true)
        ∧ (∀ pid,
          (kernel.processes.exitAll generations.reverse).slots.get? pid
          = (kernel.processes.exitAll generations).slots.get? pid)
        ∧ (kernel.processes.exitAll generations).slots.entries
          = [(.ofNat 1, ⟨.host, .zombie (.exited 1)⟩)] := by
  obtain ⟨kernel, run, running, left⟩
      : ∃ kernel,
          Run .standard generationDeeds kernel
          ∧ (∀ exit ∈ generations, kernel.processes.isRunning exit.pid = true)
          ∧ (kernel.processes.exitAll generations).slots.entries
            = [(.ofNat 1, ⟨.host, .zombie (.exited 1)⟩)] := by
    refine ⟨_, .extend .boot (.cons (.register "p") <| .cons (.spawn rfl) <| .cons (.call rfl rfl)
      <| .cons (.call rfl rfl) <| .cons (.call rfl rfl) <| .cons (.finish rfl) .nil), ?_, rfl⟩
    simp only [generations, List.forall_mem_cons, List.not_mem_nil, false_implies, implies_true,
      and_true]
    exact ⟨rfl, rfl, rfl⟩
  have once : (generations.map Exit.pid).Nodup := by decide
  have commute := run.exits_commute once generations.reverse_perm
  exact ⟨kernel, run, running, commute.1, left⟩

end Kernel.Run

end KernelConformance
