import KernelConformance.Proofs.Processes.JoinOutcomes
import Mathlib.Data.List.Nodup

/-! Process tables that give out different numbers. Where one of them counts on from a later number
than the other, the same start, end or join does the same to both, up to the numbers.
-/

namespace KernelConformance

/-- How many processes and inodes one kernel has numbered before another one, which
numbers its first.
-/
structure Offset where
  pids : Nat
  inodes : Nat

namespace Offset

variable (offset : Offset)

/-- The number that a process has in the later kernel. -/
def pid (pid : Pid) : Pid := ⟨pid.number + offset.pids, Nat.add_pos_left pid.positive _⟩

/-- The parent that a process has in the later kernel. -/
def parent : Parent → Parent
  | .host => .host
  | .proc pid => .proc (offset.pid pid)
  | .detached => .detached

/-- The slot that a process has in the later kernel. -/
def slot (slot : Slot) : Slot := { slot with parent := offset.parent slot.parent }

@[simp] theorem parent_host : offset.parent .host = .host := rfl

theorem pid_inj {left right : Pid} : offset.pid left = offset.pid right ↔ left = right := by
  cases left
  cases right
  simp [Offset.pid]

theorem parent_inj {left right : Parent}
    : offset.parent left = offset.parent right ↔ left = right := by
  cases left <;> cases right <;> simp [Offset.parent, offset.pid_inj]

theorem parent_eq_detached {parent : Parent}
    : offset.parent parent = .detached ↔ parent = .detached := by
  cases parent <;> simp [Offset.parent]

theorem parent_eq_proc {parent : Parent} {pid : Pid}
    : offset.parent parent = .proc (offset.pid pid) ↔ parent = .proc pid := by
  cases parent <;> simp [Offset.parent, offset.pid_inj]

@[simp] theorem slot_parent (slot : Slot)
    : (offset.slot slot).parent = offset.parent slot.parent := rfl

theorem orphan_slot (slot : Slot) : (offset.slot slot).orphan = slot.orphan.map offset.slot := by
  unfold Slot.orphan
  split <;> split <;> first | rfl | contradiction

theorem ended_slot (status : ExitStatus) (slot : Slot)
    : (offset.slot slot).ended status = (slot.ended status).map offset.slot := by
  unfold Slot.ended
  by_cases detached : slot.parent = .detached
  · rw [slot_parent, if_pos detached, if_pos (offset.parent_eq_detached.mpr detached)]
    rfl
  · rw [slot_parent, if_neg detached, if_neg (mt offset.parent_eq_detached.mp detached)]
    rfl

@[simp] theorem pid_next (pid : Pid) : offset.pid pid.next = (offset.pid pid).next := by
  simp [Offset.pid, Pid.next, Nat.add_right_comm]

/-- A number of the later kernel is one from before, or that of a process of the other kernel. -/
theorem pid_cases (pid : Pid) : pid.number ≤ offset.pids ∨ ∃ earlier, pid = offset.pid earlier := by
  rcases Nat.lt_or_ge offset.pids pid.number with later | before
  · exact .inr ⟨⟨pid.number - offset.pids, Nat.sub_pos_of_lt later⟩, by
      simp [Offset.pid, Nat.sub_add_cancel (Nat.le_of_lt later)]⟩
  · exact .inl before

theorem lt_pid (pid : Pid) : offset.pids < (offset.pid pid).number :=
  Nat.lt_add_of_pos_left pid.positive

end Offset

/-- Maps whose values correspond, under keys that correspond one to one, have one size. -/
theorem FiniteMap.size_eq_of_image {κ ν : Type} [DecidableEq κ] {left right : FiniteMap κ ν}
    {key : κ → κ} {value : ν → ν} (injective : Function.Injective key)
    (image : ∀ other, right.get? (key other) = (left.get? other).map value)
    (onto : ∀ other, right.get? other ≠ none → ∃ earlier, other = key earlier)
    : right.size = left.size := by
  have keysUnique : (left.keys.map key).Nodup := List.Nodup.map injective left.keysUnique
  have perm : right.keys.Perm (left.keys.map key) := by
    refine (List.perm_ext_iff_of_nodup right.keysUnique keysUnique).mpr fun other => ?_
    change other ∈ right.keys ↔ _
    rw [← FiniteMap.contains_iff, List.mem_map, contains, Option.isSome_iff_ne_none]
    constructor
    · intro found
      obtain ⟨earlier, rfl⟩ := onto other found
      refine ⟨earlier, FiniteMap.contains_iff.mp ?_, rfl⟩
      rw [image] at found
      rw [contains, Option.isSome_iff_ne_none]
      exact mt (congrArg (Option.map value)) found
    · rintro ⟨earlier, listed, rfl⟩
      have found := FiniteMap.contains_iff.mpr listed
      rw [contains, Option.isSome_iff_ne_none] at found
      rw [image]
      exact mt Option.map_eq_none_iff.mp found
  simpa [keys, size] using perm.length_eq

namespace ProcessTable

/-- Whether a table is another one with later numbers. What the journals say does not matter. -/
structure Shifted (left : ProcessTable) (offset : Offset) (right : ProcessTable) : Prop where
  next : right.next = offset.pid left.next
  capacity : right.capacity = left.capacity
  slots : ∀ pid, right.slots.get? (offset.pid pid) = (left.slots.get? pid).map offset.slot
  earlier : ∀ pid, pid.number ≤ offset.pids → right.slots.get? pid = none

namespace Shifted

variable {offset : Offset} {left right : ProcessTable}

theorem size (shifted : left.Shifted offset right) : right.size = left.size := by
  refine FiniteMap.size_eq_of_image (fun _ _ => offset.pid_inj.mp) shifted.slots fun pid found => ?_
  exact (offset.pid_cases pid).resolve_left fun before => found (shifted.earlier pid before)

/-- What is found in both tables after changes that do the same to corresponding entries. -/
theorem change (shifted : left.Shifted offset right) {leftAfter rightAfter : ProcessTable}
    (next : rightAfter.next = offset.pid leftAfter.next)
    (capacity : rightAfter.capacity = leftAfter.capacity) {pid : Pid} {slot : Option Slot}
    (slots
      : ∀ other, leftAfter.slots.get? other = if other = pid then slot else left.slots.get? other)
    (slotsToo
      : ∀ other,
          rightAfter.slots.get? other
          = if other = offset.pid pid then slot.map offset.slot else right.slots.get? other)
    : leftAfter.Shifted offset rightAfter where
  next := next
  capacity := capacity
  slots other := by
    rw [slots, slotsToo]
    by_cases same : other = pid
    · rw [if_pos same, if_pos (congrArg offset.pid same)]
    · rw [if_neg same, if_neg (mt offset.pid_inj.mp same), shifted.slots]
  earlier other before := by
    have different : other ≠ offset.pid pid := fun same =>
      Nat.not_lt_of_le before (same ▸ offset.lt_pid pid)
    rw [slotsToo, if_neg different, shifted.earlier other before]

theorem spawn_of_room {table : ProcessTable} (room : table.size < table.capacity) (parent : Parent)
    (program : String)
    : ∃ after, table.spawn parent program = .ok (table.next, after) :=
  ⟨_, if_neg (Nat.not_le_of_lt room)⟩

/-- A start takes a slot in both tables, or in none. -/
theorem spawn (shifted : left.Shifted offset right) (parent : Parent) (program : String)
    : (∃ error,
        left.spawn parent program = .error error
        ∧ right.spawn (offset.parent parent) program = .error error)
      ∨ ∃ pid leftAfter rightAfter,
          left.spawn parent program = .ok (pid, leftAfter)
          ∧ right.spawn (offset.parent parent) program = .ok (offset.pid pid, rightAfter)
          ∧ leftAfter.Shifted offset rightAfter := by
  by_cases full : left.capacity ≤ left.size
  · have fullToo : right.capacity ≤ right.size := by rwa [shifted.capacity, shifted.size]
    exact .inl ⟨.unavailable, if_pos full, if_pos fullToo⟩
  · have roomToo : ¬right.capacity ≤ right.size := by rwa [shifted.capacity, shifted.size]
    obtain ⟨leftAfter, done⟩ := spawn_of_room (Nat.lt_of_not_le full) parent program
    obtain ⟨rightAfter, doneToo⟩ :=
      spawn_of_room (Nat.lt_of_not_le roomToo) (offset.parent parent) program
    rw [shifted.next] at doneToo
    have started := started_of_spawn done
    have startedToo := started_of_spawn doneToo
    refine .inr ⟨_, _, _, done, doneToo, shifted.change ?_ ?_ started.get? startedToo.get?⟩
    · rw [startedToo.next, started.next, offset.pid_next]
    · rw [startedToo.capacity, started.capacity, shifted.capacity]

theorem reap_of_zombie {table : ProcessTable} {parent caller : Parent} {pid : Pid}
    {status : ExitStatus} (found : table.slots.get? pid = some ⟨parent, .zombie status⟩)
    (owned : parent = caller ∧ caller ≠ .detached)
    : ∃ after, table.reap caller pid = .ok (some (status, after)) := by
  simp only [ProcessTable.reap, found, if_pos owned]
  exact ⟨_, rfl⟩

/-- A join finds the same in both tables. -/
theorem reap (shifted : left.Shifted offset right) (caller : Parent) (pid : Pid)
    : (∃ error,
        left.reap caller pid = .error error
        ∧ right.reap (offset.parent caller) (offset.pid pid) = .error error)
      ∨ (left.reap caller pid = .ok none
        ∧ right.reap (offset.parent caller) (offset.pid pid) = .ok none)
      ∨ ∃ status leftAfter rightAfter,
          left.reap caller pid = .ok (some (status, leftAfter))
          ∧ right.reap (offset.parent caller) (offset.pid pid) = .ok (some (status, rightAfter))
          ∧ leftAfter.Shifted offset rightAfter := by
  have foundToo := shifted.slots pid
  rcases found : left.slots.get? pid with _ | ⟨parent, state⟩ <;> rw [found] at foundToo
  · exact .inl ⟨.noChild, by simp [ProcessTable.reap, found], by simp [ProcessTable.reap, foundToo]⟩
  · by_cases owned : parent = caller ∧ caller ≠ .detached
    · have ownedToo
          : offset.parent parent = offset.parent caller ∧ offset.parent caller ≠ .detached := by
        rwa [offset.parent_inj, Ne, offset.parent_eq_detached]
      cases state with
      | running =>
          exact .inr (.inl ⟨by simp [ProcessTable.reap, found, owned],
            by simp [ProcessTable.reap, foundToo, Offset.slot, ownedToo]⟩)
      | zombie status =>
          obtain ⟨leftAfter, done⟩ := reap_of_zombie found owned
          obtain ⟨rightAfter, doneToo⟩ := reap_of_zombie foundToo ownedToo
          have freed := freed_of_reap done
          have freedToo := freed_of_reap doneToo
          refine .inr (.inr ⟨status, leftAfter, rightAfter, done, doneToo,
            shifted.change ?_ ?_ freed.get? freedToo.get?⟩)
          · rw [freedToo.next, freed.next, shifted.next]
          · rw [freedToo.capacity, freed.capacity, shifted.capacity]
    · have foreign
          : ¬(offset.parent parent = offset.parent caller ∧ offset.parent caller ≠ .detached) := by
        rwa [offset.parent_inj, Ne, offset.parent_eq_detached]
      exact .inl ⟨.noChild, by simp [ProcessTable.reap, found, owned],
        by simp [ProcessTable.reap, foundToo, Offset.slot, foreign]⟩

/-- The end of a process does the same to both tables. -/
theorem exit (shifted : left.Shifted offset right) (pid : Pid) (status : ExitStatus)
    : (left.exit pid status).Shifted offset (right.exit (offset.pid pid) status) where
  next := shifted.next
  capacity := shifted.capacity
  slots other := by
    simp only [get?_exit, get?_disown, shifted.slots, offset.pid_inj]
    rcases left.slots.get? other with _ | slot
    · rfl
    · have orphaned
          : (if (offset.slot slot).parent = .proc (offset.pid pid) then (offset.slot slot).orphan
              else some (offset.slot slot))
            = (if slot.parent = .proc pid then slot.orphan else some slot).map offset.slot := by
        simp only [offset.slot_parent, offset.parent_eq_proc, offset.orphan_slot]
        split <;> rfl
      rw [Option.map_some, Option.bind_some, Option.bind_some, orphaned]
      rcases if slot.parent = .proc pid then slot.orphan else some slot with _ | left
      · rfl
      · rw [Option.map_some, Option.bind_some, Option.bind_some, offset.ended_slot]
        split <;> rfl
  earlier other before := by
    rw [get?_exit, get?_disown, shifted.earlier other before]
    rfl

/-- A join of somebody who has no children is refused in the later table. -/
theorem reap_childless (shifted : left.Shifted offset right) {caller pid : Pid}
    (childless : ∀ child slot, left.slots.get? child = some slot → slot.parent ≠ .proc caller)
    : right.reap (.proc (offset.pid caller)) pid = .error .noChild := by
  refine reap_noChild fun slot found owned => ?_
  rcases offset.pid_cases pid with before | ⟨earlier, rfl⟩
  · rw [shifted.earlier pid before] at found
    cases found
  · rw [shifted.slots] at found
    obtain ⟨other, foundToo, rfl⟩ := Option.map_eq_some_iff.mp found
    exact childless earlier other foundToo (offset.parent_inj.mp owned)

end Shifted

end ProcessTable

end KernelConformance
