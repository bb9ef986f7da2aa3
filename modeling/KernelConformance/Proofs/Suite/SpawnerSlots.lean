import KernelConformance.Proofs.Processes.SlotCounts
import KernelConformance.Proofs.Suite.SpawnerCalls

/-! The slots of a process table while a process runs jobs in it. Each child that was not
joined holds a slot from its start on, running or with its signature, and all other slots
stay as they were.
-/

namespace KernelConformance.Spawner

open ProcessTable

variable {begin table after : ProcessTable} {pid child : Pid} {jobs : List Job}
  {past : List Exchange}

/-- What a table holds for a process that runs jobs, beside what it has held when
the process began.
-/
structure Hosts (begin : ProcessTable) (pid : Pid) (jobs : List Job) (past : List Exchange)
    (table : ProcessTable)
    : Prop where
  rooted : table.Rooted
  capacity : table.capacity = begin.capacity
  next : begin.next.number ≤ table.next.number
  within : (joined past).length ≤ (started past).length
  size : table.size = begin.size + (unjoined past).length
  fresh
    : ∀ child ∈ started past,
        begin.next.number ≤ child.number ∧ child.number < table.next.number
  distinct : (started past).Nodup
  kept : ∀ other, other ∉ unjoined past → table.slots.get? other = begin.slots.get? other
  held
    : ∀ index child job,
        (joined past).length ≤ index
        → (started past)[index]? = some child
        → jobs[index]? = some job
        → table.slots.get? child = some ⟨.proc pid, .running⟩
          ∨ table.slots.get? child = some ⟨.proc pid, .zombie (.exited job.signature)⟩

theorem hosts_begin (rooted : begin.Rooted) (pid : Pid) (jobs : List Job)
    : Hosts begin pid jobs [] begin where
  rooted := rooted
  capacity := rfl
  next := Nat.le_refl _
  within := Nat.le_refl _
  size := rfl
  fresh := nofun
  distinct := List.nodup_nil
  kept _ _ := rfl
  held index child job _ found := by simp [started] at found

/-- A child that was not joined has a place among those that were started. -/
theorem mem_unjoined {other : Pid}
    : other ∈ unjoined past
      ↔ ∃ index, (joined past).length ≤ index ∧ (started past)[index]? = some other := by
  constructor
  · intro member
    obtain ⟨offset, bound, found⟩ := List.mem_drop_iff_getElem.mp member
    exact ⟨(joined past).length + offset, Nat.le_add_right _ _,
      List.getElem?_eq_some_iff.mpr ⟨_, found⟩⟩
  · intro placed
    obtain ⟨index, later, found⟩ := placed
    obtain ⟨bound, same⟩ := List.getElem?_eq_some_iff.mp found
    refine List.mem_drop_iff_getElem.mpr ⟨index - (joined past).length, by omega, ?_⟩
    simpa [Nat.add_sub_cancel' later] using same

/-- A process that the table has begun with is not among the children. -/
theorem Hosts.old_notMem (hosts : Hosts begin pid jobs past table) {other : Pid}
    (old : other.number < begin.next.number)
    : other ∉ unjoined past := by
  intro member
  have fresh := hosts.fresh other (List.mem_of_mem_drop member)
  omega

/-- The process still runs while it runs jobs. -/
theorem Hosts.isRunning (hosts : Hosts begin pid jobs past table) (rooted : begin.Rooted)
    (runs : begin.isRunning pid = true)
    : table.isRunning pid = true := by
  obtain ⟨parent, found⟩ := isRunning_iff.mp runs
  refine isRunning_iff.mpr ⟨parent, ?_⟩
  rw [hosts.kept pid (hosts.old_notMem (rooted.running_lt runs)), found]

/-- The table has begun without the children. -/
theorem Hosts.absent (hosts : Hosts begin pid jobs past table) (rooted : begin.Rooted)
    (member : child ∈ started past)
    : begin.slots.get? child = none := by
  rcases old : begin.slots.get? child with _ | slot
  · rfl
  · have earlier := rooted.numbered old
    have fresh := hosts.fresh child member
    omega

/-- A child that is in the table was not joined. -/
theorem Hosts.unjoined_of_found (hosts : Hosts begin pid jobs past table) (rooted : begin.Rooted)
    {slot : Slot} (member : child ∈ started past) (found : table.slots.get? child = some slot)
    : child ∈ unjoined past := by
  refine Decidable.byContradiction fun gone => ?_
  rw [hosts.kept child gone, hosts.absent rooted member] at found
  cases found

/-- Children are in one place only. -/
theorem Hosts.index_eq (hosts : Hosts begin pid jobs past table) {index other : Nat}
    (found : (started past)[index]? = some child) (again : (started past)[other]? = some child)
    : other = index :=
  (List.getElem?_inj (List.getElem?_eq_some_iff.mp again).1 hosts.distinct).mp
    (again.trans found.symm)

/-- The oldest child that was not joined runs, or has ended with the signature of its job. -/
theorem Hosts.oldest (hosts : Hosts begin pid jobs past table)
    (enough : (started past).length ≤ jobs.length)
    (oldest : (unjoined past).head? = some child)
    : (started past)[(joined past).length]? = some child
      ∧ ∃ job,
          jobs[(joined past).length]? = some job
          ∧ (table.slots.get? child = some ⟨.proc pid, .running⟩
            ∨ table.slots.get? child = some ⟨.proc pid, .zombie (.exited job.signature)⟩) := by
  have place : (started past)[(joined past).length]? = some child := by
    rwa [head?_unjoined] at oldest
  have bound := (List.getElem?_eq_some_iff.mp place).1
  have given := List.getElem?_eq_getElem (Nat.lt_of_lt_of_le bound enough)
  exact ⟨place, _, given, hosts.held _ child _ (Nat.le_refl _) place given⟩

/-- The oldest child can be joined only with the signature of its job. -/
theorem Hosts.status_of_freed (hosts : Hosts begin pid jobs past table)
    (enough : (started past).length ≤ jobs.length) {status : ExitStatus}
    (oldest : (unjoined past).head? = some child)
    (freed : table.Freed (.proc pid) child status after)
    : ∃ job, jobs[(joined past).length]? = some job ∧ status = .exited job.signature := by
  obtain ⟨-, job, given, held⟩ := hosts.oldest enough oldest
  refine ⟨job, given, ?_⟩
  rw [freed.found] at held
  rcases held with running | zombie
  · cases running
  · cases zombie
    rfl

/-- No child has children. -/
theorem Hosts.childless (hosts : Hosts begin pid jobs past table) (rooted : begin.Rooted)
    (runs : begin.isRunning pid = true) (enough : (started past).length ≤ jobs.length)
    (member : child ∈ started past) (other : Pid) (slot : Slot)
    (found : table.slots.get? other = some slot)
    : slot.parent ≠ .proc child := by
  intro owned
  have fresh := hosts.fresh child member
  by_cases sibling : other ∈ unjoined past
  · obtain ⟨index, later, place⟩ := mem_unjoined.mp sibling
    have bound := (List.getElem?_eq_some_iff.mp place).1
    have old := rooted.running_lt runs
    have held := hosts.held index other _ later place
      (List.getElem?_eq_getElem (Nat.lt_of_lt_of_le bound enough))
    rw [found] at held
    rcases held with same | same <;>
      · cases same
        cases owned
        omega
  · rw [hosts.kept other sibling] at found
    have old := rooted.running_lt (rooted.parentRuns found owned).1
    omega

-----------------------------------------------------------------------------------------
-- Steps
-----------------------------------------------------------------------------------------

/-- A step that means nothing for the life of a process. -/
theorem Hosts.idle (hosts : Hosts begin pid jobs past table) {taken : List Event}
    (step : table.Step none taken after)
    : Hosts begin pid jobs past after := by
  have rooted := step.rooted hosts.rooted
  cases step with
  | clearJournal => exact { hosts with rooted }
  | idle => exact hosts

/-- An exchange that starts and joins nobody leaves everything in place. -/
theorem Hosts.aside (hosts : Hosts begin pid jobs past table) {last : Exchange}
    (idle : last.started? = none) (idleToo : last.joined? = none)
    : Hosts begin pid jobs (past ++ [last]) table := by
  have starts : started (past ++ [last]) = started past := by simp [idle]
  have joins : joined (past ++ [last]) = joined past := by simp [idleToo]
  have rest : unjoined (past ++ [last]) = unjoined past := by
    rw [unjoined, starts, joins, unjoined]
  constructor
  · exact hosts.rooted
  · exact hosts.capacity
  · exact hosts.next
  · exact starts ▸ joins ▸ hosts.within
  · exact rest ▸ hosts.size
  · exact starts ▸ hosts.fresh
  · exact starts ▸ hosts.distinct
  · exact rest ▸ hosts.kept
  · exact starts ▸ joins ▸ hosts.held

/-- A child ends with its signature. -/
theorem Hosts.finish (hosts : Hosts begin pid jobs past table) (rooted : begin.Rooted)
    (runs : begin.isRunning pid = true) (enough : (started past).length ≤ jobs.length)
    {index : Nat} {job : Job} (place : (started past)[index]? = some child)
    (given : jobs[index]? = some job) (alive : table.isRunning child = true)
    : Hosts begin pid jobs past (table.exit child (.exited job.signature)) := by
  obtain ⟨parent, found⟩ := isRunning_iff.mp alive
  have member := List.mem_of_getElem? place
  have unjoined := hosts.unjoined_of_found rooted member found
  obtain ⟨other, later, again⟩ := mem_unjoined.mp unjoined
  obtain rfl := hosts.index_eq place again
  obtain rfl : parent = .proc pid := by
    rcases hosts.held other child job later place given with running | zombie
    · exact congrArg Slot.parent (Option.some.inj (found.symm.trans running))
    · cases found.symm.trans zombie
  have slots := exit_childless (.exited job.signature) found nofun
    (hosts.childless rooted runs enough member)
  have present : table.slots.contains child = true := Option.isSome_iff_exists.mpr ⟨_, found⟩
  exact {
    rooted := hosts.rooted.exit child _
    capacity := hosts.capacity
    next := hosts.next
    within := hosts.within
    size := by
      rw [← hosts.size, ProcessTable.size, slots, FiniteMap.size_insert, if_pos present]
      rfl
    fresh := hosts.fresh
    distinct := hosts.distinct
    kept := by
      intro stranger outside
      have different : stranger ≠ child := fun same => outside (same ▸ unjoined)
      rw [slots, FiniteMap.get?_insert, if_neg different, hosts.kept stranger outside]
    held := by
      intro number sibling task beyond position assigned
      rw [slots, FiniteMap.get?_insert]
      split
      · next same =>
          subst same
          obtain rfl := hosts.index_eq place position
          cases given.symm.trans assigned
          exact .inr rfl
      · exact hosts.held number sibling task beyond position assigned
  }

/-- A child is started, for the next job. -/
theorem Hosts.start (hosts : Hosts begin pid jobs past table) {program : String}
    {argv : List String} (acts : table.canAct (.proc pid) = true)
    (begun : table.Started (.proc pid) program child after)
    : Hosts begin pid jobs (past ++ [⟨.exec program argv, .ok child⟩]) after := by
  have starts := started_exec past program argv child
  have joins := joined_exec past program argv child
  have rest
      : unjoined (past ++ [⟨.exec program argv, .ok child⟩]) = unjoined past ++ [child] := by
    rw [unjoined, starts, joins, List.drop_append_of_le_length hosts.within]
    rfl
  have newest : child.number = table.next.number := congrArg Pid.number begun.numbered
  have next : after.next.number = child.number + 1 := congrArg Pid.number begun.next
  have begins := hosts.next
  constructor
  · exact hosts.rooted.started acts begun
  · exact begun.capacity.trans hosts.capacity
  · omega
  · rw [starts, joins, List.length_append]
    exact Nat.le_add_right_of_le hosts.within
  · rw [begun.size hosts.rooted, hosts.size, rest, List.length_append]
    rfl
  · intro other member
    rw [starts] at member
    rcases List.mem_append.mp member with earlier | last
    · have fresh := hosts.fresh other earlier
      omega
    · obtain rfl := List.mem_singleton.mp last
      omega
  · rw [starts]
    exact nodup_snoc hosts.distinct fun other member => newest ▸ (hosts.fresh other member).2
  · intro other outside
    rw [rest, List.mem_append, not_or] at outside
    have different : other ≠ child := fun same => outside.2 (List.mem_singleton.mpr same)
    rw [begun.get?, if_neg different, hosts.kept other outside.1]
  · intro index other job later place given
    rw [joins] at later
    rw [starts] at place
    rw [begun.get?]
    split
    · exact .inl rfl
    · next different =>
        refine hosts.held index other job later ?_ given
        rw [List.getElem?_append] at place
        split at place
        · exact place
        · have last := List.mem_singleton.mp (List.mem_of_getElem? place)
          exact absurd last different

/-- The oldest child is joined. -/
theorem Hosts.join (hosts : Hosts begin pid jobs past table) (rooted : begin.Rooted)
    {status : ExitStatus} (oldest : (unjoined past).head? = some child)
    (freed : table.Freed (.proc pid) child status after)
    : Hosts begin pid jobs (past ++ [⟨.join child, .ok status⟩]) after := by
  have starts := started_join past child status
  have joins := joined_join past child status
  have rest : unjoined past = child :: unjoined (past ++ [⟨.join child, .ok status⟩]) := by
    obtain ⟨others, same⟩ := List.head?_eq_some_iff.mp oldest
    rw [same, unjoined, starts, joins, List.length_append, List.length_singleton, ← List.tail_drop]
    exact congrArg (child :: ·) (congrArg List.tail same).symm
  have place : (started past)[(joined past).length]? = some child := by
    rwa [head?_unjoined] at oldest
  have bound := (List.getElem?_eq_some_iff.mp place).1
  have member := List.mem_of_getElem? place
  constructor
  · exact hosts.rooted.freed freed
  · exact freed.capacity.trans hosts.capacity
  · rw [freed.next]
    exact hosts.next
  · rw [starts, joins, List.length_append]
    exact bound
  · have size := freed.size
    rw [hosts.size, rest, List.length_cons] at size
    omega
  · rw [starts, freed.next]
    exact hosts.fresh
  · rw [starts]
    exact hosts.distinct
  · intro other outside
    rw [freed.get?]
    split
    · next same =>
        subst same
        exact (hosts.absent rooted member).symm
    · next different =>
        refine hosts.kept other fun inside => ?_
        rw [rest] at inside
        exact outside ((List.mem_cons.mp inside).resolve_left different)
  · intro index other job later position assigned
    rw [joins, List.length_append, List.length_singleton] at later
    rw [starts] at position
    rw [freed.get?]
    split
    · next same =>
        subst same
        have index := hosts.index_eq place position
        omega
    · exact hosts.held index other job (Nat.le_of_succ_le later) position assigned

end KernelConformance.Spawner
