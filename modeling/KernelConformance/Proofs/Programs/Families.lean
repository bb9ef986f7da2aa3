import KernelConformance.Proofs.Processes.SlotCounts
import KernelConformance.Proofs.Programs.Followers
import KernelConformance.Proofs.Programs.MachineRuns

/-! A process whose children run to their end as soon as it starts them, and have no
children of their own. Every process from before keeps its entry in the table meanwhile, and
all others are children that have ended, so that nothing of the family stays when the
process has ended and was joined.
-/

namespace KernelConformance.Kernel

variable {config : Config} {kernel middle after begin : Kernel} {root pid child : Pid}
  {program : String} {argv : List String} {past : List Exchange}

-----------------------------------------------------------------------------------------
-- Processes that run to their end by themselves
-----------------------------------------------------------------------------------------

/-- A process that has just been started as a program with some arguments. -/
structure Newborn (kernel : Kernel) (pid : Pid) (program : String) (argv : List String) : Prop where
  runs : kernel.processes.isRunning pid = true
  context
    : kernel.context pid = ⟨argv.headD program, argv, .initial kernel.config.maxOpenFiles⟩

theorem started_of_start {parent : Parent}
    (started : kernel.start parent program argv = (.ok pid, after))
    : kernel.processes.Started parent program pid after.processes := by
  rcases start_cases started with ⟨_, failed, -⟩ | ⟨_, processes, same, spawned, rfl⟩
  · cases failed
  · cases same
    exact ProcessTable.started_of_spawn spawned

/-- A start makes no program loadable and leaves the files as they are. -/
theorem start_frame {parent : Parent} {reply : Except Errno Pid}
    (started : kernel.start parent program argv = (reply, after))
    : after.programs = kernel.programs ∧ after.files = kernel.files := by
  rcases start_cases started with ⟨_, -, rfl⟩ | ⟨_, _, -, -, rfl⟩ <;> exact ⟨rfl, rfl⟩

theorem newborn_of_start {parent : Parent}
    (started : kernel.start parent program argv = (.ok pid, after))
    : after.Newborn pid program argv := by
  rcases start_cases started with ⟨_, failed, -⟩ | ⟨_, processes, same, spawned, rfl⟩
  · cases failed
  · cases same
    have begun := ProcessTable.started_of_spawn spawned
    refine ⟨ProcessTable.isRunning_iff.mpr ⟨parent, ?_⟩, ?_⟩
    · rw [begun.get?, if_pos rfl]
    · simp only [Kernel.context, FiniteMap.get?_insert, if_pos, Option.getD_some]

theorem newborn_of_call (done : kernel.call root (.exec program argv) = some (.ok child, after))
    : after.Newborn child program argv := by
  obtain ⟨middle, performed, rfl⟩ := call_cases done
  obtain ⟨runs, context⟩ := newborn_of_start (Option.some.inj performed)
  rw [trace_eq]
  exact ⟨runs, context⟩

/-- With a free slot, whoever can act can start a program that can be loaded. -/
theorem exists_start {caller : Parent} (acts : kernel.processes.canAct caller = true)
    (known : program ∈ kernel.programs) (short : argv.length ≤ maxArguments)
    (room : kernel.processes.size < kernel.processes.capacity)
    : ∃ pid after, kernel.Step (.start caller program argv (.ok pid)) after := by
  obtain ⟨pid, after, started⟩
      : ∃ pid after, kernel.start caller program argv = (.ok pid, after) := by
    rw [start, allot, if_neg (Nat.not_lt_of_le short), if_neg (not_not_intro known),
      ProcessTable.spawn, if_neg (Nat.not_le_of_lt room)]
    exact ⟨_, _, rfl⟩
  cases caller with
  | host => exact ⟨pid, after, .spawn started⟩
  | proc parent => exact ⟨pid, _, .call acts (call_of_perform (congrArg some started))⟩
  | detached => cases acts

/-- Who is started has a slot, and is as it was started. -/
theorem Step.begun {caller : Parent}
    (step : kernel.Step (.start caller program argv (.ok pid)) after)
    : after.Newborn pid program argv
      ∧ ∃ parent, kernel.processes.Started parent program pid after.processes := by
  cases caller with
  | proc parent =>
      cases step with
      | call _ replied => exact ⟨newborn_of_call replied, _, started_of_call replied⟩
  | _ =>
      cases step with
      | spawn started => exact ⟨newborn_of_start started, _, started_of_start started⟩

/-- No call makes a program loadable. -/
theorem call_programs {c : Syscall} {reply : c.Reply}
    (replied : kernel.call pid c = some (reply, after))
    : after.programs = kernel.programs :=
  (call_frame replied).2

theorem finish_programs (pid : Pid) (ending : Ending) (kernel : Kernel)
    : (kernel.finish pid ending).programs = kernel.programs :=
  (finish_frame pid ending kernel).2

/-- Whether a program with some arguments comes to its end by itself wherever it is started, and by
calls on files alone, with an outcome that is as it should be.
-/
def EndsAlone (config : Config) (main : Main) (program : String) (argv : List String)
    (outcome : Kernel → Pid → Ending → Kernel → Prop)
    : Prop :=
  ∀ (deeds : List Deed) (kernel : Kernel) (pid : Pid),
    Run config deeds kernel
    → kernel.Newborn pid program argv
    → ∃ ending after,
        Performs pid kernel (main (argv.headD program) argv) ending after
        ∧ kernel.Elsewhere pid after
        ∧ outcome kernel pid ending after

theorem EndsAlone.mono {main : Main} {outcome weaker : Kernel → Pid → Ending → Kernel → Prop}
    (ends : EndsAlone config main program argv outcome)
    (implies
      : ∀ kernel pid ending after, outcome kernel pid ending after → weaker kernel pid ending after)
    : EndsAlone config main program argv weaker := by
  intro deeds kernel pid run newborn
  obtain ⟨ending, after, performs, same, holds⟩ := ends deeds kernel pid run newborn
  exact ⟨ending, after, performs, same, implies _ _ _ _ holds⟩

/-- The host can join a process that it has started and that has ended, which frees its slot. -/
theorem reap_ended {status : ExitStatus}
    (found : kernel.processes.slots.get? root = some ⟨.host, .zombie status⟩)
    : ∃ processes,
        kernel.reap .host root = some (.ok status, { kernel with processes })
        ∧ kernel.processes.Freed .host root status processes := by
  have acts : kernel.processes.canAct .host = true := rfl
  obtain ⟨processes, reaped⟩ := ProcessTable.reap_zombie acts found
  refine ⟨processes, ?_, ProcessTable.freed_of_reap reaped⟩
  simp only [reap, reaped]

-----------------------------------------------------------------------------------------
-- Families
-----------------------------------------------------------------------------------------

/-- The processes of a kernel after a process has made some calls: those that there were when it
began are as they were, and the others are its children. Each of these has ended with a status that
is as it should be for its program and its arguments.
-/
structure Family (config : Config) (begin : Kernel) (root : Pid)
    (proper : String → List String → ExitStatus → Prop) (past : List Exchange) (kernel : Kernel)
    : Prop where
  reachable : ∃ deeds, Run config deeds kernel
  programs : kernel.programs = begin.programs
  next_le : begin.processes.next.number ≤ kernel.processes.next.number
  kept
    : ∀ pid,
        pid.number < begin.processes.next.number
        → kernel.processes.slots.get? pid = begin.processes.slots.get? pid
  ended
    : ∀ pid slot,
        begin.processes.next.number ≤ pid.number
        → kernel.processes.slots.get? pid = some slot
        → ∃ program argv status,
            ⟨.exec program argv, .ok pid⟩ ∈ past
            ∧ proper program argv status
            ∧ slot = ⟨.proc root, .zombie status⟩
  joined
    : ∀ child status,
        ⟨.join child, .ok status⟩ ∈ past
        → ∃ program argv,
            ⟨.exec program argv, .ok child⟩ ∈ past ∧ proper program argv status

namespace Family

variable {proper : String → List String → ExitStatus → Prop} {deeds : List Deed}

theorem alone (run : Run config deeds begin) (root : Pid)
    : begin.Family config root proper [] begin where
  reachable := ⟨deeds, run⟩
  programs := rfl
  next_le := Nat.le_refl _
  kept _ _ := rfl
  ended pid slot new found := absurd (run.rooted.numbered found) (Nat.not_lt_of_le new)
  joined _ _ made := by cases made

/-- The process that makes the calls runs. -/
theorem runs (family : begin.Family config root proper past kernel)
    (run : Run config deeds begin) (runs : begin.processes.isRunning root = true)
    : kernel.processes.isRunning root = true := by
  obtain ⟨parent, found⟩ := ProcessTable.isRunning_iff.mp runs
  refine ProcessTable.isRunning_iff.mpr ⟨parent, ?_⟩
  rw [family.kept root (run.rooted.running_lt runs), found]

/-- A change of nothing but files, descriptors and the console leaves a family as it is. -/
theorem elsewhere (family : begin.Family config root proper past kernel)
    (same : kernel.Elsewhere pid after) (reachable : ∃ deeds, Run config deeds after)
    : begin.Family config root proper past after where
  reachable := reachable
  programs := same.programs.trans family.programs
  next_le := same.processes ▸ family.next_le
  kept := same.processes ▸ family.kept
  ended := same.processes ▸ family.ended
  joined := family.joined

/-- Whoever has ended was started as it should be, whatever was exchanged since. -/
theorem ended_snoc (family : begin.Family config root proper past kernel) (last : Exchange)
    {pid : Pid} {slot : Slot} (new : begin.processes.next.number ≤ pid.number)
    (found : kernel.processes.slots.get? pid = some slot)
    : ∃ program argv status,
        ⟨.exec program argv, .ok pid⟩ ∈ past ++ [last]
        ∧ proper program argv status
        ∧ slot = ⟨.proc root, .zombie status⟩ := by
  obtain ⟨program, argv, status, made, rest⟩ := family.ended pid slot new found
  exact ⟨program, argv, status, List.mem_append_left _ made, rest⟩

theorem joined_snoc (family : begin.Family config root proper past kernel) (last : Exchange)
    {child : Pid} {status : ExitStatus} (made : ⟨.join child, .ok status⟩ ∈ past)
    : ∃ program argv,
        ⟨.exec program argv, .ok child⟩ ∈ past ++ [last] ∧ proper program argv status := by
  obtain ⟨program, argv, made, right⟩ := family.joined child status made
  exact ⟨program, argv, List.mem_append_left _ made, right⟩

/-- A call that joins nobody leaves the family of a table that it leaves as it was. -/
theorem idle (family : begin.Family config root proper past kernel) {c : Syscall}
    {reply : c.Reply} (reachable : ∃ deeds, Run config deeds after)
    (programs : after.programs = kernel.programs) (same : after.processes = kernel.processes)
    (other : (Exchange.mk c reply).joined? = none)
    : begin.Family config root proper (past ++ [⟨c, reply⟩]) after where
  reachable := reachable
  programs := programs.trans family.programs
  next_le := same ▸ family.next_le
  kept := same ▸ family.kept
  ended pid slot new found := family.ended_snoc _ new (same ▸ found)
  joined child status made := by
    rcases List.mem_append.mp made with earlier | last
    · exact family.joined_snoc _ earlier
    · rw [← List.mem_singleton.mp last] at other
      cases other

/-- A join has a reply, as no child runs: the status of a child that is there, and an error for
every other process.
-/
theorem join (family : begin.Family config root proper past kernel)
    (run : Run config deeds begin) (runs : begin.processes.isRunning root = true)
    (newest : begin.processes.next = root.next) (child : Pid)
    : ∃ reply after,
        kernel.call root (.join child) = some (reply, after)
        ∧ begin.Family config root proper (past ++ [⟨.join child, reply⟩]) after := by
  have acts := family.runs run runs
  obtain ⟨earlier, reachable⟩ := family.reachable
  by_cases found : ∃ slot, kernel.processes.slots.get? child = some slot ∧ slot.parent = .proc root
  · obtain ⟨slot, found, owned⟩ := found
    have new : begin.processes.next.number ≤ child.number := by
      refine Nat.le_of_not_lt fun old => ?_
      rw [family.kept child old] at found
      have younger := (run.rooted.parentRuns found owned).2
      rw [newest, Pid.number_next] at old
      omega
    obtain ⟨program, argv, status, made, right, rfl⟩ := family.ended child slot new found
    obtain ⟨after, replied, freed⟩ := Wait.retry_zombie ⟨.proc root, child⟩ acts found
    refine ⟨.ok status, after, replied, ?_⟩
    have step : kernel.Step (.call root (.join child) (some (.ok status))) after :=
      .call acts replied
    constructor
    · exact ⟨_, reachable.step step⟩
    · rw [call_programs replied, family.programs]
    · rw [freed.next]
      exact family.next_le
    · intro pid old
      have different : pid ≠ child := fun same => Nat.not_lt_of_le new (same ▸ old)
      rw [freed.get?, if_neg different, family.kept pid old]
    · intro pid slot later present
      rw [freed.get?] at present
      split at present
      · cases present
      · exact family.ended_snoc _ later present
    · intro other published member
      rcases List.mem_append.mp member with earlier | last
      · exact family.joined_snoc _ earlier
      · cases List.mem_singleton.mp last
        exact ⟨program, argv, List.mem_append_left _ made, right⟩
  · have foreign (slot : Slot) (present : kernel.processes.slots.get? child = some slot)
        : slot.parent ≠ .proc root :=
      fun owned => found ⟨slot, present, owned⟩
    have replied := Wait.retry_noChild ⟨.proc root, child⟩ foreign
    refine ⟨.error .noChild, _, replied,
      family.idle ⟨_, reachable.step (.call acts replied)⟩ ?_ ?_ rfl⟩
    · exact call_programs replied
    · exact Wait.traced_processes _ _ _

/-- A start that is refused leaves a family as it is. -/
theorem refused (family : begin.Family config root proper past kernel)
    (run : Run config deeds begin) (runs : begin.processes.isRunning root = true) {error : Errno}
    (failed : kernel.call root (.exec program argv) = some (.error error, after))
    : begin.Family config root proper (past ++ [⟨.exec program argv, .error error⟩]) after := by
  obtain ⟨earlier, reachable⟩ := family.reachable
  have step : kernel.Step (.call root (.exec program argv) (some (.error error))) after :=
    .call (family.runs run runs) failed
  exact family.idle ⟨_, reachable.step step⟩ (call_programs failed)
    (call_error_processes failed) rfl

/-- A child that has just been started is nobody's parent. -/
theorem childless (reachable : Run config deeds kernel)
    (acts : kernel.processes.isRunning root = true) {table : ProcessTable}
    (begun : kernel.processes.Started (.proc root) program child table) (other : Pid) (slot : Slot)
    (found : table.slots.get? other = some slot)
    : slot.parent ≠ .proc child := by
  have newest : child.number = kernel.processes.next.number := congrArg Pid.number begun.numbered
  intro owned
  rw [begun.get?] at found
  split at found
  · cases found
    cases owned
    have older := reachable.rooted.running_lt acts
    omega
  · have older := reachable.rooted.running_lt (reachable.rooted.parentRuns found owned).1
    omega

/-- When a child that was started has come to its end, its entry is the only one that is new. -/
theorem get?_finish (reachable : Run config deeds kernel)
    (acts : kernel.processes.isRunning root = true)
    (begun : kernel.processes.Started (.proc root) program child middle.processes)
    (same : middle.Elsewhere child after) (ending : Ending) (pid : Pid)
    : (after.finish child ending).processes.slots.get? pid
      = if pid = child then some ⟨.proc root, .zombie ending.status⟩
        else kernel.processes.slots.get? pid := by
  have slots
      : (after.finish child ending).processes.slots
        = middle.processes.slots.insert child ⟨.proc root, .zombie ending.status⟩ := by
    rw [finish_processes, same.processes]
    refine ProcessTable.exit_childless ending.status (by rw [begun.get?, if_pos rfl]) nofun ?_
    exact childless reachable acts begun
  rw [slots, FiniteMap.get?_insert, begun.get?]
  split <;> rfl

/-- A child that is started and comes to its end by itself leaves an entry with its status. -/
theorem reared (family : begin.Family config root proper past kernel) (run : Run config deeds begin)
    (runs : begin.processes.isRunning root = true)
    (started : kernel.call root (.exec program argv) = some (.ok child, middle)) {main : Main}
    {ending : Ending}
    (performs : Performs child middle (main (argv.headD program) argv) ending after)
    (same : middle.Elsewhere child after) (right : proper program argv ending.status)
    : begin.Family config root proper (past ++ [⟨.exec program argv, .ok child⟩])
        (after.finish child ending) := by
  have acts := family.runs run runs
  obtain ⟨earlier, reachable⟩ := family.reachable
  have begun := started_of_call started
  have newest : child.number = kernel.processes.next.number := congrArg Pid.number begun.numbered
  have next_le := family.next_le
  have alive := (newborn_of_call started).runs
  have reached := reachable.step (.call acts started)
  obtain ⟨more, reached, -⟩ := reached.performs alive performs
  have lookup := get?_finish reachable acts begun same ending
  constructor
  · refine ⟨_, reached.step (.finish ?_)⟩
    rw [same.processes]
    exact alive
  · rw [finish_programs, same.programs, call_programs started, family.programs]
  · have later : middle.processes.next.number = child.number + 1 := congrArg Pid.number begun.next
    rw [finish_processes, same.processes]
    change _ ≤ middle.processes.next.number
    omega
  · intro pid old
    have different : pid ≠ child := by
      rintro rfl
      omega
    rw [lookup, if_neg different, family.kept pid old]
  · intro pid slot new found
    rw [lookup] at found
    split at found
    · next same =>
        subst same
        cases found
        exact ⟨program, argv, _, List.mem_append_right _ (List.mem_singleton.mpr rfl), right, rfl⟩
    · exact family.ended_snoc _ new found
  · intro other status made
    rcases List.mem_append.mp made with earlier | last
    · exact family.joined_snoc _ earlier
    · cases List.mem_singleton.mp last

-----------------------------------------------------------------------------------------
-- The end of a family
-----------------------------------------------------------------------------------------

variable {before : Kernel}

/-- When the process of a family ends that the host has started, its children go with it, and all
other entries are those from before it was started.
-/
theorem slots_exit (family : begin.Family config root proper past kernel)
    (run : Run config deeds before)
    (started : before.processes.Started .host program root begin.processes) (status : ExitStatus)
    (pid : Pid)
    : (kernel.processes.exit root status).slots.get? pid
      = if pid = root then some ⟨.host, .zombie status⟩ else before.processes.slots.get? pid := by
  have newest : root.number = before.processes.next.number := congrArg Pid.number started.numbered
  have next : begin.processes.next.number = root.number + 1 := congrArg Pid.number started.next
  rw [ProcessTable.get?_exit, ProcessTable.get?_disown]
  by_cases same : pid = root
  · subst same
    rw [family.kept pid (by omega), started.get?, if_pos rfl, if_pos rfl]
    simp [Slot.ended]
  · rw [if_neg same]
    rcases Nat.lt_or_ge pid.number begin.processes.next.number with old | new
    · -- an older process is no child of the family's, as no process is older than its parent
      rw [family.kept pid old, started.get?, if_neg same]
      rcases found : before.processes.slots.get? pid with _ | slot
      · rfl
      · have foreign : slot.parent ≠ .proc root := fun owned => by
          have older := run.rooted.running_lt (run.rooted.parentRuns found owned).1
          omega
        simp only [Option.bind_some, if_neg foreign, if_neg same]
    · have absent : before.processes.slots.get? pid = none := by
        rcases found : before.processes.slots.get? pid with _ | slot
        · rfl
        · have older := run.rooted.numbered found
          omega
      rw [absent]
      rcases found : kernel.processes.slots.get? pid with _ | slot
      · rfl
      · obtain ⟨_, _, status, -, -, rfl⟩ := family.ended pid slot new found
        simp [Slot.orphan, SlotState.isZombie]

/-- When the process of a family has ended that the host has started, the host can join it, and the
table has the entries that it had before.
-/
theorem reaped (family : begin.Family config root proper past kernel)
    (run : Run config deeds before)
    (started : before.start .host program argv = (.ok root, begin)) (ending : Ending)
    : ∃ processes,
        (kernel.finish root ending).reap .host root
          = some (.ok ending.status, { kernel.finish root ending with processes })
        ∧ (∃ deeds, Run config deeds { kernel.finish root ending with processes })
        ∧ ∀ pid, processes.slots.get? pid = before.processes.slots.get? pid := by
  have begun := started_of_start started
  obtain ⟨earlier, reachable⟩ := family.reachable
  have acts := family.runs (run.step (.spawn started)) (newborn_of_start started).runs
  have slots (pid : Pid) := family.slots_exit run begun ending.status pid
  have found
      : (kernel.finish root ending).processes.slots.get? root
        = some ⟨.host, .zombie ending.status⟩ := by
    rw [finish_processes, slots, if_pos rfl]
  obtain ⟨processes, reaped, freed⟩ := reap_ended found
  refine ⟨processes, reaped, ⟨_, (reachable.step (.finish acts)).step (.wait reaped)⟩,
    fun pid => ?_⟩
  rw [freed.get?]
  split
  · next same => rw [same, run.rooted.get?_started begun]
  · next different => rw [finish_processes, slots, if_neg different]

end Family

end KernelConformance.Kernel
