import KernelConformance.Proofs.Processes.JournalReplay

/-! The journal is a faithful log, whenever it is taken: it lists what has happened to processes, in
an order in which that can happen, and the process table follows from it.
-/

namespace KernelConformance

namespace Journal

/-- Whether a log has the start of a process. -/
def HasSpawned (log : List Event) (pid : Pid) : Prop :=
  ∃ parent program, .spawned pid parent program ∈ log

/-- Whether a log has the end of a process. -/
def HasExited (log : List Event) (pid : Pid) : Prop := ∃ status, .exited pid status ∈ log

/-- Whether a log has the join of a process. -/
def HasReaped (log : List Event) (pid : Pid) : Prop :=
  ∃ parent status, .reaped pid parent status ∈ log

/-- Whether a log has the end of the process that started a process. -/
def SpawnerExited (log : List Event) (pid : Pid) : Prop :=
  ∃ spawner program, .spawned pid (.proc spawner) program ∈ log ∧ HasExited log spawner

/-- A log is faithful to a process table, given the processes that were abandoned: every process
ends at most once and after its start, and is joined at most once, after its end, with its status
and by the one that started it; and the log determines the table.
-/
structure FaithfulTo (log : List Event) (abandoned : Pid → Prop) (table : ProcessTable) : Prop where
  exitsOnce : (log.filterMap Event.exitedPid?).Nodup
  exitFollowsSpawn
    : ∀ {before after pid status},
        log = before ++ .exited pid status :: after → HasSpawned before pid
  reapsOnce : (log.filterMap Event.reapedPid?).Nodup
  reapFollowsExit
    : ∀ {before after pid parent status},
        log = before ++ .reaped pid parent status :: after
        → .exited pid status ∈ before ∧ ∃ program, .spawned pid parent program ∈ before
  present
    : ∀ pid,
        table.slots.contains pid = true
        ↔ HasSpawned log pid
          ∧ ¬HasReaped log pid
          ∧ ¬(HasExited log pid ∧ SpawnerExited log pid)
          ∧ ¬abandoned pid
  running
    : ∀ {pid slot},
        table.slots.get? pid = some slot → (slot.state = .running ↔ ¬HasExited log pid)
  zombie
    : ∀ {pid slot status},
        table.slots.get? pid = some slot
        → (slot.state = .zombie status ↔ .exited pid status ∈ log)
  detached
    : ∀ {pid slot},
        table.slots.get? pid = some slot → (slot.parent = .detached ↔ SpawnerExited log pid)
  attached
    : ∀ {pid slot parent program},
        table.slots.get? pid = some slot
        → .spawned pid parent program ∈ log
        → ¬SpawnerExited log pid
        → slot.parent = parent

namespace Orderly

variable {log : List Event}

theorem hasSpawned_iff (orderly : Orderly log) {pid : Pid}
    : HasSpawned log pid ↔ (spawner? log pid).isSome = true := by
  simp only [Option.isSome_iff_exists, orderly.spawner?_eq_some, HasSpawned]

theorem hasExited_iff (orderly : Orderly log) {pid : Pid}
    : HasExited log pid ↔ (exitStatus? log pid).isSome = true := by
  simp only [Option.isSome_iff_exists, orderly.exitStatus?_eq_some, HasExited]

/-- The process that started a process has ended exactly if its parent is gone, by cases on who
started it.
-/
theorem spawnerExited_iff (orderly : Orderly log) {pid : Pid} {parent : Parent}
    (started : spawner? log pid = some parent)
    : SpawnerExited log pid ↔ isGone log parent = true := by
  constructor
  · intro known
    obtain ⟨spawner, program, member, ended⟩ := known
    have other := orderly.spawner?_eq_some.mpr ⟨program, member⟩
    obtain rfl : parent = .proc spawner := Option.some.inj (started.symm.trans other)
    exact orderly.hasExited_iff.mp ended
  · intro gone
    cases parent with
    | proc spawner =>
        obtain ⟨program, member⟩ := orderly.spawner?_eq_some.mp started
        exact ⟨spawner, program, member, orderly.hasExited_iff.mpr gone⟩
    | host => cases gone
    | detached => cases gone

end Orderly

end Journal

namespace Accounts

open Journal

variable {log : List Event} {table : ProcessTable}

/-- The entry of a process has the parent that started it as long as that one is there, and the
status of its end, by the look-ups in the log.
-/
theorem slot_of_log (accounts : Accounts log table) {pid : Pid} {slot : Slot}
    (found : table.slots.get? pid = some slot)
    : ∃ parent,
        spawner? log pid = some parent
        ∧ slot.parent = (if isGone log parent then .detached else parent)
        ∧ slot.state = ((exitStatus? log pid).map SlotState.zombie).getD .running := by
  rw [accounts.slots] at found
  obtain ⟨parent, started, -, -, owned, state⟩ := slot?_eq_some.mp found
  exact ⟨parent, started, owned, state⟩

/-- A log that accounts for a table is faithful to it, by the laws of orderly logs. -/
theorem faithful (accounts : Accounts log table) : FaithfulTo log (fun _ => False) table where
  exitsOnce := accounts.orderly.exits_nodup
  exitFollowsSpawn := by
    intro before after pid status same
    subst same
    obtain ⟨orderly, follows⟩ := accounts.orderly.split
    exact orderly.hasSpawned_iff.mpr follows.1
  reapsOnce := accounts.orderly.reaps_nodup
  reapFollowsExit := by
    intro before after pid parent status same
    subst same
    obtain ⟨orderly, started, ended, -⟩ := accounts.orderly.split
    exact ⟨orderly.exitStatus?_eq_some.mp ended, orderly.spawner?_eq_some.mp started⟩
  present pid := by
    have orderly := accounts.orderly
    rw [not_false_eq_true, and_true, FiniteMap.contains, accounts.slots, orderly.hasSpawned_iff,
      HasReaped, ← wasReaped_iff, orderly.hasExited_iff]
    rcases started : spawner? log pid with _ | parent
    · simp [slot?, started]
    · rw [orderly.spawnerExited_iff started]
      simp only [slot?, started, Option.bind_some]
      cases wasReaped log pid <;> cases (exitStatus? log pid).isSome <;>
        cases isGone log parent <;> simp
  running {pid slot} found := by
    obtain ⟨parent, -, -, state⟩ := accounts.slot_of_log found
    rw [state, accounts.orderly.hasExited_iff]
    cases exitStatus? log pid <;> simp
  zombie {pid slot status} found := by
    obtain ⟨parent, -, -, state⟩ := accounts.slot_of_log found
    rw [state, ← accounts.orderly.exitStatus?_eq_some]
    cases exitStatus? log pid <;> simp
  detached {pid slot} found := by
    obtain ⟨parent, started, owned, -⟩ := accounts.slot_of_log found
    have known := (accounts.orderly.spawner?_older started).1
    rw [owned, accounts.orderly.spawnerExited_iff started]
    cases isGone log parent <;> simp [known]
  attached {pid slot parent program} found member present := by
    obtain ⟨other, started, owned, -⟩ := accounts.slot_of_log found
    have same := started.symm.trans (accounts.orderly.spawner?_eq_some.mpr ⟨program, member⟩)
    rw [accounts.orderly.spawnerExited_iff started, Bool.not_eq_true] at present
    rw [owned, present]
    exact Option.some.inj same

end Accounts

namespace Kernel.Run

variable {config : Config} {deeds : List Deed} {kernel : Kernel}

/-- The journals that were taken and the one that is there make a complete and faithful log, as they
are the history of the run and that accounts for the table. This is for runs in which every process
that takes a slot gets its thread at once.
-/
theorem journal_faithful (run : Run config deeds kernel)
    : let journal := deeds.flatMap Deed.taken ++ kernel.processes.events
      journal = history deeds
      ∧ journal.filterMap Event.spawnedPid? = deeds.filterMap Deed.startedPid?
      ∧ (journal.filterMap Event.spawnedPid?).map Pid.number
        = List.range' 1 (journal.filterMap Event.spawnedPid?).length
      ∧ Journal.FaithfulTo journal (fun _ => False) kernel.processes := by
  intro journal
  have same : journal = history deeds := run.journal
  rw [same]
  exact ⟨rfl, history_starts deeds, run.accounts.orderly.numbers, run.accounts.faithful⟩

end Kernel.Run

end KernelConformance
