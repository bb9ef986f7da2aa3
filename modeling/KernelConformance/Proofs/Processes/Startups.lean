import KernelConformance.Proofs.Processes.JournalReplay

/-! Starts in their steps. A start takes its slot and logs it; then a thread is created for the
process, or cannot be; and only then the start returns. The others go on between the steps, so
that they see processes that do not run yet, and one that is abandoned may be in a journal that
was taken before.
-/

namespace KernelConformance

/-- How far a start that has its slot has got: the thread is still to be created, it is known
whether it was, or the attempt has broken whoever made it.
-/
inductive Stage where
  | allotted
  | settled (reply : Except Errno Pid)
  | broken

/-- Whether the process has its thread. -/
def Stage.hasThread : Stage → Bool
  | .settled reply => reply.toBool
  | _ => false

/-- A start that has its slot and has not returned. -/
structure Startup where
  caller : Parent
  program : String
  argv : List String
  stage : Stage

/-- A kernel and the starts that have not returned, by the numbers that they have taken. -/
structure Dispatch where
  kernel : Kernel
  startups : FiniteMap Pid Startup

/-- Something that happens: a deed that starts nothing, or a step of a start. -/
inductive Happening where
  | deed (deed : Deed)
  | allotted (pid : Pid) (caller : Parent) (program : String) (argv : List String)
  | entered (pid : Pid)
  | abandoned (pid : Pid) (erased : List Event)
  | broken (pid : Pid) (caller : Parent)
  | returned (pid : Pid) (caller : Parent) (program : String) (argv : List String)
    (reply : Except Errno Pid)

namespace Kernel

/-- The kernel after whoever starts a process has broken: a process ends by a fault. -/
def breakOff (caller : Parent) (kernel : Kernel) : Kernel :=
  match caller with
  | .proc pid => kernel.finish pid .fault
  | _ => kernel

/-- The kernel after a start has returned: it is traced if a process has made it. -/
def traceStart (caller : Parent) (program : String) (argv : List String) (reply : Except Errno Pid)
    (kernel : Kernel)
    : Kernel :=
  match caller with
  | .proc pid =>
      let call := Syscall.exec program argv
      kernel.trace pid call.kind call.argumentText (call.replyText reply)
  | _ => kernel

end Kernel

namespace Dispatch

/-- Whether somebody is free to act. A process is so once it has its thread and if it is not in the
middle of a start; the host may do several things at once.
-/
def Free (dispatch : Dispatch) : Parent → Prop
  | .proc pid =>
      (∀ startup, dispatch.startups.get? pid = some startup → startup.stage.hasThread = true)
      ∧ ∀ other startup, dispatch.startups.get? other = some startup → startup.caller ≠ .proc pid
  | _ => True

/-- Whether a deed may be made: whoever makes it is free. -/
def Permits (dispatch : Dispatch) : Deed → Prop
  | .call pid _ _ | .finish pid _ => dispatch.Free (.proc pid)
  | _ => True

/-- One step. A thread whose name contains NUL breaks whoever creates it. A start that returns
leaves the table of the starts, and so does nobody else.
-/
inductive Step (dispatch : Dispatch) : Happening → Dispatch → Prop where
  | act {deed kernel} (permits : dispatch.Permits deed) (quiet : deed.startedPid? = none)
    (step : dispatch.kernel.Step deed kernel)
    : Step dispatch (.deed deed) { dispatch with kernel }
  | allot {caller program argv pid kernel}
    (acts : dispatch.kernel.processes.canAct caller = true) (free : dispatch.Free caller)
    (done : dispatch.kernel.allot caller program argv = (.ok pid, kernel))
    : Step dispatch (.allotted pid caller program argv)
        ⟨kernel, dispatch.startups.insert pid ⟨caller, program, argv, .allotted⟩⟩
  | enter {pid caller program argv}
    (found : dispatch.startups.get? pid = some ⟨caller, program, argv, .allotted⟩)
    (named : canNameThread program = true)
    : Step dispatch (.entered pid)
        ⟨dispatch.kernel.enter pid program argv,
          dispatch.startups.insert pid ⟨caller, program, argv, .settled (.ok pid)⟩⟩
  | abandon {pid caller program argv}
    (found : dispatch.startups.get? pid = some ⟨caller, program, argv, .allotted⟩)
    (named : canNameThread program = true)
    : Step dispatch
        (.abandoned pid (dispatch.kernel.processes.events.filter (Event.isStartOf pid)))
        ⟨dispatch.kernel.abandon pid,
          dispatch.startups.insert pid ⟨caller, program, argv, .settled (.error .unavailable)⟩⟩
  | breakOff {pid caller program argv}
    (found : dispatch.startups.get? pid = some ⟨caller, program, argv, .allotted⟩)
    (unnamed : canNameThread program = false)
    : Step dispatch (.broken pid caller)
        ⟨dispatch.kernel.breakOff caller,
          dispatch.startups.insert pid ⟨caller, program, argv, .broken⟩⟩
  | ret {pid caller program argv reply}
    (found : dispatch.startups.get? pid = some ⟨caller, program, argv, .settled reply⟩)
    : Step dispatch (.returned pid caller program argv reply)
        ⟨dispatch.kernel.traceStart caller program argv reply, dispatch.startups.erase pid⟩

/-- What has happened since boot, oldest first, and what has come of it. -/
inductive Run (config : Config) : List Happening → Dispatch → Prop where
  | boot : Run config [] ⟨.boot config, .empty⟩
  | step {log dispatch happening after} (run : Run config log dispatch)
    (step : dispatch.Step happening after)
    : Run config (log ++ [happening]) after

/-- What happens one after the other, from anywhere. -/
inductive Steps : Dispatch → List Happening → Dispatch → Prop where
  | nil {dispatch} : Steps dispatch [] dispatch
  | cons {dispatch happening middle log after} (step : dispatch.Step happening middle)
    (rest : Steps middle log after)
    : Steps dispatch (happening :: log) after

/-- A run goes on with what happens after it, by induction on that. -/
theorem Run.extend {config : Config} {log more : List Happening} {dispatch after : Dispatch}
    (run : Run config log dispatch) (steps : Steps dispatch more after)
    : Run config (log ++ more) after := by
  induction steps generalizing log with
  | nil => simpa using run
  | cons step _ ih => simpa using ih (run.step step)

/-- A process is free if it has its thread, and makes none of the starts that have not returned. -/
theorem free_of_entries {dispatch : Dispatch} {pid : Pid}
    (ready
      : ∀ entry ∈ dispatch.startups.entries, entry.1 = pid → entry.2.stage.hasThread = true)
    (others : ∀ entry ∈ dispatch.startups.entries, entry.2.caller ≠ .proc pid)
    : dispatch.Free (.proc pid) :=
  ⟨fun _ found => ready _ (FiniteMap.get?_eq_some.mp found) rfl,
    fun _ _ found => others _ (FiniteMap.get?_eq_some.mp found)⟩

end Dispatch

-----------------------------------------------------------------------------------------
-- Views of what has happened
-----------------------------------------------------------------------------------------

namespace Happening

/-- The event that is logged, if nobody is abandoned. -/
def event? : Happening → Option Event
  | deed made => made.event?
  | allotted pid caller program _ => some (.spawned pid caller program)
  | broken _ (.proc parent) => some (.exited parent .faulted)
  | _ => none

/-- The process that takes a slot. -/
def allottedPid? : Happening → Option Pid
  | allotted pid _ _ _ => some pid
  | _ => none

/-- The process that is abandoned. -/
def abandonedPid? : Happening → Option Pid
  | abandoned pid _ => some pid
  | _ => none

/-- The process of which it becomes known whether it has a thread. -/
def decidedPid? : Happening → Option Pid
  | entered pid | abandoned pid _ | broken pid _ => some pid
  | _ => none

/-- The events that are taken out of the journal for the host. -/
def taken : Happening → List Event
  | deed made => made.taken
  | _ => []

/-- The events that are erased from the journal. -/
def erased : Happening → List Event
  | abandoned _ erased => erased
  | _ => []

end Happening

/-- The processes that took slots, in their order. -/
def allottedPids (log : List Happening) : List Pid := log.filterMap Happening.allottedPid?

/-- The processes that were abandoned. -/
def abandonedPids (log : List Happening) : List Pid := log.filterMap Happening.abandonedPid?

/-- The processes whose starts were erased from the journal. -/
def erasedPids (log : List Happening) : List Pid :=
  (log.flatMap Happening.erased).filterMap Event.spawnedPid?

/-- The journals that were taken, and the one that is there. -/
def Dispatch.journal (log : List Happening) (dispatch : Dispatch) : List Event :=
  log.flatMap Happening.taken ++ dispatch.kernel.processes.events

-----------------------------------------------------------------------------------------
-- What the steps do to the processes
-----------------------------------------------------------------------------------------

/-- A deed that starts nothing logs no start. -/
theorem Deed.spawnedPid?_event (deed : Deed)
    : deed.event?.bind Event.spawnedPid? = deed.startedPid? := by
  fun_cases Deed.event? deed <;> grind [Deed.startedPid?, Deed.event?, Event.spawnedPid?]

namespace Kernel

@[simp] theorem traceStart_processes (caller : Parent) (program : String) (argv : List String)
    (reply : Except Errno Pid) (kernel : Kernel)
    : (kernel.traceStart caller program argv reply).processes = kernel.processes := by
  unfold traceStart
  split <;> simp

end Kernel

namespace ProcessTable

variable {table after : ProcessTable} {pid : Pid} {caller : Parent}

/-- A process holds a slot for somebody who can act, and does not act itself: nobody
is its child.
-/
structure Awaits (table : ProcessTable) (caller : Parent) (pid : Pid) : Prop where
  found : table.slots.get? pid = some ⟨caller, .running⟩
  acts : table.canAct caller = true
  childless : ∀ other slot, table.slots.get? other = some slot → slot.parent ≠ .proc pid

theorem Awaits.runs (awaits : table.Awaits caller pid) : table.isRunning pid = true :=
  isRunning_iff.mpr ⟨caller, awaits.found⟩

/-- Somebody can act as long as it runs, if it is a process. -/
theorem canAct_of_isRunning (acts : table.canAct caller = true)
    (kept : ∀ parent, caller = .proc parent → after.isRunning parent = table.isRunning parent)
    : after.canAct caller = true := by
  cases caller with
  | host => rfl
  | detached => cases acts
  | proc parent => exact (kept parent rfl).trans acts

/-- Who can act can still do so when another process has taken a slot. -/
theorem Started.canAct {parent : Parent} {program : String} {child : Pid} (rooted : table.Rooted)
    (started : table.Started parent program child after) (acts : table.canAct caller = true)
    : after.canAct caller = true := by
  refine canAct_of_isRunning acts fun owner same => ?_
  subst same
  exact started.isRunning_of_ne (rooted.ne_started started acts)

/-- Nobody else is the child of a process that has just taken its slot. -/
theorem Started.awaits (rooted : table.Rooted) {program : String}
    (acts : table.canAct caller = true) (started : table.Started caller program pid after)
    : after.Awaits caller pid := by
  refine ⟨by rw [started.get?, if_pos rfl], started.canAct rooted acts, ?_⟩
  intro other slot found owned
  have rootedAfter := rooted.started acts started
  obtain ⟨-, older⟩ := rootedAfter.parentRuns found owned
  rw [started.get?] at found
  split at found
  · next same => exact Nat.lt_irrefl _ (same ▸ older)
  · have numbered := rooted.numbered found
    rw [started.numbered] at older
    exact Nat.lt_asymm older numbered

/-- A process goes on holding its slot when somebody else starts a process. -/
theorem Awaits.started {parent : Parent} {program : String} {child : Pid}
    (awaits : table.Awaits caller pid) (rooted : table.Rooted)
    (started : table.Started parent program child after) (idle : parent ≠ .proc pid)
    : after.Awaits caller pid := by
  have different : pid ≠ child := rooted.ne_started started awaits.runs
  refine ⟨by rw [started.get?, if_neg different, awaits.found],
    started.canAct rooted awaits.acts, fun other slot held owned => ?_⟩
  rw [started.get?] at held
  split at held
  · cases held
    exact idle owned
  · exact awaits.childless other slot held owned

/-- A process goes on holding its slot when another one ends that has not started it. -/
theorem Awaits.exit {ended : Pid} (awaits : table.Awaits caller pid) (status : ExitStatus)
    (different : pid ≠ ended) (parent : caller ≠ .proc ended)
    : (table.exit ended status).Awaits caller pid := by
  refine ⟨?_, canAct_of_isRunning awaits.acts fun owner same => ?_, fun other slot held owned => ?_⟩
  · simp [get?_exit, get?_disown, awaits.found, parent, different]
  · subst same
    exact isRunning_exit status fun same => parent (congrArg _ same)
  · by_cases same : other = ended
    · subst same
      obtain ⟨old, before, -, rfl⟩ := exit_found_self held
      exact awaits.childless _ _ before owned
    · rcases exit_found_other same held with ⟨before, -⟩ | ⟨-, rfl⟩
      · exact awaits.childless _ _ before owned
      · cases owned

/-- A process goes on holding its slot when another one is joined. -/
theorem Awaits.freed {owner : Parent} {child : Pid} {status : ExitStatus}
    (awaits : table.Awaits caller pid) (freed : table.Freed owner child status after)
    : after.Awaits caller pid := by
  have different {other : Pid} (runs : table.isRunning other = true) : other ≠ child := by
    rintro rfl
    obtain ⟨parent, running⟩ := isRunning_iff.mp runs
    cases freed.found.symm.trans running
  refine ⟨by rw [freed.get?, if_neg (different awaits.runs), awaits.found],
    canAct_of_isRunning awaits.acts fun parent same => ?_, fun other slot held owned => ?_⟩
  · subst same
    exact freed.isRunning_of_ne (different awaits.acts)
  · rw [freed.get?] at held
    split at held
    · cases held
    · exact awaits.childless other slot held owned

/-- A process goes on holding its slot unless it ends, starts a process, or the one ends that has
started it, by cases on the step.
-/
theorem Awaits.step (awaits : table.Awaits caller pid) (rooted : table.Rooted)
    {event : Option Event} {taken : List Event} (step : table.Step event taken after)
    (idle : ∀ child program, event ≠ some (.spawned child (.proc pid) program))
    (stays : ∀ status, event ≠ some (.exited pid status))
    (kept : ∀ parent status, caller = .proc parent → event ≠ some (.exited parent status))
    : after.Awaits caller pid := by
  cases step with
  | clearJournal => exact ⟨awaits.found, awaits.acts, awaits.childless⟩
  | idle => exact awaits
  | spawn _ started =>
      refine awaits.started rooted started ?_
      rintro rfl
      exact idle _ _ rfl
  | @exit ended status runs =>
      refine awaits.exit status (fun same => stays status (same ▸ rfl)) ?_
      exact fun same => kept ended status same rfl
  | reap _ freed => exact awaits.freed freed

/-- Whoever starts a process can act. -/
theorem Step.acts_of_spawned {event : Option Event} {taken : List Event} {child : Pid}
    {program : String} (step : table.Step event taken after)
    (spawned : event = some (.spawned child caller program))
    : table.canAct caller = true := by
  subst spawned
  cases step with
  | spawn acts => exact acts

theorem get?_abandon (table : ProcessTable) (pid other : Pid)
    : (table.abandon pid).slots.get? other
      = if other = pid then none else table.slots.get? other := by
  rw [abandon, FiniteMap.get?_erase]

/-- The start of an abandoned process leaves the journal. -/
theorem events_abandon (table : ProcessTable) (pid : Pid)
    : (table.abandon pid).events = table.events.filter fun event => !event.isStartOf pid := by
  simp [events, abandon, List.filter_reverse]

/-- A process goes on holding its slot when another one is abandoned. -/
theorem Awaits.abandon {other : Pid} {owner : Parent} (awaits : table.Awaits caller pid)
    (awaitsToo : table.Awaits owner other) (different : pid ≠ other)
    : (table.abandon other).Awaits caller pid := by
  refine ⟨by rw [get?_abandon, if_neg different, awaits.found], ?_, fun third slot found => ?_⟩
  · refine canAct_of_isRunning awaits.acts fun parent same => ?_
    subst same
    have apart : parent ≠ other := fun same =>
      awaitsToo.childless pid _ awaits.found (congrArg _ same)
    rw [isRunning, isRunning, get?_abandon, if_neg apart]
  · rw [get?_abandon] at found
    split at found
    · cases found
    · exact awaits.childless third slot found

/-- A process that nobody is the child of can be abandoned. -/
theorem Rooted.abandon (rooted : table.Rooted) (awaits : table.Awaits caller pid)
    : (table.abandon pid).Rooted := by
  have sub {other : Pid} {slot : Slot} (found : (table.abandon pid).slots.get? other = some slot)
      : table.slots.get? other = some slot := by
    rw [get?_abandon] at found
    split at found
    · cases found
    · exact found
  refine ⟨?_, fun found => rooted.numbered (sub found), fun {other slot parent} found owned => ?_,
    fun found => rooted.zombieOwned (sub found)⟩
  · exact Nat.le_trans (FiniteMap.size_erase_le _ _) rooted.bounded
  · obtain ⟨runs, older⟩ := rooted.parentRuns (sub found) owned
    have different : parent ≠ pid := fun same =>
      awaits.childless _ _ (sub found) (same ▸ owned)
    rw [isRunning, get?_abandon, if_neg different]
    exact ⟨runs, older⟩

end ProcessTable

namespace Dispatch

/-- A start in which nobody else does anything is the deed that starts a process at once, for the
kernel and for all starts that have not returned.
-/
theorem steps_of_start {dispatch : Dispatch} {caller : Parent} {program : String}
    {argv : List String} {pid : Pid} {kernel : Kernel}
    (acts : dispatch.kernel.processes.canAct caller = true) (free : dispatch.Free caller)
    (named : canNameThread program = true) (absent : dispatch.startups.get? pid = none)
    (started : dispatch.kernel.start caller program argv = (.ok pid, kernel))
    : ∃ startups,
        Steps dispatch
          [.allotted pid caller program argv, .entered pid,
            .returned pid caller program argv (.ok pid)]
          ⟨kernel.traceStart caller program argv (.ok pid), startups⟩
        ∧ ∀ other, startups.get? other = dispatch.startups.get? other := by
  rw [Kernel.start] at started
  rcases taken : dispatch.kernel.allot caller program argv with ⟨error | child, middle⟩ <;>
    rw [taken] at started <;> cases started
  have inserted (stage : Stage) (startups : FiniteMap Pid Startup)
      : (startups.insert pid ⟨caller, program, argv, stage⟩).get? pid
        = some ⟨caller, program, argv, stage⟩ := by
    rw [FiniteMap.get?_insert, if_pos rfl]
  refine ⟨_, .cons (.allot acts free taken) <| .cons (.enter (inserted _ _) named) <|
    .cons (.ret (inserted _ _)) .nil, fun other => ?_⟩
  simp only [FiniteMap.get?_erase, FiniteMap.get?_insert]
  split
  · next same => rw [same, absent]
  · rfl

end Dispatch

namespace Accounts

variable {log : List Event} {table : ProcessTable} {caller : Parent} {pid : Pid}

/-- A process that is abandoned leaves the table as one that has ended and was joined at once. -/
theorem abandon (accounts : Accounts log table) (rooted : table.Rooted)
    (awaits : table.Awaits caller pid) (status : ExitStatus)
    : Accounts (log ++ [.exited pid status] ++ [.reaped pid caller status])
        (table.abandon pid) := by
  have ended :=
    accounts.step rooted (.exit awaits.runs : table.Step (some (.exited pid status)) [] _)
  obtain ⟨found, acts, childless⟩ := awaits
  have parent : caller ≠ .proc pid := fun same => childless pid _ found same
  have attached : caller ≠ .detached := fun same => by simp [same, ProcessTable.canAct] at acts
  have actsAfter : (table.exit pid status).canAct caller = true := by
    cases caller with
    | host => rfl
    | detached => cases acts
    | proc owner =>
        exact (ProcessTable.isRunning_exit status fun same => parent (congrArg _ same)).trans acts
  let freed : ProcessTable :=
    { (table.exit pid status) with slots := (table.exit pid status).slots.erase pid }
  have reaped
      : (table.exit pid status).Freed caller pid status
          (freed.record (.reaped pid caller status)) := {
    found := by
      simp [ProcessTable.get?_exit, ProcessTable.get?_disown, found, parent, Slot.ended, attached]
    slots := rfl
    next := rfl
    capacity := rfl
    events := by simp [ProcessTable.events, ProcessTable.record, freed]
  }
  have joined := ended.step (rooted.exit pid status) (.reap actsAfter reaped)
  refine ⟨joined.orderly, joined.next, fun other => .trans ?_ (joined.slots other)⟩
  rw [reaped.get?, ProcessTable.get?_abandon]
  split
  · rfl
  · next different =>
      rw [ProcessTable.get?_exit, ProcessTable.get?_disown]
      rcases held : table.slots.get? other with _ | slot
      · rfl
      · simp [childless other slot held, different]

end Accounts

end KernelConformance
