import KernelConformance.Proofs.Processes.JournalFaithfulness
import KernelConformance.Proofs.Processes.Startups

/-! The journal while starts can fail. A log in which an abandoned process ends and is joined at
once accounts for the process table; the journals have it but for these events, and but for the
starts that were erased.
-/

namespace KernelConformance

namespace Event

/-- Whether the journals have an event of the whole log. -/
def isShown (erased abandoned : List Pid) : Event → Bool
  | spawned pid _ _ => pid ∉ erased
  | exited pid _ | reaped pid _ _ => pid ∉ abandoned

/-- What is shown after a process was abandoned, of events that are neither its end nor its join. -/
theorem isShown_append {event : Event} {pid : Pid} (noEnd : ∀ status, event ≠ .exited pid status)
    (noJoin : ∀ parent status, event ≠ .reaped pid parent status) (erased more abandoned : List Pid)
    : event.isShown (erased ++ more) (abandoned ++ [pid])
      = (event.isShown erased abandoned && more.all fun other => !event.isStartOf other) := by
  cases event with
  | spawned other =>
      rw [Bool.eq_iff_iff]
      simp only [isShown, isStartOf]
      grind
  | exited other status =>
      have different : other ≠ pid := fun same => noEnd status (same ▸ rfl)
      simp [isShown, isStartOf, different]
  | reaped other parent status =>
      have different : other ≠ pid := fun same => noJoin parent status (same ▸ rfl)
      simp [isShown, isStartOf, different]

end Event

namespace Journal

variable {log : List Event} {pid : Pid}

/-- Whether a process starts none. -/
def StartsNone (log : List Event) (pid : Pid) : Prop :=
  ∀ child program, .spawned child (.proc pid) program ∉ log

/-- A process has one start at most, by induction on the log. -/
theorem Orderly.filter_isStartOf (orderly : Orderly log) {parent : Parent} {program : String}
    (started : .spawned pid parent program ∈ log)
    : log.filter (Event.isStartOf pid) = [.spawned pid parent program] := by
  have none {log : List Event} (unknown : spawner? log pid = none)
      : log.filter (Event.isStartOf pid) = [] := by
    refine List.filter_eq_nil_iff.mpr fun event member isStart => ?_
    have known := List.findSome?_eq_none_iff.mp unknown event member
    cases event with
    | spawned other owner name => simp_all [Event.isStartOf, Event.parentOf?]
    | exited => cases isStart
    | reaped => cases isStart
  induction orderly with
  | nil => cases started
  | @snoc log event orderly follows ih =>
      rw [List.filter_append]
      rcases List.mem_append.mp started with before | now
      · have known := orderly.spawner?_eq_some.mpr ⟨program, before⟩
        have other : event.isStartOf pid = false := by
          refine Bool.eq_false_iff.mpr fun isStart => ?_
          cases event with
          | spawned again owner name =>
              obtain rfl : again = pid := by simpa [Event.isStartOf] using isStart
              cases known.symm.trans (orderly.fresh follows.1).1
          | exited => cases isStart
          | reaped => cases isStart
        simp [ih before, other]
      · obtain rfl := List.mem_singleton.mp now
        rw [none (orderly.fresh follows.1).1]
        simp [Event.isStartOf]

end Journal

open Journal

-----------------------------------------------------------------------------------------
-- The journals and the whole log
-----------------------------------------------------------------------------------------

/-- The whole log accounts for the process table, and the journals have what of it is shown.
Abandoned processes have ended in it without having done anything, and an erased event is the start
of the one that was abandoned.
-/
structure Recorded (log : List Happening) (dispatch : Dispatch) (whole : List Event) : Prop where
  rooted : dispatch.kernel.processes.Rooted
  accounts : Accounts whole dispatch.kernel.processes
  starts : whole.filterMap Event.spawnedPid? = allottedPids log
  journal
    : dispatch.journal log = whole.filter (Event.isShown (erasedPids log) (abandonedPids log))
  gone : ∀ pid ∈ abandonedPids log, wasReaped whole pid = true ∧ StartsNone whole pid
  erased
    : ∀ pid events,
        .abandoned pid events ∈ log
        → ∃ caller program,
            .spawned pid caller program ∈ whole
            ∧ (events = [] ∧ .spawned pid caller program ∈ log.flatMap Happening.taken
              ∨ events = [.spawned pid caller program])

namespace Recorded

variable {log : List Happening} {dispatch after : Dispatch} {whole : List Event}
  {pid : Pid}

/-- Only the start of an abandoned process is erased. -/
theorem abandoned_of_erased (recorded : Recorded log dispatch whole) (erased : pid ∈ erasedPids log)
    : pid ∈ abandonedPids log := by
  obtain ⟨event, member, start⟩ := List.mem_filterMap.mp erased
  obtain ⟨happening, done, among⟩ := List.mem_flatMap.mp member
  cases happening with
  | abandoned other events =>
      obtain ⟨caller, program, -, ⟨rfl, -⟩ | rfl⟩ := recorded.erased other events done
      · cases among
      · obtain rfl := List.mem_singleton.mp among
        cases start
        exact List.mem_filterMap.mpr ⟨_, done, rfl⟩
  | _ => cases among

/-- An abandoned process is not in the table. -/
theorem get?_of_abandoned (recorded : Recorded log dispatch whole)
    (abandoned : pid ∈ abandonedPids log)
    : dispatch.kernel.processes.slots.get? pid = none := by
  rw [recorded.accounts.slots, slot?, (recorded.gone pid abandoned).1]
  cases spawner? whole pid <;> rfl

theorem not_abandoned_of_running (recorded : Recorded log dispatch whole)
    (runs : dispatch.kernel.processes.isRunning pid = true)
    : pid ∉ abandonedPids log := by
  intro abandoned
  rw [ProcessTable.isRunning, recorded.get?_of_abandoned abandoned] at runs
  cases runs

/-- What can come next in the whole log is shown, as it is not about an abandoned process. -/
theorem isShown_of_canFollow (recorded : Recorded log dispatch whole) {event : Event}
    (follows : CanFollow whole event)
    : event.isShown (erasedPids log) (abandonedPids log) = true := by
  have other {pid : Pid} (kept : wasReaped whole pid = false) : pid ∉ abandonedPids log :=
    fun abandoned => by
      rw [(recorded.gone pid abandoned).1] at kept
      cases kept
  cases event with
  | spawned pid parent program =>
      have fresh := (recorded.accounts.orderly.fresh follows.1).2.2
      exact decide_eq_true (mt recorded.abandoned_of_erased (other fresh))
  | exited pid status =>
      refine decide_eq_true fun abandoned => ?_
      have ended := recorded.accounts.orderly.exited_of_reaped (recorded.gone pid abandoned).1
      rw [follows.2] at ended
      cases ended
  | reaped pid parent status => exact decide_eq_true (other follows.2.2)

/-- A step that abandons nobody adds its event to the journal and to the whole log. -/
theorem step (recorded : Recorded log dispatch whole) (happening : Happening)
    (moved
      : dispatch.kernel.processes.Step happening.event? happening.taken after.kernel.processes)
    (starts : happening.event?.bind Event.spawnedPid? = happening.allottedPid?)
    (kept : happening.abandonedPid? = none)
    : Recorded (log ++ [happening]) after (whole ++ happening.event?.toList) := by
  have spared : happening.erased = [] := by
    cases happening with
    | abandoned => cases kept
    | _ => rfl
  have sameAbandoned : abandonedPids (log ++ [happening]) = abandonedPids log := by
    simp [abandonedPids, kept]
  have sameErased : erasedPids (log ++ [happening]) = erasedPids log := by
    simp [erasedPids, spared]
  refine ⟨moved.rooted recorded.rooted, recorded.accounts.step recorded.rooted moved, ?_, ?_, ?_,
    ?_⟩
  · rw [allottedPids, filterMap_snoc, ← allottedPids, ← recorded.starts, List.filterMap_append,
      ← starts]
    cases happening.event? with
    | none => rfl
    | some event => cases same : event.spawnedPid? <;> simp [same]
  · have grown := moved.events
    rw [sameAbandoned, sameErased, List.filter_append, ← recorded.journal, Dispatch.journal,
      List.flatMap_append, List.append_assoc, List.flatMap_singleton, grown, Dispatch.journal,
      List.append_assoc]
    congr 2
    rcases event : happening.event? with _ | event'
    · rfl
    · rw [event] at moved
      have shown := recorded.isShown_of_canFollow (recorded.accounts.canFollow moved)
      simp [shown]
  · rw [sameAbandoned]
    intro pid abandoned
    obtain ⟨reaped, startsNone⟩ := recorded.gone pid abandoned
    refine ⟨?_, fun child program member => ?_⟩
    · rcases happening.event? with _ | event <;> simp [reaped]
    · rcases List.mem_append.mp member with before | now
      · exact startsNone child program before
      · have acts := moved.acts_of_spawned (by simpa using now)
        exact recorded.not_abandoned_of_running acts abandoned
  · intro pid events member
    rcases List.mem_append.mp member with before | now
    · obtain ⟨caller, program, started, fate⟩ := recorded.erased pid events before
      refine ⟨caller, program, List.mem_append_left _ started, fate.imp_left fun early => ?_⟩
      exact ⟨early.1, by simp [early.2]⟩
    · cases List.mem_singleton.mp now
      cases kept

/-- The journals have the start of a process that waits for its thread once: among those that were
taken, or in the one that is there.
-/
theorem start_once (recorded : Recorded log dispatch whole) {caller : Parent} {program : String}
    (alive : pid ∉ abandonedPids log) (started : .spawned pid caller program ∈ whole)
    : (log.flatMap Happening.taken).filter (Event.isStartOf pid)
        ++ dispatch.kernel.processes.events.filter (Event.isStartOf pid)
      = [.spawned pid caller program] := by
  have unerased := mt recorded.abandoned_of_erased alive
  rw [← List.filter_append]
  change (dispatch.journal log).filter _ = _
  rw [recorded.journal, List.filter_filter, ← recorded.accounts.orderly.filter_isStartOf started]
  refine List.filter_congr fun event _ => ?_
  cases event with
  | spawned other =>
      by_cases same : other = pid
      · subst same
        simp [Event.isShown, unerased]
      · simp [Event.isStartOf, same]
  | exited => rfl
  | reaped => rfl

/-- Erasing the start of a process that is abandoned leaves what is shown of the whole log now: if
it was taken before, there is nothing to erase.
-/
theorem journal_abandon (recorded : Recorded log dispatch whole) {caller : Parent}
    {program : String} (awaits : dispatch.kernel.processes.Awaits caller pid)
    (started : .spawned pid caller program ∈ whole)
    : log.flatMap Happening.taken ++ (dispatch.kernel.processes.abandon pid).events
      = whole.filter
          (Event.isShown
            (erasedPids log
              ++ (dispatch.kernel.processes.events.filter (Event.isStartOf pid)).filterMap
                Event.spawnedPid?)
            (abandonedPids log ++ [pid])) := by
  have orderly := recorded.accounts.orderly
  obtain ⟨-, running⟩ := recorded.accounts.running awaits.runs
  have once := recorded.start_once (recorded.not_abandoned_of_running awaits.runs) started
  have shown (more : List Pid)
      : whole.filter (Event.isShown (erasedPids log ++ more) (abandonedPids log ++ [pid]))
        = (dispatch.journal log).filter fun event => more.all fun other =>
          !event.isStartOf other := by
    rw [recorded.journal, List.filter_filter]
    refine List.filter_congr fun event member => ?_
    rw [Bool.and_comm]
    refine Event.isShown_append (fun status same => ?_) (fun parent status same => ?_) _ _ _
    · rw [orderly.exitStatus?_eq_some.mpr (same ▸ member)] at running
      cases running
    · rw [(orderly.of_reaped (same ▸ member)).2] at running
      cases running
  have kept {events : List Event} (absent : events.filter (Event.isStartOf pid) = [])
      : (events.filter fun event => !event.isStartOf pid) = events :=
    List.filter_eq_self.mpr fun event member => by
      simpa using List.filter_eq_nil_iff.mp absent event member
  rw [shown, ProcessTable.events_abandon, Dispatch.journal]
  rcases List.append_eq_singleton_iff.mp once with ⟨untaken, present⟩ | ⟨taken, absent⟩
  · simp [present, Event.spawnedPid?, kept untaken]
  · rw [absent, kept absent]
    exact (List.filter_eq_self.mpr fun _ _ => rfl).symm

/-- When a process is abandoned, it ends in the whole log, and its start is erased
unless it was taken.
-/
theorem abandon (recorded : Recorded log dispatch whole) {caller : Parent} {program : String}
    (awaits : dispatch.kernel.processes.Awaits caller pid)
    (started : .spawned pid caller program ∈ whole) (startsNone : StartsNone whole pid)
    (startups : FiniteMap Pid Startup)
    : Recorded
        (log ++ [.abandoned pid (dispatch.kernel.processes.events.filter (Event.isStartOf pid))])
        ⟨dispatch.kernel.abandon pid, startups⟩
        (whole ++ [.exited pid .faulted] ++ [.reaped pid caller .faulted]) := by
  have once := recorded.start_once (recorded.not_abandoned_of_running awaits.runs) started
  have journal := recorded.journal_abandon awaits started
  have abandonedNow (events : List Event)
      : abandonedPids (log ++ [.abandoned pid events]) = abandonedPids log ++ [pid] := by
    simp [abandonedPids, Happening.abandonedPid?]
  have stays {other : Pid} (none : StartsNone whole other)
      : StartsNone (whole ++ [.exited pid .faulted] ++ [.reaped pid caller .faulted]) other :=
    fun child program member => none child program (by simpa using member)
  refine ⟨recorded.rooted.abandon awaits, recorded.accounts.abandon recorded.rooted awaits _, ?_,
    ?_,
    fun other abandoned => ?_, fun other events member => ?_⟩
  · have same := recorded.starts
    rw [allottedPids] at same
    simp only [allottedPids, filterMap_snoc, same, Event.spawnedPid?, Happening.allottedPid?,
      Option.toList_none]
    simp
  · rw [abandonedNow, erasedPids, List.flatMap_append, List.filterMap_append, ← erasedPids,
      Dispatch.journal, List.flatMap_append]
    simpa [Happening.taken, Happening.erased, Event.isShown, Kernel.abandon] using journal
  · rw [abandonedNow] at abandoned
    rcases List.mem_append.mp abandoned with before | now
    · obtain ⟨reaped, none⟩ := recorded.gone other before
      exact ⟨by simp only [wasReaped_snoc, reaped, Bool.true_or], stays none⟩
    · obtain rfl := List.mem_singleton.mp now
      exact ⟨by simp only [wasReaped_snoc, Event.isJoinOf, decide_true, Bool.or_true],
        stays startsNone⟩
  · rcases List.mem_append.mp member with before | now
    · obtain ⟨parent, name, known, fate⟩ := recorded.erased other events before
      refine ⟨parent, name, by simp [known], fate.imp_left fun early => ⟨early.1, ?_⟩⟩
      simp [early.2]
    · cases List.mem_singleton.mp now
      refine ⟨caller, program, by simp [started], ?_⟩
      rcases List.append_eq_singleton_iff.mp once with ⟨-, present⟩ | ⟨taken, absent⟩
      · exact .inr present
      · have found : .spawned pid caller program ∈ (log.flatMap Happening.taken).filter
            (Event.isStartOf pid) := taken ▸ List.mem_singleton_self _
        exact .inl ⟨absent, by simp [(List.mem_filter.mp found).1]⟩

end Recorded

end KernelConformance
