import KernelConformance.Proofs.Processes.StartupRuns
import Mathlib.Data.List.Nodup

/-! What the journals tell while starts can fail. They list the processes in the order in which
these have taken their slots, but for those that were abandoned before the journal was taken; and
they tell the process table, as long as it is known who was abandoned.
-/

namespace KernelConformance

open Journal

/-- What the journals have of the starts. The processes that took slots are numbered from 1 on,
and the journals list them in this order but for those that were erased. Every start that
succeeded is there; one that is there has succeeded, is on its way, has broken whoever made it,
or was abandoned after the journal was taken, and what is erased is the start of a process that
was abandoned before that.
-/
structure ListsStarts (log : List Happening) (dispatch : Dispatch) : Prop where
  numbered : (allottedPids log).map Pid.number = List.range' 1 (allottedPids log).length
  listed
    : (dispatch.journal log).filterMap Event.spawnedPid?
      = (allottedPids log).filter fun pid => pid ∉ erasedPids log
  succeeded
    : ∀ {caller program argv pid},
        .returned pid caller program argv (.ok pid) ∈ log
        → .spawned pid caller program ∈ dispatch.journal log
  cause
    : ∀ {pid caller program},
        .spawned pid caller program ∈ dispatch.journal log
        → (∃ argv, .returned pid caller program argv (.ok pid) ∈ log)
          ∨ (∃ startup,
              dispatch.startups.get? pid = some startup
              ∧ startup.caller = caller
              ∧ startup.program = program)
          ∨ pid ∈ abandonedPids log
  taken
    : ∀ {pid},
        pid ∈ abandonedPids log
        → (pid ∈ erasedPids log
            ∨ ∃ caller program, .spawned pid caller program ∈ log.flatMap Happening.taken)
          ∧ ∀ caller program, .spawned pid caller program ∉ dispatch.kernel.processes.events
  erased : ∀ {pid}, pid ∈ erasedPids log → pid ∈ abandonedPids log

namespace Recorded

variable {log : List Happening} {dispatch : Dispatch} {whole : List Event} {pid : Pid}

theorem mem_journal (recorded : Recorded log dispatch whole) {event : Event}
    : event ∈ dispatch.journal log
      ↔ event ∈ whole ∧ event.isShown (erasedPids log) (abandonedPids log) = true := by
  rw [recorded.journal, List.mem_filter]

theorem mem_journal_spawned (recorded : Recorded log dispatch whole) {caller : Parent}
    {program : String} (kept : pid ∉ erasedPids log)
    : .spawned pid caller program ∈ dispatch.journal log ↔ .spawned pid caller program ∈ whole := by
  rw [recorded.mem_journal]
  exact and_iff_left (decide_eq_true kept)

theorem mem_journal_exited (recorded : Recorded log dispatch whole) {status : ExitStatus}
    (kept : pid ∉ abandonedPids log)
    : .exited pid status ∈ dispatch.journal log ↔ .exited pid status ∈ whole := by
  rw [recorded.mem_journal]
  exact and_iff_left (decide_eq_true kept)

/-- A process that was not abandoned has the same ends and joins in the journals as in
the whole log.
-/
theorem hasExited_iff (recorded : Recorded log dispatch whole) (kept : pid ∉ abandonedPids log)
    : HasExited (dispatch.journal log) pid ↔ HasExited whole pid := by
  simp only [HasExited, recorded.mem_journal_exited kept]

theorem hasReaped_iff (recorded : Recorded log dispatch whole) (kept : pid ∉ abandonedPids log)
    : HasReaped (dispatch.journal log) pid ↔ HasReaped whole pid := by
  simp only [HasReaped, recorded.mem_journal, Event.isShown, kept, not_false_eq_true, decide_true,
    and_true]

theorem hasSpawned_iff (recorded : Recorded log dispatch whole) (kept : pid ∉ abandonedPids log)
    : HasSpawned (dispatch.journal log) pid ↔ HasSpawned whole pid := by
  simp only [HasSpawned, recorded.mem_journal_spawned (mt recorded.abandoned_of_erased kept)]

/-- Whoever has started a process was not abandoned, so that its end is in the journals. -/
theorem spawnerExited_iff (recorded : Recorded log dispatch whole) (kept : pid ∉ abandonedPids log)
    : SpawnerExited (dispatch.journal log) pid ↔ SpawnerExited whole pid := by
  simp only [SpawnerExited, recorded.mem_journal_spawned (mt recorded.abandoned_of_erased kept)]
  refine exists_congr fun spawner => exists_congr fun program => and_congr_right fun started => ?_
  exact recorded.hasExited_iff fun abandoned => (recorded.gone spawner abandoned).2 _ _ started

theorem not_abandoned_of_found (recorded : Recorded log dispatch whole) {slot : Slot}
    (found : dispatch.kernel.processes.slots.get? pid = some slot)
    : pid ∉ abandonedPids log := by
  intro abandoned
  cases (recorded.get?_of_abandoned abandoned).symm.trans found

/-- A cut of the journals is a cut of the whole log. -/
theorem cut (recorded : Recorded log dispatch whole) {before after : List Event} {event : Event}
    (same : dispatch.journal log = before ++ event :: after)
    : ∃ early late,
        whole = early ++ event :: late
        ∧ before = early.filter (Event.isShown (erasedPids log) (abandonedPids log))
        ∧ event.isShown (erasedPids log) (abandonedPids log) = true := by
  rw [recorded.journal] at same
  obtain ⟨front, back, rfl, rfl, later⟩ := List.filter_eq_append_iff.mp same
  obtain ⟨gap, rest, rfl, hidden, shown, -⟩ := List.filter_eq_cons_iff.mp later
  refine ⟨front ++ gap, rest, by simp, ?_, shown⟩
  rw [List.filter_append, List.filter_eq_nil_iff.mpr hidden, List.append_nil]

/-- The journals are faithful to the process table. -/
theorem faithful (recorded : Recorded log dispatch whole)
    : FaithfulTo (dispatch.journal log) (· ∈ abandonedPids log) dispatch.kernel.processes := by
  have orderly := recorded.accounts.orderly
  have known := recorded.accounts.faithful
  have sub : (dispatch.journal log).Sublist whole := recorded.journal ▸ List.filter_sublist
  exact {
    exitsOnce := known.exitsOnce.sublist (sub.filterMap _)
    exitFollowsSpawn := by
      intro before after pid status same
      obtain ⟨early, late, rfl, rfl, shown⟩ := recorded.cut same
      obtain ⟨parent, program, started⟩ := known.exitFollowsSpawn rfl
      have kept : pid ∉ abandonedPids log := of_decide_eq_true shown
      have unerased := mt recorded.abandoned_of_erased kept
      exact ⟨parent, program, List.mem_filter.mpr ⟨started, decide_eq_true unerased⟩⟩
    reapsOnce := known.reapsOnce.sublist (sub.filterMap _)
    reapFollowsExit := by
      intro before after pid parent status same
      obtain ⟨early, late, rfl, rfl, shown⟩ := recorded.cut same
      obtain ⟨ended, program, started⟩ := known.reapFollowsExit rfl
      have kept : pid ∉ abandonedPids log := of_decide_eq_true shown
      have unerased := mt recorded.abandoned_of_erased kept
      exact ⟨List.mem_filter.mpr ⟨ended, decide_eq_true kept⟩, program,
        List.mem_filter.mpr ⟨started, decide_eq_true unerased⟩⟩
    present := fun pid => by
      by_cases abandoned : pid ∈ abandonedPids log
      · simp [FiniteMap.contains, recorded.get?_of_abandoned abandoned, abandoned]
      · rw [recorded.hasSpawned_iff abandoned, recorded.hasReaped_iff abandoned,
          recorded.hasExited_iff abandoned, recorded.spawnerExited_iff abandoned]
        simpa [abandoned] using known.present pid
    running := fun found => by
      rw [recorded.hasExited_iff (recorded.not_abandoned_of_found found)]
      exact known.running found
    zombie := fun found => by
      rw [recorded.mem_journal_exited (recorded.not_abandoned_of_found found)]
      exact known.zombie found
    detached := fun found => by
      rw [recorded.spawnerExited_iff (recorded.not_abandoned_of_found found)]
      exact known.detached found
    attached := fun found started present => by
      have kept := recorded.not_abandoned_of_found found
      rw [recorded.spawnerExited_iff kept] at present
      exact known.attached found (recorded.mem_journal.mp started).1 present
  }

/-- The start of an abandoned process was erased or taken before, and it is not in the journal that
is there, as no process has two starts.
-/
theorem taken_of_abandoned (recorded : Recorded log dispatch whole)
    (abandoned : pid ∈ abandonedPids log)
    : (pid ∈ erasedPids log
        ∨ ∃ caller program, .spawned pid caller program ∈ log.flatMap Happening.taken)
      ∧ ∀ caller program, .spawned pid caller program ∉ dispatch.kernel.processes.events := by
  have known : pid ∈ erasedPids log
      ∨ ∃ caller program, .spawned pid caller program ∈ log.flatMap Happening.taken := by
    obtain ⟨happening, done, same⟩ := List.mem_filterMap.mp abandoned
    cases happening with
    | abandoned other events =>
        cases same
        obtain ⟨caller, program, -, ⟨-, taken⟩ | rfl⟩ := recorded.erased pid events done
        · exact .inr ⟨caller, program, taken⟩
        · have erased : .spawned pid caller program ∈ log.flatMap Happening.erased :=
            List.mem_flatMap.mpr ⟨_, done, List.mem_singleton_self _⟩
          exact .inl (List.mem_filterMap.mpr ⟨_, erased, rfl⟩)
    | _ => cases same
  refine ⟨known, fun caller program there => ?_⟩
  have unique : ((dispatch.journal log).filterMap Event.spawnedPid?).Nodup := by
    have sub : (dispatch.journal log).Sublist whole := recorded.journal ▸ List.filter_sublist
    refine List.Nodup.sublist (sub.filterMap _) (List.Nodup.of_map Pid.number ?_)
    rw [recorded.accounts.orderly.numbers]
    exact List.nodup_range'
  rcases known with erased | ⟨owner, name, taken⟩
  · have shown := (recorded.mem_journal.mp (List.mem_append_right _ there)).2
    exact of_decide_eq_true shown erased
  · rw [Dispatch.journal, List.filterMap_append, List.nodup_append] at unique
    have early : pid ∈ (log.flatMap Happening.taken).filterMap Event.spawnedPid? :=
      List.mem_filterMap.mpr ⟨_, taken, rfl⟩
    have late : pid ∈ dispatch.kernel.processes.events.filterMap Event.spawnedPid? :=
      List.mem_filterMap.mpr ⟨_, there, rfl⟩
    exact unique.2.2 pid early pid late rfl

/-- The journals list the starts. -/
theorem listsStarts (recorded : Recorded log dispatch whole)
    (accompanied : Accompanied log dispatch whole)
    : ListsStarts log dispatch where
  numbered := by
    have numbers := recorded.accounts.orderly.numbers
    rwa [spawnCount, recorded.starts] at numbers
  listed := by
    rw [recorded.journal, ← recorded.starts, List.filterMap_filter, List.filter_filterMap]
    congr 1
    funext event
    cases event with
    | spawned pid => simp [Event.isShown, Event.spawnedPid?, Option.filter]
    | exited => simp [Event.spawnedPid?]
    | reaped => simp [Event.spawnedPid?]
  succeeded returned := by
    obtain ⟨entered, started⟩ := accompanied.returned returned
    have kept := accompanied.entered entered
    exact (recorded.mem_journal_spawned (mt recorded.abandoned_of_erased kept)).mpr started
  cause started := accompanied.cause (recorded.mem_journal.mp started).1
  taken abandoned := recorded.taken_of_abandoned abandoned
  erased := recorded.abandoned_of_erased

end Recorded

namespace Dispatch.Run

variable {config : Config} {log : List Happening} {dispatch : Dispatch}

/-- However the steps of starts are interleaved with each other and with all else, and whether or
not threads can be created, the journals list the starts and tell the process table.
-/
theorem journal_complete (run : Dispatch.Run config log dispatch)
    : ListsStarts log dispatch
      ∧ FaithfulTo (dispatch.journal log) (· ∈ abandonedPids log) dispatch.kernel.processes := by
  obtain ⟨whole, recorded, accompanied⟩ := run.followed
  exact ⟨recorded.listsStarts accompanied, recorded.faithful⟩

/-- A process whose start is abandoned after the journal was taken, one whose start is abandoned
before that, and one that ends before its start has returned.
-/
def abandonedLog : List Happening :=
  [
    .deed (.register "p"),
    .allotted (.ofNat 1) .host "p" [],
    .entered (.ofNat 1),
    .returned (.ofNat 1) .host "p" [] (.ok (.ofNat 1)),
    .allotted (.ofNat 2) (.proc (.ofNat 1)) "p" [],
    .deed
      (.takeJournal
        [.spawned (.ofNat 1) .host "p", .spawned (.ofNat 2) (.proc (.ofNat 1)) "p"]),
    .abandoned (.ofNat 2) [],
    .returned (.ofNat 2) (.proc (.ofNat 1)) "p" [] (.error .unavailable),
    .allotted (.ofNat 3) .host "p" [],
    .abandoned (.ofNat 3) [.spawned (.ofNat 3) .host "p"],
    .returned (.ofNat 3) .host "p" [] (.error .unavailable),
    .allotted (.ofNat 4) (.proc (.ofNat 1)) "p" [],
    .entered (.ofNat 4),
    .deed (.finish (.ofNat 4) (.exit 3)),
    .returned (.ofNat 4) (.proc (.ofNat 1)) "p" [] (.ok (.ofNat 4))
  ]

theorem exists_abandoned
    : ∃ dispatch,
        Dispatch.Run .standard abandonedLog dispatch
        ∧ dispatch.journal abandonedLog
          = [.spawned (.ofNat 1) .host "p", .spawned (.ofNat 2) (.proc (.ofNat 1)) "p",
            .spawned (.ofNat 4) (.proc (.ofNat 1)) "p", .exited (.ofNat 4) (.exited 3)]
        ∧ dispatch.kernel.processes.slots.get? (.ofNat 2) = none
        ∧ dispatch.kernel.processes.size = 2 :=
  ⟨_, .extend .boot (.cons (.act trivial rfl (.register "p")) <| .cons (.allot rfl trivial rfl) <|
    .cons (.enter rfl rfl) <| .cons (.ret rfl) <|
    .cons (.allot rfl (free_of_entries nofun nofun) rfl) <|
    .cons (.act trivial rfl .takeJournal) <| .cons (.abandon rfl rfl) <| .cons (.ret rfl) <|
    .cons (.allot rfl trivial rfl) <| .cons (.abandon rfl rfl) <| .cons (.ret rfl) <|
    .cons (.allot rfl (free_of_entries nofun nofun) rfl) <| .cons (.enter rfl rfl) <|
    .cons (.act (free_of_entries (List.forall_mem_singleton.mpr fun _ => rfl)
      (List.forall_mem_singleton.mpr nofun)) rfl (.finish rfl)) <|
    .cons (.ret rfl) .nil), rfl, rfl, rfl⟩

/-- The journals of such a run list all processes but the third, and the table has two of them. -/
theorem journal_complete_abandoned
    : ∃ dispatch,
        Dispatch.Run .standard abandonedLog dispatch
        ∧ dispatch.kernel.processes.size = 2
        ∧ ListsStarts abandonedLog dispatch
        ∧ FaithfulTo (dispatch.journal abandonedLog) (· ∈ abandonedPids abandonedLog)
            dispatch.kernel.processes := by
  obtain ⟨dispatch, run, -, -, size⟩ := exists_abandoned
  obtain ⟨lists, faithful⟩ := run.journal_complete
  exact ⟨dispatch, run, size, lists, faithful⟩

/-- A process whose start is abandoned between two others. -/
def gapLog : List Happening :=
  [
    .deed (.register "p"),
    .allotted (.ofNat 1) .host "p" [],
    .entered (.ofNat 1),
    .returned (.ofNat 1) .host "p" [] (.ok (.ofNat 1)),
    .allotted (.ofNat 2) .host "p" [],
    .abandoned (.ofNat 2) [.spawned (.ofNat 2) .host "p"],
    .returned (.ofNat 2) .host "p" [] (.error .unavailable),
    .allotted (.ofNat 3) .host "p" [],
    .entered (.ofNat 3),
    .returned (.ofNat 3) .host "p" [] (.ok (.ofNat 3))
  ]

/-- A process that is broken by a start, as the name of the program contains NUL. -/
def brokenLog : List Happening :=
  [
    .deed (.register "s"),
    .deed (.register "a\x00b"),
    .allotted (.ofNat 1) .host "s" [],
    .entered (.ofNat 1),
    .returned (.ofNat 1) .host "s" [] (.ok (.ofNat 1)),
    .allotted (.ofNat 2) (.proc (.ofNat 1)) "a\x00b" [],
    .broken (.ofNat 2) (.proc (.ofNat 1))
  ]

/-- The starts in the journals need not be numbered without gaps, they may be those of starts that
have failed, and one that can neither succeed nor fail any more is there too, with its process in
the table.
-/
theorem spawned_with_gap
    : (∃ dispatch,
        Dispatch.Run .standard gapLog dispatch
        ∧ ((dispatch.journal gapLog).filterMap Event.spawnedPid?).map Pid.number = [1, 3]
        ∧ [1, 3] ≠ List.range' 1 2)
      ∧ (∃ dispatch,
        Dispatch.Run .standard abandonedLog dispatch
        ∧ .returned (.ofNat 2) (.proc (.ofNat 1)) "p" [] (.error .unavailable) ∈ abandonedLog
        ∧ .spawned (.ofNat 2) (.proc (.ofNat 1)) "p" ∈ dispatch.journal abandonedLog
        ∧ dispatch.kernel.processes.slots.get? (.ofNat 2) = none)
      ∧ ∃ dispatch,
        Dispatch.Run .standard brokenLog dispatch
        ∧ dispatch.journal brokenLog
          = [.spawned (.ofNat 1) .host "s", .spawned (.ofNat 2) (.proc (.ofNat 1)) "a\x00b",
            .exited (.ofNat 1) .faulted]
        ∧ (∀ argv, .returned (.ofNat 2) (.proc (.ofNat 1)) "a\x00b" argv (.ok (.ofNat 2))
          ∉ brokenLog)
        ∧ dispatch.kernel.processes.slots.get? (.ofNat 2) = some ⟨.detached, .running⟩ := by
  refine ⟨⟨_, .extend .boot (.cons (.act trivial rfl (.register "p")) <|
      .cons (.allot rfl trivial rfl) <| .cons (.enter rfl rfl) <| .cons (.ret rfl) <|
      .cons (.allot rfl trivial rfl) <| .cons (.abandon rfl rfl) <| .cons (.ret rfl) <|
      .cons (.allot rfl trivial rfl) <| .cons (.enter rfl rfl) <| .cons (.ret rfl) .nil), rfl,
      by decide⟩, ?_, ?_⟩
  · obtain ⟨dispatch, run, journal, absent, -⟩ := exists_abandoned
    exact ⟨dispatch, run, by simp [abandonedLog], by simp [journal], absent⟩
  · exact ⟨_, .extend .boot (.cons (.act trivial rfl (.register "s")) <|
      .cons (.act trivial rfl (.register "a\x00b")) <| .cons (.allot rfl trivial rfl) <|
      .cons (.enter rfl rfl) <| .cons (.ret rfl) <|
      .cons (.allot rfl (free_of_entries nofun nofun) rfl) <| .cons (.breakOff rfl rfl) .nil), rfl,
      by simp [brokenLog], rfl⟩

end Dispatch.Run

end KernelConformance
