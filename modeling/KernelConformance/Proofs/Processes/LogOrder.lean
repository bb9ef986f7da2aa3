import KernelConformance.Proofs.Runs

/-! Logs of events in an order in which they can happen: processes are numbered as they start, end
once after their start, and are joined once after their end.
-/

namespace KernelConformance

namespace Event

/-- The process that an event starts. -/
def spawnedPid? : Event → Option Pid
  | spawned pid _ _ => some pid
  | _ => none

/-- The process whose end an event is. -/
def exitedPid? : Event → Option Pid
  | exited pid _ => some pid
  | _ => none

/-- The process that an event joins. -/
def reapedPid? : Event → Option Pid
  | reaped pid _ _ => some pid
  | _ => none

/-- Who starts a process with an event. -/
def parentOf? (pid : Pid) : Event → Option Parent
  | spawned other parent _ => if other = pid then some parent else none
  | _ => none

/-- The status with which a process ends with an event. -/
def statusOf? (pid : Pid) : Event → Option ExitStatus
  | exited other status => if other = pid then some status else none
  | _ => none

/-- Whether an event is the join of a process. -/
def isJoinOf (pid : Pid) : Event → Bool
  | reaped other _ _ => other = pid
  | _ => false

end Event

/-- The processes that a history starts are those that its deeds have started. -/
theorem history_starts (deeds : List Deed)
    : (history deeds).filterMap Event.spawnedPid? = deeds.filterMap Deed.startedPid? := by
  rw [history, List.filterMap_filterMap]
  congr 1
  funext deed
  fun_cases Deed.event? deed <;> grind [Deed.startedPid?, Deed.event?, Event.spawnedPid?]

theorem history_joins (deeds : List Deed)
    : (history deeds).filterMap Event.reapedPid? = deeds.filterMap Deed.joinedPid? := by
  rw [history, List.filterMap_filterMap]
  congr 1
  funext deed
  fun_cases Deed.event? deed <;> grind [Deed.joinedPid?, Deed.event?, Event.reapedPid?]

namespace Journal

/-- Who started a process. -/
def spawner? (log : List Event) (pid : Pid) : Option Parent := log.findSome? (Event.parentOf? pid)

/-- The status with which a process has ended. -/
def exitStatus? (log : List Event) (pid : Pid) : Option ExitStatus :=
  log.findSome? (Event.statusOf? pid)

/-- Whether a process was joined. -/
def wasReaped (log : List Event) (pid : Pid) : Bool := log.any (Event.isJoinOf pid)

/-- Whether somebody has exited, which the host never does. -/
def isGone (log : List Event) : Parent → Bool
  | .proc pid => (exitStatus? log pid).isSome
  | _ => false

/-- The number of processes started in a log. -/
def spawnCount (log : List Event) : Nat := (log.filterMap Event.spawnedPid?).length

/-- Whether an event can come next: starts are numbered and made by those who run, a process ends
once, and it is joined once, by the one that started it and with the status of its end.
-/
def CanFollow (log : List Event) : Event → Prop
  | .spawned pid parent _ =>
      pid.number = spawnCount log + 1
      ∧ parent ≠ .detached
      ∧ isGone log parent = false
      ∧ ∀ older, parent = .proc older → (spawner? log older).isSome
  | .exited pid _ => (spawner? log pid).isSome ∧ exitStatus? log pid = none
  | .reaped pid parent status =>
      spawner? log pid = some parent
      ∧ exitStatus? log pid = some status
      ∧ wasReaped log pid = false

/-- A log in which every event can follow those before it. -/
inductive Orderly : List Event → Prop where
  | nil : Orderly []
  | snoc {log event} (orderly : Orderly log) (follows : CanFollow log event)
    : Orderly (log ++ [event])

variable {log : List Event}

-----------------------------------------------------------------------------------------
-- Views of a log that has grown by an event
-----------------------------------------------------------------------------------------

@[simp] theorem spawner?_snoc (log : List Event) (event : Event) (pid : Pid)
    : spawner? (log ++ [event]) pid = (spawner? log pid).or (event.parentOf? pid) := by
  simp [spawner?, List.findSome?_append]

@[simp] theorem exitStatus?_snoc (log : List Event) (event : Event) (pid : Pid)
    : exitStatus? (log ++ [event]) pid = (exitStatus? log pid).or (event.statusOf? pid) := by
  simp [exitStatus?, List.findSome?_append]

@[simp] theorem wasReaped_snoc (log : List Event) (event : Event) (pid : Pid)
    : wasReaped (log ++ [event]) pid = (wasReaped log pid || event.isJoinOf pid) := by
  simp [wasReaped]

@[simp] theorem spawnCount_snoc (log : List Event) (event : Event)
    : spawnCount (log ++ [event]) = spawnCount log + event.spawnedPid?.toList.length := by
  rw [spawnCount, filterMap_snoc, List.length_append, spawnCount]

theorem wasReaped_iff {pid : Pid}
    : wasReaped log pid = true ↔ ∃ parent status, .reaped pid parent status ∈ log := by
  simp only [wasReaped, List.any_eq_true]
  constructor
  · intro joined
    obtain ⟨event, member, join⟩ := joined
    cases event with
    | reaped other parent status =>
        obtain rfl : other = pid := by simpa [Event.isJoinOf] using join
        exact ⟨parent, status, member⟩
    | spawned => cases join
    | exited => cases join
  · intro joined
    obtain ⟨parent, status, member⟩ := joined
    exact ⟨_, member, by simp [Event.isJoinOf]⟩

-----------------------------------------------------------------------------------------
-- Laws of orderly logs
-----------------------------------------------------------------------------------------

namespace Orderly

/-- The processes of a log are numbered up to their count, by induction on the log. -/
theorem spawner?_le (orderly : Orderly log) {pid : Pid}
    (started : (spawner? log pid).isSome)
    : pid.number ≤ spawnCount log := by
  induction orderly with
  | nil => simp [spawner?] at started
  | @snoc log event _ follows ih =>
      rw [spawner?_snoc, Option.isSome_or, Bool.or_eq_true] at started
      rw [spawnCount_snoc]
      rcases started with before | now
      · exact Nat.le_trans (ih before) (Nat.le_add_right _ _)
      · cases event with
        | spawned other parent program =>
            simp only [Event.parentOf?] at now
            split at now
            · next same =>
                have numbered := follows.1
                rw [same] at numbered
                simp [Event.spawnedPid?, numbered]
            · cases now
        | exited => cases now
        | reaped => cases now

theorem spawned_of_exited (orderly : Orderly log) {pid : Pid}
    (ended : (exitStatus? log pid).isSome)
    : (spawner? log pid).isSome := by
  induction orderly with
  | nil => simp [exitStatus?] at ended
  | @snoc log event _ follows ih =>
      rw [exitStatus?_snoc, Option.isSome_or, Bool.or_eq_true] at ended
      rw [spawner?_snoc, Option.isSome_or, Bool.or_eq_true]
      refine .inl (ended.elim ih fun now => ?_)
      cases event with
      | exited other status =>
          simp only [Event.statusOf?] at now
          split at now
          · next same => exact same ▸ follows.1
          · cases now
      | spawned => cases now
      | reaped => cases now

theorem exited_of_reaped (orderly : Orderly log) {pid : Pid} (joined : wasReaped log pid = true)
    : (exitStatus? log pid).isSome := by
  induction orderly with
  | nil => simp [wasReaped] at joined
  | @snoc log event _ follows ih =>
      rw [wasReaped_snoc, Bool.or_eq_true] at joined
      rw [exitStatus?_snoc, Option.isSome_or, Bool.or_eq_true]
      refine .inl (joined.elim ih fun now => ?_)
      cases event with
      | reaped other parent status =>
          obtain rfl : other = pid := by simpa [Event.isJoinOf] using now
          rw [follows.2.1]
          rfl
      | spawned => cases now
      | exited => cases now

/-- A process is started by the host or by an older process, by induction on the log. -/
theorem spawner?_older (orderly : Orderly log) {pid : Pid} {parent : Parent}
    (started : spawner? log pid = some parent)
    : parent ≠ .detached ∧ ∀ older, parent = .proc older → older.number < pid.number := by
  induction orderly with
  | nil => simp [spawner?] at started
  | @snoc log event orderly follows ih =>
      rw [spawner?_snoc, Option.or_eq_some_iff] at started
      rcases started with before | ⟨-, now⟩
      · exact ih before
      · cases event with
        | spawned other owner program =>
            simp only [Event.parentOf?] at now
            split at now
            · next same =>
                cases now
                obtain ⟨numbered, attached, -, known⟩ := follows
                refine ⟨attached, fun older from_ => ?_⟩
                have bound := orderly.spawner?_le (known older from_)
                rw [← same]
                omega
            · cases now
        | exited => cases now
        | reaped => cases now

/-- A number that is not given out yet occurs nowhere. -/
theorem fresh (orderly : Orderly log) {pid : Pid} (numbered : pid.number = spawnCount log + 1)
    : spawner? log pid = none ∧ exitStatus? log pid = none ∧ wasReaped log pid = false := by
  have unknown : ¬(spawner? log pid).isSome := fun started => by
    have bound := orderly.spawner?_le started
    omega
  have running : ¬(exitStatus? log pid).isSome := fun ended =>
    unknown (orderly.spawned_of_exited ended)
  refine ⟨by simpa using unknown, by simpa using running, ?_⟩
  exact Bool.not_eq_true _ ▸ fun joined => running (orderly.exited_of_reaped joined)

/-- The beginning of an orderly log is orderly, and the event after it can follow it, by induction
on the log.
-/
theorem split {before after : List Event} {event : Event}
    (orderly : Orderly (before ++ event :: after))
    : Orderly before ∧ CanFollow before event := by
  generalize whole : before ++ event :: after = all at orderly
  induction orderly generalizing after with
  | nil => simp at whole
  | @snoc log last orderly follows ih =>
      rcases cut_snoc whole with ⟨rfl, rfl⟩ | ⟨rest, earlier⟩
      · exact ⟨orderly, follows⟩
      · exact ih earlier

/-- The start of a process is the only event that tells who started it, by induction on the log. -/
theorem spawner?_eq_some (orderly : Orderly log) {pid : Pid} {parent : Parent}
    : spawner? log pid = some parent ↔ ∃ program, .spawned pid parent program ∈ log := by
  induction orderly with
  | nil => simp [spawner?]
  | @snoc log event orderly follows ih =>
      rw [spawner?_snoc, Option.or_eq_some_iff, ih]
      simp only [List.mem_append, List.mem_singleton, exists_or]
      refine or_congr_right ?_
      cases event with
      | spawned other owner program =>
          simp only [Event.parentOf?, Event.spawned.injEq]
          constructor
          · intro known
            obtain ⟨-, now⟩ := known
            split at now
            · next same => exact ⟨program, same.symm, (Option.some.inj now).symm, rfl⟩
            · cases now
          · intro same
            obtain ⟨_, rfl, rfl, -⟩ := same
            exact ⟨(orderly.fresh follows.1).1, by simp⟩
      | exited => simp [Event.parentOf?]
      | reaped => simp [Event.parentOf?]

theorem exitStatus?_eq_some (orderly : Orderly log) {pid : Pid} {status : ExitStatus}
    : exitStatus? log pid = some status ↔ .exited pid status ∈ log := by
  induction orderly with
  | nil => simp [exitStatus?]
  | @snoc log event orderly follows ih =>
      rw [exitStatus?_snoc, Option.or_eq_some_iff, ih, List.mem_append, List.mem_singleton]
      refine or_congr_right ?_
      cases event with
      | exited other ending =>
          simp only [Event.statusOf?, Event.exited.injEq]
          constructor
          · intro known
            obtain ⟨-, now⟩ := known
            split at now
            · next same => exact ⟨same.symm, (Option.some.inj now).symm⟩
            · cases now
          · intro same
            obtain ⟨rfl, rfl⟩ := same
            exact ⟨follows.2, by simp⟩
      | spawned => simp [Event.statusOf?]
      | reaped => simp [Event.statusOf?]

/-- A process is joined by the one that started it, with the status of its end, by cutting the log
at the join.
-/
theorem of_reaped (orderly : Orderly log) {pid : Pid} {parent : Parent} {status : ExitStatus}
    (member : .reaped pid parent status ∈ log)
    : spawner? log pid = some parent ∧ exitStatus? log pid = some status := by
  obtain ⟨before, after, rfl⟩ := List.append_of_mem member
  obtain ⟨earlier, started, ended, -⟩ := orderly.split
  obtain ⟨program, start⟩ := earlier.spawner?_eq_some.mp started
  have ending := earlier.exitStatus?_eq_some.mp ended
  exact ⟨orderly.spawner?_eq_some.mpr ⟨program, List.mem_append_left _ start⟩,
    orderly.exitStatus?_eq_some.mpr (List.mem_append_left _ ending)⟩

/-- The processes of a log are numbered from 1 on in the order of their starts, by induction on the
log.
-/
theorem numbers (orderly : Orderly log)
    : (log.filterMap Event.spawnedPid?).map Pid.number = List.range' 1 (spawnCount log) := by
  induction orderly with
  | nil => rfl
  | @snoc log event _ follows ih =>
      rw [List.filterMap_append, List.map_append, ih, spawnCount_snoc]
      cases event with
      | spawned pid parent program =>
          rw [show (Event.spawned pid parent program).spawnedPid?.toList.length = 1 from rfl,
            List.range'_1_concat]
          simp [Event.spawnedPid?, follows.1, Nat.add_comm]
      | exited => simp [Event.spawnedPid?]
      | reaped => simp [Event.spawnedPid?]

/-- A process of which an event must be the first of its kind has one such event, by induction on
the log.
-/
theorem nodup_of_first {key : Event → Option Pid}
    (first
      : ∀ {log event pid},
          Orderly log → CanFollow log event → key event = some pid → pid ∉ log.filterMap key)
    (orderly : Orderly log)
    : (log.filterMap key).Nodup := by
  induction orderly with
  | nil => exact List.nodup_nil
  | @snoc log event orderly follows ih =>
      rw [filterMap_snoc]
      rcases kind : key event with _ | pid
      · simpa using ih
      · refine List.nodup_append.mpr ⟨ih, by simp, ?_⟩
        intro other earlier now last same
        subst same
        obtain rfl : other = pid := by simpa using last
        exact first orderly follows kind earlier

/-- No process ends twice, as its status would be known before. -/
theorem exits_nodup (orderly : Orderly log) : (log.filterMap Event.exitedPid?).Nodup := by
  refine nodup_of_first (fun {log event pid} orderly follows kind earlier => ?_) orderly
  obtain ⟨old, member, same⟩ := List.mem_filterMap.mp earlier
  cases event with
  | exited other status =>
      cases kind
      cases old with
      | exited again ending =>
          cases same
          have ended := orderly.exitStatus?_eq_some.mpr member
          rw [follows.2] at ended
          cases ended
      | spawned => cases same
      | reaped => cases same
  | spawned => cases kind
  | reaped => cases kind

/-- No process is joined twice, as the join would be known before. -/
theorem reaps_nodup (orderly : Orderly log) : (log.filterMap Event.reapedPid?).Nodup := by
  refine nodup_of_first (fun {log event pid} _ follows kind earlier => ?_) orderly
  obtain ⟨old, member, same⟩ := List.mem_filterMap.mp earlier
  cases event with
  | reaped other parent status =>
      cases kind
      cases old with
      | reaped again owner ending =>
          cases same
          have joined := wasReaped_iff.mpr ⟨_, _, member⟩
          rw [follows.2.2] at joined
          cases joined
      | spawned => cases same
      | exited => cases same
  | spawned => cases kind
  | exited => cases kind

end Orderly

end Journal

end KernelConformance
