import KernelConformance.Proofs.Processes.StartupJournals

/-! Runs in which starts can fail. A start that has not returned is tracked from its slot to what
becomes of its process, and every step keeps the whole log and this account of the starts.
-/

namespace KernelConformance

open Journal

/-- How a start that has not returned stands: it is in the whole log, its process does nothing
before it has its thread, and it returns what has become of the process.
-/
structure Startup.Tracked (log : List Happening) (table : ProcessTable) (whole : List Event)
    (pid : Pid) (startup : Startup)
    : Prop where
  logged : .spawned pid startup.caller startup.program ∈ whole
  waiting
    : startup.stage = .allotted
      → table.Awaits startup.caller pid
        ∧ StartsNone whole pid
        ∧ ∀ happening ∈ log, happening.decidedPid? ≠ some pid
  settled
    : ∀ reply,
        startup.stage = .settled reply
        → reply = .ok pid ∧ .entered pid ∈ log
          ∨ reply = .error .unavailable ∧ pid ∈ abandonedPids log

/-- How the starts stand: those that have not returned are tracked, no process makes two of them,
and every start in the whole log has returned, is on its way or was abandoned.
-/
structure Accompanied (log : List Happening) (dispatch : Dispatch) (whole : List Event) : Prop where
  tracked
    : ∀ {pid startup},
        dispatch.startups.get? pid = some startup
        → startup.Tracked log dispatch.kernel.processes whole pid
  single
    : ∀ {pid other startup startupToo parent},
        dispatch.startups.get? pid = some startup
        → dispatch.startups.get? other = some startupToo
        → startup.caller = .proc parent
        → startupToo.caller = .proc parent
        → pid = other
  cause
    : ∀ {pid caller program},
        .spawned pid caller program ∈ whole
        → (∃ argv, .returned pid caller program argv (.ok pid) ∈ log)
          ∨ (∃ startup,
              dispatch.startups.get? pid = some startup
              ∧ startup.caller = caller
              ∧ startup.program = program)
          ∨ pid ∈ abandonedPids log
  decided
    : ∀ {happening pid},
        happening ∈ log → happening.decidedPid? = some pid → (spawner? whole pid).isSome = true
  entered : ∀ {pid}, .entered pid ∈ log → pid ∉ abandonedPids log
  returned
    : ∀ {pid caller program argv},
        .returned pid caller program argv (.ok pid) ∈ log
        → .entered pid ∈ log ∧ .spawned pid caller program ∈ whole

section Steps

variable {log : List Happening} {dispatch after : Dispatch} {whole : List Event}
  {happening : Happening} {pid : Pid}

theorem abandonedPids_snoc (log : List Happening) (happening : Happening)
    : abandonedPids (log ++ [happening]) = abandonedPids log ++ happening.abandonedPid?.toList :=
  filterMap_snoc _ _ _

theorem mem_abandonedPids_snoc (abandoned : pid ∈ abandonedPids log) (happening : Happening)
    : pid ∈ abandonedPids (log ++ [happening]) := by
  rw [abandonedPids_snoc]
  exact List.mem_append_left _ abandoned

theorem Happening.decidedPid?_of_abandoned (abandons : happening.abandonedPid? = some pid)
    : happening.decidedPid? = some pid := by
  cases happening with
  | abandoned => exact abandons
  | _ => cases abandons

/-- A process that waits for its thread was not abandoned. -/
theorem not_abandoned_of_undecided (undecided : ∀ happening ∈ log, happening.decidedPid? ≠ some pid)
    : pid ∉ abandonedPids log := by
  intro abandoned
  obtain ⟨happening, done, same⟩ := List.mem_filterMap.mp abandoned
  exact undecided happening done (Happening.decidedPid?_of_abandoned same)

/-- A start stays tracked when something else happens. -/
theorem Startup.Tracked.snoc {table next : ProcessTable} {startup : Startup} {events : List Event}
    (tracked : startup.Tracked log table whole pid)
    (waiting
      : startup.stage = .allotted
        → table.Awaits startup.caller pid
        → next.Awaits startup.caller pid
          ∧ (∀ child program, .spawned child (.proc pid) program ∉ events)
          ∧ happening.decidedPid? ≠ some pid)
    : startup.Tracked (log ++ [happening]) next (whole ++ events) pid where
  logged := List.mem_append_left _ tracked.logged
  waiting stage := by
    obtain ⟨awaits, startsNone, undecided⟩ := tracked.waiting stage
    obtain ⟨awaitsNext, startsNoneNow, undecidedNow⟩ := waiting stage awaits
    refine ⟨awaitsNext, fun child program member => ?_, fun other member => ?_⟩
    · exact (List.mem_append.mp member).elim (startsNone child program)
        (startsNoneNow child program)
    · rcases List.mem_append.mp member with before | now
      · exact undecided other before
      · exact List.mem_singleton.mp now ▸ undecidedNow
  settled reply stage := (tracked.settled reply stage).imp
    (And.imp_right (List.mem_append_left _))
    (And.imp_right fun abandoned => mem_abandonedPids_snoc abandoned happening)

namespace Accompanied

/-- What was known of the starts is known on, whatever happens, but for the starts on their way. -/
theorem cause_snoc (accompanied : Accompanied log dispatch whole) {caller : Parent}
    {program : String} (started : .spawned pid caller program ∈ whole)
    (kept
      : ∀ startup,
          dispatch.startups.get? pid = some startup
          → (∃ next,
              after.startups.get? pid = some next
              ∧ next.caller = startup.caller
              ∧ next.program = startup.program)
            ∨ (∃ argv, happening = .returned pid startup.caller startup.program argv (.ok pid))
            ∨ pid ∈ abandonedPids log)
    : (∃ argv, .returned pid caller program argv (.ok pid) ∈ log ++ [happening])
      ∨ (∃ startup,
          after.startups.get? pid = some startup
          ∧ startup.caller = caller
          ∧ startup.program = program)
      ∨ pid ∈ abandonedPids (log ++ [happening]) := by
  rcases accompanied.cause started with ⟨argv, returned⟩ | ⟨startup, found, rfl, rfl⟩ | abandoned
  · exact .inl ⟨argv, List.mem_append_left _ returned⟩
  · rcases kept startup found with ⟨next, foundNext, same⟩ | ⟨argv, rfl⟩ | abandoned
    · exact .inr (.inl ⟨next, foundNext, same⟩)
    · exact .inl ⟨argv, by simp⟩
    · exact .inr (.inr (mem_abandonedPids_snoc abandoned happening))
  · exact .inr (.inr (mem_abandonedPids_snoc abandoned happening))

/-- Who was started before some events was started before and after them. -/
theorem decided_snoc (accompanied : Accompanied log dispatch whole) {events : List Event}
    (now : ∀ pid, happening.decidedPid? = some pid → (spawner? whole pid).isSome = true)
    {other : Happening} (member : other ∈ log ++ [happening])
    (decides : other.decidedPid? = some pid)
    : (spawner? (whole ++ events) pid).isSome = true := by
  rw [spawner?, List.findSome?_append, Option.isSome_or, Bool.or_eq_true]
  rcases List.mem_append.mp member with before | last
  · exact .inl (accompanied.decided before decides)
  · exact .inl (now pid (List.mem_singleton.mp last ▸ decides))

/-- Nobody is both abandoned and given a thread. -/
theorem entered_snoc (accompanied : Accompanied log dispatch whole)
    (gets : happening = .entered pid → pid ∉ abandonedPids log)
    (loses : happening.abandonedPid? = some pid → .entered pid ∉ log)
    (entered : .entered pid ∈ log ++ [happening])
    : pid ∉ abandonedPids (log ++ [happening]) := by
  rw [abandonedPids_snoc, List.mem_append, Option.mem_toList, not_or]
  rcases List.mem_append.mp entered with before | now
  · exact ⟨accompanied.entered before, fun abandoned => loses abandoned before⟩
  · obtain rfl := List.mem_singleton.mp now
    exact ⟨gets rfl, nofun⟩

theorem returned_snoc (accompanied : Accompanied log dispatch whole) {events : List Event}
    {caller : Parent} {program : String} {argv : List String}
    (now
      : happening = .returned pid caller program argv (.ok pid)
        → .entered pid ∈ log ∧ .spawned pid caller program ∈ whole)
    (returned : .returned pid caller program argv (.ok pid) ∈ log ++ [happening])
    : .entered pid ∈ log ++ [happening] ∧ .spawned pid caller program ∈ whole ++ events := by
  have early : .entered pid ∈ log ∧ .spawned pid caller program ∈ whole := by
    rcases List.mem_append.mp returned with before | last
    · exact accompanied.returned before
    · exact now (List.mem_singleton.mp last).symm
  exact early.imp (List.mem_append_left _) (List.mem_append_left _)

/-- A deed that starts nothing leaves the starts on their way: whoever makes it is
in none of them.
-/
theorem act (accompanied : Accompanied log dispatch whole)
    (rooted : dispatch.kernel.processes.Rooted) {deed : Deed} {kernel : Kernel}
    (permits : dispatch.Permits deed) (quiet : deed.startedPid? = none)
    (step : dispatch.kernel.Step deed kernel)
    : Accompanied (log ++ [.deed deed]) { dispatch with kernel } (whole ++ deed.event?.toList) := by
  have noStart (child : Pid) (caller : Parent) (program : String)
      : deed.event? ≠ some (.spawned child caller program) := fun same => by
    have started := deed.spawnedPid?_event
    rw [same, quiet] at started
    cases started
  have free {pid : Pid} {status : ExitStatus} (same : deed.event? = some (.exited pid status))
      : dispatch.Free (.proc pid) := by
    obtain ⟨ending, rfl, -⟩ := Deed.eq_finish same
    exact permits
  refine ⟨fun {pid startup} found => ?_, accompanied.single, fun {pid caller program} started => ?_,
    accompanied.decided_snoc (fun _ same => by cases same), accompanied.entered_snoc nofun nofun,
    accompanied.returned_snoc nofun⟩
  · refine (accompanied.tracked found).snoc fun stage awaits => ⟨?_, ?_, nofun⟩
    · refine awaits.step rooted step.processes (fun child program => noStart child _ program) ?_ ?_
      · intro status same
        exact absurd ((free same).1 _ found) (by simp [stage, Stage.hasThread])
      · exact fun parent status owned same => (free same).2 _ _ found owned
    · exact fun child program member => noStart child _ program (by simpa using member)
  · rcases List.mem_append.mp started with before | now
    · exact accompanied.cause_snoc before fun startup found => .inl ⟨startup, found, rfl, rfl⟩
    · exact absurd (by simpa using now) (noStart pid caller program)

/-- No process makes two starts after one was put in the table, if nobody else of those there makes
that one.
-/
theorem single_insert (accompanied : Accompanied log dispatch whole) {startup : Startup}
    (own
      : ∀ other startupToo parent,
          dispatch.startups.get? other = some startupToo
          → other ≠ pid
          → startup.caller = .proc parent
          → startupToo.caller ≠ .proc parent)
    {one other : Pid} {first second : Startup} {parent : Pid}
    (foundOne : (dispatch.startups.insert pid startup).get? one = some first)
    (foundOther : (dispatch.startups.insert pid startup).get? other = some second)
    (owned : first.caller = .proc parent) (ownedToo : second.caller = .proc parent)
    : one = other := by
  rw [FiniteMap.get?_insert] at foundOne foundOther
  split at foundOne <;> split at foundOther
  · next same sameToo => exact same.trans sameToo.symm
  · next different =>
      cases foundOne
      exact absurd ownedToo (own other second parent foundOther different owned)
  · next different _ =>
      cases foundOther
      exact absurd owned (own one first parent foundOne different ownedToo)
  · exact accompanied.single foundOne foundOther owned ownedToo

/-- A start that has just taken its slot is tracked: nobody has started or decided anything in the
name of its process, which is new.
-/
theorem tracked_allot (accompanied : Accompanied log dispatch whole)
    (recorded : Recorded log dispatch whole) {caller : Parent} {program : String}
    (argv : List String) {kernel : Kernel}
    (acts : dispatch.kernel.processes.canAct caller = true)
    (started : dispatch.kernel.processes.Started caller program pid kernel.processes)
    (fresh : spawner? whole pid = none)
    : (⟨caller, program, argv, .allotted⟩ : Startup).Tracked
        (log ++ [.allotted pid caller program argv]) kernel.processes
        (whole ++ [.spawned pid caller program]) pid := by
  have orderly := recorded.accounts.orderly
  have numbered : pid.number = spawnCount whole + 1 := started.numbered ▸ recorded.accounts.next
  refine ⟨by simp, fun _ => ⟨started.awaits recorded.rooted acts, ?_, ?_⟩,
    fun _ same => by cases same⟩
  · intro child name member
    rcases List.mem_append.mp member with before | now
    · have known := orderly.spawner?_eq_some.mpr ⟨name, before⟩
      have older := (orderly.spawner?_older known).2 pid rfl
      have bound := orderly.spawner?_le (Option.isSome_of_eq_some known)
      omega
    · cases List.mem_singleton.mp now
      have older := recorded.rooted.running_lt acts
      rw [started.numbered] at older
      exact Nat.lt_irrefl _ older
  · intro happening member decides
    rcases List.mem_append.mp member with before | now
    · have known := accompanied.decided before decides
      rw [fresh] at known
      cases known
    · cases List.mem_singleton.mp now
      cases decides

/-- A start that takes its slot is on its way. Its process is new, so that nobody has started
anything in its name.
-/
theorem allot (accompanied : Accompanied log dispatch whole)
    (recorded : Recorded log dispatch whole) {caller : Parent} {program : String}
    {argv : List String} {kernel : Kernel} (acts : dispatch.kernel.processes.canAct caller = true)
    (free : dispatch.Free caller)
    (started : dispatch.kernel.processes.Started caller program pid kernel.processes)
    : Accompanied (log ++ [.allotted pid caller program argv])
        ⟨kernel, dispatch.startups.insert pid ⟨caller, program, argv, .allotted⟩⟩
        (whole ++ [.spawned pid caller program]) := by
  have orderly := recorded.accounts.orderly
  have numbered : pid.number = spawnCount whole + 1 := started.numbered ▸ recorded.accounts.next
  have fresh := (orderly.fresh numbered).1
  have unlogged {other : Pid} {owner : Parent} {name : String}
      (member : .spawned other owner name ∈ whole)
      : other ≠ pid := by
    rintro rfl
    cases fresh.symm.trans (orderly.spawner?_eq_some.mpr ⟨name, member⟩)
  have step := ProcessTable.Step.spawn acts started
  refine ⟨fun {other startup} found => ?_, accompanied.single_insert ?_,
    fun {other owner name} member => ?_, accompanied.decided_snoc (fun _ same => by cases same),
    accompanied.entered_snoc (fun same => by cases same) (fun same => by cases same),
    accompanied.returned_snoc (fun same => by cases same)⟩
  · rw [FiniteMap.get?_insert] at found
    split at found
    · next same =>
        subst same
        cases found
        exact accompanied.tracked_allot recorded argv acts started fresh
    · refine (accompanied.tracked found).snoc fun stage awaits =>
        ⟨?_, ?_, fun same => by cases same⟩
      · refine awaits.step recorded.rooted step (fun child name same => ?_)
          (fun _ same => by cases same) fun _ _ _ same => by cases same
        cases same
        exact absurd (free.1 _ found) (by simp [stage, Stage.hasThread])
      · intro child name member
        cases List.mem_singleton.mp member
        exact absurd (free.1 _ found) (by simp [stage, Stage.hasThread])
  · intro other startupToo parent foundToo _ owned
    obtain rfl : caller = .proc parent := owned
    exact free.2 _ _ foundToo
  · rcases List.mem_append.mp member with before | now
    · refine accompanied.cause_snoc before fun startup found => .inl ⟨startup, ?_, rfl, rfl⟩
      rw [FiniteMap.get?_insert, if_neg (unlogged before), found]
    · cases List.mem_singleton.mp now
      exact .inr (.inl ⟨_, by rw [FiniteMap.get?_insert, if_pos rfl], rfl, rfl⟩)

/-- A start whose fate is known stays on its way, and so do the others. -/
theorem decide (accompanied : Accompanied log dispatch whole) (orderly : Orderly whole)
    {startup : Startup} {kernel : Kernel} {events : List Event} {stage : Stage}
    (found : dispatch.startups.get? pid = some startup) (waits : startup.stage = .allotted)
    (decides : happening.decidedPid? = some pid)
    (others
      : ∀ other startupToo,
          dispatch.startups.get? other = some startupToo
          → other ≠ pid
          → dispatch.kernel.processes.Awaits startupToo.caller other
          → kernel.processes.Awaits startupToo.caller other)
    (noStart : ∀ child caller program, .spawned child caller program ∉ events)
    (settled
      : ∀ reply,
          stage = .settled reply
          → reply = .ok pid ∧ happening = .entered pid
            ∨ reply = .error .unavailable ∧ happening.abandonedPid? = some pid)
    (known : stage ≠ .allotted)
    : Accompanied (log ++ [happening])
        ⟨kernel, dispatch.startups.insert pid { startup with stage }⟩ (whole ++ events) := by
  have tracked := accompanied.tracked found
  obtain ⟨-, -, undecided⟩ := tracked.waiting waits
  have unreturned {caller : Parent} {program : String} {argv : List String} {other : Pid}
      : happening ≠ .returned other caller program argv (.ok other) := by
    rintro rfl
    cases decides
  refine ⟨fun {other startupToo} foundToo => ?_, accompanied.single_insert ?_,
    fun {other owner name} member => ?_,
    accompanied.decided_snoc fun other same => ?_,
    fun entered => accompanied.entered_snoc ?_ ?_ entered,
    accompanied.returned_snoc fun same => absurd same unreturned⟩
  · rw [FiniteMap.get?_insert] at foundToo
    split at foundToo
    · next same =>
        subst same
        cases foundToo
        refine ⟨List.mem_append_left _ tracked.logged, fun same => absurd same known,
          fun reply same => ?_⟩
        rcases settled reply same with ⟨rfl, rfl⟩ | ⟨rfl, abandons⟩
        · exact .inl ⟨rfl, by simp⟩
        · exact .inr ⟨rfl, by simp [abandonedPids_snoc, abandons]⟩
    · next different =>
        refine (accompanied.tracked foundToo).snoc fun stage awaits => ⟨?_, ?_, ?_⟩
        · exact others other startupToo foundToo different awaits
        · exact fun child program => noStart child _ program
        · rw [decides]
          exact fun same => different (Option.some.inj same).symm
  · intro other startupToo parent foundToo different owned ownedToo
    exact different (accompanied.single foundToo found ownedToo owned)
  · rcases List.mem_append.mp member with before | now
    · refine accompanied.cause_snoc before fun startupToo foundToo => .inl ?_
      rw [FiniteMap.get?_insert]
      split
      · next same =>
          subst same
          cases found.symm.trans foundToo
          exact ⟨_, rfl, rfl, rfl⟩
      · exact ⟨startupToo, foundToo, rfl, rfl⟩
    · exact absurd now (noStart other owner name)
  · obtain rfl : pid = other := Option.some.inj (decides.symm.trans same)
    exact Option.isSome_of_eq_some (orderly.spawner?_eq_some.mpr ⟨_, tracked.logged⟩)
  · rintro rfl
    obtain rfl := Option.some.inj decides
    exact not_abandoned_of_undecided undecided
  · intro abandons enteredBefore
    obtain rfl :=
      Option.some.inj (decides.symm.trans (Happening.decidedPid?_of_abandoned abandons))
    exact undecided _ enteredBefore rfl

/-- A start that returns leaves behind what has become of its process. -/
theorem ret (accompanied : Accompanied log dispatch whole) {startup : Startup} {kernel : Kernel}
    {reply : Except Errno Pid} (found : dispatch.startups.get? pid = some startup)
    (settled : startup.stage = .settled reply)
    (same : kernel.processes = dispatch.kernel.processes)
    : Accompanied (log ++ [.returned pid startup.caller startup.program startup.argv reply])
        ⟨kernel, dispatch.startups.erase pid⟩ (whole ++ []) := by
  have tracked := accompanied.tracked found
  have old {other : Pid} {startupToo : Startup}
      (foundToo : (dispatch.startups.erase pid).get? other = some startupToo)
      : dispatch.startups.get? other = some startupToo := by
    rw [FiniteMap.get?_erase] at foundToo
    split at foundToo
    · cases foundToo
    · exact foundToo
  refine ⟨fun {other startupToo} foundToo => ?_, fun foundOne foundOther owned ownedToo =>
    accompanied.single (old foundOne) (old foundOther) owned ownedToo,
    fun {other owner name} member => ?_,
    accompanied.decided_snoc (fun _ decides => by cases decides),
    accompanied.entered_snoc (fun same => by cases same) (fun same => by cases same),
    accompanied.returned_snoc fun returned => ?_⟩
  · refine (accompanied.tracked (old foundToo)).snoc fun _ awaits =>
      ⟨?_, fun _ _ => List.not_mem_nil, fun same => by cases same⟩
    rw [same]
    exact awaits
  · refine accompanied.cause_snoc (by simpa using member) fun startupToo foundToo => ?_
    rw [FiniteMap.get?_erase]
    split
    · next here =>
        subst here
        cases found.symm.trans foundToo
        refine .inr ((tracked.settled reply settled).imp (fun good => ?_) And.right)
        exact ⟨startup.argv, by rw [good.1]⟩
    · exact .inl ⟨startupToo, foundToo, rfl, rfl⟩
  · cases returned
    rcases tracked.settled _ settled with ⟨given, entered⟩ | ⟨failed, -⟩
    · cases given
      exact ⟨entered, tracked.logged⟩
    · cases failed

end Accompanied

/-- Whoever is broken by a start ends, if it is a process. -/
theorem Kernel.step_breakOff {kernel : Kernel} {caller : Parent}
    (acts : kernel.processes.canAct caller = true) (pid : Pid)
    : kernel.processes.Step (Happening.broken pid caller).event? []
        (kernel.breakOff caller).processes := by
  cases caller with
  | host => exact .idle
  | detached => exact .idle
  | proc parent =>
      rw [breakOff, finish_processes]
      exact .exit acts

/-- Every step keeps both accounts, by cases on the step. -/
theorem Dispatch.Step.followed (step : dispatch.Step happening after)
    (recorded : Recorded log dispatch whole) (accompanied : Accompanied log dispatch whole)
    : ∃ whole,
        Recorded (log ++ [happening]) after whole
        ∧ Accompanied (log ++ [happening]) after whole := by
  have orderly := recorded.accounts.orderly
  cases step with
  | @act deed kernel permits quiet step =>
      have starts := deed.spawnedPid?_event.trans quiet
      exact ⟨_, recorded.step (.deed deed) step.processes starts rfl,
        accompanied.act recorded.rooted permits quiet step⟩
  | @allot caller program argv pid kernel acts free done =>
      rcases Kernel.allot_cases done with ⟨_, failed, -⟩ | ⟨_, processes, same, spawned, rfl⟩
      · cases failed
      · cases same
        have started := ProcessTable.started_of_spawn spawned
        exact ⟨_, recorded.step (.allotted ..) (.spawn acts started) rfl rfl,
          accompanied.allot recorded acts free started⟩
  | @enter pid caller program argv found named =>
      refine ⟨_, recorded.step (.entered pid) .idle rfl rfl, ?_⟩
      refine accompanied.decide orderly found rfl rfl (fun _ _ _ _ awaits => awaits) nofun ?_ nofun
      exact fun reply same => .inl ⟨(Stage.settled.inj same).symm, rfl⟩
  | @abandon pid caller program argv found named =>
      have tracked := accompanied.tracked found
      obtain ⟨awaits, startsNone, -⟩ := tracked.waiting rfl
      refine ⟨_, recorded.abandon awaits tracked.logged startsNone _, ?_⟩
      rw [List.append_assoc]
      refine accompanied.decide orderly found rfl rfl ?_ (by simp) ?_ nofun
      · exact fun other startupToo _ different awaitsToo => awaitsToo.abandon awaits different
      · exact fun reply same => .inr ⟨(Stage.settled.inj same).symm, rfl⟩
  | @breakOff pid caller program argv found unnamed =>
      obtain ⟨awaits, -, -⟩ := (accompanied.tracked found).waiting rfl
      have moved := Kernel.step_breakOff awaits.acts pid
      refine ⟨_, recorded.step (.broken pid caller) moved ?_ rfl, ?_⟩
      · cases caller <;> rfl
      · refine accompanied.decide orderly found rfl rfl ?_ ?_ nofun nofun
        · intro other startupToo foundToo different awaitsToo
          refine awaitsToo.step recorded.rooted moved (fun child program same => ?_)
            (fun status same => ?_) fun parent status owned same => ?_
          · cases caller <;> cases same
          · cases caller <;> cases same
            exact awaitsToo.childless pid _ awaits.found rfl
          · cases caller <;> cases same
            exact different (accompanied.single foundToo found owned rfl)
        · intro child owner name member
          cases caller <;> simp [Happening.event?] at member
  | @ret pid caller program argv reply found =>
      have same := Kernel.traceStart_processes caller program argv reply dispatch.kernel
      refine ⟨_, recorded.step (.returned ..) ?_ rfl rfl, accompanied.ret found rfl same⟩
      rw [same]
      exact .idle

end Steps

/-- There is a whole log throughout a run, by induction on the run. -/
theorem Dispatch.Run.followed {config : Config} {log : List Happening} {dispatch : Dispatch}
    (run : Dispatch.Run config log dispatch)
    : ∃ whole, Recorded log dispatch whole ∧ Accompanied log dispatch whole := by
  induction run with
  | boot =>
      refine ⟨[], ⟨ProcessTable.rooted_empty _, ⟨.nil, rfl, fun _ => rfl⟩, rfl, rfl, nofun, nofun⟩,
        ?_⟩
      exact {
        tracked := nofun
        single := nofun
        cause := nofun
        decided := nofun
        entered := nofun
        returned := nofun
      }
  | step _ step ih =>
      obtain ⟨whole, recorded, accompanied⟩ := ih
      exact step.followed recorded accompanied

end KernelConformance
