import KernelConformance.Proofs.Activity

/-! Joins that are blocked. Nobody waits for a process that has ended, or for one that somebody else
can join, and among the processes that run there is always one that does not wait.
-/

namespace KernelConformance

namespace Activity

variable {config : Config} {deeds : List Deed} {activity after : Activity} {wait : Wait}
  {alertness : Alertness}

-----------------------------------------------------------------------------------------
-- The reply of a join that is blocked
-----------------------------------------------------------------------------------------

/-- A join that is blocked has its child in the table as long as the child has not ended. -/
theorem Sound.child_running (sound : activity.Sound config deeds)
    (found : activity.joins.get? wait = some alertness) (alive : ¬Ended deeds wait.child)
    : activity.kernel.processes.slots.get? wait.child = some ⟨wait.waiter, .running⟩ := by
  obtain ⟨acts, started, kept⟩ := sound.justified found
  rw [sound.run.slot_of_child acts started kept, sound.run.exitStatus?_of_not_ended alive]
  rfl

theorem Sound.retry_alive (sound : activity.Sound config deeds)
    (found : activity.joins.get? wait = some alertness) (alive : ¬Ended deeds wait.child)
    : wait.retry activity.kernel = none := by
  obtain ⟨acts, started, kept⟩ := sound.justified found
  exact sound.run.join_blocked acts started kept alive

/-- A join that is blocked returns the status of the child once the child has ended. -/
theorem Sound.retry_ended (sound : activity.Sound config deeds)
    (found : activity.joins.get? wait = some alertness) {ending : Ending}
    (ended : .finish wait.child ending ∈ deeds)
    : ∃ kernel, wait.retry activity.kernel = some (.ok ending.status, kernel) := by
  obtain ⟨acts, started, kept⟩ := sound.justified found
  exact sound.run.join_returns acts started kept ended

/-- A join that was blocked has no reply but the status with which the child has ended. -/
theorem Sound.reply (sound : activity.Sound config deeds)
    (found : activity.joins.get? wait = some alertness) {reply : Except Errno ExitStatus}
    {kernel : Kernel} (done : wait.retry activity.kernel = some (reply, kernel))
    : ∃ ending, .finish wait.child ending ∈ deeds ∧ reply = .ok ending.status := by
  rcases Classical.em (Ended deeds wait.child) with ⟨ending, ended⟩ | alive
  · obtain ⟨_, returned⟩ := sound.retry_ended found ended
    cases done.symm.trans returned
    exact ⟨ending, ended, rfl⟩
  · cases done.symm.trans (sound.retry_alive found alive)

/-- A join that is blocked is not unblocked by what others do, by cases on the deed. -/
theorem joinsAfter_isSome (deed : Deed) (found : activity.joins.get? wait = some alertness)
    : ((activity.joinsAfter deed).get? wait).isSome := by
  unfold joinsAfter
  split
  · simp [found]
  · rw [FiniteMap.get?_insert]
    split <;> simp [found]
  · rw [FiniteMap.get?_insert]
    split <;> simp [found]
  · simp [found]

/-- A step after which a join is not blocked any more is its return with the status of the child, by
cases on the step.
-/
theorem Sound.unblocked (sound : activity.Sound config deeds) {made : List Deed}
    (step : activity.Step made after) (found : activity.joins.get? wait = some alertness)
    (gone : after.joins.get? wait = none)
    : ∃ ending,
        .finish wait.child ending ∈ deeds
        ∧ made = [.join wait.waiter wait.child (some (.ok ending.status))] := by
  cases step with
  | @act deed _ permits step =>
      have blocked := joinsAfter_isSome deed found
      rw [gone] at blocked
      cases blocked
  | stir asleep =>
      rw [FiniteMap.get?_insert, found] at gone
      split at gone <;> cases gone
  | sleep stirred blocked =>
      rw [FiniteMap.get?_insert, found] at gone
      split at gone <;> cases gone
  | leave stirred done =>
      rw [FiniteMap.get?_erase, found] at gone
      split at gone
      · next same =>
          subst same
          obtain ⟨ending, ended, rfl⟩ := sound.reply stirred done
          exact ⟨ending, ended, rfl⟩
      · cases gone

-----------------------------------------------------------------------------------------
-- Somebody does not wait
-----------------------------------------------------------------------------------------

/-- From a process that runs, the children that are waited for lead to one that runs and waits for
nobody who has not ended. Children have greater numbers, so this comes to an end.
-/
theorem Sound.exists_unblocked (sound : activity.Sound config deeds) {pid : Pid}
    (runs : activity.kernel.processes.isRunning pid = true)
    : ∃ free,
        activity.kernel.processes.isRunning free = true
        ∧ ∀ child alertness,
            activity.joins.get? ⟨.proc free, child⟩ = some alertness → Ended deeds child := by
  -- a child that is waited for runs and has a greater number, so the search goes on from it
  rcases Classical.em
      (∃ child alertness,
        activity.joins.get? ⟨.proc pid, child⟩ = some alertness ∧ ¬Ended deeds child)
    with ⟨child, alertness, found, alive⟩ | free
  · have slot := sound.child_running found alive
    have older := (sound.run.rooted.parentRuns slot rfl).2
    have numbered := sound.run.rooted.numbered slot
    exact sound.exists_unblocked (ProcessTable.isRunning_iff.mpr ⟨_, slot⟩)
  · refine ⟨pid, runs, fun child alertness found => Classical.byContradiction fun alive => ?_⟩
    exact free ⟨child, alertness, found, alive⟩
termination_by activity.kernel.processes.next.number - pid.number
decreasing_by
  simp only at older numbered
  omega

-----------------------------------------------------------------------------------------
-- Trying the joins that are blocked
-----------------------------------------------------------------------------------------

theorem Run.stirred (run : Run config deeds activity)
    (found : activity.joins.get? wait = some alertness)
    : ∃ joins,
        Run config deeds ⟨activity.kernel, joins⟩
        ∧ joins.get? wait = some .stirred
        ∧ ∀ other, other ≠ wait → joins.get? other = activity.joins.get? other := by
  cases alertness with
  | stirred => exact ⟨activity.joins, run, found, fun _ _ => rfl⟩
  | asleep =>
      refine ⟨_, by simpa using run.step (.stir found), ?_, fun other different => ?_⟩
      · simp [FiniteMap.get?_insert]
      · rw [FiniteMap.get?_insert, if_neg different]

/-- A join that is tried and has no reply sleeps. -/
theorem Run.tryBlocked (run : Run config deeds activity)
    (found : activity.joins.get? wait = some alertness)
    (blocked : wait.retry activity.kernel = none)
    : ∃ joins,
        Run config deeds ⟨activity.kernel, joins⟩
        ∧ ∀ other,
            joins.get? other = if other = wait then some .asleep
              else activity.joins.get? other := by
  obtain ⟨joins, reached, stirred, others⟩ := run.stirred found
  refine ⟨_, by simpa using reached.step (.sleep stirred blocked), fun other => ?_⟩
  rw [FiniteMap.get?_insert]
  split
  · rfl
  · next different => exact others other different

/-- A join that is tried and has a reply is not blocked any more. -/
theorem Run.tryDone (run : Run config deeds activity)
    (found : activity.joins.get? wait = some alertness) {reply : Except Errno ExitStatus}
    {kernel : Kernel} (done : wait.retry activity.kernel = some (reply, kernel))
    : ∃ joins,
        Run config (deeds ++ [.join wait.waiter wait.child (some reply)]) ⟨kernel, joins⟩
        ∧ ∀ other,
            joins.get? other = if other = wait then none else activity.joins.get? other := by
  obtain ⟨joins, reached, stirred, others⟩ := run.stirred found
  refine ⟨_, reached.step (.leave stirred done), fun other => ?_⟩
  rw [FiniteMap.get?_erase]
  split
  · rfl
  · next different => exact others other different

/-- What comes of trying some joins that are blocked, one after the other: steps of the activity
after which those whose child has ended have left with its status, and the others sleep.
-/
structure Tried (config : Config) (deeds : List Deed) (activity : Activity) (waits : List Wait)
    (result : List Woken × List Wait × Kernel)
    : Prop where
  reached
    : ∃ more joins,
        Run config (deeds ++ more) ⟨result.2.2, joins⟩
        ∧ ∀ wait,
            joins.get? wait
            = if wait ∈ waits then if wait ∈ result.2.1 then some .asleep else none
              else activity.joins.get? wait
  pending : ∀ wait, wait ∈ result.2.1 ↔ wait ∈ waits ∧ ¬Ended deeds wait.child
  woken
    : ∀ wait reply,
        ⟨wait, reply⟩ ∈ result.1
        ↔ wait ∈ waits ∧ ∃ ending, .finish wait.child ending ∈ deeds ∧ reply = .ok ending.status

/-- A join that is tried first and has no reply is pending with those that are tried after it. -/
theorem Tried.consBlocked {first : Wait} {rest pending : List Wait} {woken : List Woken}
    {joins : FiniteMap Wait Alertness} {kernel last : Kernel} (fresh : first ∉ rest)
    (alive : ¬Ended deeds first.child)
    (looks
      : ∀ other,
          joins.get? other = if other = first then some .asleep else activity.joins.get? other)
    (others : Tried config deeds ⟨kernel, joins⟩ rest (woken, pending, last))
    : Tried config deeds activity (first :: rest) (woken, first :: pending, last) := by
  obtain ⟨more, final, reached, found⟩ := others.reached
  refine ⟨⟨more, final, reached, fun wait => ?_⟩, fun wait => ?_, fun wait reply => ?_⟩
  · rw [found, looks]
    by_cases same : wait = first
    · simp [same, fresh]
    · simp [same]
  · rw [List.mem_cons, others.pending]
    by_cases same : wait = first
    · simp [same, alive]
    · simp [same]
  · rw [others.woken, List.mem_cons]
    by_cases same : wait = first
    · subst same
      have silent
          : ¬∃ ending, .finish wait.child ending ∈ deeds ∧ reply = .ok ending.status := by
        intro finished
        obtain ⟨ending, ended, -⟩ := finished
        exact alive ⟨ending, ended⟩
      simp [silent]
    · simp [same]

/-- A join that is tried first and returns is woken with those that are tried after it. -/
theorem Tried.consDone {first : Wait} {rest pending : List Wait} {woken : List Woken}
    {joins : FiniteMap Wait Alertness} {kernel last : Kernel} {ending : Ending}
    (sound : activity.Sound config deeds) (fresh : first ∉ rest)
    (ended : .finish first.child ending ∈ deeds)
    (looks
      : ∀ other, joins.get? other = if other = first then none else activity.joins.get? other)
    (others
      : Tried config (deeds ++ [.join first.waiter first.child (some (.ok ending.status))])
          ⟨kernel, joins⟩ rest (woken, pending, last))
    : Tried config deeds activity (first :: rest)
        (⟨first, .ok ending.status⟩ :: woken, pending, last) := by
  obtain ⟨more, final, reached, found⟩ := others.reached
  have pendingRest (wait : Wait)
      : wait ∈ pending ↔ wait ∈ rest ∧ ¬Ended deeds wait.child := by
    simpa only [Ended, finish_mem_snoc_join] using others.pending wait
  have wokenRest (wait : Wait) (reply : Except Errno ExitStatus)
      : ⟨wait, reply⟩ ∈ woken
        ↔ wait ∈ rest
          ∧ ∃ ending, .finish wait.child ending ∈ deeds ∧ reply = .ok ending.status := by
    simpa only [finish_mem_snoc_join] using others.woken wait reply
  have left : first ∉ pending := fun member => fresh ((pendingRest first).mp member).1
  refine ⟨⟨_, final, by simpa using reached, fun wait => ?_⟩, fun wait => ?_, fun wait reply => ?_⟩
  · rw [found, looks]
    by_cases same : wait = first
    · simp [same, fresh, left]
    · simp [same]
  · rw [pendingRest, List.mem_cons]
    by_cases same : wait = first
    · have gone : Ended deeds first.child := ⟨ending, ended⟩
      simp [same, gone]
    · simp [same]
  · rw [List.mem_cons, wokenRest, List.mem_cons, Woken.mk.injEq]
    by_cases same : wait = first
    · subst same
      constructor
      · intro either
        rcases either with ⟨-, rfl⟩ | ⟨member, -⟩
        · exact ⟨.inl rfl, ending, ended, rfl⟩
        · exact absurd member fresh
      · intro tried
        obtain ⟨-, other, endedToo, rfl⟩ := tried
        have status := sound.run.exitStatus?_of_finish ended
        rw [sound.run.exitStatus?_of_finish endedToo, Option.some.injEq] at status
        exact .inl ⟨rfl, by rw [status]⟩
    · simp [same]

/-- Joins that are blocked can be tried in any order, by induction on the order. -/
theorem Run.tried {waits : List Wait} (run : Run config deeds activity) (unique : waits.Nodup)
    (blocked : ∀ wait ∈ waits, (activity.joins.get? wait).isSome)
    : Tried config deeds activity waits (wakeInOrder waits activity.kernel) := by
  induction waits generalizing deeds activity with
  | nil =>
      exact {
        reached := ⟨[], activity.joins, by simpa [wakeInOrder] using run, by simp⟩
        pending := by simp [wakeInOrder]
        woken := by simp [wakeInOrder]
      }
  | cons first rest ih =>
      obtain ⟨fresh, unique⟩ := List.nodup_cons.mp unique
      obtain ⟨alertness, found⟩ := Option.isSome_iff_exists.mp (blocked first List.mem_cons_self)
      have blockedRest {joins : FiniteMap Wait Alertness} {now : Option Alertness}
          (looks
            : ∀ other,
                joins.get? other = if other = first then now else activity.joins.get? other)
          : ∀ wait ∈ rest, (joins.get? wait).isSome := fun wait member => by
        have different : wait ≠ first := fun same => fresh (same ▸ member)
        rw [looks, if_neg different]
        exact blocked wait (List.mem_cons_of_mem _ member)
      rcases tried : first.retry activity.kernel with _ | ⟨reply, kernel⟩
      · obtain ⟨joins, reached, looks⟩ := run.tryBlocked found tried
        have acts := (run.sound.justified found).acts
        have alive := (justified_of_blocked run.sound.run acts tried).2
        rw [wakeInOrder, tried]
        exact .consBlocked fresh alive looks (ih reached unique (blockedRest looks))
      · obtain ⟨joins, reached, looks⟩ := run.tryDone found tried
        obtain ⟨ending, ended, rfl⟩ := run.sound.reply found tried
        rw [wakeInOrder, tried]
        exact .consDone run.sound fresh ended looks (ih reached unique (blockedRest looks))

-----------------------------------------------------------------------------------------
-- The law of joins that are blocked
-----------------------------------------------------------------------------------------

/-- A join that is blocked has its child in the table, running and with the one who waits as its
parent, until the child ends, and returns the status of the child from then on; those that sleep are
all before that end. The only way out of it is this return, and joins that are tried in any order
all take it if their child has ended. While any process runs, some process runs that does not sleep
in a join, and the one it may have been stirred in returns.
-/
theorem Run.joins_never_stranded (run : Run config deeds activity)
    : (∀ wait alertness,
        activity.joins.get? wait = some alertness
        → (alertness = .asleep → ¬Ended deeds wait.child)
          ∧ (¬Ended deeds wait.child
            → activity.kernel.processes.slots.get? wait.child = some ⟨wait.waiter, .running⟩
              ∧ wait.retry activity.kernel = none)
          ∧ (∀ ending,
              .finish wait.child ending ∈ deeds
              → ∃ kernel, wait.retry activity.kernel = some (.ok ending.status, kernel)))
      ∧ (∀ made after wait alertness,
          activity.Step made after
          → activity.joins.get? wait = some alertness
          → after.joins.get? wait = none
          → ∃ ending,
              .finish wait.child ending ∈ deeds
              ∧ made = [.join wait.waiter wait.child (some (.ok ending.status))])
      ∧ (∀ waits woken pending kernel,
          waits.Perm activity.joins.keys
          → wakeInOrder waits activity.kernel = (woken, pending, kernel)
          → (∃ more joins,
              Run config (deeds ++ more) ⟨kernel, joins⟩
              ∧ ∀ wait, joins.get? wait = if wait ∈ pending then some .asleep else none)
            ∧ (∀ wait, wait ∈ pending ↔ wait ∈ waits ∧ ¬Ended deeds wait.child)
            ∧ (∀ wait reply,
                ⟨wait, reply⟩ ∈ woken
                ↔ wait ∈ waits
                  ∧ ∃ ending, .finish wait.child ending ∈ deeds ∧ reply = .ok ending.status))
      ∧ ((∃ pid, activity.kernel.processes.isRunning pid = true)
        → ∃ pid,
            activity.kernel.processes.isRunning pid = true
            ∧ ∀ child,
                activity.joins.get? ⟨.proc pid, child⟩ ≠ some .asleep
                ∧ (activity.joins.get? ⟨.proc pid, child⟩ = some .stirred
                  → ∃ status kernel,
                      (Wait.mk (.proc pid) child).retry activity.kernel
                      = some (.ok status, kernel))) := by
  have sound := run.sound
  refine ⟨?_, ?_, ?_, ?_⟩
  · intro wait alertness found
    refine ⟨?_, ?_, ?_⟩
    · intro same
      subst same
      exact sound.alive found
    · intro alive
      exact ⟨sound.child_running found alive, sound.retry_alive found alive⟩
    · intro ending ended
      exact sound.retry_ended found ended
  · intro made after wait alertness step found gone
    exact sound.unblocked step found gone
  · intro waits woken pending kernel order tried
    have blocked (wait : Wait) : wait ∈ waits ↔ (activity.joins.get? wait).isSome := by
      rw [order.mem_iff, ← FiniteMap.contains_iff, FiniteMap.contains]
    have unique : waits.Nodup := order.nodup_iff.mpr activity.joins.keysUnique
    obtain ⟨⟨more, joins, reached, looks⟩, pendingIff, wokenIff⟩ :=
      tried ▸ run.tried unique fun wait => (blocked wait).mp
    refine ⟨⟨more, joins, reached, fun wait => ?_⟩, pendingIff, wokenIff⟩
    rw [looks]
    by_cases member : wait ∈ waits
    · rw [if_pos member]
    · have absent : activity.joins.get? wait = none := by simpa [blocked] using member
      have left : wait ∉ pending := fun waits => member ((pendingIff wait).mp waits).1
      rw [if_neg member, absent, if_neg left]
  · intro someone
    obtain ⟨pid, runs⟩ := someone
    obtain ⟨free, freeRuns, ended⟩ := sound.exists_unblocked runs
    refine ⟨free, freeRuns, fun child => ⟨fun asleep => ?_, fun stirred => ?_⟩⟩
    · exact sound.alive asleep (ended child _ asleep)
    · obtain ⟨ending, finished⟩ := ended child _ stirred
      exact ⟨_, sound.retry_ended stirred finished⟩

/-- The deeds of a process that joins its child, while the host waits for the process, and then of
the child, which exits.
-/
def waitingDeeds : List Deed :=
  [
    .register "p",
    .spawn "p" [] (.ok (.ofNat 1)),
    .call (.ofNat 1) (.exec "p" []) (some (.ok (.ofNat 2))),
    .call (.ofNat 1) (.join (.ofNat 2)) none,
    .wait (.ofNat 1) none,
    .finish (.ofNat 2) (.exit 5)
  ]

/-- Of the two joins that are stirred by these deeds, that of the process returns and that of the
host is still blocked, as the law says.
-/
theorem joins_never_stranded_waiting
    : ∃ activity,
        Run .standard waitingDeeds activity
        ∧ (∃ kernel,
            (Wait.mk (.proc (.ofNat 1)) (.ofNat 2)).retry activity.kernel
            = some (.ok (.exited 5), kernel))
        ∧ (Wait.mk .host (.ofNat 1)).retry activity.kernel = none := by
  obtain ⟨activity, run, byProcess, byHost⟩
      : ∃ activity,
          Run .standard waitingDeeds activity
          ∧ activity.joins.get? ⟨.proc (.ofNat 1), .ofNat 2⟩ = some .stirred
          ∧ activity.joins.get? ⟨.host, .ofNat 1⟩ = some .stirred :=
    ⟨_, .extend .boot (.cons trivial (.register "p") <| .cons trivial (.spawn rfl)
      <| .cons (fun _ => rfl) (.call rfl rfl) <| .cons (fun _ => rfl) (.callBlocked rfl rfl)
      <| .cons rfl (.waitBlocked rfl) <| .cons (fun _ => rfl) (.finish rfl) .nil), rfl, rfl⟩
  have law := run.joins_never_stranded.1
  have alive : ¬Ended waitingDeeds (.ofNat 1) := by
    intro finished
    obtain ⟨ending, member⟩ := finished
    simp [waitingDeeds, Pid.ofNat] at member
  exact ⟨activity, run, (law _ _ byProcess).2.2 (.exit 5) (by simp [waitingDeeds]),
    ((law _ _ byHost).2.1 alive).2⟩

end Activity

end KernelConformance
