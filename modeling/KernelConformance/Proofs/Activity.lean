import KernelConformance.Proofs.Processes.JoinOutcomes

/-! Kernels at work while joins are blocked. A join that has found its child running sleeps until a
process ends. It is then stirred and looks for its child once more, at any time after and in any
order with the others that are stirred.
-/

namespace KernelConformance

/-- Whether a join that is blocked sleeps, or is about to look for its child again. -/
inductive Alertness where
  | asleep
  | stirred
  deriving DecidableEq

/-- A kernel and the joins that are blocked in it. -/
structure Activity where
  kernel : Kernel
  joins : FiniteMap Wait Alertness

namespace Activity

/-- Whether a deed may be made while joins are blocked: a process does nothing besides its join, and
the host does not wait twice for one process.
-/
def Permits (activity : Activity) : Deed → Prop
  | .call pid _ _ => ∀ child, activity.joins.get? ⟨.proc pid, child⟩ = none
  | .finish pid _ => ∀ child, activity.joins.get? ⟨.proc pid, child⟩ = none
  | .wait pid _ => activity.joins.get? ⟨.host, pid⟩ = none
  | _ => True

/-- The joins that are blocked after a deed: one more if it is a join without a reply. The end of a
process stirs them all.
-/
def joinsAfter (activity : Activity) : Deed → FiniteMap Wait Alertness
  | .finish _ _ => activity.joins.mapValues fun _ _ => .stirred
  | .wait pid none => activity.joins.insert ⟨.host, pid⟩ .asleep
  | .call caller (.join pid) none => activity.joins.insert ⟨.proc caller, pid⟩ .asleep
  | _ => activity.joins

/-- One step, with the deeds that it makes: a deed of somebody who is free to make it, or a move of
a join that is blocked. Such a join may be stirred for no reason, goes back to sleep if it still has
no reply, and leaves with its reply otherwise.
-/
inductive Step (activity : Activity) : List Deed → Activity → Prop where
  | act {deed kernel} (permits : activity.Permits deed) (step : activity.kernel.Step deed kernel)
    : Step activity [deed] ⟨kernel, activity.joinsAfter deed⟩
  | stir {wait} (asleep : activity.joins.get? wait = some .asleep)
    : Step activity [] ⟨activity.kernel, activity.joins.insert wait .stirred⟩
  | sleep {wait} (stirred : activity.joins.get? wait = some .stirred)
    (blocked : wait.retry activity.kernel = none)
    : Step activity [] ⟨activity.kernel, activity.joins.insert wait .asleep⟩
  | leave {wait reply kernel} (stirred : activity.joins.get? wait = some .stirred)
    (done : wait.retry activity.kernel = some (reply, kernel))
    : Step activity [.join wait.waiter wait.child (some reply)] ⟨kernel, activity.joins.erase wait⟩

/-- The deeds made since boot, oldest first, and what has come of them. -/
inductive Run (config : Config) : List Deed → Activity → Prop where
  | boot : Run config [] ⟨.boot config, .empty⟩
  | step {deeds activity made after} (run : Run config deeds activity)
    (step : activity.Step made after)
    : Run config (deeds ++ made) after

/-- Deeds one after the other, from any activity, while no join that is blocked moves. -/
inductive Acts : Activity → List Deed → Activity → Prop where
  | nil {activity} : Acts activity [] activity
  | cons {activity deed kernel deeds after} (permits : activity.Permits deed)
    (step : activity.kernel.Step deed kernel)
    (rest : Acts ⟨kernel, activity.joinsAfter deed⟩ deeds after)
    : Acts activity (deed :: deeds) after

variable {config : Config} {deeds : List Deed} {activity : Activity} {wait : Wait}

/-- A run goes on with more deeds, by induction on them. -/
theorem Run.extend {more : List Deed} {after : Activity} (run : Run config deeds activity)
    (acts : Acts activity more after)
    : Run config (deeds ++ more) after := by
  induction acts generalizing deeds with
  | nil => simpa using run
  | cons permits step _ ih => simpa using ih (run.step (.act permits step))

/-- A join that is blocked after a deed was blocked before, and sleeps only if it did and no process
has ended, or it is the deed, by cases on the deed.
-/
theorem joinsAfter_cases {deed : Deed} {alertness : Alertness}
    (found : (activity.joinsAfter deed).get? wait = some alertness)
    : (wait.waiter ≠ .detached ∧ deed = .join wait.waiter wait.child none)
      ∨ ∃ old,
          activity.joins.get? wait = some old
          ∧ (alertness = .asleep → old = .asleep ∧ ∀ pid ending, deed ≠ .finish pid ending) := by
  unfold joinsAfter at found
  split at found
  · rw [FiniteMap.get?_mapValues] at found
    obtain ⟨old, before, rfl⟩ := Option.map_eq_some_iff.mp found
    exact .inr ⟨old, before, fun asleep => by cases asleep⟩
  · rw [FiniteMap.get?_insert] at found
    split at found
    · next same =>
        subst same
        exact .inl ⟨by simp, rfl⟩
    · exact .inr ⟨alertness, found, fun asleep => ⟨asleep, by simp⟩⟩
  · rw [FiniteMap.get?_insert] at found
    split at found
    · next same =>
        subst same
        exact .inl ⟨by simp, rfl⟩
    · exact .inr ⟨alertness, found, fun asleep => ⟨asleep, by simp⟩⟩
  · next other _ _ => exact .inr ⟨alertness, found, fun asleep => ⟨asleep, other⟩⟩

-----------------------------------------------------------------------------------------
-- The invariant
-----------------------------------------------------------------------------------------

/-- A join has reason to be blocked: who waits can act, has started the child, and nobody has joined
the child.
-/
structure Justified (deeds : List Deed) (kernel : Kernel) (wait : Wait) : Prop where
  acts : kernel.processes.canAct wait.waiter = true
  started : StartedBy deeds wait.waiter wait.child
  kept : ¬Joined deeds wait.child

/-- The kernel has got to where it is by the deeds, every join that is blocked has reason to be, and
those that sleep wait for a process that has not ended.
-/
structure Sound (config : Config) (deeds : List Deed) (activity : Activity) : Prop where
  run : Kernel.Run config deeds activity.kernel
  justified
    : ∀ {wait alertness},
        activity.joins.get? wait = some alertness → Justified deeds activity.kernel wait
  alive : ∀ {wait}, activity.joins.get? wait = some .asleep → ¬Ended deeds wait.child

/-- Whoever joins a process has reason to wait for it if the join is blocked, and the process has
not ended, as the join would have a reply otherwise.
-/
theorem justified_of_blocked {kernel : Kernel} (run : Kernel.Run config deeds kernel)
    (acts : kernel.processes.canAct wait.waiter = true) (blocked : wait.retry kernel = none)
    : Justified deeds kernel wait ∧ ¬Ended deeds wait.child := by
  obtain ⟨waiter, child⟩ := wait
  have accepted : ¬(¬StartedBy deeds waiter child ∨ Joined deeds child) := fun foreign => by
    have refused := run.join_refused acts foreign
    rw [blocked] at refused
    cases refused
  obtain ⟨started, kept⟩ := not_or.mp accepted
  refine ⟨⟨acts, Classical.not_not.mp started, kept⟩, ?_⟩
  intro finished
  obtain ⟨ending, ended⟩ := finished
  obtain ⟨after, done⟩ := run.join_returns acts (Classical.not_not.mp started) kept ended
  rw [blocked] at done
  cases done

/-- A join keeps its reason if neither the one who waits ends nor the child is joined. -/
theorem Justified.step {kernel after : Kernel} {deed : Deed}
    (justified : Justified deeds kernel wait) (run : Kernel.Run config deeds kernel)
    (step : kernel.Step deed after)
    (stays : ∀ pid ending, deed = .finish pid ending → wait.waiter ≠ .proc pid)
    (other : deed.joinedPid? ≠ some wait.child)
    : Justified (deeds ++ [deed]) after wait where
  acts := run.canAct_step step justified.acts stays
  started := justified.started.snoc deed
  kept joined := (joined_snoc.mp joined).elim justified.kept other

/-- A deed that may be made takes the reason from no join that is blocked: it is not by the one who
waits, who alone could join the child.
-/
theorem Sound.justified_act (sound : activity.Sound config deeds) {deed : Deed} {kernel : Kernel}
    (permits : activity.Permits deed) (step : activity.kernel.Step deed kernel)
    {alertness : Alertness} (found : activity.joins.get? wait = some alertness)
    : Justified (deeds ++ [deed]) kernel wait := by
  have justified := sound.justified found
  refine justified.step sound.run step ?_ fun joined => ?_
  · intro pid ending same waiter
    subst same
    have free := permits wait.child
    rw [← waiter, found] at free
    cases free
  · -- the join would have to be by the one who waits, and is not permitted
    have known := ProcessTable.ne_detached_of_canAct justified.acts
    obtain ⟨-, status, rfl⟩ :=
      sound.run.eq_join_of_joined step joined known justified.started
    obtain ⟨waiter, child⟩ := wait
    cases waiter with
    | detached => exact known rfl
    | host => cases found.symm.trans permits
    | proc pid => cases found.symm.trans (permits child)

/-- A join that leaves takes the reason from no other one, which waits for another child. -/
theorem Sound.justified_leave (sound : activity.Sound config deeds) {other : Wait}
    {reply : Except Errno ExitStatus} {kernel : Kernel}
    (step : activity.kernel.Step (.join other.waiter other.child (some reply)) kernel)
    (known : other.waiter ≠ .detached) (different : wait ≠ other) {alertness : Alertness}
    (found : activity.joins.get? wait = some alertness)
    : Justified (deeds ++ [.join other.waiter other.child (some reply)]) kernel wait := by
  have justified := sound.justified found
  have knownWaiter := ProcessTable.ne_detached_of_canAct justified.acts
  refine justified.step sound.run step ?_ fun joined => ?_
  · intro pid ending same
    exact absurd same Deed.join_ne_finish
  · obtain ⟨-, status, same⟩ :=
      sound.run.eq_join_of_joined step joined knownWaiter justified.started
    obtain ⟨sameWaiter, sameChild, -⟩ := Deed.join_inj known knownWaiter same
    obtain ⟨waiter, child⟩ := wait
    subst sameWaiter sameChild
    exact different rfl

/-- A deed that may be made keeps an activity sound: what it adds is a join that is blocked with
reason, and the end of a process leaves nobody asleep.
-/
theorem Sound.act (sound : activity.Sound config deeds) {deed : Deed} {kernel : Kernel}
    (permits : activity.Permits deed) (step : activity.kernel.Step deed kernel)
    : Sound config (deeds ++ [deed]) ⟨kernel, activity.joinsAfter deed⟩ := by
  have added {wait : Wait} (known : wait.waiter ≠ .detached)
      (same : deed = .join wait.waiter wait.child none)
      : Justified (deeds ++ [deed]) kernel wait ∧ ¬Ended (deeds ++ [deed]) wait.child := by
    subst same
    obtain ⟨acts, blocked, unchanged⟩ := wait.blocked_of_step known step
    obtain ⟨justified, alive⟩ := justified_of_blocked sound.run acts blocked
    refine ⟨justified.step sound.run step ?_ ?_, ?_⟩
    · intro pid ending same
      exact absurd same Deed.join_ne_finish
    · simp
    · rw [ended_snoc]
      intro finished
      rcases finished with before | ⟨ending, same⟩
      · exact alive before
      · exact Deed.join_ne_finish same
  refine ⟨sound.run.step step, fun {wait _} found => ?_, fun {wait} found => ?_⟩
  · rcases joinsAfter_cases found with ⟨known, same⟩ | ⟨old, before, -⟩
    · exact (added known same).1
    · exact sound.justified_act permits step before
  · rcases joinsAfter_cases found with ⟨known, same⟩ | ⟨old, before, asleep⟩
    · exact (added known same).2
    · obtain ⟨rfl, noEnd⟩ := asleep rfl
      rw [ended_snoc]
      intro finished
      rcases finished with earlier | ⟨ending, now⟩
      · exact sound.alive before earlier
      · exact noEnd _ _ now

/-- A join that leaves keeps an activity sound, as the others wait for other children. -/
theorem Sound.leave (sound : activity.Sound config deeds) {reply : Except Errno ExitStatus}
    {kernel : Kernel} {alertness : Alertness}
    (found : activity.joins.get? wait = some alertness)
    (done : wait.retry activity.kernel = some (reply, kernel))
    : Sound config (deeds ++ [.join wait.waiter wait.child (some reply)])
        ⟨kernel, activity.joins.erase wait⟩ := by
  have acts := (sound.justified found).acts
  have step := wait.step_of_retry acts done
  have kept {other : Wait} {alertness : Alertness}
      (left : (activity.joins.erase wait).get? other = some alertness)
      : other ≠ wait ∧ activity.joins.get? other = some alertness := by
    rw [FiniteMap.get?_erase] at left
    split at left
    · cases left
    · next different => exact ⟨different, left⟩
  refine ⟨sound.run.step step, fun left => ?_, fun left => ?_⟩
  · obtain ⟨different, before⟩ := kept left
    exact sound.justified_leave step (ProcessTable.ne_detached_of_canAct acts) different before
  · rw [ended_snoc]
    intro finished
    rcases finished with earlier | ⟨ending, now⟩
    · exact sound.alive (kept left).2 earlier
    · exact Deed.join_ne_finish now

/-- A join that is stirred or goes back to sleep keeps an activity sound if its child has not ended
whenever it sleeps.
-/
theorem Sound.turn (sound : activity.Sound config deeds) {before : Alertness}
    (found : activity.joins.get? wait = some before) {now : Alertness}
    (alive : now = .asleep → ¬Ended deeds wait.child)
    : Sound config deeds ⟨activity.kernel, activity.joins.insert wait now⟩ := by
  refine ⟨sound.run, fun {other _} left => ?_, fun {other} left => ?_⟩
  · rw [FiniteMap.get?_insert] at left
    split at left
    · next same =>
        subst same
        exact sound.justified found
    · exact sound.justified left
  · rw [FiniteMap.get?_insert] at left
    split at left
    · next same =>
        subst same
        exact alive (Option.some.inj left)
    · exact sound.alive left

/-- Every step keeps an activity sound, by cases on the step. -/
theorem Step.sound {made : List Deed} {after : Activity} (step : activity.Step made after)
    (sound : activity.Sound config deeds)
    : after.Sound config (deeds ++ made) := by
  cases step with
  | act permits step => exact sound.act permits step
  | stir asleep =>
      rw [List.append_nil]
      exact sound.turn asleep fun sleeps => by cases sleeps
  | sleep stirred blocked =>
      rw [List.append_nil]
      have acts := (sound.justified stirred).acts
      exact sound.turn stirred fun _ => (justified_of_blocked sound.run acts blocked).2
  | leave stirred done => exact sound.leave stirred done

/-- An activity is sound throughout a run, by induction on the run. -/
theorem Run.sound (run : Run config deeds activity) : activity.Sound config deeds := by
  induction run with
  | boot => exact { run := .boot, justified := nofun, alive := nofun }
  | step _ step ih => exact step.sound ih

end Activity

end KernelConformance
