import KernelConformance.Proofs.Processes.SlotCounts
import KernelConformance.Proofs.Randomness.Shuffles
import KernelConformance.Proofs.Suite.SequentialChildren
import KernelConformance.Proofs.Suite.SpawnerCalls

/-! What the success of many runs of the recurrence means for each of them. Its status was the
signature that was drawn for it, so that it has passed its check unless that signature is the code
of a failure.
-/

namespace KernelConformance

open Randomness (Stream)

/-- Whether all processes that were started as test programs have followed them. -/
def FollowTests (deeds : List Deed) : Prop :=
  ∀ caller child program argv main,
    .start caller program argv (.ok child) ∈ deeds
    → testProgram? program = some main
    → Follows deeds child (main (argv.headD program) argv)

namespace Kernel.Run

variable {config : Config} {deeds : List Deed} {kernel : Kernel} {pid child : Pid}

/-- The processes that a process has started are those of its exchanges. -/
theorem mem_started
    : child ∈ started (exchanges pid deeds) ↔ StartedBy deeds (.proc pid) child := by
  constructor
  · intro member
    obtain ⟨exchange, made, begun⟩ := List.mem_filterMap.mp member
    obtain ⟨program, argv, rfl⟩ := Exchange.eq_exec_of_started begun
    exact ⟨program, argv, mem_exchanges.mp made⟩
  · intro begun
    obtain ⟨program, argv, member⟩ := begun
    have made : ⟨.exec program argv, .ok child⟩ ∈ exchanges pid deeds := mem_exchanges.mpr member
    exact List.mem_filterMap.mpr ⟨_, made, rfl⟩

/-- Every process that is started has a new number, by induction on the run. -/
theorem started_fresh (run : Run config deeds kernel) (pid : Pid)
    : (started (exchanges pid deeds)).Nodup
      ∧ ∀ child ∈ started (exchanges pid deeds), child.number < kernel.processes.next.number := by
  induction run with
  | boot => exact ⟨List.nodup_nil, nofun⟩
  | @step deeds kernel deed after run step ih =>
      have later := step.processes.next_le
      have older (child : Pid) (member : child ∈ started (exchanges pid deeds))
          : child.number < after.processes.next.number :=
        Nat.lt_of_lt_of_le (ih.2 child member) later
      rw [exchanges_snoc]
      rcases made : deed.exchange? pid with _ | exchange
      · rw [Option.toList_none, List.append_nil]
        exact ⟨ih.1, older⟩
      · rw [Option.toList_some, started_snoc]
        rcases begun : exchange.started? with _ | child
        · rw [Option.toList_none, List.append_nil]
          exact ⟨ih.1, older⟩
        · obtain rfl := Deed.eq_call_of_exchange made
          obtain ⟨program, argv, rfl⟩ := Exchange.eq_exec_of_started begun
          cases step with
          | call runs done =>
              have first := Kernel.started_of_call done
              have number : child.number = kernel.processes.next.number :=
                congrArg Pid.number first.numbered
              have next : after.processes.next.number = child.number + 1 :=
                congrArg Pid.number first.next
              rw [Option.toList_some]
              refine ⟨nodup_snoc ih.1 fun other member => number ▸ ih.2 other member, ?_⟩
              intro other member
              rcases List.mem_append.mp member with earlier | last
              · exact older other earlier
              · obtain rfl := List.mem_singleton.mp last
                omega

end Kernel.Run

namespace SeqFib

/-- The jobs that are issued, with the signatures that are drawn for them. -/
def drawnJobs : Nat → Stream → List Job
  | 0, _ => []
  | count + 1, stream =>
      job (stream.below signatureBound).1 (count + 1)
        :: drawnJobs count (stream.below signatureBound).2

@[simp] theorem length_drawnJobs (count : Nat) (stream : Stream)
    : (drawnJobs count stream).length = count := by
  induction count generalizing stream with
  | zero => rfl
  | succ count ih => exact congrArg (· + 1) (ih _)

/-- The jobs are numbered downwards, and their signatures are below the bound, by induction on their
number.
-/
theorem drawnJobs_getElem? {count index : Nat} {stream : Stream} {drawn : Job}
    (found : (drawnJobs count stream)[index]? = some drawn)
    : ∃ signature < signatureBound, drawn = job signature (count - index) := by
  induction count generalizing index stream with
  | zero => simp [drawnJobs] at found
  | succ count ih =>
      cases index with
      | zero =>
          cases found
          exact ⟨_, stream.below_lt (by decide), rfl⟩
      | succ index =>
          obtain ⟨signature, below, same⟩ := ih found
          exact ⟨signature, below, by rw [same, Nat.succ_sub_succ]⟩

/-- Among the signatures only one is the code of failures. -/
theorem eq_one_of_code
    : ∀ signature < signatureBound, Int32.ofNat signature = 1 → signature = 1 := by
  decide

/-- No signature is the code of wrong results. -/
theorem code_ne_wrong : ∀ signature < signatureBound, Int32.ofNat signature ≠ -1 := by
  decide

/-- The jobs are issued in order as they are drawn, by induction on their number. -/
theorem issueJobs_eq (count : Nat) (stream : Stream) (spawner : Spawner)
    : issueJobs count stream spawner = Spawner.issueAll (drawnJobs count stream) spawner := by
  induction count generalizing stream spawner with
  | zero => rfl
  | succ count ih =>
      simp only [issueJobs, drawnJobs, Spawner.issueAll]
      refine congrArg _ (funext fun issued => ?_)
      obtain ⟨_ | _, spawner⟩ := issued
      · rfl
      · exact ih _ spawner

/-- What the program comes to: it has issued all its jobs, joined a child with the right status for
each and then said so, or it was stopped by a failure.
-/
theorem reaches_body {text : String} {count seed : Nat} {past : List Exchange}
    {outcome : Except Check.Stop Int32}
    (reached : (body [text, toString count, toString seed]).run.Reaches past (.done outcome))
    : (∃ before report last,
        past = before ++ [last]
        ∧ last.started? = none
        ∧ Spawner.Concluded 0 (drawnJobs count (.ofSeed seed)) before report
        ∧ outcome = .ok 0)
      ∨ ∃ message, outcome = .error (.violation (.failure message)) := by
  have first : [text, toString count, toString seed][1]? = some (toString count) := rfl
  have second : [text, toString count, toString seed][2]? = some (toString seed) := rfl
  rw [body] at reached
  rcases argumentNat64_cases "unit count" first with read | ⟨message, refused⟩
  · rw [read, pure_bind] at reached
    rcases argumentNat64_cases "seed" second with read | ⟨message, refused⟩
    · rw [read, pure_bind] at reached
      simp only [Option.getD_some, issueJobs_eq] at reached
      have upholds : (Spawner.runJobs (drawnJobs count (.ofSeed seed))).Upholds _ _ _ [] :=
        Spawner.upholds_runJobs 0 _
      rcases Check.reaches_bind reached with
        ⟨stop, stopped, rfl⟩ | ⟨report, before, rest, rfl, concluded, last⟩
      · obtain ⟨violation, rfl, ⟨message, rfl⟩, -⟩ := Prog.Upholds.reaches upholds stopped
        exact .inr ⟨message, rfl⟩
      · cases last with
        | call reply onward =>
            cases onward
            have whole := Prog.Upholds.reaches upholds concluded
            rw [List.nil_append] at whole
            exact .inl ⟨before, report, _, rfl, rfl, whole, rfl⟩
    · rw [refused] at reached
      cases reached
      exact .inr ⟨message, rfl⟩
  · rw [refused] at reached
    cases reached
    exact .inr ⟨message, rfl⟩

/-- A program that exits with zero has not failed. -/
theorem concluded_of_reaches {name text : String} {count seed : Nat} {past : List Exchange}
    (reached : ((body [text, toString count, toString seed]).ending name).Reaches past
      (.done (.exit 0)))
    : ∃ before report last,
        past = before ++ [last]
        ∧ last.started? = none
        ∧ Spawner.Concluded 0 (drawnJobs count (.ofSeed seed)) before report := by
  rcases Check.reaches_ending reached with finished | ⟨violation, before, stopped, -, code⟩
  · rcases reaches_body finished with ⟨before, report, last, whole, idle, concluded, -⟩ | ⟨_, equal⟩
    · exact ⟨before, report, last, whole, idle, concluded⟩
    · cases equal
  · rcases reaches_body stopped with ⟨_, _, _, -, -, -, equal⟩ | ⟨_, equal⟩
    · cases equal
    · cases equal
      cases code

-----------------------------------------------------------------------------------------
-- What success means for the children
-----------------------------------------------------------------------------------------

/-- A child that was joined with a status has ended with it. -/
theorem finish_of_join {config : Config} {deeds : List Deed} {kernel : Kernel} {pid child : Pid}
    {status : Int32} (run : Kernel.Run config deeds kernel)
    (joined : ⟨.join child, .ok (.exited status)⟩ ∈ exchanges pid deeds)
    : .finish child (.exit status) ∈ deeds := by
  have logged : .reaped child (.proc pid) (.exited status) ∈ history deeds :=
    List.mem_filterMap.mpr ⟨_, mem_exchanges.mp joined, rfl⟩
  obtain ⟨ending, finished, same⟩ := run.finish_of_reaped logged
  cases ending with
  | exit code =>
      cases same
      exact finished
  | fault => cases same

/-- What many runs of the recurrence have come to that were made with a number of jobs and a seed:
the process has started a child for each job, which has ended with its signature. It has passed,
unless that signature is the code of a failure.
-/
structure Sound (count seed : Nat) (deeds : List Deed) (pid : Pid) (children : List Pid)
    : Prop where
  number : children.length = count
  distinct : children.Nodup
  all : ∀ child, child ∈ children ↔ StartedBy deeds (.proc pid) child
  ended
    : ∀ index child,
        children[index]? = some child
        → ∃ signature,
            (drawnJobs count (.ofSeed seed))[index]? = some (job signature (count - index))
            ∧ .finish child (.exit (Int32.ofNat signature)) ∈ deeds
            ∧ (Fibonacci.Validated deeds child (count - index) ∨ signature = 1)

-----------------------------------------------------------------------------------------
-- A run of one job
-----------------------------------------------------------------------------------------

/-- The arguments of many runs that are made with one job and a seed. -/
def soloArguments (seed : Nat) : List String := [program, toString 1, toString seed]

/-- The arguments of its child, which is given a signature. -/
def childArguments (signature : Nat) : List String :=
  [Fibonacci.program, toString signature, toString 1]

/-- The deeds that come before those of the child. -/
def opening (seed signature : Nat) : List Deed := [
  .register program,
  .register Fibonacci.program,
  .spawn program (soloArguments seed) (.ok .first),
  .call .first (.exec Fibonacci.program (childArguments signature)) (some (.ok (.ofNat 2)))
]

/-- The line in which a process says that all its jobs have passed. -/
def doneLine : Utf8.Bytes := Utf8.encode "--- PASS sequential fibonacci\n"

/-- The deeds that come after those of the child: it ends with its signature and is joined, and its
parent says that all is well.
-/
def closing (signature : Nat) : List Deed := [
  .finish (.ofNat 2) (.exit (Int32.ofNat signature)),
  .call .first (.join (.ofNat 2)) (some (.ok (.exited (Int32.ofNat signature)))),
  .call .first (.write .stdout doneLine) (some (.ok doneLine.length)),
  .finish .first (.exit 0)
]

/-- All deeds of a run of one job. -/
def soloDeeds (seed signature : Nat) (past : List Deed) : List Deed :=
  opening seed signature ++ past ++ closing signature

section SoloRuns

variable {config : Config} {kernel : Kernel} {seed signature : Nat} {past : List Deed}
  (own : ∀ deed ∈ past, deed.IsOwn (.ofNat 2))

theorem mem_soloDeeds_begun
    : .start .host program (soloArguments seed) (.ok .first) ∈ soloDeeds seed signature past := by
  simp [soloDeeds, opening, Deed.start]

theorem mem_soloDeeds_ended : .finish .first (.exit 0) ∈ soloDeeds seed signature past := by
  simp [soloDeeds, closing]

include own

/-- What was started, when the child acts by itself. -/
theorem starts_soloDeeds
    : starts (soloDeeds seed signature past)
      = [⟨program, soloArguments seed, .first⟩,
          ⟨Fibonacci.program, childArguments signature, .ofNat 2⟩] := by
  have idle : starts past = [] :=
    List.filterMap_eq_nil_iff.mpr fun deed member => (own deed member).begin?_eq_none
  rw [soloDeeds, starts_append, starts_append, idle]
  rfl

theorem exchanges_soloDeeds_parent
    : exchanges .first (soloDeeds seed signature past)
      = exchanges .first (opening seed signature ++ closing signature) := by
  have idle : exchanges .first past = [] :=
    List.filterMap_eq_nil_iff.mpr fun deed member =>
      (own deed member).exchange?_eq_none (by decide)
  rw [soloDeeds, exchanges_append, exchanges_append, idle, List.append_nil, exchanges_append]

omit own in
theorem exchanges_soloDeeds_child
    : exchanges (.ofNat 2) (soloDeeds seed signature past) = exchanges (.ofNat 2) past := by
  rw [soloDeeds, exchanges_append, exchanges_append]
  exact List.append_nil _

/-- Nobody has ended but the child and its parent. -/
theorem ending_of_mem_soloDeeds {pid : Pid} {ending : Ending}
    (finished : .finish pid ending ∈ soloDeeds seed signature past)
    : pid = .ofNat 2 ∧ ending = .exit (Int32.ofNat signature)
      ∨ pid = .first ∧ ending = .exit 0 := by
  rcases List.mem_append.mp finished with earlier | later
  · rcases List.mem_append.mp earlier with before | middle
    · simp [opening] at before
    · exact absurd rfl ((own _ middle).ne_finish ending)
  · simpa [closing] using later

/-- Both follow their programs if the parent can do what it has done, and the child has come to its
signature.
-/
theorem follow_soloDeeds
    (parent
      : Prog.replay (exchanges .first (opening seed signature ++ closing signature))
          ((body (soloArguments seed)).ending program)
        = some (.exit 0))
    (child
      : ((Fibonacci.body (childArguments signature)).ending Fibonacci.program).Reaches
          (exchanges (.ofNat 2) past) (.done (.exit (Int32.ofNat signature))))
    : FollowTests (soloDeeds seed signature past) := by
  intro caller pid name argv main begun known
  have listed := mem_starts begun
  rw [starts_soloDeeds own] at listed
  rcases List.mem_pair.mp listed with equal | equal
  · cases equal
    cases known
    refine ⟨.done (.exit 0), ?_, fun ending finished => ?_⟩
    · rw [exchanges_soloDeeds_parent own]
      exact Prog.reaches_of_replay parent
    · rcases ending_of_mem_soloDeeds own finished with ⟨other, -⟩ | ⟨-, rfl⟩
      · exact absurd other (by decide)
      · rfl
  · cases equal
    cases known
    refine ⟨.done (.exit (Int32.ofNat signature)), ?_, fun ending finished => ?_⟩
    · rw [exchanges_soloDeeds_child]
      exact child
    · rcases ending_of_mem_soloDeeds own finished with ⟨-, rfl⟩ | ⟨other, -⟩
      · rfl
      · exact absurd other (by decide)

/-- The parent goes on after its child, which has returned with its signature. -/
theorem exists_soloRun (run : Kernel.Run config (opening seed signature ++ past) kernel)
    : ∃ after, Kernel.Run config (soloDeeds seed signature past) after := by
  have alive {pid : Pid} : ¬Ended (opening seed signature ++ past) pid := by
    intro ended
    obtain ⟨ending, member⟩ := ended
    have later : .finish pid ending ∈ past := by simpa [opening] using member
    exact (own _ later).ne_finish ending rfl
  have unclosed : ¬ClosedBy (opening seed signature ++ past) .first .stdout := by
    intro closed
    have later := own _ (by simpa [ClosedBy, opening] using closed)
    exact absurd later.eq_caller (by decide)
  have parent : StartedBy (opening seed signature ++ past) .host .first :=
    ⟨program, soloArguments seed, by simp [opening, Deed.start]⟩
  have child : StartedBy (opening seed signature ++ past) (.proc .first) (.ofNat 2) :=
    ⟨Fibonacci.program, childArguments signature, by simp [opening, Deed.start]⟩
  have acts := run.isRunning_iff.mpr ⟨⟨.host, by simp, parent⟩, alive⟩
  have runs := run.isRunning_iff.mpr ⟨⟨.proc .first, by simp, child⟩, alive⟩
  obtain ⟨middle, run, acts⟩ :=
    run.finish_join acts runs child (by decide) (.exit (Int32.ofNat signature))
  obtain ⟨last, run, acts⟩ := run.print acts doneLine
    fun closed => unclosed (by simpa [ClosedBy] using closed)
  exact ⟨_, by simpa [soloDeeds, closing, Ending.status] using run.step (.finish acts)⟩

end SoloRuns

-----------------------------------------------------------------------------------------
-- Soundness
-----------------------------------------------------------------------------------------

/-- If many runs of the recurrence exit with zero, then each of them has passed, but for those whose
signature is the code of a failure.
-/
theorem sound_unless_one {config : Config} {deeds : List Deed} {kernel : Kernel} {caller : Parent}
    {pid : Pid} {count seed : Nat} (run : Kernel.Run config deeds kernel)
    (follow : FollowTests deeds)
    (begun : .start caller program [program, toString count, toString seed] (.ok pid) ∈ deeds)
    (ended : .finish pid (.exit 0) ∈ deeds)
    : ∃ children, Sound count seed deeds pid children := by
  obtain ⟨rest, reached, finishes⟩ := follow _ _ _ _ _ begun rfl
  rw [finishes _ ended] at reached
  obtain ⟨before, report, last, whole, idle, concluded⟩ := concluded_of_reaches reached
  have children : started (exchanges pid deeds) = started before := by
    rw [whole, started_snoc, idle, Option.toList_none, List.append_nil]
  have made {exchange : Exchange} (member : exchange ∈ before) : exchange ∈ exchanges pid deeds :=
    whole ▸ List.mem_append_left _ member
  refine ⟨started (exchanges pid deeds), ?_, (run.started_fresh pid).1, ?_, ?_⟩
  · rw [children, concluded.started, length_drawnJobs]
  · exact fun child => Kernel.Run.mem_started
  · intro index child place
    rw [children] at place
    have bound := (List.getElem?_eq_some_iff.mp place).1
    rw [concluded.started] at bound
    have given := List.getElem?_eq_getElem bound
    obtain ⟨signature, below, same⟩ := drawnJobs_getElem? given
    rw [same] at given
    have start := mem_exchanges.mp (made (concluded.begun index child _ place given))
    have finished : .finish child (.exit (Int32.ofNat signature)) ∈ deeds :=
      finish_of_join run (made (concluded.exited _ (Spawner.mem_children place given)))
    refine ⟨signature, given, finished, ?_⟩
    obtain ⟨rest, reached, finishes⟩ := follow (.proc pid) child _ _ _ start rfl
    rw [finishes _ finished] at reached
    rcases Fibonacci.passed_of_reaches (Nat.le_of_lt (Nat.lt_trans below (by decide))) reached with
      passed | one | other
    · exact .inl (Fibonacci.validated_of_passed run passed)
    · exact .inr (eq_one_of_code signature below one)
    · exact absurd other (code_ne_wrong signature below)

/-- One job that is drawn with the seed 0 has the signature 12, so that its run has passed. -/
theorem sound_unless_one_twelve
    : ∃ deeds kernel child,
        Kernel.Run .standard deeds kernel
        ∧ FollowTests deeds
        ∧ .start .host program [program, toString 1, toString 0] (.ok .first) ∈ deeds
        ∧ .finish .first (.exit 0) ∈ deeds
        ∧ Sound 1 0 deeds .first [child]
        ∧ Fibonacci.Validated deeds child 1 := by
  obtain ⟨kernel, begun, runs, fds, files⟩
      : ∃ kernel,
          Kernel.Run .standard (opening 0 12) kernel
          ∧ kernel.processes.isRunning (.ofNat 2) = true
          ∧ kernel.fds (.ofNat 2) = .initial 16
          ∧ kernel.files = .empty 256 :=
    ⟨_, .extend .boot <| .cons (.register _) <| .cons (.register _) <| .cons (.spawn rfl) <|
      .cons (.call rfl rfl) .nil, rfl, rfl, rfl⟩
  have usable
      : Recurrence.Usable kernel (kernel.fds (.ofNat 2)).size (.ofIndex (Int32.ofNat 1)) := by
    refine ⟨by decide, ?_, ?_⟩
    · rw [files]
      rintro name (rfl | rfl) <;> decide +kernel
    · rw [fds, begun.tidy.configured]
      decide
  obtain ⟨_, performs⟩ := @Fibonacci.performs_ending _ _ _ _ _ _ Fibonacci.program Fibonacci.program
    12 1 (by decide) (by decide) usable (.of_run begun runs _)
  obtain ⟨past, run, reached, own⟩ := begun.performs runs performs
  obtain ⟨after, run⟩ := exists_soloRun own run
  have follow : FollowTests (soloDeeds 0 12 past) :=
    follow_soloDeeds own (by decide +kernel) reached
  obtain ⟨children, sound⟩ :=
    sound_unless_one run follow mem_soloDeeds_begun mem_soloDeeds_ended
  obtain ⟨child, rfl⟩ := List.length_eq_one_iff.mp sound.number
  refine ⟨_, after, child, run, follow, mem_soloDeeds_begun, mem_soloDeeds_ended, sound, ?_⟩
  obtain ⟨signature, drawn, -, passed⟩ := sound.ended 0 child rfl
  have other : (drawnJobs 1 (.ofSeed 0))[0]? ≠ some (job 1 (1 - 0)) := by decide +kernel
  rcases passed with passed | rfl
  · exact passed
  · exact absurd drawn other

/-- The calls of a child that can have no file. -/
def starvedPast : List Deed := [
  .call (.ofNat 2) (.creat "fb_temp_a_1") (some (.error .tooManyOpenFiles)),
  .call (.ofNat 2) (.unlink "fb_temp_a_1") (some (.error .noSuchFile)),
  .call (.ofNat 2) (.unlink "fb_temp_b_1") (some (.error .noSuchFile)),
  .call (.ofNat 2)
    (.write .stdout (Utf8.encode "fibonacci: creat fb_temp_a_1 failed: too many open files\n"))
    (some (.ok 57))
]

/-- One job that is drawn with the seed 2 has the signature 1, so that it is taken to have passed
when it has failed.
-/
theorem not_sound_starved
    : ¬∀ (config : Config) (deeds : List Deed) (kernel : Kernel) (caller : Parent) (pid : Pid)
          (count seed : Nat),
        Kernel.Run config deeds kernel
        → FollowTests deeds
        → .start caller program [program, toString count, toString seed] (.ok pid) ∈ deeds
        → .finish pid (.exit 0) ∈ deeds
        → ∀ index child,
            (started (exchanges pid deeds))[index]? = some child
            → Fibonacci.Validated deeds child (count - index) := by
  intro sound
  obtain ⟨kernel, run⟩
      : ∃ kernel,
          Kernel.Run { Config.standard with maxOpenFiles := 2 }
            (opening 2 1 ++ starvedPast) kernel :=
    ⟨_, .extend
      (.extend .boot <| .cons (.register _) <| .cons (.register _) <| .cons (.spawn rfl) <|
        .cons (.call rfl rfl) .nil)
      (.cons (.call rfl rfl) <| .cons (.call rfl rfl) <| .cons (.call rfl rfl) <|
        .cons (.call rfl rfl) .nil)⟩
  have own : ∀ deed ∈ starvedPast, deed.IsOwn (.ofNat 2) := by
    simp only [starvedPast, List.forall_mem_cons]
    exact ⟨⟨_, _, rfl, rfl⟩, ⟨_, _, rfl, rfl⟩, ⟨_, _, rfl, rfl⟩, ⟨_, _, rfl, rfl⟩, nofun⟩
  have fails
      : Prog.replay (exchanges (.ofNat 2) starvedPast)
          ((Fibonacci.body (childArguments 1)).ending Fibonacci.program)
        = some (.exit 1) := by
    decide +kernel
  obtain ⟨after, run⟩ := exists_soloRun own run
  have follow : FollowTests (soloDeeds 2 1 starvedPast) :=
    follow_soloDeeds own (by decide +kernel) (Prog.reaches_of_replay fails)
  have validated : Fibonacci.Validated (soloDeeds 2 1 starvedPast) (.ofNat 2) 1 :=
    sound _ _ _ .host .first 1 2 run follow mem_soloDeeds_begun mem_soloDeeds_ended 0 (.ofNat 2) rfl
  have last := validated.last_call
  rw [exchanges_soloDeeds_child] at last
  exact absurd last (by decide +kernel)

end SeqFib

end KernelConformance
