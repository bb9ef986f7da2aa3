import KernelConformance.Proofs.Runner.HostPrograms

/-! The passes of a run of the suite, by what the runner exchanges with the kernel in them. A pass
executes the selected tests in their order, up to the first that fails unless failures are ignored,
and then compares the resources in use. All this holds whatever the replies are, so that no order of
the processes is assumed.
-/

namespace KernelConformance

-----------------------------------------------------------------------------------------
-- What the exchanges of a pass show
-----------------------------------------------------------------------------------------

/-- A test that is executed, and what its root process comes to: it cannot be started, or it has
ended with a status. There is nothing as long as it is waited for.
-/
structure Trial where
  test : TestCase
  reply : Option (Except Errno ExitStatus)

/-- Whether the root process of a test was started and has ended with the status zero. -/
def Trial.Passes (trial : Trial) : Prop := trial.reply = some (.ok (.exited 0))

namespace HostExchange

/-- What has come of waiting for a process. -/
def awaited? (root : Pid) : HostExchange → Option (Except Errno ExitStatus)
  | ⟨.await pid, reply⟩ => if pid = root then some reply else none
  | _ => none

/-- The number of process slots in use that was counted. -/
def processes? : HostExchange → Option Nat
  | ⟨.countProcesses, count⟩ => some count
  | _ => none

/-- The number of file names in use that was counted. -/
def files? : HostExchange → Option Nat
  | ⟨.countFiles, count⟩ => some count
  | _ => none

end HostExchange

/-- The tests that are executed in some exchanges. -/
def trials : List HostExchange → List Trial
  | [] => []
  | ⟨.start test, .error error⟩ :: rest => ⟨test, some (.error error)⟩ :: trials rest
  | ⟨.start test, .ok root⟩ :: rest =>
      ⟨test, rest.findSome? (HostExchange.awaited? root)⟩ :: trials rest
  | _ :: rest => trials rest

/-- The numbers of process slots in use that were counted in some exchanges. -/
def processCounts (exchanges : List HostExchange) : List Nat :=
  exchanges.filterMap HostExchange.processes?

/-- The numbers of file names in use that were counted in some exchanges. -/
def fileCounts (exchanges : List HostExchange) : List Nat := exchanges.filterMap HostExchange.files?

/-- The resources in use that were counted in some exchanges. -/
def Counted (usages : List Usage) (exchanges : List HostExchange) : Prop :=
  processCounts exchanges = usages.map Usage.processes
  ∧ fileCounts exchanges = usages.map Usage.files

variable {options : Options} {tests coming : List TestCase} {test : TestCase}
  {pass past more : List HostExchange} {usages : List Usage} {before after : Usage}

theorem Counted.append {later : List Usage} (first : Counted usages past)
    (second : Counted later more)
    : Counted (usages ++ later) (past ++ more) := by
  obtain ⟨processes, files⟩ := first
  obtain ⟨processesToo, filesToo⟩ := second
  constructor
  · rw [processCounts, List.filterMap_append, List.map_append, ← processes, ← processesToo]
    rfl
  · rw [fileCounts, List.filterMap_append, List.map_append, ← files, ← filesToo]
    rfl

/-- What was counted is known from the exchanges. -/
theorem Counted.unique {first last : Usage} (counted : Counted [before, after] pass)
    (again : Counted [first, last] pass)
    : first = before ∧ last = after := by
  obtain ⟨processes, files⟩ := counted
  obtain ⟨processesToo, filesToo⟩ := again
  have sameProcesses := processesToo.symm.trans processes
  have sameFiles := filesToo.symm.trans files
  cases before
  cases after
  simp only [List.map_cons, List.map_nil, List.cons.injEq, and_true] at sameProcesses sameFiles
  cases first
  cases last
  simp_all

/-- If it is known what has come of all tests, those executed later are further ones, by induction
on the exchanges before.
-/
theorem trials_append (settled : ∀ trial ∈ trials past, trial.reply ≠ none)
    (more : List HostExchange)
    : trials (past ++ more) = trials past ++ trials more := by
  induction past with
  | nil => rfl
  | cons exchange rest ih =>
      obtain ⟨c, reply⟩ := exchange
      cases c with
      | start test =>
          rcases reply with error | root
          · rw [trials, List.forall_mem_cons] at settled
            rw [List.cons_append, trials, ih settled.2, trials, List.cons_append]
          · rw [trials, List.forall_mem_cons] at settled
            obtain ⟨reply, found⟩ := Option.ne_none_iff_exists'.mp settled.1
            change rest.findSome? (HostExchange.awaited? root) = some reply at found
            rw [List.cons_append, trials, ih settled.2, trials, List.cons_append,
              List.findSome?_append, found]
            rfl
      | _ => exact ih settled

/-- Without starts and counts there are no tests and no numbers, by induction on the exchanges. -/
theorem trials_aside (aside : ∀ exchange ∈ more, exchange.call.isAside = true)
    : trials more = [] ∧ Counted [] more := by
  induction more with
  | nil => exact ⟨rfl, rfl, rfl⟩
  | cons exchange rest ih =>
      obtain ⟨first, others⟩ := List.forall_mem_cons.mp aside
      obtain ⟨c, reply⟩ := exchange
      cases c with
      | tell | takeJournal | takeConsole => exact ih others
      | _ => cases first

-----------------------------------------------------------------------------------------
-- What can be said of a pass
-----------------------------------------------------------------------------------------

/-- The tests of a pass are executed in their order, and none of them after the first that has
failed unless failures are ignored.
-/
structure Ordered (options : Options) (tests : List TestCase) (pass : List HostExchange)
    : Prop where
  order : (trials pass).map Trial.test <+: options.selected tests
  strict : options.repetition ≠ .forever → ∀ trial ∈ (trials pass).dropLast, trial.Passes

/-- All selected tests of a pass were executed to their end, and have passed unless
failures are ignored.
-/
structure Completed (options : Options) (tests : List TestCase) (pass : List HostExchange)
    : Prop where
  whole : (trials pass).map Trial.test = options.selected tests
  settled : ∀ trial ∈ trials pass, trial.reply ≠ none
  passed : options.repetition ≠ .forever → ∀ trial ∈ trials pass, trial.Passes

/-- Nothing is wrong with a pass: its tests are completed, and after them there are as many process
slots and file names in use as before.
-/
structure Flawless (options : Options) (tests : List TestCase) (pass : List HostExchange)
    : Prop where
  completed : Completed options tests pass
  balanced : ∃ usage, Counted [usage, usage] pass

/-- A pass was stopped by a test: failures are not ignored, and the last test that was executed is
the first that has failed.
-/
structure Stopped (options : Options) (pass : List HostExchange) : Prop where
  strict : options.repetition ≠ .forever
  failed
    : ∃ earlier test reply,
        trials pass = earlier ++ [⟨test, some reply⟩]
        ∧ reply ≠ .ok (.exited 0)
        ∧ ∀ trial ∈ earlier, trial.Passes

/-- The tests of a pass are completed, but after them there is not as much in use as before. -/
structure Leaky (options : Options) (tests : List TestCase) (pass : List HostExchange) : Prop where
  completed : Completed options tests pass
  unbalanced : ∃ before after, before ≠ after ∧ Counted [before, after] pass

/-- Something is wrong with a pass: a test that has failed unless failures are
ignored, or a leak.
-/
def Faulty (options : Options) (tests : List TestCase) (pass : List HostExchange) : Prop :=
  Stopped options pass ∨ Leaky options tests pass

/-- A pass cannot be both. -/
theorem Flawless.not_faulty (flawless : Flawless options tests pass)
    : ¬Faulty options tests pass := by
  obtain ⟨⟨-, -, passed⟩, usage, counted⟩ := flawless
  rintro (⟨strict, earlier, test, reply, same, failed, -⟩
    | ⟨-, before, after, different, countedToo⟩)
  · have last := passed strict ⟨test, some reply⟩ (same ▸ List.mem_append_right _ (.head _))
    exact failed (Option.some.inj last)
  · obtain ⟨rfl, rfl⟩ := counted.unique countedToo
    exact different rfl

section Aside

variable (aside : ∀ exchange ∈ more, exchange.call.isAside = true)

include aside

/-- What is said after the tests changes nothing about them. -/
theorem trials_append_aside (settled : ∀ trial ∈ trials past, trial.reply ≠ none)
    : trials (past ++ more) = trials past := by
  rw [trials_append settled, (trials_aside aside).1, List.append_nil]

theorem Completed.append (completed : Completed options tests pass)
    : Completed options tests (pass ++ more) := by
  have same := trials_append_aside aside completed.settled
  obtain ⟨whole, settled, passed⟩ := completed
  rw [← same] at whole settled passed
  exact ⟨whole, settled, passed⟩

theorem Counted.append_aside (counted : Counted usages pass) : Counted usages (pass ++ more) := by
  simpa using counted.append (trials_aside aside).2

theorem Flawless.append (flawless : Flawless options tests pass)
    : Flawless options tests (pass ++ more) := by
  obtain ⟨completed, usage, counted⟩ := flawless
  exact ⟨completed.append aside, usage, counted.append_aside aside⟩

omit aside in
theorem Stopped.settled (stopped : Stopped options pass)
    : ∀ trial ∈ trials pass, trial.reply ≠ none := by
  obtain ⟨-, earlier, test, reply, same, -, passed⟩ := stopped
  rw [same, List.forall_mem_append, List.forall_mem_singleton]
  exact ⟨fun trial member none => (nomatch none.symm.trans (passed trial member)), nofun⟩

theorem Faulty.append (faulty : Faulty options tests pass)
    : Faulty options tests (pass ++ more) := by
  rcases faulty with stopped | ⟨completed, before, after, different, counted⟩
  · have same := trials_append_aside aside stopped.settled
    exact .inl ⟨stopped.strict, same ▸ stopped.failed⟩
  · exact .inr ⟨completed.append aside, before, after, different, counted.append_aside aside⟩

end Aside

/-- What can come after a pass: another one only if nothing is wrong, and the exit code
zero only then.
-/
def Concludes (options : Options) (tests : List TestCase) (pass : List HostExchange) : Onward → Prop
  | .pass _ => options.repetition ≠ .once ∧ Flawless options tests pass
  | .exit code =>
      options.repetition = .once ∧ Flawless options tests pass ∧ code = 0
      ∨ Faulty options tests pass ∧ code = 1

-----------------------------------------------------------------------------------------
-- The tests of a pass
-----------------------------------------------------------------------------------------

/-- Where a pass is between two tests: it is known what has come of those that were executed, the
others are to come, and the resources were counted once.
-/
structure Between (options : Options) (tests coming : List TestCase) (before : Usage)
    (past : List HostExchange)
    : Prop where
  settled : ∀ trial ∈ trials past, trial.reply ≠ none
  order : (trials past).map Trial.test ++ options.selected coming = options.selected tests
  passed : options.repetition ≠ .forever → ∀ trial ∈ trials past, trial.Passes
  counted : Counted [before] past

/-- The order of a pass is that of its tests. -/
theorem Ordered.of_trials (ordered : Ordered options tests past) (same : trials pass = trials past)
    : Ordered options tests pass := by
  obtain ⟨order, strict⟩ := ordered
  rw [← same] at order strict
  exact ⟨order, strict⟩

/-- A test that is accepted is selected, before those that come after it. -/
theorem Options.selected_of_accepted (accepted : options.filter.accepts test = true)
    : options.selected (test :: coming) = test :: options.selected coming :=
  List.filter_cons_of_pos accepted

theorem Options.selected_of_refused (refused : ¬options.filter.accepts test = true)
    : options.selected (test :: coming) = options.selected coming :=
  List.filter_cons_of_neg refused

namespace Between

theorem ordered (between : Between options tests coming before past)
    : Ordered options tests past where
  order := ⟨_, between.order⟩
  strict stops trial member := between.passed stops trial (List.dropLast_subset _ member)

/-- The next test is executed in its order, whatever comes of it. -/
theorem ordered_next (between : Between options tests (test :: coming) before past)
    (accepted : options.filter.accepts test = true) {reply : Option (Except Errno ExitStatus)}
    (more : trials pass = trials past ++ [⟨test, reply⟩])
    : Ordered options tests pass := by
  have order := between.order
  rw [Options.selected_of_accepted accepted] at order
  constructor
  · refine ⟨options.selected coming, ?_⟩
    rw [more, List.map_append, List.append_assoc]
    exact order
  · rw [more, List.dropLast_concat]
    exact between.passed

/-- After a test that does not stop the pass the others are to come. -/
theorem next (between : Between options tests (test :: coming) before past)
    (accepted : options.filter.accepts test = true) {reply : Except Errno ExitStatus}
    (executed : trials more = [⟨test, some reply⟩]) (counted : Counted [] more)
    (passes : options.repetition ≠ .forever → reply = .ok (.exited 0))
    : Between options tests coming before (past ++ more) := by
  have whole := trials_append between.settled more
  rw [executed] at whole
  have order := between.order
  rw [Options.selected_of_accepted accepted] at order
  constructor
  · rw [whole, List.forall_mem_append, List.forall_mem_singleton]
    exact ⟨between.settled, nofun⟩
  · rw [whole, List.map_append, List.append_assoc]
    exact order
  · intro strict
    rw [whole, List.forall_mem_append, List.forall_mem_singleton]
    exact ⟨between.passed strict, congrArg some (passes strict)⟩
  · exact between.counted.append counted

end Between

/-- A report of a failure comes to nothing else. -/
theorem utters_reportFailure (echoes : Bool) (console : Console) (cause : Notice)
    {values : Except TestError Unit → Prop} (failed : values (.error .testFailed))
    : (reportFailure echoes console cause).Utters values := by
  refine (Host.utters_tell _).bind fun _ _ => (Host.utters_tell _).bind fun _ _ => ?_
  cases echoes with
  | true => exact failed
  | false => exact (Host.utters_tell _).bind fun _ _ => failed

/-- A test is reported to pass exactly if it does, by cases on what its root process has come to. -/
theorem TestCase.utters_report (echoes : Bool) (test : TestCase) (console : Console)
    (reply : Except Errno ExitStatus)
    : (test.report echoes console reply).Utters fun verdict =>
        verdict = .ok () ↔ reply = .ok (.exited 0) := by
  have fails {reply : Except Errno ExitStatus} (cause : Notice) (wrong : reply ≠ .ok (.exited 0))
      : (reportFailure echoes console cause).Utters fun verdict =>
          verdict = .ok () ↔ reply = .ok (.exited 0) :=
    utters_reportFailure echoes console cause (iff_of_false (by simp) wrong)
  have printed {rest : Host (Except TestError Unit)} {values : Except TestError Unit → Prop}
      (judged : rest.Utters values)
      : (if echoes then Host.tell (.printed console.bytes) >>= fun _ => rest else rest).Utters
          values := by
    cases echoes with
    | true => exact (Host.utters_tell _).bind fun _ _ => judged
    | false => exact judged
  rcases reply with error | status
  · exact printed (fails _ (by simp))
  · by_cases success : status = .exited 0
    · subst success
      exact printed ((Host.utters_tell _).bind fun _ _ => iff_of_true rfl rfl)
    · have refused : status.isSuccess = false := by simpa [ExitStatus.isSuccess] using success
      simp only [report, refused]
      exact printed (fails _ fun same => success (Except.ok.inj same))

/-- After a root process has come to something only the verdict is to come. -/
theorem TestCase.utters_outcome (echoes : Bool) (test : TestCase) (reply : Except Errno ExitStatus)
    : (Host.perform .takeConsole >>= fun console => test.report echoes console reply).Utters
        fun verdict => verdict = .ok () ↔ reply = .ok (.exited 0) :=
  ⟨rfl, fun console => test.utters_report echoes console reply⟩

/-- A test of a pass is executed: something holds on the way if it does as long as nothing but this
test is executed, and of the verdict if it does whenever the test passes exactly as it says.
-/
theorem TestCase.upholds_run (echoes : Bool) (test : TestCase) {always : List HostExchange → Prop}
    {result : List HostExchange → Except TestError Unit → Prop}
    (within
      : ∀ more,
          (trials more = [] ∨ ∃ reply, trials more = [⟨test, reply⟩])
          → always (past ++ more))
    (last
      : ∀ more reply verdict,
          trials more = [⟨test, some reply⟩]
          → Counted [] more
          → (verdict = .ok () ↔ reply = .ok (.exited 0))
          → result (past ++ more) verdict)
    : (test.run echoes).Upholds always result past := by
  -- what comes after the root process has come to something
  have reports (begun : List HostExchange) (reply : Except Errno ExitStatus)
      (executed : ∀ more, trials (begun ++ more) = ⟨test, some reply⟩ :: trials more)
      (counted : Counted [] begun)
      : (Host.perform .takeConsole >>= fun console => test.report echoes console reply).Upholds
          always result (past ++ begun) := by
    have utters := test.utters_outcome echoes reply
    refine utters.upholds (fun more aside => ?_) fun more verdict aside judged => ?_
    · rw [List.append_assoc]
      exact within _ (.inr ⟨_, by rw [executed, (trials_aside aside).1]⟩)
    · rw [List.append_assoc]
      refine last _ reply verdict (by rw [executed, (trials_aside aside).1]) ?_ judged
      exact counted.append (trials_aside aside).2
  refine ⟨by simpa using within [] (.inl rfl), fun _ => ⟨within [_] (.inl rfl), fun reply => ?_⟩⟩
  rw [List.append_assoc]
  rcases reply with error | root
  · exact reports _ (.error error) (fun _ => rfl) ⟨rfl, rfl⟩
  · refine ⟨within _ (.inr ⟨none, rfl⟩), fun reply => ?_⟩
    rw [List.append_assoc]
    refine reports _ reply (fun more => ?_) ⟨rfl, rfl⟩
    simp [trials, HostExchange.awaited?]

/-- What is known when tests have been run: they were all executed, or one of them has
stopped the pass.
-/
def Tested (options : Options) (tests : List TestCase) (before : Usage) (past : List HostExchange)
    : Except TestError Unit → Prop
  | .ok () => Between options tests [] before past
  | .error _ => Stopped options past

theorem Stopped.judge (stopped : Stopped options past) (error : TestError)
    : options.repetition.judge (.error error) = .error error := by
  cases repeats : options.repetition with
  | forever => exact absurd repeats stopped.strict
  | _ => rfl

@[simp] theorem judge_ok (repetition : Repetition)
    : repetition.judge (.ok () : Except TestError Unit) = .ok () := by
  cases repetition <;> rfl

/-- The tests that are to come are executed one after the other up to the first that stops the pass,
by induction on them.
-/
theorem Options.upholds_runTests (between : Between options tests coming before past)
    (runCount : Nat)
    : (options.runTests runCount coming).Upholds (Ordered options tests)
        (fun later verdict =>
          Tested options tests before later verdict.1
          ∧ (verdict.1 = .ok () → verdict.2 = runCount + (options.selected coming).length))
        past := by
  induction coming generalizing past runCount with
  | nil => exact ⟨between.ordered, between, fun _ => rfl⟩
  | cons test coming ih =>
      rw [runTests]
      split
      · next accepted =>
          refine (test.upholds_run _ (fun more executed => ?_)
            fun more reply verdict executed counted judged => ?_).bind
          · have whole := trials_append between.settled more
            rcases executed with none | ⟨reply, one⟩
            · exact between.ordered.of_trials (by rw [whole, none, List.append_nil])
            · exact between.ordered_next accepted (by rw [whole, one])
          · have whole := trials_append between.settled more
            rw [executed] at whole
            have onward (passes : options.repetition ≠ .forever → reply = .ok (.exited 0))
                : (options.runTests (runCount + 1) coming).Upholds (Ordered options tests)
                    (fun later verdict =>
                      Tested options tests before later verdict.1
                      ∧ (verdict.1 = .ok ()
                        → verdict.2 = runCount + (options.selected (test :: coming)).length))
                    (past ++ more) := by
              refine (ih (between.next accepted executed counted passes) (runCount + 1)).mono ?_
              rintro later verdict - ⟨tested, count⟩
              refine ⟨tested, fun good => ?_⟩
              rw [count good, selected_of_accepted accepted, List.length_cons]
              omega
            rcases verdict with ⟨⟩ | _
            · have failed : reply ≠ .ok (.exited 0) := fun same => nomatch judged.mpr same
              cases repeats : options.repetition with
              | forever => exact onward fun strict => absurd repeats strict
              | _ =>
                  have strict : options.repetition ≠ .forever := by rw [repeats]; nofun
                  have stopped : Stopped options (past ++ more) :=
                    ⟨strict, _, test, reply, whole, failed, between.passed strict⟩
                  have told (reply : Unit)
                      : trials (past ++ more ++ [⟨.tell .someFailed, reply⟩])
                        = trials (past ++ more) :=
                    trials_append_aside (List.forall_mem_singleton.mpr rfl) stopped.settled
                  exact ⟨between.ordered_next accepted whole, fun _ =>
                    ⟨between.ordered_next accepted ((told ()).trans whole),
                      ⟨strict, told () ▸ stopped.failed⟩, nofun⟩⟩
            · rw [judge_ok]
              exact onward fun _ => judged.mp rfl
      · next refused =>
          have order := between.order
          rw [selected_of_refused refused] at order ⊢
          exact ih ⟨between.settled, order, between.passed, between.counted⟩ runCount

-----------------------------------------------------------------------------------------
-- Whole passes
-----------------------------------------------------------------------------------------

/-- When the resources are counted, something holds on the way if it does as long as no test is
executed, and in the end if it does with what was counted.
-/
theorem Options.upholds_sampleUsage {always : List HostExchange → Prop}
    {result : List HostExchange → Usage → Prop}
    (within : ∀ more, trials more = [] → always (past ++ more))
    (last : ∀ more usage, trials more = [] → Counted [usage] more → result (past ++ more) usage)
    : sampleUsage.Upholds always result past := by
  refine ⟨by simpa using within [] rfl, fun processes => ⟨within _ rfl, fun files => ?_⟩⟩
  refine ⟨?_, fun told => ⟨?_, ?_⟩⟩
  · rw [List.append_assoc]
    exact within _ rfl
  · rw [List.append_assoc, List.append_assoc]
    exact within _ rfl
  · rw [List.append_assoc, List.append_assoc]
    exact last _ ⟨processes, files⟩ rfl ⟨rfl, rfl⟩

/-- The comparison at the end of a pass tells whether it is flawless or has leaked. -/
theorem Options.upholds_compareUsage (between : Between options tests [] before past)
    : (compareUsage before).Upholds (Ordered options tests)
        (fun pass verdict =>
          verdict = .ok () ∧ Flawless options tests pass
            ∨ verdict ≠ .ok () ∧ Faulty options tests pass)
        past := by
  have completed : Completed options tests past := by
    have order := between.order
    rw [show options.selected [] = [] from rfl, List.append_nil] at order
    exact ⟨order, between.settled, between.passed⟩
  have still {more : List HostExchange} (none : trials more = [])
      : trials (past ++ more) = trials past := by
    rw [trials_append between.settled, none, List.append_nil]
  refine (upholds_sampleUsage (fun more none => between.ordered.of_trials (still none))
    fun more after none counted => ?_).bind
  have both := between.counted.append counted
  have ordered := between.ordered.of_trials (still none)
  have completed : Completed options tests (past ++ more) := by
    obtain ⟨whole, settled, passed⟩ := completed
    rw [← still none] at whole settled passed
    exact ⟨whole, settled, passed⟩
  have told {c : HostCall} (aside : c.isAside = true) (reply : c.Reply) :=
    ordered.of_trials
      (@trials_append_aside _ [⟨c, reply⟩] (List.forall_mem_singleton.mpr aside) completed.settled)
  split
  · next different =>
      refine ⟨ordered, fun reply => ⟨told rfl reply, .inr ⟨nofun, ?_⟩⟩⟩
      exact Faulty.append (List.forall_mem_singleton.mpr rfl)
        (.inr ⟨completed, before, after, different, both⟩)
  · next same =>
      obtain rfl := Classical.not_not.mp same
      refine ⟨ordered, fun reply => ⟨told rfl reply, .inl ⟨rfl, ?_⟩⟩⟩
      exact Flawless.append (List.forall_mem_singleton.mpr rfl) ⟨completed, before, both⟩

/-- A pass is ordered and in the end flawless or faulty, and it counts on if it is flawless. -/
theorem Options.upholds_drivePass (options : Options) (tests : List TestCase) (runCount : Nat)
    : (options.drivePass tests runCount).Upholds (Ordered options tests)
        (fun pass verdict =>
          verdict.1 = .ok ()
            ∧ Flawless options tests pass
            ∧ verdict.2 = runCount + (options.selected tests).length
          ∨ verdict.1 ≠ .ok () ∧ Faulty options tests pass)
        [] := by
  have early {past : List HostExchange} (none : trials past = []) : Ordered options tests past := by
    constructor
    · rw [none]
      exact List.nil_prefix
    · rw [none]
      exact fun _ => nofun
  refine ⟨early rfl, fun events => ?_⟩
  refine (upholds_sampleUsage (fun more none => early (by exact none))
    fun more before none counted => ?_).bind
  have aside : trials ([⟨.takeJournal, events⟩] ++ more) = [] := none
  refine ⟨early aside, fun starting => ?_⟩
  have begun : trials ([⟨.takeJournal, events⟩] ++ more ++ [⟨.tell .starting, starting⟩]) = [] := by
    rw [trials_append (aside ▸ nofun), aside]
    rfl
  have between
      : Between options tests tests before
          ([⟨.takeJournal, events⟩] ++ more ++ [⟨.tell .starting, starting⟩]) := by
    refine ⟨begun ▸ nofun, by rw [begun]; rfl, fun _ => begun ▸ nofun, ?_⟩
    exact @Counted.append _ _ [before] [] counted ⟨rfl, rfl⟩
  refine ((options.upholds_runTests between runCount).mono ?_).bind
  rintro pass ⟨error | _, count⟩ ordered ⟨tested, counts⟩
  · have stopped : Stopped options pass := tested
    dsimp only
    rw [stopped.judge]
    exact ⟨ordered, .inr ⟨nofun, .inl stopped⟩⟩
  · dsimp only
    rw [judge_ok]
    refine ((upholds_compareUsage tested).mono fun pass verdict ordered compared =>
      ⟨ordered, ?_⟩).bind
    exact compared.imp_left fun good => ⟨good.1, good.2, counts rfl⟩

/-- A run ends with the code zero if tests were run and nothing was wrong. -/
theorem Options.utters_conclude_ok (options : Options) {runCount : Nat} (counted : 0 < runCount)
    : (options.conclude (.ok ()) runCount).Utters (· = 0) := by
  simp only [conclude, if_pos counted]
  exact (Host.utters_tell _).bind fun _ _ => rfl

/-- A run ends with the code one if something was wrong. -/
theorem Options.utters_conclude_error (options : Options) (error : TestError) (runCount : Nat)
    : (options.conclude (.error error) runCount).Utters (· = 1) := by
  refine (Host.utters_tell _).bind fun _ _ => ?_
  by_cases none : runCount = 0
  · rw [if_pos none]
    exact (Host.utters_tell _).bind fun _ _ => rfl
  · rw [if_neg none]
    rfl

theorem Faulty.settled (faulty : Faulty options tests pass)
    : ∀ trial ∈ trials pass, trial.reply ≠ none :=
  faulty.elim Stopped.settled fun leaky => leaky.completed.settled

/-- What a run does after a pass is right for what the pass was, if some tests are selected. -/
theorem Options.upholds_drive (some : options.selected tests ≠ []) (runCount : Nat)
    : (options.drive tests runCount).Upholds (Ordered options tests)
        (Concludes options tests) [] := by
  refine ((options.upholds_drivePass tests runCount).mono ?_).bind
  rintro pass ⟨verdict, count⟩ ordered outcome
  -- what is said after the pass does not change what it was
  have exits {code : Nat} {ending : Host Nat} (utters : ending.Utters (· = code))
      (settled : ∀ trial ∈ trials pass, trial.reply ≠ none)
      (right
        : ∀ more,
            (∀ exchange ∈ more, exchange.call.isAside = true)
            → Concludes options tests (pass ++ more) (.exit code))
      : (Onward.exit <$> ending).Upholds (Ordered options tests)
          (Concludes options tests) pass := by
    have utters : (Onward.exit <$> ending).Utters (· = .exit code) :=
      utters.bind fun value same => congrArg Onward.exit same
    refine utters.upholds
      (fun more aside => ordered.of_trials (trials_append_aside aside settled)) ?_
    rintro more _ aside rfl
    exact right more aside
  rcases outcome with ⟨good, flawless, counts⟩ | ⟨bad, faulty⟩
  · obtain rfl : verdict = .ok () := good
    have positive : 0 < count := by
      have several := List.length_pos_iff.mpr some
      dsimp only at counts
      omega
    dsimp only
    split
    · next once =>
        exact exits (options.utters_conclude_ok positive) flawless.completed.settled
          fun more aside =>
          .inl ⟨once, flawless.append aside, rfl⟩
    · next repeated => exact ⟨ordered, repeated, flawless⟩
  · rcases verdict with error | _
    · exact exits (options.utters_conclude_error error count) faulty.settled fun more aside =>
        .inr ⟨faulty.append aside, rfl⟩
    · exact absurd rfl bad

end KernelConformance
