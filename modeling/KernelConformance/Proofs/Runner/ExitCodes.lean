import KernelConformance.Proofs.Runner.Awaiting
import KernelConformance.Proofs.Runner.RunOutcomes

/-! The exit codes of the command line, in whatever order the processes go on. A run that makes its
tests once, each of which passes or not where nobody is and leaves nobody there, exits with zero
exactly if all of them pass; for the tests of the suite this comes down to how many process slots
and open files there are.
-/

namespace KernelConformance

variable {config : Config} {pool : Pool} {options : Options} {tests coming : List TestCase}
  {test : TestCase} {passes : TestCase → Prop}

-----------------------------------------------------------------------------------------
-- The runner where nobody is
-----------------------------------------------------------------------------------------

/-- What the runner does by itself brings nobody into a pool, by induction on it. -/
theorem Host.Utters.ensures {α : Type} {prog : Host α} {values : α → Prop} {holds : Prop}
    (utters : prog.Utters values) (quiet : holds → pool.Quiet config)
    : Ensures pool prog fun value after => values value ∧ (holds → after.Quiet config) := by
  have kept (pool : Pool) (pid : Pid) (quiet : holds → pool.Quiet config) (holds : holds) :=
    (quiet holds).goOn pid
  induction prog generalizing pool with
  | done value => exact .done kept quiet fun after quiet => ⟨utters, quiet⟩
  | call c next ih =>
      obtain ⟨aside, onward⟩ := utters
      refine .call kept quiet fun waiting reply kernel quiet served =>
        ih reply (onward reply) fun holds => ?_
      have quiet := quiet holds
      cases c with
      | tell =>
          cases served
          exact quiet
      | takeJournal =>
          cases served
          exact quiet.host quiet.idle.clearJournal
      | takeConsole =>
          cases served
          exact quiet.host quiet.idle.clearConsole
      | _ => cases aside

/-- Whether a test that is made where nobody is passes exactly if something holds, and leaves nobody
there if it passes.
-/
def TestCase.Decides (config : Config) (test : TestCase) (passes : Prop) : Prop :=
  ∀ pool : Pool,
    pool.Quiet config
    → Host.Ensures pool test.await fun result after =>
        (result = .ok (.exited 0) ↔ passes) ∧ (result = .ok (.exited 0) → after.Quiet config)

/-- Such a test is reported to pass exactly if it does. -/
theorem TestCase.ensures_run {holds : Prop} (decides : test.Decides config holds)
    (quiet : pool.Quiet config) (echoes : Bool)
    : Host.Ensures pool (test.run echoes) fun verdict after =>
        (verdict = .ok () ↔ holds) ∧ (verdict = .ok () → after.Quiet config) := by
  refine ((Host.utters_tell _).ensures fun _ : True => quiet).bind fun _ after quiet => ?_
  refine (decides after (quiet.2 trivial)).bind fun result after awaited => ?_
  obtain ⟨verdict, quiet⟩ := awaited
  rw [← verdict]
  exact ((test.utters_outcome echoes result).ensures quiet).mono fun _ _ reported =>
    ⟨reported.1, fun good => reported.2 (reported.1.mp good)⟩

/-- The resources are counted where nobody is. -/
theorem Options.ensures_sampleUsage (quiet : pool.Quiet config)
    : Host.Ensures pool sampleUsage fun usage after => usage = ⟨0, 0⟩ ∧ after.Quiet config := by
  have kept (pool : Pool) (pid : Pid) (quiet : pool.Quiet config) := quiet.goOn pid
  refine .call kept quiet fun waiting reply kernel quiet served => ?_
  cases served
  have processes : waiting.kernel.processes.size = 0 := congrArg Usage.processes quiet.idle.usage
  refine .call kept quiet fun waiting reply kernel quiet served => ?_
  cases served
  have files : waiting.kernel.files.size = 0 := congrArg Usage.files quiet.idle.usage
  refine .call kept quiet fun waiting reply kernel quiet served => ?_
  cases served
  refine .done kept quiet fun after quiet => ⟨?_, quiet⟩
  rw [processes, files]

/-- Nothing has leaked where nobody was before and nobody is after. -/
theorem Options.ensures_compareUsage (quiet : pool.Quiet config)
    : Host.Ensures pool (compareUsage ⟨0, 0⟩) fun verdict _ => verdict = .ok () := by
  refine (ensures_sampleUsage quiet).bind fun usage _ sampled => ?_
  obtain ⟨rfl, -⟩ := sampled
  rw [if_neg (not_not_intro rfl)]
  exact .of_utters ((Host.utters_tell _).bind fun _ _ => rfl)

/-- Tests that are made once pass one after the other up to the first that fails. If all of them
pass they are counted and leave nobody, by induction on those to come.
-/
theorem Options.ensures_runTests (once : options.repetition = .once)
    (decides : ∀ test ∈ options.selected coming, test.Decides config (passes test))
    (quiet : pool.Quiet config) (runCount : Nat)
    : Host.Ensures pool (options.runTests runCount coming) fun verdict after =>
        (verdict.1 = .ok () ↔ ∀ test ∈ options.selected coming, passes test)
        ∧ (verdict.1 = .ok ()
          → verdict.2 = runCount + (options.selected coming).length ∧ after.Quiet config) := by
  induction coming generalizing pool runCount with
  | nil =>
      refine .done (fun pool pid (quiet : pool.Quiet config) => quiet.goOn pid) quiet
        fun after quiet => ?_
      exact ⟨iff_of_true rfl nofun, fun _ => ⟨rfl, quiet⟩⟩
  | cons test coming ih =>
      rw [runTests]
      split
      · next accepted =>
          rw [selected_of_accepted accepted] at decides ⊢
          obtain ⟨first, others⟩ := List.forall_mem_cons.mp decides
          refine (test.ensures_run first quiet _).bind fun verdict after ran => ?_
          obtain ⟨judged, quiet⟩ := ran
          rw [once, List.forall_mem_cons, ← judged]
          rcases verdict with error | _
          · have told
                : (do
                    Host.tell .someFailed
                    pure (.error error, runCount + 1)
                  : Host (Except TestError Unit × Nat)).Utters fun verdict =>
                    verdict.1 = .error error :=
              (Host.utters_tell _).bind fun _ _ => rfl
            refine (Host.Ensures.of_utters told).mono fun verdict _ failed => ?_
            rw [failed]
            have wrong : (.error error : Except TestError Unit) ≠ .ok () := by simp
            exact ⟨iff_of_false wrong fun all => wrong all.1, fun right => absurd right wrong⟩
          · refine (ih others (quiet rfl) _).mono fun verdict after tested => ?_
            rw [and_iff_right rfl, List.length_cons, Nat.add_comm _ 1, ← Nat.add_assoc]
            exact tested
      · next refused =>
          rw [selected_of_refused refused] at decides ⊢
          exact ih decides quiet runCount

/-- Nothing has leaked if nobody is there after the tests, and so a pass is flawless exactly if all
tests pass.
-/
theorem Options.ensures_drivePass (once : options.repetition = .once)
    (decides : ∀ test ∈ options.selected tests, test.Decides config (passes test))
    (quiet : pool.Quiet config) (runCount : Nat)
    : Host.Ensures pool (options.drivePass tests runCount) fun verdict _ =>
        (verdict.1 = .ok () ↔ ∀ test ∈ options.selected tests, passes test)
        ∧ (verdict.1 = .ok () → verdict.2 = runCount + (options.selected tests).length) := by
  have drops : (Host.perform .takeJournal).Utters fun _ => True := ⟨rfl, fun _ => trivial⟩
  refine (drops.ensures fun _ : True => quiet).bind fun _ after dropped => ?_
  refine (ensures_sampleUsage (dropped.2 trivial)).bind fun usage after sampled => ?_
  obtain ⟨rfl, quiet⟩ := sampled
  refine ((Host.utters_tell _).ensures fun _ : True => quiet).bind fun _ after told => ?_
  refine (options.ensures_runTests once decides (told.2 trivial) runCount).bind ?_
  rintro ⟨error | _, count⟩ after ⟨judged, outcome⟩
  · dsimp only
    rw [once]
    refine .done (fun _ _ (_ : True) => trivial) trivial fun _ _ => ⟨judged, nofun⟩
  · obtain ⟨rfl, quiet⟩ := outcome rfl
    dsimp only
    rw [judge_ok]
    refine (ensures_compareUsage quiet).bind fun verdict after same => ?_
    refine .done (fun _ _ (_ : True) => trivial) trivial fun _ _ => ?_
    exact ⟨by rw [same]; exact judged, fun _ => rfl⟩

/-- A run that makes one pass where nobody is exits with zero exactly if all tests pass, and
otherwise with one.
-/
theorem Options.ensures_drive (once : options.repetition = .once)
    (some : options.selected tests ≠ [])
    (decides : ∀ test ∈ options.selected tests, test.Decides config (passes test))
    (quiet : pool.Quiet config)
    : Host.Ensures pool (options.drive tests 0) fun onward _ =>
        ∃ code,
          onward = .exit code
          ∧ ((∀ test ∈ options.selected tests, passes test) → code = 0)
          ∧ (¬(∀ test ∈ options.selected tests, passes test) → code = 1) := by
  refine (ensures_drivePass once decides quiet 0).bind ?_
  rintro ⟨error | _, count⟩ after ⟨judged, counted⟩
  · have failed : ¬∀ test ∈ options.selected tests, passes test := fun all => nomatch judged.mpr all
    refine .of_utters ((options.utters_conclude_error error count).bind fun code one => ?_)
    exact ⟨code, rfl, fun all => absurd all failed, fun _ => one⟩
  · have positive : 0 < count := by
      have several := List.length_pos_iff.mpr some
      have counted := counted rfl
      dsimp only at counted
      omega
    dsimp only
    rw [if_pos once]
    refine .of_utters ((options.utters_conclude_ok positive).bind fun code zero => ?_)
    exact ⟨code, rfl, fun _ => zero, fun none => absurd (judged.mp rfl) none⟩

-----------------------------------------------------------------------------------------
-- Runs
-----------------------------------------------------------------------------------------

namespace Course

variable {course : Course}

/-- Whether a run ends with an exit code in whatever order the processes go on: from wherever it is
it can come to its end, and it ends with no other code.
-/
structure Exits (options : Options) (tests : List TestCase) (code : Nat) : Prop where
  ends
    : ∀ course,
        Reached options tests course
        → ∃ later, Steps options tests course later ∧ later.code? = some code
  only : ∀ course other, Reached options tests course → course.code? = some other → other = code

/-- A run that makes no second pass is in the course of its first one, by induction on its steps. -/
theorem Reached.moves (reached : Reached options tests course)
    (once
      : Host.Ensures (.ofTests (.bootWithTests options.config)) (options.begin tests)
          fun onward _ =>
          ∃ code, onward = .exit code)
    : Host.Moves (.ofTests (.bootWithTests options.config)) (options.begin tests)
        course.pass course.pool
        course.rest := by
  unfold Reached at reached
  induction reached with
  | refl => exact .refl
  | step _ step ih =>
      cases step with
      | move move => exact ih.step move
      | again =>
          obtain ⟨code, same⟩ := once _ _ _ ih
          cases same

/-- A run that can only come to one exit code ends with it. -/
theorem exits_of_ensures {code : Nat}
    (ensures
      : Host.Ensures (.ofTests (.bootWithTests options.config)) (options.begin tests)
          fun onward _ =>
          onward = .exit code)
    : Exits options tests code := by
  have moves {course : Course} (reached : Reached options tests course) :=
    reached.moves (ensures.mono fun _ _ same => ⟨code, same⟩)
  constructor
  · intro course reached
    obtain ⟨later, onward, steps, finished, -⟩ := reached.completes
    have here := moves (Steps.trans reached steps)
    rw [finished] at here
    obtain rfl := ensures _ _ _ here
    exact ⟨later, steps, by rw [code?, finished]⟩
  · intro course other reached finished
    have here := moves reached
    rw [rest_of_code finished] at here
    exact Onward.exit.inj (ensures _ _ _ here)

/-- A run that makes some tests once exits with zero exactly if all of them pass. -/
theorem exits_of_decides (once : options.repetition = .once) (some : options.selected tests ≠ [])
    (decides : ∀ test ∈ options.selected tests, test.Decides options.config (passes test))
    {holds : Prop} [Decidable holds] (same : (∀ test ∈ options.selected tests, passes test) ↔ holds)
    : Exits options tests (if holds then 0 else 1) := by
  have wanted : (options.selected tests).isEmpty = false :=
    Bool.eq_false_of_not_eq_true fun none => some (List.isEmpty_iff.mp none)
  refine exits_of_ensures ?_
  rw [Options.begin, if_neg (by simp [wanted])]
  refine (options.ensures_drive once some decides (.ofTests options.config)).mono
    fun onward _ ended => ?_
  obtain ⟨code, rfl, zero, one⟩ := ended
  rw [same] at zero one
  split
  · next holds => rw [zero holds]
  · next fails => rw [one fails]

end Course

/-- Whether a command line ends with an exit code: one that is refused ends with one, and any other
as its run does.
-/
def CommandExits (prog : String) (args : List String) (tests : List TestCase) (code : Nat) : Prop :=
  match Options.read prog args with
  | .error _ => code = 1
  | .ok options => Course.Exits options tests code

-----------------------------------------------------------------------------------------
-- The suite
-----------------------------------------------------------------------------------------

/-- Whether there are the process slots and the open files that a program of the suite
needs to pass.
-/
def Suffices (processes files : Nat) (program : String) : Prop :=
  if program = ExecTest.program then 2 ≤ processes
  else if program = FdTest.program then 1 ≤ processes ∧ files = 16
  else if program = Fibonacci.program then 1 ≤ processes ∧ 4 ≤ files
  else if program = MultiProg.program then 2 ≤ processes ∧ 8 ≤ files
  else 2 ≤ processes ∧ 4 ≤ files

/-- A test that is settled by something passes where nobody is exactly if there is a slot
for it too.
-/
theorem TestCase.decides_of_settles {test : TestCase} {holds : Prop}
    (short : (test.program :: test.args).length ≤ maxArguments)
    (settles : test.Settles config holds)
    : test.Decides config (1 ≤ config.maxProcesses ∧ holds) :=
  fun _ => test.ensures_await settles short

theorem TestCase.Decides.congr {test : TestCase} {holds enough : Prop}
    (decides : test.Decides config holds) (same : holds ↔ enough)
    : test.Decides config enough :=
  propext same ▸ decides

/-- Each test of the suite passes where there is what it needs, if file names can be long enough. -/
theorem suite_decides {config : Config} (long : 24 ≤ config.maxNameLength)
    : ∀ test ∈ suiteTests,
        test.Decides config (Suffices config.maxProcesses config.maxOpenFiles test.program) := by
  simp only [suiteTests, List.forall_mem_cons]
  have needsSlots {needed : Nat} {holds : Prop} (more : 1 ≤ needed)
      : 1 ≤ config.maxProcesses ∧ needed ≤ config.maxProcesses ∧ holds
        ↔ needed ≤ config.maxProcesses ∧ holds :=
    ⟨And.right, fun both => ⟨Nat.le_trans more both.1, both⟩⟩
  refine ⟨?_, ?_, ?_, ?_, ?_, nofun⟩
  · refine (TestCase.decides_of_settles (by decide) (ExecTest.settles config)).congr ?_
    exact ⟨And.right, fun slots => ⟨Nat.le_trans (by decide) slots, slots⟩⟩
  · exact TestCase.decides_of_settles (by decide) (@FdTest.settles config (by omega))
  · exact TestCase.decides_of_settles (by decide) (@Fibonacci.settles config (by omega))
  · exact (TestCase.decides_of_settles (by decide) (MultiProg.settles long)).congr
      (needsSlots (by decide))
  · exact (TestCase.decides_of_settles (by decide) (@SeqFib.settles config (by omega))).congr
      (needsSlots (by decide))

/-- The arguments that set both limits. -/
def limits (processes files : Nat) : List String := ["-p", toString processes, "-f", toString files]

/-- The options that these arguments stand for. -/
def limited (prog : String) (processes files : Nat) : Options :=
  ((Options.default prog).setProcesses processes).setFiles files

variable {processes files limit : Nat}

theorem readFrom_limits (small : processes ≤ 18446744073709551615)
    (smallToo : files ≤ 18446744073709551615) (prog : String) (selection : List String)
    : Options.read prog (limits processes files ++ selection)
      = Options.readFrom (limited prog processes files) selection := by
  have first : Options.readNumber "-p" (toString processes) = .ok processes := by
    simp only [Options.readNumber, Decimal.readNat64_toString, if_pos small]
  have second : Options.readNumber "-f" (toString files) = .ok files := by
    simp only [Options.readNumber, Decimal.readNat64_toString, if_pos smallToo]
  simp only [Options.read, limits, List.cons_append, List.nil_append, Options.readFrom, first,
    second]
  rfl

/-- The run of the suite under some limits exits with zero exactly if these are enough for all tests
that are selected.
-/
theorem exits_of_limits {options : Options} {chosen : List TestCase} {holds : Prop}
    [Decidable holds] (small : processes ≤ 18446744073709551615)
    (smallToo : files ≤ 18446744073709551615) (prog : String) {selection : List String}
    (read : Options.readFrom (limited prog processes files) selection = .ok options)
    (same
      : options.repetition = (limited prog processes files).repetition
        ∧ options.config = (limited prog processes files).config)
    (selected : options.selected suiteTests = chosen) (some : chosen ≠ [])
    (needs : (∀ test ∈ chosen, Suffices processes files test.program) ↔ holds)
    : CommandExits prog (limits processes files ++ selection) suiteTests
        (if holds then 0 else 1) := by
  subst selected
  obtain ⟨once, config⟩ := same
  rw [CommandExits, readFrom_limits small smallToo prog selection, read]
  refine Course.exits_of_decides once some (fun test member => ?_) needs
  rw [config]
  exact suite_decides (show 24 ≤ 256 by decide) test (List.mem_of_mem_filter member)

/-- The exit codes of the suite under limits of the process slots and the open files, in whatever
order the processes go on: all its tests pass where there are two slots and exactly sixteen files,
and a single test that is selected by its name passes where there is what it needs.
-/
theorem exitCodes (small : processes ≤ 18446744073709551615)
    (smallToo : files ≤ 18446744073709551615) (prog : String)
    : let exits (selection : List String) (code : Nat) : Prop :=
        CommandExits prog (limits processes files ++ selection) suiteTests code
      exits [] (if 2 ≤ processes ∧ files = 16 then 0 else 1)
      ∧ exits ["exectest"] (if 2 ≤ processes then 0 else 1)
      ∧ exits ["fdtest"] (if 1 ≤ processes ∧ files = 16 then 0 else 1)
      ∧ exits ["fibonacci"] (if 1 ≤ processes ∧ 4 ≤ files then 0 else 1)
      ∧ exits ["multiprog"] (if 2 ≤ processes ∧ 8 ≤ files then 0 else 1)
      ∧ exits ["seqfib"] (if 2 ≤ processes ∧ 4 ≤ files then 0 else 1) := by
  have single {name : String} {test : TestCase} {holds : Prop} [Decidable holds]
      (read
        : Options.readFrom (limited prog processes files) [name]
          = .ok ((limited prog processes files).setName name))
      (selected : ((limited prog processes files).setName name).selected suiteTests = [test])
      (needs : Suffices processes files test.program ↔ holds)
      : CommandExits prog (limits processes files ++ [name]) suiteTests (if holds then 0 else 1) :=
    exits_of_limits small smallToo prog read ⟨rfl, rfl⟩ selected nofun
      (List.forall_mem_singleton.trans needs)
  refine ⟨?_, single rfl rfl .rfl, single rfl rfl .rfl, single rfl rfl .rfl, single rfl rfl .rfl,
    single rfl rfl .rfl⟩
  refine @exits_of_limits _ _ _ _ _ _ small smallToo prog [] rfl ⟨rfl, rfl⟩
    (rfl : _ = suiteTests) nofun ?_
  simp only [suiteTests, List.forall_mem_cons]
  change
    2 ≤ processes
        ∧ (1 ≤ processes ∧ files = 16)
        ∧ (1 ≤ processes ∧ 4 ≤ files)
        ∧ (2 ≤ processes ∧ 8 ≤ files)
        ∧ (2 ≤ processes ∧ 4 ≤ files)
        ∧ (∀ test ∈ [], _)
      ↔ _
  constructor
  · rintro ⟨slots, ⟨-, capacity⟩, -⟩
    exact ⟨slots, capacity⟩
  · rintro ⟨slots, rfl⟩
    exact ⟨slots, ⟨by omega, rfl⟩, ⟨by omega, by omega⟩, ⟨slots, by omega⟩, ⟨slots, by omega⟩,
      nofun⟩

/-- Two process slots and sixteen open files are enough for the whole suite and for each of its
tests, and one slot is not.
-/
theorem exitCodes_sixteen
    : CommandExits "usertests" (limits 2 16) suiteTests 0
      ∧ CommandExits "usertests" (limits 2 16 ++ ["seqfib"]) suiteTests 0
      ∧ CommandExits "usertests" (limits 1 16 ++ ["seqfib"]) suiteTests 1 := by
  obtain ⟨all, -, -, -, -, enough⟩ := @exitCodes 2 16 (by decide) (by decide) "usertests"
  obtain ⟨-, -, -, -, -, few⟩ := @exitCodes 1 16 (by decide) (by decide) "usertests"
  exact ⟨all, enough, few⟩

end KernelConformance
