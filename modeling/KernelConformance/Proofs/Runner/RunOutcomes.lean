import KernelConformance.Proofs.Runner.Courses

/-! What the exit code of a run tells, in whatever order the processes go on. A run that makes one
pass exits with zero exactly if all selected tests have passed and nothing has leaked. A run that
goes on and on ends with the first pass that something is wrong with, and never exits with zero.
-/

namespace KernelConformance.Course

variable {options : Options} {tests : List TestCase} {course after : Course} {code : Nat}

/-- The exit code of a run that is over. -/
def code? (course : Course) : Option Nat :=
  match course.rest with
  | .done (.exit code) => some code
  | _ => none

theorem rest_of_code (finished : course.code? = some code) : course.rest = .done (.exit code) := by
  rw [code?] at finished
  split at finished
  · next same =>
      cases finished
      exact same
  · cases finished

/-- What holds of a run with some selected tests: the passes before were flawless, and the one under
way will come to what it should come to.
-/
structure Sound (options : Options) (tests : List TestCase) (course : Course) : Prop where
  upholds : course.rest.Upholds (Ordered options tests) (Concludes options tests) course.pass
  earlier
    : ∀ pass ∈ course.passes,
        Ordered options tests pass ∧ options.repetition ≠ .once ∧ Flawless options tests pass

/-- A run with some selected tests is sound in every state, by induction on its steps. -/
theorem Reached.sound (reached : Reached options tests course) (some : options.selected tests ≠ [])
    : Sound options tests course := by
  unfold Reached at reached
  induction reached with
  | refl =>
      have begins : options.begin tests = options.drive tests 0 :=
        if_neg fun none => some (List.isEmpty_iff.mp none)
      refine ⟨?_, nofun⟩
      change (options.begin tests).Upholds _ _ []
      rw [begins]
      exact Options.upholds_drive some 0
  | step _ step ih =>
      obtain ⟨upholds, earlier⟩ := ih
      cases step with
      | move move => exact ⟨upholds.reaches move.reaches, earlier⟩
      | again =>
          refine ⟨Options.upholds_drive some _, ?_⟩
          rw [List.forall_mem_append, List.forall_mem_singleton]
          exact ⟨earlier, upholds⟩

/-- Without a selected test a run exits with one at once, by induction on its steps. -/
theorem Reached.idle (reached : Reached options tests course) (none : options.selected tests = [])
    : course.passes = []
      ∧ course.rest.Upholds (fun past => trials past = []) (fun _ onward => onward = .exit 1)
          course.pass := by
  unfold Reached at reached
  induction reached with
  | refl =>
      have begins : options.begin tests = (Host.tell .noneSelected >>= fun _ => pure (.exit 1)) :=
        if_pos (List.isEmpty_iff.mpr none)
      refine ⟨rfl, ?_⟩
      change (options.begin tests).Upholds _ _ []
      rw [begins]
      exact ⟨rfl, fun _ => ⟨rfl, rfl⟩⟩
  | step _ step ih =>
      obtain ⟨fresh, upholds⟩ := ih
      cases step with
      | move move => exact ⟨fresh, upholds.reaches move.reaches⟩
      | again => cases upholds.2

/-- In every state of a run, its passes have executed selected tests in their order, and none after
the first that has failed unless failures are ignored. All passes but the last are flawless, and
there is only one unless more were asked for. The last one can come to its end, whatever has
happened so far, and if the run is over then, its exit code is right: without repetition it is zero
if there is a test and the pass is flawless, and one if there is no test or the pass is faulty; with
repetition it is one, for one of these two reasons.
-/
theorem exit_code_of_passes (reached : Reached options tests course)
    : (∀ pass ∈ course.passes ++ [course.pass], Ordered options tests pass)
      ∧ (∀ pass ∈ course.passes, options.repetition ≠ .once ∧ Flawless options tests pass)
      ∧ (∃ later onward,
          Steps options tests course later
          ∧ later.rest = .done onward
          ∧ later.passes = course.passes
          ∧ (options.repetition = .once → ∃ code, onward = .exit code))
      ∧ ∀ code,
          course.code? = some code
          → (options.repetition = .once
              → (code = 0 ↔ options.selected tests ≠ [] ∧ Flawless options tests course.pass)
                ∧ (code = 1 ↔ options.selected tests = [] ∨ Faulty options tests course.pass)
                ∧ (code = 0 ∨ code = 1))
            ∧ (options.repetition ≠ .once
              → code = 1 ∧ (options.selected tests = [] ∨ Faulty options tests course.pass)) := by
  obtain ⟨later, onward, steps, done, same⟩ := reached.completes
  have ends : Reached options tests later := Steps.trans reached steps
  by_cases none : options.selected tests = []
  · obtain ⟨fresh, upholds⟩ := reached.idle none
    obtain ⟨-, ended⟩ := ends.idle none
    rw [done] at ended
    refine ⟨?_, by rw [fresh]; nofun, ⟨later, onward, steps, done, same, fun _ => ⟨1, ended.2⟩⟩, ?_⟩
    · rw [fresh, List.nil_append, List.forall_mem_singleton]
      have nothing := upholds.now
      exact ⟨by rw [nothing]; exact List.nil_prefix, by rw [nothing]; exact fun _ => nofun⟩
    · intro code finished
      rw [rest_of_code finished] at upholds
      obtain rfl : code = 1 := Onward.exit.inj upholds.2
      refine ⟨fun _ =>
        ⟨iff_of_false nofun fun both => both.1 none, iff_of_true rfl (.inl none), .inr rfl⟩, ?_⟩
      exact fun _ => ⟨rfl, .inl none⟩
  · obtain ⟨upholds, earlier⟩ := reached.sound none
    obtain ⟨ended, -⟩ := ends.sound none
    rw [done] at ended
    refine ⟨?_, fun pass member => (earlier pass member).2, ⟨later, onward, steps, done, same, ?_⟩,
      ?_⟩
    · rw [List.forall_mem_append, List.forall_mem_singleton]
      exact ⟨fun pass member => (earlier pass member).1, upholds.now⟩
    · intro once
      cases onward with
      | pass => exact absurd once ended.2.1
      | exit code => exact ⟨code, rfl⟩
    · intro code finished
      rw [rest_of_code finished] at upholds
      rcases upholds.2 with ⟨once, flawless, rfl⟩ | ⟨faulty, rfl⟩
      · refine ⟨fun _ => ⟨iff_of_true rfl ⟨none, flawless⟩, iff_of_false nofun ?_, .inl rfl⟩, ?_⟩
        · exact fun wrong => wrong.elim none flawless.not_faulty
        · exact fun repeated => absurd once repeated
      · refine ⟨fun _ => ⟨iff_of_false nofun ?_, iff_of_true rfl (.inr faulty), .inr rfl⟩, ?_⟩
        · exact fun right => right.2.not_faulty faulty
        · exact fun _ => ⟨rfl, .inr faulty⟩

-----------------------------------------------------------------------------------------
-- Runs with each of the exit codes
-----------------------------------------------------------------------------------------

/-- A test whose root process ends with a status at once. -/
def exiting (status : String) : TestCase := ⟨status, ExitCode.program, [status], []⟩

/-- An order in which the runner begins, the first processes make some steps in turn, and the runner
goes on.
-/
def rounds (turns : List (Nat × Pid)) : List (Option Pid) :=
  List.replicate 7 none
    ++ (turns.flatMap fun (count, pid) => List.replicate count (some pid))
    ++ List.replicate 20 none

/-- Options for a run that ignores failures, with few resources. -/
def scarce : Options :=
  { ((Options.default "usertests").setProcesses 3).setFiles 2 with repetition := .forever }

/-- A run whose test passes exits with zero. One whose second test fails exits with one, and its
third test is not executed. One that ignores failures exits with one if the failed test leaves a
process that runs, which still holds its slot after the pass.
-/
theorem exit_code_of_passes_instances
    : (∃ course,
        Reached (.default "usertests") [exiting "0"] course
        ∧ course.code? = some 0
        ∧ Flawless (.default "usertests") [exiting "0"] course.pass)
      ∧ (∃ course,
        Reached (.default "usertests") [exiting "0", exiting "1", exiting "0"] course
        ∧ course.code? = some 1
        ∧ (trials course.pass).map Trial.test = [exiting "0", exiting "1"]
        ∧ Faulty (.default "usertests") [exiting "0", exiting "1", exiting "0"] course.pass)
      ∧ ∃ course,
        Reached scarce [.tagged "quick" MultiProg.program []] course
        ∧ course.code? = some 1
        ∧ processCounts course.pass = [0, 1]
        ∧ fileCounts course.pass = [0, 0]
        ∧ Faulty scarce [.tagged "quick" MultiProg.program []] course.pass := by
  have reached (options : Options) (tests : List TestCase) (order : List (Option Pid))
      : Reached options tests ((start options tests).follow options tests order) :=
    steps_follow order (start options tests)
  refine ⟨⟨_, reached _ _ (rounds [(2, .first)]), ?_⟩,
    ⟨_, reached _ _ (rounds [(2, .first)] ++ rounds [(3, Pid.first.next)]), ?_⟩,
    ⟨_, reached _ _ (rounds [(3, .first), (9, Pid.first.next), (12, .first)]), ?_⟩⟩
  · have finished
        : ((start (.default "usertests") [exiting "0"]).follow (.default "usertests") [exiting "0"]
            (rounds [(2, .first)])).code?
          = some 0 := by decide +kernel
    obtain ⟨-, -, -, exits⟩ := exit_code_of_passes (reached _ _ (rounds [(2, .first)]))
    obtain ⟨zero, -, -⟩ := (exits 0 finished).1 rfl
    exact ⟨finished, (zero.mp rfl).2⟩
  · have finished
        : ((start (.default "usertests") [exiting "0", exiting "1", exiting "0"]).follow
            (.default "usertests") [exiting "0", exiting "1", exiting "0"]
            (rounds [(2, .first)] ++ rounds [(3, Pid.first.next)])).code?
          = some 1 := by decide +kernel
    obtain ⟨-, -, -, exits⟩ :=
      exit_code_of_passes (reached _ _ (rounds [(2, .first)] ++ rounds [(3, Pid.first.next)]))
    obtain ⟨-, one, -⟩ := (exits 1 finished).1 rfl
    exact ⟨finished, by decide +kernel, (one.mp rfl).resolve_left (by decide)⟩
  · have finished
        : ((start scarce [.tagged "quick" MultiProg.program []]).follow scarce
            [.tagged "quick" MultiProg.program []]
            (rounds [(3, .first), (9, Pid.first.next), (12, .first)])).code?
          = some 1 := by decide +kernel
    obtain ⟨-, -, -, exits⟩ :=
      exit_code_of_passes (reached _ _ (rounds [(3, .first), (9, Pid.first.next), (12, .first)]))
    obtain ⟨-, faulty⟩ := (exits 1 finished).2 nofun
    exact ⟨finished, by decide +kernel, by decide +kernel, faulty.resolve_left (by decide)⟩

end KernelConformance.Course
