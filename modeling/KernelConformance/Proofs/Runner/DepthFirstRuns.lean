import KernelConformance.Proofs.Runner.ExitCodes

/-! Runs in which every process runs to its end as soon as it is started. That is one of the orders
in which the processes can go on, so that such a run is one of the courses that a run can take.
-/

namespace KernelConformance

open Machine (answered launch launch_eq runCalls runCalls_call)

variable {config : Config} {pool after : Pool} {pid : Pid} {program : String}

-----------------------------------------------------------------------------------------
-- Machines
-----------------------------------------------------------------------------------------

namespace Pool

theorem GoesOn.tended (goes : pool.GoesOn after) (tended : pool.Tended config)
    : after.Tended config := by
  induction goes with
  | refl => exact tended
  | step _ pid ih => exact ih.goOn pid

/-- What a process has to do that was started as some program. -/
def begun? (kernel : Kernel) (program : String) (pid : Pid) : Option (Prog Ending) :=
  (testProgram? program).map fun main => main (kernel.context pid).name (kernel.context pid).argv

theorem get?_load_begun (mains : pool.mains = testMains) (nothing : pool.left.get? pid = none)
    : (pool.load (some (program, pid))).left.get? pid = begun? pool.kernel program pid := by
  rcases known : testProgram? program with _ | main
  · have missing : pool.mains.get? program = none := by rw [mains, get?_testMains, known]
    simp only [load, missing, nothing, begun?, known, Option.map_none]
  · have present : pool.mains.get? program = some main := by rw [mains, get?_testMains, known]
    rw [get?_load_self present, begun?, known]
    rfl

/-- A pool has come of another one in which all but one process were left to do what
they had to do.
-/
structure Spares (pool : Pool) (pid : Pid) (after : Pool) : Prop where
  goes : pool.GoesOn after
  spared
    : ∀ other prog,
        other ≠ pid
        → pool.left.get? other = some prog
        → after.left.get? other = some prog

theorem Spares.trans {last : Pool} (first : pool.Spares pid after) (second : after.Spares pid last)
    : pool.Spares pid last where
  goes := first.goes.trans second.goes
  spared other prog different had :=
    second.spared other prog different (first.spared other prog different had)

/-- Whether what a machine does with a process that was just started is something that a
pool can do.
-/
def Raises (config : Config) (raise : Pid → String → Machine Unit → Machine Unit) : Prop :=
  ∀ pool : Pool,
    pool.Tended config
    → ∀ pid program reports,
        pool.left.get? pid = begun? pool.kernel program pid
        → ∃ after,
            pool.Spares pid after
            ∧ after.kernel = (raise pid program ⟨pool.kernel, reports⟩).kernel

variable {raise : Pid → String → Machine Unit → Machine Unit}

/-- Who was started by a call is new. -/
theorem started_of_begun {kernel after : Kernel} {c : Syscall} {reply : c.Reply} {child : Pid}
    (replied : kernel.call pid c = some (reply, after))
    (begun : c.started? reply = some (program, child))
    : kernel.processes.Started (.proc pid) program child after.processes := by
  cases c with
  | exec =>
      rcases reply with _ | _
      · cases begun
      · cases begun
        exact Kernel.started_of_call replied
  | _ => cases begun

/-- A call leaves all others to do what they had to do. -/
theorem Tended.spares_goOn (tended : pool.Tended config) {c : Syscall}
    {next : c.Reply → Prog Ending} (found : pool.left.get? pid = some (.call c next))
    {reply : c.Reply} {kernel : Kernel} (replied : pool.kernel.call pid c = some (reply, kernel))
    : pool.Spares pid (pool.goOn pid).2 := by
  refine ⟨GoesOn.refl.step pid, fun other prog different had => ?_⟩
  rw [goOn_of_call found replied, get?_load_of_ne, FiniteMap.get?_insert, if_neg different, had]
  rintro program begun
  cases (tended.sound.left_started (started_of_begun replied begun)).symm.trans had

/-- A process that makes its calls on a machine makes them in a pool, and has done what it had to do
if it comes to an end there, by induction on what it has to do.
-/
theorem spares_runCalls (raises : Raises config raise) (tended : pool.Tended config)
    {prog : Prog Ending} (found : pool.left.get? pid = some prog) (reports : List (Pid × Unit))
    : ∃ after,
        pool.Spares pid after
        ∧ after.kernel = (runCalls raise pid prog ⟨pool.kernel, reports⟩).2.kernel
        ∧ ∀ ending,
            (runCalls raise pid prog ⟨pool.kernel, reports⟩).1 = some ending
            → after.left.get? pid = some (.done ending) := by
  induction prog generalizing pool reports with
  | done ending =>
      refine ⟨pool, ⟨.refl, fun _ _ _ => id⟩, rfl, fun other same => ?_⟩
      cases same
      exact found
  | call c next ih =>
      rcases replied : pool.kernel.call pid c with _ | ⟨reply, kernel⟩
      · rw [runCalls, replied]
        refine ⟨pool, ⟨.refl, fun _ _ _ => id⟩, rfl, fun ending same => ?_⟩
        cases same
      · rw [runCalls_call replied]
        have middle := tended.goOn pid
        have spares := tended.spares_goOn found replied
        have here := tended.sound.goOn_call found replied
        have kernels : (pool.goOn pid).2.kernel = kernel := by
          rw [goOn_of_call found replied, load_kernel]
        rcases begun : c.started? reply with _ | ⟨program, child⟩
        · rw [Machine.answered_alone begun]
          obtain ⟨after, onward, there, finished⟩ := ih reply middle here reports
          rw [kernels] at there finished
          exact ⟨after, spares.trans onward, there, finished⟩
        · have nothing := tended.sound.left_started (started_of_begun replied begun)
          have new (other : Pid) (prog : Prog Ending) (had : pool.left.get? other = some prog)
              : other ≠ child := by
            rintro rfl
            cases nothing.symm.trans had
          have started : (pool.goOn pid).2.left.get? child = begun? kernel program child := by
            rw [goOn_of_call found replied, begun]
            refine get?_load_begun tended.mains ?_
            rw [FiniteMap.get?_insert, if_neg (new pid _ found).symm, nothing]
          rw [answered, begun]
          obtain ⟨ended, raised, launched⟩ :=
            raises _ middle child program reports (kernels ▸ started)
          rw [kernels] at launched
          obtain ⟨after, onward, there, finished⟩ :=
            ih reply (raised.goes.tended middle) (raised.spared pid _ (new pid _ found) here)
              (raise child program ⟨kernel, reports⟩).reports
          rw [launched] at there finished
          refine ⟨after,
            ⟨spares.goes.trans (raised.goes.trans onward.goes), fun other prog different had => ?_⟩,
            there, finished⟩
          exact onward.spared other prog different
            (raised.spared other prog (new other prog had) (spares.spared other prog different had))

/-- A machine runs a process to its end as a pool can do it, by induction on the levels that
it goes down.
-/
theorem raises_launch (config : Config) (depth : Nat)
    : Raises config (launch testImages depth) := by
  induction depth with
  | zero => exact fun pool _ pid _ _ _ => ⟨pool, ⟨.refl, fun _ _ _ => id⟩, rfl⟩
  | succ depth ih =>
      intro pool tended pid program reports found
      rcases known : testProgram? program with _ | main
      · have missing : testImages program = none := by rw [testImages, known]; rfl
        refine ⟨pool, ⟨.refl, fun _ _ _ => id⟩, ?_⟩
        rw [launch, missing]
      · rw [begun?, known, Option.map_some] at found
        obtain ⟨after, spares, there, finished⟩ := spares_runCalls ih tended found reports
        rw [launch_eq (shipped_testImages program main known)]
        rcases ran : runCalls (launch testImages depth) pid
            (main (pool.kernel.context pid).name (pool.kernel.context pid).argv)
              ⟨pool.kernel, reports⟩
          with ⟨_ | ending, machine⟩
        · rw [ran] at there
          exact ⟨after, spares, there⟩
        · rw [ran] at there finished
          have done := finished ending rfl
          refine ⟨(after.goOn pid).2, ⟨spares.goes.step pid, fun other prog different had => ?_⟩,
            ?_⟩
          · rw [goOn_of_done done, FiniteMap.get?_erase, if_neg different]
            exact spares.spared other prog different had
          · rw [goOn_of_done done]
            exact congrArg (Kernel.finish pid ending) there

end Pool

-----------------------------------------------------------------------------------------
-- Runs
-----------------------------------------------------------------------------------------

namespace Run

variable {options : Options} {tests : List TestCase} {run : Run} {course : Course}

/-- Whether a state of a run is the same as one of a course. -/
structure Matches (config : Config) (run : Run) (course : Course) : Prop where
  tended : course.pool.Tended config
  kernel : course.pool.kernel = run.machine.kernel
  rest : course.rest = run.rest

/-- Who was started by the runner is new. -/
theorem started_of_served {c : HostCall} {reply : c.Reply} {before after : Kernel}
    (served : c.perform before = some (reply, after))
    (begun : c.started? reply = some (program, pid))
    : before.processes.Started .host program pid after.processes := by
  cases c with
  | start test =>
      rcases reply with _ | _
      · cases begun
      · cases begun
        exact Kernel.started_of_start (Option.some.inj served)
  | _ => cases begun

/-- A step of a run is some steps of a course, by cases on what the runner does. -/
theorem Matches.step (same : run.Matches config course)
    : ∃ after,
        Course.Steps options tests course after
        ∧ (run.step options tests).2.Matches config after := by
  obtain ⟨⟨kernel, reports⟩, rest⟩ := run
  obtain ⟨pool, rest, passes, pass⟩ := course
  obtain ⟨tended, rfl, rfl⟩ := same
  rcases rest with ⟨runCount | code⟩ | ⟨c, next⟩
  · exact ⟨_, .step .refl .again, tended, rfl, rfl⟩
  · exact ⟨_, .refl, tended, rfl, rfl⟩
  · rcases served : c.perform pool.kernel with _ | ⟨reply, kernel⟩
    · refine ⟨_, .refl, ?_⟩
      simp only [step, served]
      exact ⟨tended, rfl, rfl⟩
    · have serves
          : Course.Steps options tests ⟨pool, .call c next, passes, pass⟩
              ⟨Pool.load (c.started? reply) { pool with kernel }, next reply, passes,
                pass ++ [⟨c, reply⟩]⟩ :=
        .step .refl (.move (.serve served))
      have onward := tended.serve served
      simp only [step, served]
      rcases begun : c.started? reply with _ | ⟨program, pid⟩
      · rw [begun] at serves onward
        exact ⟨_, serves, onward, rfl, rfl⟩
      · have nothing := tended.sound.left_started (started_of_served served begun)
        rw [begun] at serves onward
        have found := @Pool.get?_load_begun { pool with kernel } pid program tended.mains nothing
        obtain ⟨after, ⟨goes, -⟩, launched⟩ :=
          Pool.raises_launch config kernel.processes.capacity _ onward pid program reports
            (by rw [Pool.load_kernel]; exact found)
        refine ⟨_, serves.trans (.of_moves (.of_goesOn goes) passes _), goes.tended onward, ?_, rfl⟩
        rw [launched, Pool.load_kernel]
        rfl

theorem finish_over (limit : Nat) {code : Nat} (finished : run.rest = .done (.exit code))
    : (run.finish options tests limit).2 = some code := by
  unfold finish
  rw [finished]

/-- A run that is not over makes one of the steps that are left, and has no exit code if
there is none.
-/
theorem finish_onward (onward : ∀ code, run.rest ≠ .done (.exit code)) (limit : Nat)
    : (run.finish options tests 0).2 = none
      ∧ (run.finish options tests (limit + 1)).2
        = ((run.step options tests).2.finish options tests limit).2 := by
  obtain ⟨machine, rest⟩ := run
  rcases rest with ⟨runCount | code⟩ | ⟨c, next⟩
  · exact ⟨rfl, rfl⟩
  · exact absurd rfl (onward code)
  · exact ⟨rfl, rfl⟩

theorem Matches.of_over (same : run.Matches config course) {limit code : Nat}
    (ended : ∃ code, run.rest = .done (.exit code))
    (finished : (run.finish options tests limit).2 = some code)
    : ∃ after, Course.Steps options tests course after ∧ after.code? = some code := by
  obtain ⟨other, rest⟩ := ended
  cases finished.symm.trans (finish_over limit rest)
  exact ⟨course, .refl, by rw [Course.code?, same.rest, rest]⟩

/-- An exit code of a run is one of a course, by induction on the steps that are left. -/
theorem Matches.finish (same : run.Matches config course) {limit code : Nat}
    (finished : (run.finish options tests limit).2 = some code)
    : ∃ after, Course.Steps options tests course after ∧ after.code? = some code := by
  induction limit generalizing run course with
  | zero =>
      by_cases ended : ∃ code, run.rest = .done (.exit code)
      · exact same.of_over ended finished
      · cases finished.symm.trans (finish_onward (not_exists.mp ended) 0).1
  | succ limit ih =>
      by_cases ended : ∃ code, run.rest = .done (.exit code)
      · exact same.of_over ended finished
      · obtain ⟨middle, steps, same⟩ := same.step
        rw [(finish_onward (not_exists.mp ended) limit).2] at finished
        obtain ⟨after, onward, last⟩ := ih same finished
        exact ⟨after, steps.trans onward, last⟩

end Run

/-- A whole run in which every process runs to its end as soon as it is started ends as its command
line does.
-/
theorem CommandExits.transcript {prog : String} {args : List String} {tests : List TestCase}
    {limit code other : Nat} (exits : CommandExits prog args tests code)
    (finished : (transcript limit prog args tests).code = some other)
    : other = code := by
  unfold CommandExits at exits
  unfold KernelConformance.transcript at finished
  rcases read : Options.read prog args with error | options
  · simp only [read] at exits finished
    cases finished
    exact exits.symm
  · simp only [read] at exits finished
    have same : (Run.start options tests).Matches options.config (Course.start options tests) :=
      ⟨.ofTests options.config, rfl, rfl⟩
    obtain ⟨course, reached, ended⟩ := same.finish finished
    exact exits.only course other reached ended

end KernelConformance
