import KernelConformance.Proofs.Runner.Passes
import KernelConformance.Proofs.Suite.TendedPools

/-! Runs of the suite in which the processes go on in any order between the calls of the runner.
Whatever has happened, the pass under way can come to its end, as every process can.
-/

namespace KernelConformance

variable {config : Config} {pool : Pool} {options : Options} {tests : List TestCase}

-----------------------------------------------------------------------------------------
-- Calls of the runner on tended pools
-----------------------------------------------------------------------------------------

/-- The runner waits for nothing but a process that it has started and that runs. -/
theorem HostCall.blocked_cases {c : HostCall} {kernel : Kernel} (blocked : c.perform kernel = none)
    : ∃ root,
        c = .await root ∧ kernel.processes.slots.get? root = some ⟨.host, .running⟩ := by
  cases c with
  | await root =>
      refine ⟨root, rfl, ?_⟩
      by_cases owned : ∃ slot, kernel.processes.slots.get? root = some slot ∧ slot.parent = .host
      · obtain ⟨⟨_, _ | status⟩, found, rfl⟩ := owned
        · exact found
        · obtain ⟨after, replied, -⟩ := @Wait.retry_zombie ⟨.host, root⟩ _ _ rfl found
          cases blocked.symm.trans replied
      · have replied :=
          Wait.retry_noChild ⟨.host, root⟩ fun slot found same => owned ⟨slot, found, same⟩
        cases blocked.symm.trans replied
  | _ => cases blocked

namespace Pool.Tended

/-- A deed of the host that starts nobody leaves a pool tended. -/
theorem host (tended : pool.Tended config) {deed : Deed} {kernel : Kernel}
    (step : pool.kernel.Step deed kernel) (programs : kernel.programs = pool.kernel.programs)
    (stays : ∀ pid ending, deed ≠ .finish pid ending)
    (nobody : ∀ pid parent program, deed.event? ≠ some (.spawned pid parent program))
    : Tended config { pool with kernel } :=
  @advance _ _ tended _ _ pool.left none step programs
    (fun _ prog had _ => ⟨prog, had, fun _ => id⟩)
    (fun pid parent program event => absurd event (nobody pid parent program)) nofun
    (tended.sound.advance step stays)

/-- The host starts only what fits to be started by it. -/
theorem spawn (tended : pool.Tended config) {program : String} {argv : List String}
    {reply : Except Errno Pid} {kernel : Kernel}
    (started : pool.kernel.start .host program argv = (reply, kernel))
    : (Pool.load (reply.toOption.map (program, ·)) { pool with kernel }).Tended config := by
  have step : pool.kernel.Step (.spawn program argv reply) kernel := .spawn started
  rcases reply with error | root
  · exact tended.host step (Kernel.start_frame started).1 nofun nofun
  · have begun := Kernel.started_of_start started
    refine @advance _ _ tended _ _ pool.left _ step (Kernel.start_frame started).1
      (fun _ prog had _ => ⟨prog, had, fun _ => id⟩) (fun pid parent name event => ?_)
      (fun name pid same => ?_) ?_
    · cases event
      obtain ⟨main, known⟩ := tended.testProgram (Kernel.program_of_start started)
      exact ⟨rfl, main, known, testProgram_makes_parental known⟩
    · cases same
      exact tended.sound.left_started begun
    · refine (tended.sound.advance step nofun).load fun name pid same => ?_
      cases same
      exact (Kernel.newborn_of_start started).runs

/-- Whatever the runner calls leaves a pool tended, by cases on the call. -/
theorem serve (tended : pool.Tended config) {c : HostCall} {reply : c.Reply} {kernel : Kernel}
    (served : c.perform pool.kernel = some (reply, kernel))
    : (Pool.load (c.started? reply) { pool with kernel }).Tended config := by
  cases c with
  | tell | countProcesses | countFiles =>
      cases served
      exact tended
  | takeJournal =>
      cases served
      exact tended.host .takeJournal rfl nofun nofun
  | takeConsole =>
      cases served
      exact tended.host .takeConsole rfl nofun nofun
  | start test =>
      have started := Option.some.inj served
      have kept := tended.spawn started
      rcases reply with error | root <;> exact kept
  | await root =>
      refine tended.host (.wait served) ?_ nofun ?_
      · rcases Kernel.reap_cases served with ⟨_, -, rfl⟩ | ⟨_, _, -, -, rfl⟩ <;> rfl
      · rintro pid parent program event
        rcases reply with _ | _ <;> cases event

/-- Before a run there is nobody, and only the test programs can be loaded. -/
theorem ofTests (config : Config) : (Pool.ofTests (.bootWithTests config)).Tended config where
  sound := (Kernel.Idle.boot config).pool_sound
  mains := rfl
  loadable program loaded := by
    obtain ⟨deeds, after, same, run, known, -, -⟩ :=
      Kernel.registered testPrograms (.boot : Kernel.Run config [] _)
    obtain rfl : Kernel.bootWithTests config = after := same
    rcases (known program).mp loaded with ⟨entry, member, rfl⟩ | before
    · have present : ∀ entry ∈ testPrograms, (testProgram? entry.1).isSome = true := by decide
      exact Option.isSome_iff_ne_none.mp (present entry member)
    · cases before
  tended pid parent found := by
    cases (congrArg (·.slots.get? pid) (Kernel.booted_empty config).1).symm.trans found

end Pool.Tended

-----------------------------------------------------------------------------------------
-- Computations of the runner come to an end
-----------------------------------------------------------------------------------------

namespace Host

variable {α : Type} {prog middle : Host α} {between after : Pool}
  {exchanges more : List HostExchange}

theorem Moves.trans {last : Host α} (first : Moves pool prog exchanges between middle)
    (second : Moves between middle more after last)
    : Moves pool prog (exchanges ++ more) after last := by
  induction second with
  | refl => simpa using first
  | step _ move ih => simpa using ih.step move

theorem Moves.of_goesOn (goes : pool.GoesOn after) : Moves pool prog [] after prog := by
  induction goes with
  | refl => exact .refl
  | step _ pid ih => exact ih.step (.goOn pid)

/-- Whatever the processes have done so far, the runner can come to a value: what it waits for can
end first. By induction on the computation.
-/
theorem completes (prog : Host α) (tended : pool.Tended config)
    : ∃ exchanges after value,
        Moves pool prog exchanges after (.done value) ∧ after.Tended config := by
  induction prog generalizing pool with
  | done value => exact ⟨[], pool, value, .refl, tended⟩
  | call c next ih =>
      have onward {ready : Pool} (tended : ready.Tended config) {reply : c.Reply} {kernel : Kernel}
          (served : c.perform ready.kernel = some (reply, kernel))
          : ∃ exchanges after value,
              Moves ready (.call c next) exchanges after (.done value) ∧ after.Tended config := by
        obtain ⟨exchanges, after, value, moves, kept⟩ := ih reply (tended.serve served)
        exact ⟨_, after, value, (Moves.refl.step (.serve served)).trans moves, kept⟩
      rcases served : c.perform pool.kernel with _ | ⟨reply, kernel⟩
      · obtain ⟨root, rfl, slot⟩ := HostCall.blocked_cases served
        obtain ⟨todo, had, -⟩ := tended.tended root .host slot
        obtain ⟨ready, goes, kept, finished⟩ := tended.ends had
        rcases answered : (HostCall.await root).perform ready.kernel with _ | ⟨reply, kernel⟩
        · obtain ⟨_, same, stays⟩ := HostCall.blocked_cases answered
          cases same
          rw [ProcessTable.isRunning_iff.mpr ⟨_, stays⟩] at finished
          cases finished
        · obtain ⟨exchanges, after, value, moves, kept⟩ := onward kept answered
          exact ⟨_, after, value, (Moves.of_goesOn goes).trans moves, kept⟩
      · exact onward tended served

end Host

-----------------------------------------------------------------------------------------
-- Courses
-----------------------------------------------------------------------------------------

/-- The state of a run: the processes, what the runner is still to do in the pass under way, what it
has exchanged in the passes before, and what it has exchanged in this one.
-/
structure Course where
  pool : Pool
  rest : Host Onward
  passes : List (List HostExchange)
  pass : List HostExchange

namespace Course

/-- The run of the selected tests on a fresh kernel. -/
def start (options : Options) (tests : List TestCase) : Course :=
  ⟨.ofTests (.bootWithTests options.config), options.begin tests, [], []⟩

/-- What can happen next: a process goes on, or the runner makes its next call, or
begins another pass.
-/
inductive Step (options : Options) (tests : List TestCase) : Course → Course → Prop where
  | move {pool rest passes pass more after next} (move : Host.Move pool rest more after next)
    : Step options tests ⟨pool, rest, passes, pass⟩ ⟨after, next, passes, pass ++ more⟩
  | again {pool runCount passes pass}
    : Step options tests ⟨pool, .done (.pass runCount), passes, pass⟩
        ⟨pool, options.drive tests runCount, passes ++ [pass], []⟩

/-- Any number of steps. -/
inductive Steps (options : Options) (tests : List TestCase) (course : Course) : Course → Prop where
  | refl : Steps options tests course course
  | step {middle after} (steps : Steps options tests course middle)
    (step : Step options tests middle after)
    : Steps options tests course after

/-- Whether the run of some tests can come to a state. -/
def Reached (options : Options) (tests : List TestCase) (course : Course) : Prop :=
  Steps options tests (start options tests) course

variable {course after : Course}

theorem Steps.trans {last : Course} (first : Steps options tests course after)
    (second : Steps options tests after last)
    : Steps options tests course last := by
  induction second with
  | refl => exact first
  | step _ step ih => exact ih.step step

/-- Moves are steps of a run, by induction on them. -/
theorem Steps.of_moves {rest next : Host Onward} {last : Pool} {more : List HostExchange}
    (moves : Host.Moves pool rest more last next) (passes : List (List HostExchange))
    (pass : List HostExchange)
    : Steps options tests ⟨pool, rest, passes, pass⟩ ⟨last, next, passes, pass ++ more⟩ := by
  induction moves with
  | refl =>
      rw [List.append_nil]
      exact .refl
  | step _ move ih =>
      rw [← List.append_assoc]
      exact ih.step (.move move)

/-- The state after the next step of the runner, or of a process. A runner that waits stays
where it is.
-/
def advance (options : Options) (tests : List TestCase) (course : Course) : Option Pid → Course
  | some pid => { course with pool := (course.pool.goOn pid).2 }
  | none =>
      match course with
      | ⟨pool, .done (.pass runCount), passes, pass⟩ =>
          ⟨pool, options.drive tests runCount, passes ++ [pass], []⟩
      | ⟨pool, .done (.exit code), passes, pass⟩ => ⟨pool, .done (.exit code), passes, pass⟩
      | ⟨pool, .call c next, passes, pass⟩ =>
          match c.perform pool.kernel with
          | none => ⟨pool, .call c next, passes, pass⟩
          | some (reply, kernel) =>
              ⟨Pool.load (c.started? reply) { pool with kernel }, next reply, passes,
                pass ++ [⟨c, reply⟩]⟩

/-- The state after the steps in some order. -/
def follow (options : Options) (tests : List TestCase) (order : List (Option Pid)) (course : Course)
    : Course :=
  order.foldl (advance options tests) course

theorem steps_advance (course : Course) (next : Option Pid)
    : Steps options tests course (course.advance options tests next) := by
  obtain ⟨pool, rest, passes, pass⟩ := course
  cases next with
  | some pid => simpa [advance] using Steps.refl.step (.move (.goOn pid))
  | none =>
      rcases rest with ⟨runCount | code⟩ | ⟨c, next⟩
      · exact .step .refl .again
      · exact .refl
      · rcases served : c.perform pool.kernel with _ | ⟨reply, kernel⟩
        · simpa only [advance, served] using Steps.refl
        · simpa only [advance, served] using Steps.refl.step (.move (.serve served))

/-- Any order of the steps is one that a run can have, by induction on the order. -/
theorem steps_follow (order : List (Option Pid)) (course : Course)
    : Steps options tests course (course.follow options tests order) := by
  induction order generalizing course with
  | nil => exact .refl
  | cons next rest ih => exact (steps_advance course next).trans (ih _)

/-- In every state of a run each process can come to its end, by induction on the steps. -/
theorem Reached.tended (reached : Reached options tests course)
    : course.pool.Tended options.config := by
  unfold Reached at reached
  induction reached with
  | refl => exact .ofTests options.config
  | step _ step ih =>
      cases step with
      | again => exact ih
      | move move =>
          cases move with
          | goOn pid => exact ih.goOn pid
          | serve served => exact ih.serve served

/-- In every state of a run the pass under way can come to its end. -/
theorem Reached.completes (reached : Reached options tests course)
    : ∃ later onward,
        Steps options tests course later
        ∧ later.rest = .done onward
        ∧ later.passes = course.passes := by
  obtain ⟨exchanges, after, onward, moves, -⟩ := course.rest.completes reached.tended
  exact ⟨_, onward, .of_moves moves course.passes course.pass, rfl, rfl⟩

end Course

end KernelConformance
