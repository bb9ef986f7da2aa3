import KernelConformance.Proofs.Files.TidyKernels
import KernelConformance.Proofs.Programs.Supervision

/-! What a machine does as deeds. A process that is launched acts until it ends, and with it
only those that were started meanwhile; each of them does what its program says, with the
replies that it gets.
-/

namespace KernelConformance

/-- The process that does a deed. -/
def Deed.actor? : Deed → Option Pid
  | call pid _ _ | finish pid _ => some pid
  | _ => none

section Actors

variable {deeds more : List Deed} {pid : Pid}

theorem exchanges_idle (idle : ∀ deed ∈ deeds, deed.actor? ≠ some pid)
    : exchanges pid deeds = [] := by
  refine List.filterMap_eq_nil_iff.mpr fun deed member => ?_
  rcases made : deed.exchange? pid with _ | exchange
  · rfl
  · refine absurd ?_ (idle deed member)
    rw [Deed.eq_call_of_exchange made]
    rfl

theorem not_finish_idle (idle : ∀ deed ∈ deeds, deed.actor? ≠ some pid) (ending : Ending)
    : .finish pid ending ∉ deeds :=
  fun member => idle _ member rfl

/-- What a process does not do makes no difference to whether it follows a program. -/
theorem Follows.append_idle {prog : Prog Ending} (follows : Follows deeds pid prog)
    (idle : ∀ deed ∈ more, deed.actor? ≠ some pid)
    : Follows (deeds ++ more) pid prog := by
  obtain ⟨rest, reached, ends⟩ := follows
  refine ⟨rest, ?_, fun ending member => ?_⟩
  · rwa [exchanges_append, exchanges_idle idle, List.append_nil]
  · exact ends ending ((List.mem_append.mp member).resolve_right (not_finish_idle idle ending))

theorem Follows.idle_append {prog : Prog Ending} (follows : Follows more pid prog)
    (idle : ∀ deed ∈ deeds, deed.actor? ≠ some pid)
    : Follows (deeds ++ more) pid prog := by
  obtain ⟨rest, reached, ends⟩ := follows
  refine ⟨rest, ?_, fun ending member => ?_⟩
  · rwa [exchanges_append, exchanges_idle idle, List.nil_append]
  · exact ends ending ((List.mem_append.mp member).resolve_left (not_finish_idle idle ending))

end Actors

namespace Kernel

variable {config : Config} {deeds during more : List Deed} {kernel middle after begin : Kernel}
  {pid root child : Pid} {mains : String → Option Main} {program : String} {argv : List String}

-----------------------------------------------------------------------------------------
-- The numbers of those who act
-----------------------------------------------------------------------------------------

theorem Step.next_le {deed : Deed} (step : kernel.Step deed after)
    : kernel.processes.next.number ≤ after.processes.next.number :=
  step.processes.next_le

theorem Steps.next_le (steps : Steps kernel during after)
    : kernel.processes.next.number ≤ after.processes.next.number := by
  induction steps with
  | nil => exact Nat.le_refl _
  | cons step _ ih => exact Nat.le_trans step.next_le ih

theorem Step.actor_runs {deed : Deed} (step : kernel.Step deed after)
    (acts : deed.actor? = some pid)
    : kernel.processes.isRunning pid = true := by
  cases step with
  | call runs | callBlocked runs | finish runs => exact Option.some.inj acts ▸ runs
  | _ => cases acts

/-- Whoever acts was started before what comes next, by induction on the steps. -/
theorem Run.actor_lt (run : Run config deeds kernel) (steps : Steps kernel during after)
    {deed : Deed} (member : deed ∈ during) (acts : deed.actor? = some pid)
    : pid.number < after.processes.next.number := by
  induction steps generalizing deeds with
  | nil => cases member
  | cons step rest ih =>
      rcases List.mem_cons.mp member with rfl | member
      · have older := run.rooted.running_lt (step.actor_runs acts)
        exact Nat.lt_of_lt_of_le older (Nat.le_trans step.next_le rest.next_le)
      · exact ih (run.step step) member

theorem Step.begin_number {deed : Deed} {begun : Begin} (step : kernel.Step deed after)
    (begins : deed.begin? = some begun)
    : begun.child = kernel.processes.next ∧ after.processes.next = begun.child.next := by
  cases step with
  | @spawn program argv reply _ started =>
      rcases reply with _ | child
      · cases begins
      · obtain rfl := Option.some.inj begins
        exact ⟨(started_of_start started).numbered, (started_of_start started).next⟩
  | @call pid c reply _ _ replied =>
      cases c with
      | exec program argv =>
          rcases reply with _ | child
          · cases begins
          · obtain rfl := Option.some.inj begins
            exact ⟨(started_of_call replied).numbered, (started_of_call replied).next⟩
      | _ => cases begins
  | callBlocked =>
      rename_i c _ _
      cases c <;> cases begins
  | _ => cases begins

/-- Who is started in the course of some steps is numbered in this course, by induction
on the steps.
-/
theorem Steps.starts_number (steps : Steps kernel during after) {begun : Begin}
    (member : begun ∈ starts during)
    : kernel.processes.next.number ≤ begun.child.number
      ∧ begun.child.number < after.processes.next.number := by
  induction steps with
  | nil => cases member
  | @cons _ deed _ _ _ step rest ih =>
      rcases begins : deed.begin? with _ | other
      · rw [starts, List.filterMap_cons_none begins] at member
        exact ⟨Nat.le_trans step.next_le (ih member).1, (ih member).2⟩
      · rw [starts, List.filterMap_cons_some begins] at member
        rcases List.mem_cons.mp member with rfl | member
        · obtain ⟨numbered, next⟩ := step.begin_number begins
          have later := rest.next_le
          rw [next, Pid.number_next] at later
          rw [numbered] at later ⊢
          exact ⟨Nat.le_refl _, later⟩
        · exact ⟨Nat.le_trans step.next_le (ih member).1, (ih member).2⟩

/-- A process that does not act goes on running, by induction on the steps. -/
theorem Run.runs_on (run : Run config deeds kernel) (steps : Steps kernel during after)
    (runs : kernel.processes.isRunning pid = true) (stays : ∀ ending, .finish pid ending ∉ during)
    : after.processes.isRunning pid = true := by
  induction steps generalizing deeds with
  | nil => exact runs
  | cons step rest ih =>
      refine ih (run.step step) (run.running_after step runs fun ends => ?_)
        fun ending member => stays ending (List.mem_cons_of_mem _ member)
      obtain ⟨ending, rfl⟩ := Deed.eq_finish_of_ended ends
      exact stays ending (List.mem_cons_self ..)

theorem Step.programs_of_actor {deed : Deed} (step : kernel.Step deed after)
    (acts : deed.actor? = some pid)
    : after.programs = kernel.programs := by
  cases step with
  | call _ replied => exact call_programs replied
  | callBlocked => rfl
  | finish => exact finish_programs ..
  | _ => cases acts

-----------------------------------------------------------------------------------------
-- The course of a process
-----------------------------------------------------------------------------------------

/-- Whether a process acts in some deeds alone or with those that were started meanwhile, each of
which follows its program.
-/
structure Course (mains : String → Option Main) (begin : Kernel) (root : Pid) (during : List Deed)
    (kernel : Kernel)
    : Prop where
  steps : Steps begin during kernel
  actors
    : ∀ deed ∈ during, ∃ actor,
        deed.actor? = some actor ∧ (actor = root ∨ begin.processes.next.number ≤ actor.number)
  follows
    : ∀ begun ∈ starts during, ∃ main,
        mains begun.program = some main
        ∧ Follows during begun.child (main (begun.argv.headD begun.program) begun.argv)

namespace Course

theorem nil (mains : String → Option Main) (kernel : Kernel) (root : Pid)
    : Course mains kernel root [] kernel :=
  ⟨.nil, nofun, nofun⟩

/-- One deed that starts nobody. -/
theorem single {deed : Deed} (step : kernel.Step deed after) (acts : deed.actor? = some root)
    (alone : deed.begin? = none)
    : Course mains kernel root [deed] after where
  steps := .cons step .nil
  actors := by
    rintro _ (_ | ⟨_, ⟨⟩⟩)
    exact ⟨root, acts, .inl rfl⟩
  follows := by
    rw [starts, List.filterMap_cons_none alone]
    exact nofun

/-- Who was there before and is not the one that acts does nothing. -/
theorem idle (course : Course mains begin root during kernel) (different : pid ≠ root)
    (older : pid.number < begin.processes.next.number)
    : ∀ deed ∈ during, deed.actor? ≠ some pid := by
  intro deed member acts
  obtain ⟨actor, same, who⟩ := course.actors deed member
  obtain rfl : actor = pid := Option.some.inj (same.symm.trans acts)
  rcases who with rfl | younger
  · exact different rfl
  · exact absurd older (Nat.not_lt_of_le younger)

theorem programs (course : Course mains begin root during kernel)
    : kernel.programs = begin.programs := by
  obtain ⟨steps, actors, -⟩ := course
  replace actors : ∀ deed ∈ during, ∃ actor, deed.actor? = some actor :=
    fun deed member => (actors deed member).imp fun _ => And.left
  induction steps with
  | nil => rfl
  | cons step _ ih =>
      obtain ⟨actor, acts⟩ := actors _ (List.mem_cons_self ..)
      rw [ih fun deed member => actors deed (List.mem_cons_of_mem _ member),
        step.programs_of_actor acts]

/-- A process goes on where it has got to. -/
theorem append (course : Course mains begin root during kernel) (run : Run config deeds begin)
    (runs : begin.processes.isRunning root = true) (onward : Course mains kernel root more after)
    : Course mains begin root (during ++ more) after where
  steps := by
    have first := course.steps
    have second := onward.steps
    clear course onward run runs
    induction first with
    | nil => exact second
    | cons step _ ih => exact .cons step (ih second)
  actors := by
    intro deed member
    rcases List.mem_append.mp member with earlier | later
    · exact course.actors deed earlier
    · obtain ⟨actor, acts, who⟩ := onward.actors deed later
      exact ⟨actor, acts, who.imp_right (Nat.le_trans course.steps.next_le)⟩
  follows := by
    have older := run.rooted.running_lt runs
    rw [starts_append]
    intro begun member
    rcases List.mem_append.mp member with earlier | later
    · obtain ⟨main, known, follows⟩ := course.follows begun earlier
      have number := course.steps.starts_number earlier
      have different : begun.child ≠ root := fun same => by
        rw [same] at number
        omega
      exact ⟨main, known, follows.append_idle (onward.idle different number.2)⟩
    · obtain ⟨main, known, follows⟩ := onward.follows begun later
      have number := onward.steps.starts_number later
      refine ⟨main, known, follows.idle_append fun deed member acts => ?_⟩
      have before := run.actor_lt course.steps member acts
      omega

/-- A process starts another one, which acts next. -/
theorem rear (run : Run config deeds kernel) (runs : kernel.processes.isRunning root = true)
    (replied : kernel.call root (.exec program argv) = some (.ok child, middle)) {main : Main}
    (known : mains program = some main) (course : Course mains middle child more after)
    (follows : Follows more child (main (argv.headD program) argv))
    : Course mains kernel root
        (.call root (.exec program argv) (some (.ok child)) :: more) after := by
  have begun := started_of_call replied
  have older := run.rooted.running_lt runs
  have numbered : child.number = kernel.processes.next.number := congrArg Pid.number begun.numbered
  have next : middle.processes.next.number = child.number + 1 := congrArg Pid.number begun.next
  have others (pid : Pid) (different : pid ≠ root) (deed : Deed)
      (first : deed ∈ [Deed.call root (.exec program argv) (some (.ok child))])
      : deed.actor? ≠ some pid := by
    obtain rfl := List.mem_singleton.mp first
    exact fun acts => different (Option.some.inj acts).symm
  refine ⟨.cons (.call runs replied) course.steps, fun deed member => ?_, fun other member => ?_⟩
  · rcases List.mem_cons.mp member with rfl | member
    · exact ⟨root, rfl, .inl rfl⟩
    · obtain ⟨actor, acts, rfl | younger⟩ := course.actors deed member
      · exact ⟨actor, acts, .inr (Nat.le_of_eq numbered.symm)⟩
      · exact ⟨actor, acts, .inr (by omega)⟩
  · have different (younger : kernel.processes.next.number ≤ other.child.number)
        : other.child ≠ root :=
      fun same => by
        rw [same] at younger
        omega
    rcases List.mem_cons.mp member with rfl | later
    · exact ⟨main, known,
        follows.idle_append (others child (different (Nat.le_of_eq numbered.symm)))⟩
    · have number := course.steps.starts_number later
      obtain ⟨main, known, follows⟩ := course.follows other later
      exact ⟨main, known, follows.idle_append (others other.child (different (by omega)))⟩

end Course

-----------------------------------------------------------------------------------------
-- Machines
-----------------------------------------------------------------------------------------

/-- Whether a call starts only a program of which it is known what it does, or one that
cannot be loaded.
-/
def Familiar (mains : String → Option Main) (programs : List String) (_ : List Exchange)
    : Syscall → Prop
  | .exec program _ => program ∈ programs → mains program ≠ none
  | _ => True

section Machines

open Machine (runCalls launch)

variable {α : Type} {images : Images Unit} {programs : List String}

/-- What is said of a process that is launched: it acts in some deeds, in which it
follows its program.
-/
def Launches (config : Config) (mains : String → Option Main) (programs : List String)
    (raise : Pid → String → Machine Unit → Machine Unit)
    : Prop :=
  ∀ deeds kernel child program argv main reports,
    Run config deeds kernel
    → kernel.Newborn child program argv
    → kernel.programs = programs
    → mains program = some main
    → ∃ more,
        Course mains kernel child more (raise child program ⟨kernel, reports⟩).kernel
        ∧ Follows more child (main (argv.headD program) argv)

/-- A call of a process on a machine, and all that is done before the process goes on. -/
theorem Launches.answered {raise : Pid → String → Machine Unit → Machine Unit}
    (launches : Launches config mains programs raise) (run : Run config deeds kernel)
    (runs : kernel.processes.isRunning pid = true) (same : kernel.programs = programs) {c : Syscall}
    {reply : c.Reply} {past : List Exchange} (familiar : Familiar mains programs past c)
    (replied : kernel.call pid c = some (reply, middle)) (reports : List (Pid × Unit))
    : ∃ first,
        Course mains kernel pid first (Machine.answered raise c reply ⟨middle, reports⟩).kernel
        ∧ exchanges pid first = [⟨c, reply⟩]
        ∧ ∀ ending, .finish pid ending ∉ first := by
  have step : kernel.Step (.call pid c (some reply)) middle := .call runs replied
  rcases begun : c.started? reply with _ | ⟨program, child⟩
  · rw [Machine.answered_alone begun]
    have own : (Deed.call pid c (some reply)).IsOwn pid := ⟨c, reply, rfl, begun⟩
    refine ⟨[.call pid c (some reply)], .single step rfl own.begin?_eq_none, ?_,
      fun ending ended => ?_⟩
    · exact exchanges_cons_call ..
    · exact own.ne_finish ending (List.mem_singleton.mp ended).symm
  · cases c with
    | exec program argv =>
        rcases reply with _ | child
        · cases begun
        · cases begun
          have loaded := same ▸ program_of_call replied
          obtain ⟨main, known⟩ := Option.ne_none_iff_exists'.mp (familiar loaded)
          obtain ⟨more, course, follows⟩ :=
            launches _ middle child program argv main reports (run.step step)
              (newborn_of_call replied) ((call_programs replied).trans same) known
          have begun := started_of_call replied
          have older := run.rooted.running_lt runs
          have numbered : child.number = kernel.processes.next.number :=
            congrArg Pid.number begun.numbered
          have next : middle.processes.next.number = child.number + 1 :=
            congrArg Pid.number begun.next
          have different : pid ≠ child := fun equal => by
            rw [equal] at older
            omega
          have idle := course.idle different (by omega)
          refine ⟨_, .rear run runs replied known course follows, ?_, fun ending ended => ?_⟩
          · rw [exchanges_cons_call, exchanges_idle idle]
          · exact not_finish_idle idle ending ((List.mem_cons.mp ended).resolve_left nofun)
    | _ => cases begun

/-- A process that makes calls on a machine acts in some deeds, in which it gets as far in its
program as on the machine, by induction on the program.
-/
theorem Launches.runCalls {raise : Pid → String → Machine Unit → Machine Unit}
    (launches : Launches config mains programs raise) {prog : Prog α} {past : List Exchange}
    {result : List Exchange → α → Prop} (machine : Machine Unit)
    (run : Run config deeds machine.kernel) (runs : machine.kernel.processes.isRunning pid = true)
    (same : machine.kernel.programs = programs)
    (upholds : prog.Upholds (Familiar mains programs) result past)
    : ∃ during rest,
        Course mains machine.kernel pid during (Machine.runCalls raise pid prog machine).2.kernel
        ∧ prog.Reaches (exchanges pid during) rest
        ∧ (∀ value, (Machine.runCalls raise pid prog machine).1 = some value → rest = .done value)
        ∧ ∀ ending, .finish pid ending ∉ during := by
  induction prog generalizing deeds past machine with
  | done value =>
      refine ⟨[], .done value, .nil .., .refl, fun other equal => ?_, fun _ => List.not_mem_nil⟩
      exact congrArg Prog.done (Option.some.inj equal)
  | call c next ih =>
      obtain ⟨familiar, onward⟩ := upholds
      rcases replied : machine.kernel.call pid c with _ | ⟨reply, kernel⟩
      · refine ⟨[], .call c next, ?_, .refl, ?_, fun _ => List.not_mem_nil⟩
        · rw [Machine.runCalls, replied]
          exact .nil ..
        · rw [Machine.runCalls, replied]
          intro value impossible
          cases impossible
      · rw [Machine.runCalls_call replied]
        obtain ⟨first, course, made, unended⟩ :=
          launches.answered run runs same familiar replied machine.reports
        obtain ⟨more, rest, further, reached, ends, stays⟩ :=
          ih reply _ (run.extend course.steps) (run.runs_on course.steps runs unended)
            (course.programs.trans same) (onward reply)
        refine ⟨first ++ more, rest, course.append run runs further, ?_, ends,
          fun ending ended => ?_⟩
        · rw [exchanges_append, made]
          exact .call reply reached
        · rcases List.mem_append.mp ended with earlier | later
          · exact unended ending earlier
          · exact stays ending later

/-- Every process that is launched acts as its program says if the programs start only such ones of
which this is known, by induction on the levels of the machine.
-/
theorem launches_launch
    (loads : ∀ name main, mains name = some main → images name = some (Image.ofMain main))
    (familiar
      : ∀ name main argv,
          mains name = some main
          → (main (argv.headD name) argv).Upholds (Familiar mains programs) (fun _ _ => True) [])
    (depth : Nat)
    : Launches config mains programs (launch images depth) := by
  induction depth with
  | zero =>
      intro _ kernel child _ _ _ _ _ _ _ _
      exact ⟨[], .nil .., _, .refl, fun _ => nofun⟩
  | succ depth ih =>
      intro deeds kernel child program argv main reports run newborn same known
      obtain ⟨during, rest, course, reached, ends, stays⟩ :=
        ih.runCalls ⟨kernel, reports⟩ run newborn.runs same (familiar program main argv known)
      have begins
          : (main (kernel.context child).name (kernel.context child).argv)
            = main (argv.headD program) argv := by
        rw [newborn.context]
      rcases came
          : Machine.runCalls (launch images depth) child (main (argv.headD program) argv)
              ⟨kernel, reports⟩
        with ⟨_ | ending, last⟩
      · rw [came] at course
        rw [Machine.launch_eq (loads program main known), begins, came]
        exact ⟨during, course, rest, reached, fun ending ended => absurd ended (stays ending)⟩
      · rw [came] at course ends
        rw [Machine.launch_eq (loads program main known), begins, came]
        have alive := run.runs_on course.steps newborn.runs stays
        have finish : last.kernel.Step (.finish child ending) (last.kernel.finish child ending) :=
          .finish alive
        refine ⟨during ++ [.finish child ending],
          course.append run newborn.runs (.single finish rfl rfl), rest, ?_, fun other ended => ?_⟩
        · rwa [exchanges_snoc, show (Deed.finish child ending).exchange? child = none from rfl,
            Option.toList_none, List.append_nil]
        · rcases List.mem_append.mp ended with earlier | last
          · exact absurd earlier (stays other)
          · cases List.mem_singleton.mp last
            exact ends ending rfl

end Machines

end Kernel

end KernelConformance
