import KernelConformance.Proofs.Programs.ShiftedPrograms
import Mathlib.Data.Option.Basic

/-! Machines whose kernels give out different numbers. If all programs that are started do the same
in both kernels, then so do the machines, and the host gets the same reply to a run in both, up to
the number of the process that it has started.
-/

namespace KernelConformance.Kernel

open Machine (answered launch runCalls)

variable {α β : Type} {config : Config} {deeds : List Deed} {offset : Offset}
  {starts : String → Prop}
  {left right kernel : Kernel} {pid child : Pid} {owed : List Pid} {mains : String → Option Main}
  {programs : List String} {images : Images Unit}
  {raise : Pid → String → Machine Unit → Machine Unit}

/-- What is said of processes that are launched in both kernels: the kernels differ in their numbers
when the processes have ended as they did before.
-/
def LaunchesAlike (config : Config) (mains : String → Option Main) (programs : List String)
    (offset : Offset) (starts : String → Prop)
    (raise : Pid → String → Machine Unit → Machine Unit)
    : Prop :=
  ∀ deeds left right child program argv main reports reportsToo,
    Run config deeds left
    → left.Newborn child program argv
    → left.processes.next = child.next
    → left.programs = programs
    → mains program = some main
    → left.Shifted offset starts right
    → (raise child program ⟨left, reports⟩).kernel.Shifted offset starts
        (raise (offset.pid child) program ⟨right, reportsToo⟩).kernel

/-- What is done before a process goes on after a call does the same to both kernels. -/
theorem LaunchesAlike.answered (alike : LaunchesAlike config mains programs offset starts raise)
    (run : Run config deeds kernel) (runs : kernel.processes.isRunning pid = true)
    (same : kernel.programs = programs) {c other : Syscall} {related : c.Reply → other.Reply → Prop}
    (counterpart : Counterpart offset starts owed c other related) {past : List Exchange}
    (familiar : Familiar mains programs past c) {reply : c.Reply}
    (replied : kernel.call pid c = some (reply, left)) {replyToo : other.Reply}
    (corresponds : related reply replyToo) (shifted : left.Shifted offset starts right)
    (reports reportsToo : List (Pid × Unit))
    : (Machine.answered raise c reply ⟨left, reports⟩).kernel.Shifted offset starts
        (Machine.answered raise other replyToo ⟨right, reportsToo⟩).kernel := by
  have startedToo := counterpart.started corresponds
  rcases begun : c.started? reply with _ | ⟨program, child⟩ <;> rw [begun] at startedToo
  · rw [Machine.answered_alone begun, Machine.answered_alone startedToo]
    exact shifted
  · rw [Machine.answered, Machine.answered, begun, startedToo]
    cases c with
    | exec program argv =>
        rcases reply with _ | child
        · cases begun
        · cases begun
          obtain ⟨main, known⟩ :=
            Option.ne_none_iff_exists'.mp (familiar (same ▸ program_of_call replied))
          exact alike _ left right child program argv main reports reportsToo
            (run.step (.call runs replied)) (newborn_of_call replied) (started_of_call replied).next
            ((call_programs replied).trans same) known shifted
    | _ => cases begun

/-- Programs that match come to results that correspond when their calls are made on both machines,
or both are blocked in a join. By induction on how they match.
-/
theorem LaunchesAlike.runCalls (alike : LaunchesAlike config mains programs offset starts raise)
    (launches : Launches config mains programs raise)
    (familiar : ∀ program, starts program → program ∈ programs → mains program ≠ none)
    {result : List Pid → α → β → Prop} {prog : Prog α} {progToo : Prog β}
    (matched : prog.Matches offset starts result owed progToo) (machine machineToo : Machine Unit)
    (run : Run config deeds machine.kernel) (runs : machine.kernel.processes.isRunning pid = true)
    (same : machine.kernel.programs = programs) (owes : machine.kernel.Owes pid owed)
    (shifted : machine.kernel.Shifted offset starts machineToo.kernel)
    : Option.Rel (fun value valueToo => ∃ owed, result owed value valueToo)
        (Machine.runCalls raise pid prog machine).1
        (Machine.runCalls raise (offset.pid pid) progToo machineToo).1
      ∧ (Machine.runCalls raise pid prog machine).2.kernel.Shifted offset starts
          (Machine.runCalls raise (offset.pid pid) progToo machineToo).2.kernel := by
  induction matched generalizing deeds machine machineToo with
  | done corresponds => exact ⟨.some ⟨_, corresponds⟩, shifted⟩
  | @call owed c other next nextToo related counterpart onward ih =>
      rcases counterpart.replied shifted run owes with
        ⟨blocked, blockedToo⟩
          | ⟨reply, replyToo, left, right, replied, repliedToo, corresponds, shiftedAfter⟩
      · rw [Machine.runCalls, Machine.runCalls, blocked, blockedToo]
        exact ⟨.none, shifted⟩
      · have allowed : Familiar mains programs [] c := by
          cases c with
          | exec program argv => exact familiar program (counterpart.known rfl)
          | _ => trivial
        obtain ⟨first, course, made, unended⟩ :=
          launches.answered run runs same allowed replied machine.reports
        rw [Machine.runCalls_call replied, Machine.runCalls_call repliedToo]
        exact ih reply replyToo corresponds _ _ (run.extend course.steps)
          (run.runs_on course.steps runs unended) (course.programs.trans same)
          (owes.exchanged run runs course.steps made)
          (alike.answered run runs same counterpart allowed replied corresponds shiftedAfter _ _)

/-- Every process that is launched does the same to both kernels if this is known of all programs,
by induction on the levels of the machines.
-/
theorem launchesAlike_launch
    (loads : ∀ name main, mains name = some main → images name = some (Image.ofMain main))
    (upholds
      : ∀ name main argv,
          mains name = some main
          → (main (argv.headD name) argv).Upholds (Familiar mains programs) (fun _ _ => True) [])
    (familiar : ∀ program, starts program → program ∈ programs → mains program ≠ none)
    (matched
      : ∀ program main name argv,
          mains program = some main
          → (main name argv).EndAlike offset starts [] (main name argv))
    (depth : Nat)
    : LaunchesAlike config mains programs offset starts (launch images depth) := by
  induction depth with
  | zero =>
      intro _ left right child program argv main reports reportsToo _ _ _ _ _ shifted
      exact shifted
  | succ depth ih =>
      intro deeds left right child program argv main reports reportsToo run newborn
        newest same known
        shifted
      rw [Machine.launch_eq (loads program main known),
        Machine.launch_eq (loads program main known)]
      have context : right.context (offset.pid child) = offset.context (left.context child) :=
        shifted.contexts child
      obtain ⟨values, after⟩ :=
        ih.runCalls (launches_launch loads upholds depth) familiar
          (matched program main (left.context child).name (left.context child).argv known)
          ⟨left, reports⟩ ⟨right, reportsToo⟩ run newborn.runs same (run.owes_newest newest) shifted
      simp only [context, Offset.context]
      generalize Machine.runCalls (launch images depth) child _ ⟨left, reports⟩
        = came at values after ⊢
      generalize Machine.runCalls (launch images depth) (offset.pid child) _ ⟨right, reportsToo⟩
        = cameToo
        at values after ⊢
      obtain ⟨value, last⟩ := came
      obtain ⟨valueToo, lastToo⟩ := cameToo
      cases values with
      | none => exact after
      | some corresponds =>
          obtain ⟨_, rfl⟩ := corresponds
          exact after.finish child _

/-- The host gets the same reply to a run in both kernels, up to the number of the process. -/
theorem Shifted.run (shifted : left.Shifted offset starts right) (run : Run config deeds left)
    (alike : ∀ depth, LaunchesAlike config mains left.programs offset starts (launch images depth))
    {program : String} {main : Main} (known : mains program = some main) (named : starts program)
    (argv : List String) (reports reportsToo : List (Pid × Unit))
    : (Machine.run images program argv ⟨right, reportsToo⟩).1
        = (Machine.run images program argv ⟨left, reports⟩).1.map
            (Except.map (Prod.map offset.pid id))
      ∧ (Machine.run images program argv ⟨left, reports⟩).2.kernel.Shifted offset starts
          (Machine.run images program argv ⟨right, reportsToo⟩).2.kernel := by
  rcases shifted.start .host named argv with
    ⟨error, failed, failedToo⟩ | ⟨root, begin, beginToo, started, startedToo, after⟩
  · rw [run_of_refused images failed, run_of_refused images failedToo]
    exact ⟨rfl, shifted⟩
  · have launched := alike left.processes.capacity _ begin beginToo root program argv main reports
      reportsToo (run.step (.spawn started)) (newborn_of_start started)
        (started_of_start started).next
      (start_frame started).1 known after
    rw [offset.parent_host] at startedToo
    simp only [Machine.run, Machine.spawn, Machine.levels, started, startedToo, Machine.wait,
      shifted.processes.capacity]
    have answers := launched.reap .host root
    rw [offset.parent_host] at answers
    rcases answers with
      ⟨blocked, blockedToo⟩ | ⟨reply, leftAfter, rightAfter, reaped, reapedToo, last⟩
    · rw [blocked, blockedToo]
      exact ⟨rfl, launched⟩
    · rw [reaped, reapedToo]
      refine ⟨?_, last⟩
      cases reply <;> rfl

end KernelConformance.Kernel
