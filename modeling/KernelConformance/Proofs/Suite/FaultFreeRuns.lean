import KernelConformance.Proofs.Programs.MachineDeeds
import KernelConformance.Proofs.Suite.BoundedPrograms
import KernelConformance.Proofs.Suite.ProgramEnds
import KernelConformance.Proofs.Suite.TamePrograms

/-! The test programs never fault. With a free slot, each of them can be run to its end, whatever
its arguments and the limits of the kernel are; every process that takes part in the run exits, no
access is out of bounds, and a violation is told by its message and its code.
-/

namespace KernelConformance

open Utf8 (Bytes)

/-- The bodies of the test programs by name, in which an access out of bounds is a fault. -/
def boundedBodies : List (String × (String → List String → Check Int32)) :=
  [(ExecTest.program, fun name _ => ExecTest.body name),
    (ExitCode.program, fun _ argv => ExitCode.body argv),
    (FdTest.program, fun _ argv => FdTest.boundedBody argv),
    (Fibonacci.program, fun _ argv => Fibonacci.body argv),
    (MultiProg.program, fun _ _ => MultiProg.body),
    (SeqFib.program, fun _ argv => SeqFib.body argv)]

/-- The test programs are these bodies with their ends. -/
theorem testPrograms_eq
    : testPrograms
      = boundedBodies.map fun (program, body) =>
        (program, fun name argv => (body name argv).ending name) := by
  simp only [testPrograms, boundedBodies, FdTest.boundedBody_eq]
  rfl

theorem tame_of_mem {program : String} {body : String → List String → Check Int32}
    (member : (program, body) ∈ boundedBodies) (name : String) (argv : List String)
    : (body name argv).Tame := by
  simp only [boundedBodies, List.mem_cons, List.not_mem_nil, or_false, Prod.mk.injEq] at member
  rcases member with ⟨rfl, rfl⟩ | ⟨rfl, rfl⟩ | ⟨rfl, rfl⟩ | ⟨rfl, rfl⟩ | ⟨rfl, rfl⟩ | ⟨rfl, rfl⟩
  · exact ExecTest.tame_body name
  · exact ExitCode.tame_body argv
  · change (FdTest.boundedBody argv).Tame
    rw [FdTest.boundedBody_eq]
    exact FdTest.tame_body argv
  · exact Fibonacci.tame_body argv
  · exact MultiProg.tame_body
  · exact SeqFib.tame_body argv

theorem body_of_testProgram {program : String} {main : Main}
    (known : testProgram? program = some main)
    : ∃ body,
        (program, body) ∈ boundedBodies ∧ main = fun name argv => (body name argv).ending name := by
  have member := mem_of_testProgram known
  rw [testPrograms_eq] at member
  obtain ⟨⟨_, body⟩, listed, same⟩ := List.mem_map.mp member
  cases same
  exact ⟨body, listed, rfl⟩

-----------------------------------------------------------------------------------------
-- What a process has come to
-----------------------------------------------------------------------------------------

/-- The line in which a process tells a violation. -/
def Violation.line (name : String) (violation : Violation) : Bytes :=
  Utf8.encode (name ++ ": " ++ violation.message ++ "\n")

/-- What a process with a body has exchanged and exits with: the body has come to the
status, or was stopped by a violation with this code, and the line that tells it was written
in full after all else.
-/
inductive BodyEnded (name : String) (body : Check Int32) : List Exchange → Int32 → Prop where
  | value {past status} (reached : body.run.Reaches past (.done (.ok status)))
    : BodyEnded name body past status
  | violation {past} (violation : Violation)
    (stopped : body.run.Reaches past (.done (.error (.violation violation))))
    : BodyEnded name body
        (past ++ [⟨.write .stdout (violation.line name), .ok (violation.line name).length⟩])
        violation.code

variable {body : Check Int32} {name : String} {past : List Exchange}

/-- A tame check ends a process by an exit, if what is written to the output is written in full. -/
theorem bodyEnded_of_reaches {ending : Ending}
    (reached : (body.ending name).Reaches past (.done ending)) (tame : body.Tame)
    (printed : ∀ bytes reply, ⟨.write .stdout bytes, reply⟩ ∈ past → reply = .ok bytes.length)
    : ∃ status, ending = .exit status ∧ BodyEnded name body past status := by
  obtain ⟨outcome, before, after, rfl, first, second⟩ := Prog.Reaches.of_bind_done reached
  rcases outcome with (violation | _) | status
  · obtain ⟨_, written, nothing, rfl, third, fourth⟩ := Prog.Reaches.of_bind_done second
    cases fourth
    cases third with
    | call reply none =>
        cases none
        obtain rfl := printed _ reply (by simp)
        exact ⟨violation.code, rfl,
          by simpa [Violation.line] using BodyEnded.violation violation first⟩
  · have returns := Prog.Upholds.reaches (tame []) first
    exact absurd rfl returns
  · cases second
    exact ⟨status, rfl, by simpa using BodyEnded.value first⟩

/-- A process that was started in the course of some deeds has exited with a status, as
its body says.
-/
def ExitedWith (deeds : List Deed) (begun : Begin) (status : Int32) : Prop :=
  ∃ body,
    (begun.program, body) ∈ boundedBodies
    ∧ .finish begun.child (.exit status) ∈ deeds
    ∧ BodyEnded (begun.argv.headD begun.program) (body (begun.argv.headD begun.program) begun.argv)
        (exchanges begun.child deeds) status

-----------------------------------------------------------------------------------------
-- The course of a run
-----------------------------------------------------------------------------------------

namespace Kernel

variable {config : Config} {deeds during : List Deed} {kernel begin after : Kernel} {pid root : Pid}
  {images : Images Unit} {program : String} {main : Main} {argv : List String}

/-- A run makes its deeds from the boot on. -/
theorem Run.steps (run : Run config deeds kernel) : Steps (.boot config) deeds kernel := by
  induction run with
  | boot => exact .nil
  | step _ step ih => exact ih.snoc step

/-- A process that has not been started yet has done nothing. -/
theorem Run.idle_of_next_le (run : Run config deeds kernel)
    (new : kernel.processes.next.number ≤ pid.number)
    : ∀ deed ∈ deeds, deed.actor? ≠ some pid :=
  fun _ member acts =>
    absurd (Run.boot.actor_lt run.steps member acts) (Nat.not_lt_of_le new)

theorem startedBy_of_starts {begun : Begin} (member : begun ∈ starts deeds)
    : ∃ caller, caller ≠ .detached ∧ StartedBy deeds caller begun.child := by
  obtain ⟨deed, made, begins⟩ := List.mem_filterMap.mp member
  cases deed with
  | spawn program argv reply =>
      cases reply with
      | ok child =>
          cases begins
          exact ⟨.host, nofun, program, argv, made⟩
      | error => cases begins
  | call pid c reply =>
      cases c with
      | exec program argv =>
          rcases reply with _ | _ | child
          · cases begins
          · cases begins
          · cases begins
            exact ⟨.proc pid, nofun, program, argv, made⟩
      | _ => cases begins
  | _ => cases begins

/-- A process that was started in the course of some steps and is not there after them has ended in
this course.
-/
theorem Run.finish_of_gone (run : Run config deeds kernel) (steps : Steps kernel during after)
    {begun : Begin} (member : begun ∈ starts during)
    (gone : after.processes.slots.get? begun.child = none)
    : ∃ ending, .finish begun.child ending ∈ during := by
  have new := (steps.starts_number member).1
  obtain ⟨caller, known, started⟩ :=
    startedBy_of_starts (starts_append deeds during ▸ List.mem_append_right _ member)
  have ended : Ended (deeds ++ during) begun.child := by
    by_contra alive
    have runs := (run.extend steps).isRunning_iff.mpr ⟨⟨caller, known, started⟩, alive⟩
    rw [ProcessTable.isRunning, gone] at runs
    cases runs
  obtain ⟨ending, finished⟩ := ended
  exact ⟨ending, (List.mem_append.mp finished).resolve_left
    (not_finish_idle (run.idle_of_next_le new) ending)⟩

/-- What a process prints is printed in full, if it has made tame calls only. -/
theorem Run.printed_of_tame (run : Run config deeds kernel)
    (tame : Throughout (fun past exchange => TameCall past exchange.call) (exchanges pid deeds))
    (bytes : Bytes) (reply : Except Errno Nat)
    (written : ⟨.write .stdout bytes, reply⟩ ∈ exchanges pid deeds)
    : reply = .ok bytes.length := by
  refine run.write_stdout (mem_exchanges.mp written)
    (run.stdout_unclosed fun before after whole => ?_)
  exact tame before _ after whole rfl

/-- A process that follows a test program and has ended has done so by its body. -/
theorem Run.bodyEnded (run : Run config deeds kernel) (known : testProgram? program = some main)
    (follows : Follows deeds pid (main name argv)) {ending : Ending}
    (ended : .finish pid ending ∈ deeds)
    : ∃ body status,
        (program, body) ∈ boundedBodies
        ∧ ending = .exit status
        ∧ BodyEnded name (body name argv) (exchanges pid deeds) status := by
  obtain ⟨body, member, rfl⟩ := body_of_testProgram known
  obtain ⟨rest, reached, ends⟩ := follows
  obtain rfl := ends ending ended
  have tame := tame_of_mem member name argv
  have calls := (tame.ending name []).throughout reached
  obtain ⟨status, same, comes⟩ :=
    bodyEnded_of_reaches reached tame (run.printed_of_tame calls)
  exact ⟨body, status, member, same, comes⟩

/-- What holds of the deeds of a run in which no process faults: every process that was started has
exited, and every call is the one with bounds.
-/
structure FaultFree (kernel : Kernel) (deeds : List Deed) (after : Kernel) : Prop where
  steps : Steps kernel deeds after
  exited : ∀ begun ∈ starts deeds, ∃ status, ExitedWith deeds begun status
  bounded
    : ∀ before pid c reply rest middle,
        deeds = before ++ .call pid c reply :: rest
        → Steps kernel before middle
        → middle.boundedPerform pid c = some (middle.perform pid c)

/-- The calls of a run are those with bounds, as only processes that run make calls. -/
theorem Run.bounded_of_steps (run : Run config deeds kernel) (steps : Steps kernel during after)
    {before rest : List Deed} {c : Syscall} {reply : Option c.Reply} {middle : Kernel}
    (whole : during = before ++ .call pid c reply :: rest) (earlier : Steps kernel before middle)
    : middle.boundedPerform pid c = some (middle.perform pid c) := by
  subst whole
  cases steps.of_append earlier with
  | cons step _ => exact (run.extend earlier).boundedPerform (step.actor_runs rfl) c

/-- What a machine runs for the host is launched and then reaped. -/
theorem reap_of_run {status : ExitStatus} {reports last : List (Pid × Unit)}
    (runs
      : Machine.run images program argv ⟨kernel, reports⟩
        = (some (.ok (root, status)), ⟨after, last⟩))
    (started : kernel.start .host program argv = (.ok root, begin))
    : (Machine.launch images kernel.processes.capacity root program ⟨begin, reports⟩).kernel.reap
        .host root
      = some (.ok status, after) := by
  simp only [Machine.run, Machine.spawn, started, Machine.wait, Machine.levels] at runs
  rcases reaped
      : (Machine.launch images kernel.processes.capacity root program ⟨begin, reports⟩).kernel.reap
          .host root
    with _ | ⟨error | given, next⟩
  · rw [reaped] at runs
    cases runs
  · rw [reaped] at runs
    cases runs
  · rw [reaped] at runs
    cases runs
    rfl

/-- The test programs start only each other, as there is no other program that they start. -/
theorem familiar_of_tame (absent : ExecTest.absentProgram ∉ kernel.programs) (program : String)
    (main : Main) (argv : List String) (known : testProgram? program = some main)
    : (main (argv.headD program) argv).Upholds (Familiar testProgram? kernel.programs)
        (fun _ _ => True) [] := by
  obtain ⟨body, member, rfl⟩ := body_of_testProgram known
  refine ((tame_of_mem member _ argv).ending _ []).mono (fun past c tame => ?_) fun _ _ _ => trivial
  cases c with
  | exec program argv =>
      intro loaded
      rcases tame with rfl | known
      · exact absurd loaded absent
      · exact known
  | _ => trivial

/-- A process that was started in the course of some steps, follows a test program in it, and is not
there after them has exited, as its body says.
-/
theorem Run.exitedWith_of_gone (run : Run config deeds kernel) (steps : Steps kernel during after)
    {begun : Begin} (member : begun ∈ starts during)
    (gone : after.processes.slots.get? begun.child = none)
    (known : testProgram? begun.program = some main)
    (follows : Follows during begun.child (main (begun.argv.headD begun.program) begun.argv))
    : ∃ status, ExitedWith during begun status := by
  have idle := run.idle_of_next_le (steps.starts_number member).1
  obtain ⟨ending, ended⟩ := run.finish_of_gone steps member gone
  obtain ⟨body, status, among, rfl, comes⟩ :=
    (run.extend steps).bodyEnded known (follows.idle_append idle) (List.mem_append_right _ ended)
  rw [exchanges_append, exchanges_idle idle, List.nil_append] at comes
  exact ⟨status, body, among, ended, comes⟩

/-- The deeds of a run for the host, which starts a process and reaps it when all is done. -/
def hosted (program : String) (argv : List String) (root : Pid) (status : ExitStatus)
    (during : List Deed)
    : List Deed :=
  .spawn program argv (.ok root) :: during ++ [.wait root (some (.ok status))]

/-- What the host does is done by no process. -/
theorem follows_hosted {prog : Prog Ending} {status : ExitStatus}
    (follows : Follows during pid prog)
    : Follows (hosted program argv root status during) pid prog := by
  have spawned : Follows ([.spawn program argv (.ok root)] ++ during) pid prog :=
    follows.idle_append (by rintro _ (_ | ⟨_, ⟨⟩⟩) ⟨⟩)
  exact spawned.append_idle (by rintro _ (_ | ⟨_, ⟨⟩⟩) ⟨⟩)

theorem starts_hosted (program : String) (argv : List String) (root : Pid) (status : ExitStatus)
    (during : List Deed)
    : starts (hosted program argv root status during) = ⟨program, argv, root⟩ :: starts during := by
  rw [hosted, starts_append]
  exact List.append_nil _

/-- A run for the host is free of faults if it leaves the process table as it was, and the process
that the host has started and all others follow test programs.
-/
theorem Run.faultFree_of_course (run : Run config deeds kernel)
    (started : kernel.start .host program argv = (.ok root, begin))
    (known : testProgram? program = some main) {middle : Kernel}
    (course : Course testProgram? begin root during middle)
    (follows : Follows during root (main (argv.headD program) argv)) {status : ExitStatus}
    (reaped : middle.reap .host root = some (.ok status, after))
    (settled : kernel.Settled config after)
    : kernel.FaultFree (hosted program argv root status during) after := by
  have steps : Steps kernel (hosted program argv root status during) after :=
    .cons (.spawn started) (course.steps.snoc (.wait reaped))
  refine ⟨steps, fun begun member => ?_, fun _ _ _ _ _ _ whole => run.bounded_of_steps steps whole⟩
  have gone : after.processes.slots.get? begun.child = none := by
    rw [settled.slots]
    rcases found : kernel.processes.slots.get? begun.child with _ | slot
    · rfl
    · exact absurd (run.rooted.numbered found) (Nat.not_lt_of_le (steps.starts_number member).1)
  obtain ⟨main, known, follows⟩
      : ∃ main,
          testProgram? begun.program = some main
          ∧ Follows during begun.child (main (begun.argv.headD begun.program) begun.argv) := by
    rcases List.mem_cons.mp (starts_hosted program argv root status during ▸ member) with
      rfl | later
    · exact ⟨main, known, follows⟩
    · exact course.follows begun later
  exact run.exitedWith_of_gone steps member gone known (follows_hosted follows)

/-- The host is told the status with which the process has exited that it has reaped. -/
theorem Run.status_of_hosted (run : Run config deeds kernel) {status : ExitStatus}
    (steps : Steps kernel (hosted program argv root status during) after) {code : Int32}
    (ended : .finish root (.exit code) ∈ hosted program argv root status during)
    : status = .exited code := by
  have full := run.extend steps
  have joined
      : .reaped root .host status ∈ history (deeds ++ hosted program argv root status during) := by
    simp [hosted, history, Deed.event?]
  obtain ⟨ending, finished, same⟩ := full.finish_of_reaped joined
  have told := full.exitStatus?_of_finish finished
  rw [full.exitStatus?_of_finish (List.mem_append_right _ ended)] at told
  rw [← same, ← Option.some.inj told]
  rfl

/-- Whatever state a kernel is in, what its limits are and what arguments a test program is given,
the program comes to its end in a run for the host if it can be loaded and a slot is free. It exits,
as all processes do that it starts, and no access is out of bounds.
-/
theorem Run.programs_never_fault (run : Run config deeds kernel) (shipped : Shipped images)
    (absent : ExecTest.absentProgram ∉ kernel.programs) (known : testProgram? program = some main)
    (loaded : program ∈ kernel.programs) (short : argv.length ≤ maxArguments)
    (room : kernel.processes.size < kernel.processes.capacity) (reports : List (Pid × Unit))
    : (∀ value, Record.boundedEncode value = pure (Record.encode value))
      ∧ (∀ record, Record.boundedPayload record = pure (Record.payload record))
      ∧ ∃ root status during after last,
          Machine.run images program argv ⟨kernel, reports⟩
            = (some (.ok (root, .exited status)), ⟨after, last⟩)
          ∧ kernel.FaultFree (hosted program argv root (.exited status) during) after
          ∧ ExitedWith (hosted program argv root (.exited status) during)
              ⟨program, argv, root⟩ status := by
  refine ⟨Record.boundedEncode_eq, Record.boundedPayload_eq, ?_⟩
  obtain ⟨root, begin, spawn⟩ := @exists_start kernel program argv .host rfl loaded short room
  have started : kernel.start .host program argv = (.ok root, begin) := by
    cases spawn with
    | spawn started => exact started
  obtain ⟨ending, after, last, runs, settled⟩ := run.runsToEnd shipped absent known started reports
  obtain ⟨during, course, follows⟩ :=
    launches_launch shipped (familiar_of_tame absent) kernel.processes.capacity _ begin root program
      argv main reports (run.step spawn) (newborn_of_start started) (start_frame started).1 known
  have free :=
    run.faultFree_of_course started known course follows (reap_of_run runs started) settled
  obtain ⟨code, exited⟩ := free.exited ⟨program, argv, root⟩ (by simp [starts_hosted])
  obtain ⟨-, -, ended, -⟩ := id exited
  have told := run.status_of_hosted free.steps ended
  rw [told] at runs free exited
  exact ⟨root, code, during, after, last, runs, free, exited⟩

/-- A probe that is given a number but no file says so, and exits with the code of wrong results. -/
theorem programs_never_fault_unnamed
    : ∃ root during after last,
        Machine.run testImages FdTest.program ["fdtest", "7"] ⟨starvedKernel, []⟩
          = (some (.ok (root, .exited (-1))), ⟨after, last⟩)
        ∧ starvedKernel.FaultFree
            (hosted FdTest.program ["fdtest", "7"] root (.exited (-1)) during) after
        ∧ exchanges root (hosted FdTest.program ["fdtest", "7"] root (.exited (-1)) during)
          = [⟨.write .stdout (Utf8.encode "fdtest: test_fd: argc < 3\n"), .ok 26⟩] := by
  have run : Run { Config.standard with maxProcesses := 3, maxOpenFiles := 5 }
      (testPrograms.map fun entry => .register entry.1) starvedKernel :=
    .extend .boot <| .cons (.register _) <| .cons (.register _) <| .cons (.register _)
      <| .cons (.register _) <| .cons (.register _) <| .cons (.register _) .nil
  obtain ⟨-, -, root, status, during, after, last, runs, free, body, member, -, comes⟩ :=
    run.programs_never_fault shipped_testImages (by decide)
      (show testProgram? FdTest.program = some _ from rfl) (by decide)
      (show ["fdtest", "7"].length ≤ maxArguments by decide) (by decide) []
  have same : body = fun _ argv => FdTest.boundedBody argv := by
    simpa [boundedBodies, FdTest.program, ExecTest.program, ExitCode.program, Fibonacci.program,
      MultiProg.program, SeqFib.program] using member
  have stopped
      : FdTest.boundedBody ["fdtest", "7"] = Check.violate (.wrongResult "test_fd: argc < 3") :=
    rfl
  subst same
  generalize made : exchanges root _ = past at comes
  dsimp only at comes
  rw [stopped] at comes
  cases comes with
  | value reached => cases reached
  | violation violation reached =>
      cases reached
      exact ⟨root, during, after, last, runs, free, made⟩

end Kernel

end KernelConformance
