import KernelConformance.Proofs.Suite.Cleanliness

/-! The test programs come to an end on every machine. Whatever state the kernel is in and whatever
their arguments are, a machine that can start one of them runs it to its end, so that a run for the
host always has a reply.
-/

namespace KernelConformance

open Kernel (EndsAlone Supervises)

variable {config : Config} {deeds : List Deed} {kernel begin : Kernel} {root : Pid}
  {images : Images Unit}
  {program : String} {main : Main} {argv : List String} {reports : List (Pid × Unit)}

/-- Whether a machine runs a program for the host to its end, and leaves the process table
as it was.
-/
def Kernel.RunsToEnd (config : Config) (images : Images Unit) (program : String)
    (argv : List String) (root : Pid) (kernel : Kernel) (reports : List (Pid × Unit))
    : Prop :=
  ∃ (ending : Ending) (after : Kernel) (last : List (Pid × Unit)),
    Machine.run images program argv ⟨kernel, reports⟩
      = (some (.ok (root, ending.status)), ⟨after, last⟩)
    ∧ kernel.Settled config after

section Programs

variable (run : Kernel.Run config deeds kernel) (image : images program = some (Image.ofMain main))
  (started : kernel.start .host program argv = (.ok root, begin))

include run image started

theorem runsToEnd_of_endsAlone {outcome : Kernel → Pid → Ending → Kernel → Prop}
    (ends : EndsAlone config main program argv outcome)
    : kernel.RunsToEnd config images program argv root reports := by
  obtain ⟨ending, _, after, last, runs, settled, -⟩ :=
    Kernel.run_endsAlone run image ends started reports
  exact ⟨ending, after, last, runs, settled⟩

theorem runsToEnd_of_supervises {except : String → Prop}
    (upholds
      : (main (argv.headD program) argv).Upholds (Supervises config images begin anyStatus except)
          (fun past _ => AllCleared except past) [])
    : kernel.RunsToEnd config images program argv root reports := by
  obtain ⟨_, ending, _, _, after, last, runs, settled, -⟩ :=
    Kernel.run_supervises run image started upholds reports
  exact ⟨ending, after, last, runs, settled⟩

end Programs

/-- A test program that has been started comes to its end on a machine. -/
theorem Kernel.Run.runsToEnd (run : Kernel.Run config deeds kernel) (shipped : Shipped images)
    (absent : ExecTest.absentProgram ∉ kernel.programs) (known : testProgram? program = some main)
    (started : kernel.start .host program argv = (.ok root, begin)) (reports : List (Pid × Unit))
    : kernel.RunsToEnd config images program argv root reports := by
  have image := shipped program main known
  have member := mem_of_testProgram known
  simp only [testPrograms, List.mem_cons, List.not_mem_nil, or_false, Prod.mk.injEq] at member
  rcases member with ⟨rfl, rfl⟩ | ⟨rfl, rfl⟩ | ⟨rfl, rfl⟩ | ⟨rfl, rfl⟩ | ⟨rfl, rfl⟩ | ⟨rfl, rfl⟩
  · refine runsToEnd_of_supervises run image started (supervises_ending_noName ?_ _)
    refine ExecTest.supervises_body (fun past argv => supervises_exec shipped rfl ?_) ?_ _
    · exact (ExitCode.endsAlone config argv).mono fun _ _ _ _ left => left.1
    · rwa [(Kernel.start_frame started).1]
  · exact runsToEnd_of_endsAlone run image started (ExitCode.endsAlone config argv)
  · exact runsToEnd_of_endsAlone run image started (FdTest.endsAlone config argv)
  · exact runsToEnd_of_endsAlone run image started (Fibonacci.endsAlone config argv)
  · refine runsToEnd_of_supervises run image started (supervises_ending
      (MultiProg.supervises_body fun index among past => supervises_exec shipped rfl ?_) _)
    refine (FdTest.endsAlone config _).mono fun _ _ _ _ left => left.mono fun name kept => ?_
    obtain rfl : MultiProg.instanceFile index = name := Option.some.inj kept.1
    exact List.mem_map_of_mem among
  · refine runsToEnd_of_supervises run image started (supervises_ending_noName ?_ _)
    exact SeqFib.supervises_body argv fun past argv =>
      supervises_exec shipped rfl (Fibonacci.endsAlone config argv)

end KernelConformance
