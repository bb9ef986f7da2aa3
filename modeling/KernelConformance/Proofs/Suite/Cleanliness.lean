import KernelConformance.Proofs.Suite.ParentPrograms
import KernelConformance.Suite.Programs

/-! The test programs clean up after themselves. On any kernel that they run on they leave the
process table with the entries that it had and the files with the contents that they had, and no
other file but the one of a probe of several that has come to a value.
-/

namespace KernelConformance

open Kernel (EndsAlone Performs Supervises noName)

/-- Equal look-ups make maps of one size, as no key is listed twice. -/
theorem FiniteMap.size_eq {κ ν : Type} [DecidableEq κ] {left right : FiniteMap κ ν}
    (same : ∀ key, left.get? key = right.get? key)
    : left.size = right.size := by
  have perm : left.entries.Perm right.entries := by
    refine (List.perm_ext_iff_of_nodup left.keysUnique.of_map right.keysUnique.of_map).mpr ?_
    rintro ⟨key, value⟩
    rw [← get?_eq_some, ← get?_eq_some, same]
  exact perm.length_eq

variable {config : Config} {deeds : List Deed} {kernel : Kernel} {images : Images Unit}
  {program : String} {main : Main} {argv : List String}

/-- Whether the images are those of the test programs where they have the name of one. -/
def Shipped (images : Images Unit) : Prop :=
  ∀ name main, testProgram? name = some main → images name = some (Image.ofMain main)

/-- Whether a run has kept the file with a name: it was a probe whose third argument is the name,
and which has come to a value and exited with it.
-/
def KeptByProbe (kernel : Kernel) (program : String) (argv : List String)
    (reply : Except Errno (Pid × ExitStatus)) (name : String)
    : Prop :=
  program = FdTest.program
  ∧ argv[2]? = some name
  ∧ ∃ pid started index finished,
      kernel.start .host program argv = (.ok pid, started)
      ∧ Performs pid started (FdTest.body argv).run (.ok index) finished
      ∧ reply = .ok (pid, .exited index)

/-- What a run of a test program must leave: the entries of the process table as they were, and no
file that was not there with the same contents, but the one that a probe has kept.
-/
structure LeavesNothing (kernel : Kernel) (program : String) (argv : List String)
    (reply : Except Errno (Pid × ExitStatus)) (after : Kernel)
    : Prop where
  processes : ∀ pid, after.processes.slots.get? pid = kernel.processes.slots.get? pid
  slots : after.processes.size = kernel.processes.size
  names
    : ∀ name,
        after.files.names.get? name ≠ none
        → kernel.files.names.get? name ≠ none ∨ KeptByProbe kernel program argv reply name
  contents
    : ∀ name,
        after.files.names.get? name ≠ none
        → after.files.contents? name = kernel.files.contents? name
          ∨ KeptByProbe kernel program argv reply name

theorem leavesNothing_of_leaves {reply : Except Errno (Pid × ExitStatus)} {after : Kernel}
    (processes : ∀ pid, after.processes.slots.get? pid = kernel.processes.slots.get? pid)
    (leaves : kernel.files.Leaves (KeptByProbe kernel program argv reply) after.files)
    : LeavesNothing kernel program argv reply after := by
  have found {name : String} (stays : after.files.names.get? name ≠ none)
      : ∃ bytes, after.files.contents? name = some bytes := by
    rw [← Option.ne_none_iff_exists', Ne, FileSystem.contents?_eq_none]
    exact stays
  refine ⟨processes, FiniteMap.size_eq processes, fun name stays => ?_, fun name stays => ?_⟩
  · obtain ⟨bytes, there⟩ := found stays
    refine (leaves name bytes there).imp_left fun before absent => ?_
    rw [FileSystem.contents?_eq_none.mpr absent] at before
    cases before
  · obtain ⟨bytes, there⟩ := found stays
    exact (leaves name bytes there).imp_left fun before => there.trans before.symm

-----------------------------------------------------------------------------------------
-- Runs of the programs
-----------------------------------------------------------------------------------------

/-- Any status is proper. -/
def anyStatus (_ : String) (_ : List String) (_ : ExitStatus) : Prop := True

section Runs

variable {begin : Kernel} {root : Pid} {except : String → Prop} {past : List Exchange}

/-- What a program that ends by itself may leave is what stays of it. -/
theorem leavesNothing_of_endsAlone
    (run : Kernel.Run config deeds kernel) (image : images program = some (Image.ofMain main))
    (started : kernel.start .host program argv = (.ok root, begin))
    (ends
      : EndsAlone config main program argv fun begin root ending after =>
          begin.files.Leaves
            (fun name =>
              program = FdTest.program
              ∧ argv[2]? = some name
              ∧ ∃ index finished,
                  Performs root begin (FdTest.body argv).run (.ok index) finished
                  ∧ ending = .exit index)
            after.files)
    (reports : List (Pid × Unit))
    : ∃ reply after,
        Machine.run images program argv ⟨kernel, reports⟩ = (some reply, after)
        ∧ LeavesNothing kernel program argv reply after.kernel := by
  obtain ⟨ending, finished, after, last, runs, settled, -, leaves, files⟩ :=
    Kernel.run_endsAlone run image ends started reports
  refine ⟨_, _, runs, leavesNothing_of_leaves settled.slots ?_⟩
  rw [files, ← (Kernel.start_frame started).2]
  refine leaves.mono fun name kept => ?_
  obtain ⟨same, given, index, finished, performs, rfl⟩ := kept
  exact ⟨same, given, root, begin, index, finished, started, performs, rfl⟩

/-- A supervisor that has removed all files that are excepted leaves nothing. -/
theorem leavesNothing_of_supervises
    (run : Kernel.Run config deeds kernel) (image : images program = some (Image.ofMain main))
    (started : kernel.start .host program argv = (.ok root, begin))
    (upholds
      : (main (argv.headD program) argv).Upholds (Supervises config images begin anyStatus except)
          (fun past _ => AllCleared except past) [])
    (reports : List (Pid × Unit))
    : ∃ reply after,
        Machine.run images program argv ⟨kernel, reports⟩ = (some reply, after)
        ∧ LeavesNothing kernel program argv reply after.kernel := by
  obtain ⟨_, ending, past, machine, after, last, runs, settled, -, -, -, all, supervised, files⟩ :=
    Kernel.run_supervises run image started upholds reports
  refine ⟨_, _, runs, leavesNothing_of_leaves settled.slots ?_⟩
  rw [files, ← (Kernel.start_frame started).2]
  exact supervised.files.mono fun name left => absurd (all name left.1) left.2

/-- A test program that ends by itself may be a child. -/
theorem supervises_exec (shipped : Shipped images) (known : testProgram? program = some main)
    (ends
      : EndsAlone config main program argv fun kernel _ _ after =>
          kernel.files.Leaves except after.files)
    : Supervises config images begin anyStatus except past (.exec program argv) :=
  .inr ⟨main, shipped program main known, ends.mono fun _ _ _ _ leaves => ⟨leaves, trivial⟩⟩

/-- A check without files that are excepted has none to remove. -/
theorem supervises_ending_noName {proper : String → List String → ExitStatus → Prop}
    {check : Check Int32}
    (upholds
      : check.Upholds (Supervises config images begin proper noName) (fun _ _ => True)
          (fun _ _ => True) [])
    (name : String)
    : (check.ending name).Upholds (Supervises config images begin proper noName)
        (fun past _ => AllCleared noName past) [] :=
  supervises_ending (upholds.mono (fun _ _ => id) (fun _ _ _ => nofun) fun _ _ _ => nofun) name

end Runs

theorem mem_of_testProgram (known : testProgram? program = some main)
    : (program, main) ∈ testPrograms := by
  obtain ⟨before, after, same, -⟩ := List.lookup_eq_some_iff.mp known
  rw [same]
  exact List.mem_append_right _ (List.mem_cons_self ..)

/-- Whatever state a kernel is in, whatever its limits are and whatever arguments it is given, a
test program that runs on it cleans up after itself, whether it is refused, passes or fails.
-/
theorem Kernel.Run.programs_leave_nothing (run : Kernel.Run config deeds kernel)
    (shipped : Shipped images) (absent : ExecTest.absentProgram ∉ kernel.programs)
    (known : testProgram? program = some main) (argv : List String) (reports : List (Pid × Unit))
    : ∃ reply after,
        Machine.run images program argv ⟨kernel, reports⟩ = (some reply, after)
        ∧ LeavesNothing kernel program argv reply after.kernel := by
  rcases started : kernel.start .host program argv with ⟨error | root, begin⟩
  · have refused := Kernel.run_of_refused images started reports
    exact ⟨_, _, refused, leavesNothing_of_leaves (fun _ => rfl) (.refl _ _)⟩
  · have image := shipped program main known
    have member := mem_of_testProgram known
    simp only [testPrograms, List.mem_cons, List.not_mem_nil, or_false, Prod.mk.injEq] at member
    rcases member with
      ⟨rfl, rfl⟩ | ⟨rfl, rfl⟩ | ⟨rfl, rfl⟩ | ⟨rfl, rfl⟩ | ⟨rfl, rfl⟩ | ⟨rfl, rfl⟩
    · refine leavesNothing_of_supervises run image started (supervises_ending_noName ?_ _) reports
      refine ExecTest.supervises_body (fun past argv => supervises_exec shipped rfl ?_) ?_ _
      · exact (ExitCode.endsAlone config argv).mono fun _ _ _ _ left => left.1
      · rwa [(Kernel.start_frame started).1]
    · exact leavesNothing_of_endsAlone run image started
        ((ExitCode.endsAlone config argv).mono fun _ _ _ _ left => left.1.mono nofun) reports
    · exact leavesNothing_of_endsAlone run image started
        ((FdTest.endsAlone config argv).mono fun _ _ _ _ left => left.mono fun _ kept =>
          ⟨rfl, kept⟩)
        reports
    · exact leavesNothing_of_endsAlone run image started
        ((Fibonacci.endsAlone config argv).mono fun _ _ _ _ left => left.mono nofun) reports
    · refine leavesNothing_of_supervises run image started (supervises_ending
        (MultiProg.supervises_body fun index among past => supervises_exec shipped rfl ?_) _)
          reports
      refine (FdTest.endsAlone config _).mono fun _ _ _ _ left => left.mono fun name kept => ?_
      obtain rfl : MultiProg.instanceFile index = name := Option.some.inj kept.1
      exact List.mem_map_of_mem among
    · refine leavesNothing_of_supervises run image started (supervises_ending_noName ?_ _) reports
      exact SeqFib.supervises_body argv fun past argv =>
        supervises_exec shipped rfl (Fibonacci.endsAlone config argv)

theorem shipped_testImages : Shipped testImages := by
  intro name main known
  rw [testImages, known]
  rfl

/-- A kernel with the test programs that has too few descriptors for a probe. -/
def starvedKernel : Kernel :=
  .bootWithTests { Config.standard with maxProcesses := 3, maxOpenFiles := 5 }

/-- Both probes fail on such a kernel, and neither a process nor a file is left of them. -/
theorem Kernel.programs_leave_nothing_starved
    : ∃ reply after,
        Machine.run testImages MultiProg.program [] ⟨starvedKernel, []⟩ = (some reply, after)
        ∧ (∀ pid, after.kernel.processes.slots.get? pid = none)
        ∧ ∀ name, after.kernel.files.names.get? name = none := by
  have run : Kernel.Run { Config.standard with maxProcesses := 3, maxOpenFiles := 5 }
      (testPrograms.map fun entry => .register entry.1) starvedKernel :=
    .extend .boot <| .cons (.register _) <| .cons (.register _) <| .cons (.register _)
      <| .cons (.register _) <| .cons (.register _) <| .cons (.register _) .nil
  obtain ⟨reply, after, runs, clean⟩ :=
    run.programs_leave_nothing shipped_testImages (by decide)
      (show testProgram? MultiProg.program = some _ from rfl) [] []
  refine ⟨reply, after, runs, clean.processes, fun name => ?_⟩
  by_contra stays
  rcases clean.names name stays with before | kept
  · exact before rfl
  · exact absurd kept.1 (by decide)

end KernelConformance
