import KernelConformance.Proofs.Programs.Supervision
import KernelConformance.Proofs.Suite.ProbeCalls
import KernelConformance.Proofs.Suite.RecurrenceRefinement
import KernelConformance.Suite.Programs

/-! The test programs that have no children. Whatever their arguments are, they come to their end by
themselves and leave no file that was not there, but for a probe of several that comes to a value.
-/

namespace KernelConformance

open Kernel (EndsAlone Performs WorksWith noName)

variable {config : Config} {argv : List String} {past : List Exchange}

-----------------------------------------------------------------------------------------
-- Arguments
-----------------------------------------------------------------------------------------

/-- An argument is a value, or it is refused with a failure. -/
theorem argument_cases {α : Type} (read : String → Except Decimal.ReadError α) (what : String)
    (index : Nat) (argv : List String)
    : (∃ value, argument read what index argv = pure value)
      ∨ ∃ message, argument read what index argv = Check.violate (.failure message) := by
  unfold argument
  split
  · exact .inl ⟨_, rfl⟩
  · split
    · exact .inl ⟨_, rfl⟩
    · exact .inr ⟨_, rfl⟩

namespace Kernel

variable {kernel : Kernel} {pid : Pid} {program : String}

/-- A check that is stopped at once leaves all files as they were. -/
theorem leaves_of_violation {deeds : List Deed} (run : Run config deeds kernel)
    (newborn : kernel.Newborn pid program argv) {body : Check Int32} {violation : Violation}
    (stopped : body = Check.violate violation) (except : String → Prop) (name : String)
    : ∃ ending after,
        Performs pid kernel (body.ending name) ending after
        ∧ kernel.Elsewhere pid after
        ∧ kernel.files.Leaves except after.files := by
  subst stopped
  have upholds
      : (Check.violate violation : Check Int32).Upholds (WorksWith noName) (fun _ _ => True)
          (fun _ _ => True) [] :=
    trivial
  obtain ⟨ending, after, performs, same, leaves, -⟩ :=
    leaves_of_performs run newborn.closed upholds .done nofun name
  exact ⟨ending, after, performs, same, leaves⟩

end Kernel

-----------------------------------------------------------------------------------------
-- Exit codes
-----------------------------------------------------------------------------------------

theorem ExitCode.body_cases (argv : List String)
    : (∃ status, ExitCode.body argv = pure status)
      ∨ ∃ violation, ExitCode.body argv = Check.violate violation := by
  unfold ExitCode.body argumentInt32
  rcases argument_cases Decimal.readInt32 "status" 1 argv with ⟨value, same⟩ | ⟨message, same⟩
  · rw [same, pure_bind]
    cases value with
    | none => exact .inr ⟨_, rfl⟩
    | some status => exact .inl ⟨status, rfl⟩
  · rw [same]
    exact .inr ⟨_, rfl⟩

/-- A process that exits with a code leaves all files as they were. -/
theorem ExitCode.endsAlone (config : Config) (argv : List String)
    : EndsAlone config (fun name argv => (ExitCode.body argv).ending name) ExitCode.program argv
        fun kernel _ ending after =>
          kernel.files.Leaves noName after.files
          ∧ ∀ status, ExitCode.body argv = pure status → ending = .exit status := by
  intro deeds kernel pid run newborn
  rcases ExitCode.body_cases argv with ⟨status, same⟩ | ⟨violation, same⟩
  · refine ⟨.exit status, kernel, ?_, .refl kernel pid, .refl _ _, fun other equal => ?_⟩
    · change Performs pid kernel ((ExitCode.body argv).ending _) _ kernel
      rw [same]
      exact .done
    · rw [same] at equal
      cases equal
      rfl
  · obtain ⟨ending, after, performs, elsewhere, leaves⟩ :=
      Kernel.leaves_of_violation run newborn same noName _
    refine ⟨ending, after, performs, elsewhere, leaves, fun status equal => ?_⟩
    rw [same] at equal
    cases equal

-----------------------------------------------------------------------------------------
-- Recurrences
-----------------------------------------------------------------------------------------

namespace Fibonacci

/-- What is left of a run of the recurrence once its arguments are read. -/
def rest (signature index : Int32) (result : Int32) : Check Int32 := do
  Check.require (result = Recurrence.fullResult)
    (.wrongResult (s!"wrong {Recurrence.fullRounds}-round result: {Decimal.write result}, "
      ++ s!"expected {Decimal.write Recurrence.fullResult}"))
  ExceptT.lift (Prog.putLine s!"--- PASS fibonacci {Decimal.write index}")
  pure signature

/-- A run of the recurrence is stopped by its arguments, or it makes all rounds on the files that
they say.
-/
theorem body_eq (argv : List String)
    : (∃ signature index,
        body argv = Recurrence.run (.ofIndex index) Recurrence.fullRounds >>= rest signature index)
      ∨ ∃ message, body argv = Check.violate (.failure message) := by
  rw [body, argumentInt32, argumentInt32, Check.require]
  by_cases usage : argv.length = 2
  · rw [if_neg (by simpa using usage)]
    exact .inr ⟨_, rfl⟩
  · rw [if_pos (by simpa using usage), pure_bind]
    rcases argument_cases Decimal.readInt32 "signature" 1 argv with
      ⟨signature, read⟩ | ⟨message, refused⟩
    · rw [read, pure_bind]
      rcases argument_cases Decimal.readInt32 "instance" 2 argv with
        ⟨index, read⟩ | ⟨message, refused⟩
      · rw [read, pure_bind]
        simp only [Recurrence.check, bind_assoc]
        exact .inl ⟨signature.getD 0, index.getD 0, rfl⟩
      · rw [refused]
        exact .inr ⟨_, rfl⟩
    · rw [refused]
      exact .inr ⟨_, rfl⟩

theorem upholds_rest {names : String → Prop} (signature index result : Int32)
    : (rest signature index result).Upholds (WorksWith names) (fun _ _ => True) (fun _ _ => True)
        past := by
  refine Check.upholds_bind.mpr (Check.upholds_require.mpr ?_)
  split
  · refine Check.upholds_bind.mpr (Check.upholds_lift.mpr ?_)
    exact (Kernel.upholds_putLine _ past).mono (fun _ _ => id) fun _ _ => id
  · trivial

/-- A run of the recurrence works with its two files. -/
theorem worksWith_of_calls {pair : FilePair} {c : Syscall} (calls : Recurrence.Calls pair past c)
    : WorksWith pair.Names past c := by
  refine ⟨Recurrence.calls_onFiles calls, fun name uses => ?_⟩
  cases c <;> cases uses <;> exact calls

/-- A process that makes a run of the recurrence leaves no file that was not there. -/
theorem endsAlone (config : Config) (argv : List String)
    : EndsAlone config (fun name argv => (body argv).ending name) program argv
        fun kernel _ _ after => kernel.files.Leaves noName after.files := by
  intro deeds kernel pid run newborn
  rcases body_eq argv with ⟨signature, index, same⟩ | ⟨message, same⟩
  · have upholds
        : (body argv).Upholds (WorksWith (FilePair.ofIndex index).Names) (fun _ _ => True)
            (fun _ _ => True) [] := by
      rw [same]
      refine Check.upholds_bind.mpr ((Recurrence.upholds_run _).mono (fun _ _ => worksWith_of_calls)
        (fun past result _ => upholds_rest signature index result) fun _ _ _ => trivial)
    obtain ⟨outcome, middle, performs, -, absent⟩ :=
      Recurrence.performs_run_absent run.admits pid (.ofIndex index) Recurrence.fullRounds
    obtain ⟨last, after, whole, silent, -⟩ :=
      Kernel.performs_tail performs fun result => upholds_rest signature index result
    rw [← same] at whole
    obtain ⟨ending, ended, ends, elsewhere, leaves, -⟩ :=
      Kernel.leaves_of_performs run newborn.closed upholds whole
        (fun name uses stays => stays (silent.files.spared name nofun ▸ absent name uses)) _
    exact ⟨ending, ended, ends, elsewhere, leaves⟩
  · exact Kernel.leaves_of_violation run newborn same noName _

end Fibonacci

-----------------------------------------------------------------------------------------
-- Probes
-----------------------------------------------------------------------------------------

namespace FdTest

/-- What is left of a probe's run once it has come to a value: a line that says so,
and the status.
-/
def rest (line : String) (status : Int32) (_ : List Fd × Randomness.Stream) : Check Int32 := do
  ExceptT.lift (Prog.putLine line)
  pure status

/-- One of several probes, which says its number first. -/
def announced (text : String) (check : Check Int32) : Check Int32 := do
  ExceptT.lift (Prog.putLine text)
  check

/-- Without arguments a probe is alone, and otherwise it is stopped by them, or it is the one of
several that they say.
-/
theorem body_eq (argv : List String)
    : body argv = Probe.alone.run (.ofSeed loneSeed) >>= rest "--- PASS test_fd" 0
      ∨ (∃ violation, body argv = Check.violate violation)
      ∨ ∃ text check,
          body argv = announced text check
          ∧ ((∃ violation, check = Check.violate violation)
            ∨ ∃ index file stream line,
                argv[2]? = some file
                ∧ check = (Probe.shared index file).run stream >>= rest line index) := by
  rw [body, argumentInt32]
  by_cases lone : argv.length ≤ 1
  · rw [if_pos lone]
    exact .inl rfl
  · rw [if_neg lone, Check.require]
    by_cases enough : 3 ≤ argv.length
    · rw [if_pos (decide_eq_true enough), pure_bind]
      refine .inr (.inr ⟨_, _, rfl, ?_⟩)
      rcases argument_cases Decimal.readInt32 "instance" 1 argv with
        ⟨index, read⟩ | ⟨message, refused⟩
      · rw [read, pure_bind]
        have given : argv[2]? = some (argv.getD 2 "") := by
          rw [List.getD_eq_getElem?_getD, List.getElem?_eq_getElem enough]
          rfl
        exact .inr ⟨index.getD 0, _, _, _, given, rfl⟩
      · rw [refused]
        exact .inl ⟨_, rfl⟩
    · rw [if_neg (by simpa using enough)]
      exact .inr (.inl ⟨_, rfl⟩)

variable {kernel : Kernel}

/-- A check that works with some names, of which a file stays only if it comes to a value and the
name is excepted.
-/
def Clears (kernel : Kernel) (pid : Pid) (except : String → Prop) (check : Check Int32)
    (outcome : Except Check.Stop Int32)
    : Prop :=
  ∃ names after,
    (∀ past, check.Upholds (WorksWith names) (fun _ _ => True) (fun _ _ => True) past)
    ∧ Performs pid kernel check.run outcome after
    ∧ ∀ name,
        names name
        → after.files.names.get? name ≠ none
        → except name ∧ ∃ index, outcome = .ok index

theorem clears_violate (kernel : Kernel) (pid : Pid) (except : String → Prop)
    (violation : Violation)
    : Clears kernel pid except (Check.violate violation) (.error (.violation violation)) :=
  ⟨noName, kernel, fun _ => trivial, .done, nofun⟩

theorem Clears.mono {pid : Pid} {except more : String → Prop} {check : Check Int32}
    {outcome : Except Check.Stop Int32} (clears : Clears kernel pid except check outcome)
    (wider : ∀ name, except name → more name)
    : Clears kernel pid more check outcome := by
  obtain ⟨names, after, upholds, performs, stay⟩ := clears
  exact ⟨names, after, upholds, performs, fun name uses stays =>
    (stay name uses stays).imp_left (wider name)⟩

/-- A probe that has a line to say in the end leaves its file only if it is one of several. -/
theorem clears_probe (admits : kernel.files.Admits) (pid : Pid) {probe : Probe}
    (fits : probe.capacity ≤ Probe.maxSlots) (stream : Randomness.Stream) (line : String)
    (status : Int32)
    : ∃ outcome,
        Clears kernel pid (fun name => name = probe.file ∧ probe.isAlone = false)
          (probe.run stream >>= rest line status) outcome := by
  have silent (names : String → Prop) (past : List Exchange)
      (result : List Fd × Randomness.Stream)
      : (rest line status result).Upholds (WorksWith names) (fun _ _ => True) (fun _ _ => False)
          past := by
    refine Check.upholds_bind.mpr (Check.upholds_lift.mpr ?_)
    exact (Kernel.upholds_putLine line past).mono (fun _ _ => id) fun _ _ => id
  obtain ⟨first, middle, performs, removed⟩ := Probe.performs_run_absent admits pid fits stream
  obtain ⟨outcome, after, whole, added, reached⟩ :=
    Kernel.performs_tail performs (silent noName [])
  refine ⟨outcome, probe.Uses, after, fun past => ?_, whole, fun name uses stays => ?_⟩
  · refine Check.upholds_bind.mpr ((Probe.upholds_run fits stream).mono (fun _ _ => id) ?_
      fun _ _ _ => trivial)
    exact fun past result _ =>
      (silent probe.Uses past result).mono (fun _ _ => id) (fun _ _ => id) fun _ _ => False.elim
  · rw [added.files.spared name nofun, uses] at stays
    obtain ⟨passed, several⟩ := not_or.mp fun gone => stays (removed gone)
    refine ⟨⟨uses, by simpa using several⟩, ?_⟩
    cases outcome with
    | ok index => exact ⟨index, rfl⟩
    | error stop =>
        have stopped := (reached stop rfl).resolve_right fun none => none.elim fun _ => id
        exact absurd ⟨stop, stopped⟩ passed

/-- Saying a line first changes nothing in what a check leaves. -/
theorem clears_announced {pid : Pid} {except : String → Prop} {check : Check Int32}
    (admits : kernel.files.Admits) (text : String)
    (clears
      : ∀ kernel, kernel.files.Admits → ∃ outcome, Clears kernel pid except check outcome)
    : ∃ outcome, Clears kernel pid except (announced text check) outcome := by
  have silent : (Prog.putLine text).Upholds (WorksWith noName) (fun _ _ => True) [] :=
    Kernel.upholds_putLine text []
  obtain ⟨_, middle, _, prints, -, -⟩ := Kernel.performs_worksWith silent kernel pid
  have admits := prints.keeps (fun kernel => kernel.files.Admits) Kernel.call_admits admits
  obtain ⟨outcome, names, after, upholds, performs, stay⟩ := clears middle admits
  refine ⟨outcome, names, after, fun past => ?_, prints.lift.check_ok performs, stay⟩
  refine Check.upholds_bind.mpr (Check.upholds_lift.mpr ?_)
  exact (Kernel.upholds_putLine text past).mono (fun _ _ => id) fun past _ _ => upholds past

/-- A probe leaves no file that was not there, but the one that its third argument says when it
comes to a value.
-/
theorem performs_body (admits : kernel.files.Admits) (pid : Pid) (argv : List String)
    : ∃ outcome, Clears kernel pid (fun name => argv[2]? = some name) (body argv) outcome := by
  rcases body_eq argv with same | ⟨violation, same⟩ | ⟨text, check, same, rest⟩
  · have fits : Probe.alone.capacity ≤ Probe.maxSlots := by decide
    obtain ⟨outcome, clears⟩ :=
      clears_probe admits pid fits (.ofSeed loneSeed) "--- PASS test_fd" 0
    rw [same]
    exact ⟨outcome, clears.mono fun name left => by cases left.2⟩
  · rw [same]
    exact ⟨_, clears_violate kernel pid _ violation⟩
  · rw [same]
    refine clears_announced admits text fun kernel admits => ?_
    rcases rest with ⟨violation, rfl⟩ | ⟨index, file, stream, line, given, rfl⟩
    · exact ⟨_, clears_violate kernel pid _ violation⟩
    · have fits : (Probe.shared index file).capacity ≤ Probe.maxSlots :=
        show Probe.sharedCapacity ≤ Probe.maxSlots by decide
      obtain ⟨outcome, clears⟩ := clears_probe admits pid fits stream line index
      exact ⟨outcome, clears.mono fun name left => by rw [given, left.1]; rfl⟩

/-- A process that makes a probe leaves no file that was not there, but the one of one of several
probes that comes to a value.
-/
theorem endsAlone (config : Config) (argv : List String)
    : EndsAlone config (fun name argv => (body argv).ending name) program argv
        fun kernel pid ending after =>
          kernel.files.Leaves
            (fun name =>
              argv[2]? = some name
              ∧ ∃ index finished,
                  Performs pid kernel (body argv).run (.ok index) finished ∧ ending = .exit index)
            after.files := by
  intro deeds kernel pid run newborn
  obtain ⟨outcome, names, middle, upholds, performs, stay⟩ := performs_body run.admits pid argv
  obtain ⟨ending, after, ends, elsewhere, leaves, status⟩ :=
    Kernel.leaves_of_performs run newborn.closed (upholds []) performs stay (argv.headD program)
  refine ⟨ending, after, ends, elsewhere, leaves.mono fun name left => ⟨left.1, ?_⟩⟩
  obtain ⟨index, rfl⟩ := left.2
  exact ⟨index, middle, performs, status index rfl⟩

end FdTest

end KernelConformance
