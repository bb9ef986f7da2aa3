import KernelConformance.Proofs.Programs.Supervision
import KernelConformance.Proofs.Suite.SequentialSoundness
import KernelConformance.Proofs.Suite.SoloPrograms

/-! The test programs that have children make only calls that a supervisor makes, if their children
may be supervised. In the end they have removed all files that these may leave.
-/

namespace KernelConformance

open Check (Failed failed)
open Kernel (Supervises)

variable {config : Config} {images : Images Unit} {begin : Kernel}
  {proper : String → List String → ExitStatus → Prop} {except : String → Prop}
  {past : List Exchange}

/-- Whether all files that are excepted were removed since a process was last started. -/
def AllCleared (except : String → Prop) (past : List Exchange) : Prop :=
  ∀ name, except name → name ∈ cleared past

theorem AllCleared.write (all : AllCleared except past) {fd : Fd} {bytes : Utf8.Bytes}
    {reply : Except Errno Nat}
    : AllCleared except (past ++ [⟨.write fd bytes, reply⟩]) := by
  intro name excepted
  rw [cleared_snoc]
  exact all name excepted

/-- Printing a line clears nothing and starts nobody. -/
theorem supervises_putLine {text : String} {result : List Exchange → Unit → Prop}
    (last : ∀ reply, result (past ++ [⟨.write .stdout (Utf8.encode (text ++ "\n")), reply⟩]) ())
    : (Prog.putLine text).Upholds (Supervises config images begin proper except) result past :=
  Prog.upholds_attempt.mpr ⟨rfl, last⟩

/-- To end by a check, a supervisor at most prints a message after it. -/
theorem supervises_ending {check : Check Int32}
    (upholds
      : check.Upholds (Supervises config images begin proper except)
          (fun past _ => AllCleared except past) (fun past _ => AllCleared except past) past)
    (name : String)
    : (check.ending name).Upholds (Supervises config images begin proper except)
        (fun past _ => AllCleared except past) past := by
  refine Prog.upholds_bind.mpr
    (Prog.Upholds.mono upholds (fun _ _ => id) fun past outcome all => ?_)
  rcases outcome with (violation | _) | status
  · exact Prog.upholds_bind.mpr (supervises_putLine fun _ => all.write)
  · exact all
  · exact all

-----------------------------------------------------------------------------------------
-- Children one after the other
-----------------------------------------------------------------------------------------

namespace ExecTest

variable (children
    : ∀ past argv,
        Supervises config images begin proper except past (.exec ExitCode.program argv))

include children

theorem supervises_runChild (name : String) (status : Int32)
    : (runChild name status).Upholds (Supervises config images begin proper except)
        (fun _ _ => True) (fun _ _ => True) past := by
  refine Check.upholds_bind.mpr (Check.upholds_demand.mpr ⟨children _ _, fun pid => ?_, ?_⟩)
  · refine Check.upholds_bind.mpr (Check.upholds_demand.mpr ⟨trivial, fun joined => ?_, ?_⟩)
    · refine Check.upholds_bind.mpr (Check.upholds_lift.mpr (supervises_putLine fun _ => ?_))
      exact Check.upholds_require_of trivial trivial
    · exact fun _ => trivial
  · exact fun _ => trivial

/-- Any number of children is supervised, by induction on it. -/
theorem supervises_runChildren (name : String) (count : Nat) (status : Int32)
    : (runChildren name count status).Upholds (Supervises config images begin proper except)
        (fun _ _ => True) (fun _ _ => True) past := by
  induction count generalizing status past with
  | zero => trivial
  | succ count ih =>
      refine Check.upholds_bind.mpr ((supervises_runChild children name status).mono
        (fun _ _ => id) (fun past _ _ => ih _) fun _ _ => id)

theorem supervises_body (absent : absentProgram ∉ begin.programs) (name : String)
    : (body name).Upholds (Supervises config images begin proper except) (fun _ _ => True)
        (fun _ _ => True) past := by
  refine Check.upholds_bind.mpr ((supervises_runChildren children name childCount 1).mono
    (fun _ _ => id) (fun past _ _ => ?_) fun _ _ => id)
  refine Check.upholds_bind.mpr (Check.upholds_perform.mpr ⟨.inl absent, fun missing => ?_⟩)
  refine Check.upholds_bind.mpr (Check.upholds_lift.mpr (supervises_putLine fun _ => ?_))
  refine Check.upholds_bind.mpr (Check.upholds_require_of ?_ trivial)
  refine Check.upholds_bind.mpr (Check.upholds_perform.mpr ⟨trivial, fun unrelated => ?_⟩)
  refine Check.upholds_bind.mpr (Check.upholds_lift.mpr (supervises_putLine fun _ => ?_))
  refine Check.upholds_bind.mpr (Check.upholds_require_of ?_ trivial)
  exact Check.upholds_bind.mpr (Check.upholds_lift.mpr (supervises_putLine fun _ => trivial))

end ExecTest

-----------------------------------------------------------------------------------------
-- Jobs
-----------------------------------------------------------------------------------------

/-- A process that runs jobs whose children may be supervised is a supervisor. -/
theorem Spawner.supervises_runJobs {jobs : List Job}
    (children
      : ∀ job ∈ jobs,
          ∀ past, Supervises config images begin proper except past (.exec job.program job.argv))
    : (runJobs jobs).Upholds (Supervises config images begin proper except) (fun _ _ => True)
        Failed [] := by
  refine (upholds_runJobs 0 jobs).mono (fun past c allowed => ?_) (fun _ _ _ => trivial) ?_
  · cases c with
    | exec program argv =>
        obtain ⟨job, next, rfl, rfl⟩ := allowed.1
        exact children job (List.mem_of_getElem? next) past
    | join => trivial
    | _ => exact allowed.1.elim
  · rintro past stop ⟨violation, rfl, ⟨message, rfl⟩, -⟩
    exact ⟨message, rfl⟩

namespace MultiProg

/-- Whether a name is that of the file of a child. -/
def IsInstanceFile (name : String) : Prop := name ∈ indices.map instanceFile

/-- Files that are removed are cleared, by induction on them. -/
theorem supervises_removeAll (files : List String) (excepted : ∀ name ∈ files, except name)
    : (removeAll files).Upholds (Supervises config images begin proper except)
        (fun after _ => ∀ name, name ∈ files ∨ name ∈ cleared past → name ∈ cleared after)
          past := by
  induction files generalizing past with
  | nil => exact fun name left => left.elim nofun id
  | cons file rest ih =>
      have later (name : String) (member : name ∈ rest) : except name :=
        excepted name (List.mem_cons_of_mem _ member)
      refine Prog.upholds_bind.mpr (Prog.upholds_attempt.mpr ⟨excepted file (.head _), fun _ => ?_⟩)
      refine (ih later).mono (fun _ _ => id) fun after _ all name left => all name ?_
      rw [cleared_snoc]
      rcases left with member | before
      · rcases List.mem_cons.mp member with rfl | member
        · exact .inr (List.mem_cons_self ..)
        · exact .inl member
      · exact .inr (List.mem_cons_of_mem _ before)

/-- A process that makes several probes has removed all their files in the end. -/
theorem supervises_body
    (children
      : ∀ index ∈ indices,
          ∀ past,
            Supervises config images begin proper IsInstanceFile past
              (.exec (job index).program (job index).argv))
    : body.Upholds (Supervises config images begin proper IsInstanceFile)
        (fun past _ => AllCleared IsInstanceFile past)
        (fun past _ => AllCleared IsInstanceFile past) [] := by
  have jobs (given : Job) (member : given ∈ indices.map job) (past : List Exchange)
      : Supervises config images begin proper IsInstanceFile past
          (.exec given.program given.argv) := by
    obtain ⟨index, among, rfl⟩ := List.mem_map.mp member
    exact children index among past
  have removes (past : List Exchange)
      : (removeAll (indices.map instanceFile)).Upholds
          (Supervises config images begin proper IsInstanceFile)
          (fun past _ => AllCleared IsInstanceFile past) past :=
    (supervises_removeAll _ fun _ => id).mono (fun _ _ => id) fun _ _ all name member =>
      all name (.inl member)
  refine Check.upholds_bind.mpr (Check.upholds_andFinally.mpr ?_)
  refine (Spawner.supervises_runJobs jobs).mono (fun _ _ => id) (fun past _ _ => ?_) ?_
  · refine (removes past).mono (fun _ _ => id) fun past _ all => ?_
    exact Check.upholds_bind.mpr (Check.upholds_lift.mpr (supervises_putLine fun _ => all.write))
  · rintro past stop ⟨message, rfl⟩
    exact removes past

end MultiProg

/-- A process that makes many runs of the recurrence is a supervisor, whatever its arguments are. -/
theorem SeqFib.supervises_body (argv : List String)
    (children
      : ∀ past argv,
          Supervises config images begin proper except past (.exec Fibonacci.program argv))
    : (body argv).Upholds (Supervises config images begin proper except) (fun _ _ => True)
        (fun _ _ => True) [] := by
  have jobs (count : Nat) (stream : Randomness.Stream) (given : Job)
      (member : given ∈ drawnJobs count stream) (past : List Exchange)
      : Supervises config images begin proper except past (.exec given.program given.argv) := by
    obtain ⟨index, found⟩ := List.mem_iff_getElem?.mp member
    obtain ⟨signature, -, rfl⟩ := drawnJobs_getElem? found
    exact children past _
  rw [body, argumentNat64, argumentNat64]
  rcases argument_cases Decimal.readNat64 "unit count" 1 argv with ⟨count, read⟩ | ⟨_, refused⟩
  · rw [read, pure_bind]
    rcases argument_cases Decimal.readNat64 "seed" 2 argv with ⟨seed, read⟩ | ⟨_, refused⟩
    · rw [read, pure_bind]
      simp only [issueJobs_eq]
      refine Check.upholds_bind.mpr ((Spawner.supervises_runJobs (jobs _ _)).mono (fun _ _ => id)
        (fun past _ _ => ?_) fun _ _ _ => trivial)
      exact Check.upholds_bind.mpr (Check.upholds_lift.mpr (supervises_putLine fun _ => trivial))
    · rw [refused]
      trivial
  · rw [refused]
    trivial

end KernelConformance
