import KernelConformance.Proofs.Suite.CrewSequels
import KernelConformance.Proofs.Suite.DescriptorNeeds
import KernelConformance.Proofs.Suite.SequentialCompleteness

/-! How many process slots and open files the programs need that have children. A program that runs
jobs fails without a slot for a child; and where the children do not have the descriptors that they
need, the first of them ends with the code of a failure, which is not its signature.
-/

namespace KernelConformance

open Kernel (Performs noName)
open Spawner (Concluded Dependable Feasible Issues Served)

-----------------------------------------------------------------------------------------
-- Jobs that pass or fail
-----------------------------------------------------------------------------------------

namespace Spawner

variable {jobs : List Job} {past : List Exchange} {capacity : Nat}

/-- A process that was served and has started a child has found room for it. -/
theorem room_of_served (served : Served capacity jobs past) (some : started past ≠ [])
    : 0 < capacity := by
  obtain ⟨child, member⟩ := List.exists_mem_of_ne_nil _ some
  obtain ⟨exchange, made, begun⟩ := List.mem_filterMap.mp member
  obtain ⟨program, argv, rfl⟩ := Exchange.eq_exec_of_started begun
  obtain ⟨before, after, whole⟩ := List.append_of_mem made
  exact Nat.zero_lt_of_lt (served before _ after whole)

/-- A process that runs some jobs needs room for a child. -/
theorem needsRoom_runJobs (capacity : Nat) (wanted : jobs ≠ [])
    : NeedsRoom capacity jobs (runJobs jobs) := by
  refine (upholds_runJobs capacity jobs).mono (fun _ _ allowed => .inl allowed.1) ?_ ?_
  · intro past report concluded served
    refine ⟨(concluded.served served).2 (List.length_pos_of_ne_nil wanted), ?_⟩
    rw [unjoined, List.drop_eq_nil_of_le]
    rw [concluded.started, concluded.joined]
  · rintro past stop ⟨violation, rfl, ⟨message, rfl⟩, starved⟩
    exact ⟨message, rfl, fun served => (starved served).full⟩

/-- A job whose child is to fail. -/
def failing (job : Job) : Job := { job with signature := failureCode }

/-- The calls for jobs do not depend on what is expected of the children. -/
theorem issues_failing {c : Syscall} (issues : Issues jobs past c)
    : Issues (jobs.map failing) past c := by
  refine issues.imp_left fun calls => ?_
  cases c with
  | exec =>
      obtain ⟨job, next, rfl, rfl⟩ := calls
      exact ⟨failing job, by rw [List.getElem?_map, next]; rfl, rfl, rfl⟩
  | join => exact calls
  | _ => exact calls.elim

/-- A process whose jobs have passed has joined a child with the signature of the first of them. -/
theorem Concluded.met {report : Report} (concluded : Concluded capacity jobs past report)
    {job : Job} (first : jobs.head? = some job)
    : ∃ child, ⟨.join child, .ok (.exited job.signature)⟩ ∈ past := by
  obtain ⟨tail, rfl⟩ := List.head?_eq_some_iff.mp first
  have started := concluded.started
  rw [List.length_cons] at started
  obtain ⟨pid, place⟩ : ∃ pid, (KernelConformance.started past)[0]? = some pid :=
    ⟨_, List.getElem?_eq_getElem (by omega)⟩
  exact ⟨pid, concluded.exited _ (mem_children place rfl)⟩

/-- A process does not pass whose children all fail. -/
theorem upholds_runJobs_failing {job : Job} (first : jobs.head? = some job)
    (different : job.signature ≠ failureCode) (capacity : Nat)
    : (runJobs jobs).Upholds (Issues (jobs.map failing))
        (fun past _ => ¬Served capacity (jobs.map failing) past) Check.Failed [] := by
  refine (upholds_runJobs 0 jobs).mono (fun _ _ allowed => issues_failing (.inl allowed.1)) ?_ ?_
  · intro past report concluded served
    obtain ⟨child, joined⟩ := concluded.met first
    obtain ⟨before, after, whole⟩ := List.append_of_mem joined
    obtain ⟨task, given, same⟩ := served before _ after whole
    rw [List.getElem?_map, Option.map_eq_some_iff] at given
    obtain ⟨original, -, rfl⟩ := given
    exact different (ExitStatus.exited.inj (Except.ok.inj same))
  · rintro past stop ⟨violation, rfl, ⟨message, rfl⟩, -⟩
    exact ⟨message, rfl⟩

end Spawner

-----------------------------------------------------------------------------------------
-- Children one after the other
-----------------------------------------------------------------------------------------

namespace ExecTest

variable {config : Config} {begin : Kernel} {root : Pid} {past : List Exchange}
  {number capacity : Nat}

/-- The run of the child with a number, which is the status that it exits with. -/
def job (number : Nat) : Job :=
  ⟨ExitCode.program, [ExitCode.program, Decimal.write (Int32.ofNat number)], Int32.ofNat number⟩

/-- The runs of all children. -/
def jobs : List Job := (List.range childCount).map fun index => job (index + 1)

theorem jobs_getElem? (below : number < childCount) : jobs[number]? = some (job (number + 1)) := by
  rw [jobs, List.getElem?_map, List.getElem?_range below]
  rfl

theorem exists_of_jobs {task : Job} {index : Nat} (found : jobs[index]? = some task)
    : ∃ number ≤ childCount, task = job number := by
  have bound := (List.getElem?_eq_some_iff.mp found).1
  rw [jobs, List.length_map, List.length_range] at bound
  rw [jobs_getElem? bound] at found
  exact ⟨index + 1, bound, (Option.some.inj found).symm⟩

/-- A child exits with its number wherever it is started. -/
theorem dependable (config : Config) (small : number ≤ childCount)
    : Dependable config noName (job number) := by
  have few : number ≤ 2147483647 := Nat.le_trans small (by decide)
  have given
      : [ExitCode.program, Decimal.write (Int32.ofNat number)][1]? = some (toString number) := by
    rw [← Decimal.write_ofNat few]
    rfl
  have same
      : ExitCode.body [ExitCode.program, Decimal.write (Int32.ofNat number)]
        = pure (Int32.ofNat number) := by
    rw [ExitCode.body, argumentInt32_of_le "status" given few]
    rfl
  refine ⟨_, rfl, fun deeds kernel pid run newborn => ⟨⟨[], ?_⟩, kernel, ?_⟩⟩
  · change Prog.Upholds _ _ _ ((ExitCode.body _).ending _)
    rw [job, same]
    trivial
  · change Performs pid kernel ((ExitCode.body _).ending _) _ kernel
    rw [job, same]
    exact .done

theorem feasible (config : Config) : Feasible config jobs fun _ => noName where
  short task member := by
    obtain ⟨index, found⟩ := List.mem_iff_getElem?.mp member
    obtain ⟨number, -, rfl⟩ := exists_of_jobs found
    exact show 2 ≤ 16 by decide
  dependable index task found := by
    obtain ⟨number, small, rfl⟩ := exists_of_jobs found
    exact dependable config small
  disjoint _ _ _ uses := uses.elim

/-- What may stop the program while it has children: a failure, and if it is served only the
lack of room.
-/
def Stopped (capacity : Nat) (past : List Exchange) (stop : Check.Stop) : Prop :=
  ∃ message, stop = .violation (.failure message) ∧ (Served capacity jobs past → capacity = 0)

/-- How many children were started, and as many were joined. -/
structure Reared (number : Nat) (past : List Exchange) : Prop where
  started : (started past).length = number
  joined : (joined past).length = number

theorem upholds_runChild (reared : Reared number past) (below : number < childCount) (name : String)
    : (runChild name (Int32.ofNat (number + 1))).Upholds (Issues jobs)
        (fun past _ => Reared (number + 1) past) (Stopped capacity) past := by
  have next : jobs[(started past).length]? = some (job (number + 1)) := by
    rw [reared.started]
    exact jobs_getElem? below
  have failure (past : List Exchange) (message : String)
      (served : Served capacity jobs past → capacity = 0)
      : Stopped capacity past (.violation (.failure message)) :=
    ⟨message, rfl, served⟩
  refine Check.upholds_bind.mpr (Check.upholds_demand.mpr
    ⟨.inl ⟨_, next, rfl, rfl⟩, fun pid => ?_, fun error => failure _ _ fun served => ?_⟩)
  · have oldest
        : (unjoined (past ++ [⟨.exec ExitCode.program (job (number + 1)).argv, .ok pid⟩])).head?
          = some pid := by
      rw [unjoined, started_snoc, joined_snoc_exchange]
      simp [Exchange.started?, Exchange.joined?, reared.started, reared.joined]
    have answers {reply : Except Errno ExitStatus}
        (answered
          : Spawner.Answered capacity jobs
              (past ++ [⟨.exec ExitCode.program (job (number + 1)).argv, .ok pid⟩])
              ⟨.join pid, reply⟩)
        : reply = .ok (.exited (Int32.ofNat (number + 1))) := by
      obtain ⟨task, given, rfl⟩ := answered
      simp only [joined_snoc_exchange, Exchange.joined?, Option.toList_none, List.append_nil,
        reared.joined, jobs_getElem? below] at given
      cases given
      rfl
    refine Check.upholds_bind.mpr (Check.upholds_demand.mpr
      ⟨.inl oldest, fun status => ?_, fun error => failure _ _ fun served => ?_⟩)
    · refine Check.upholds_bind.mpr (Check.upholds_lift.mpr
        (Prog.upholds_attempt.mpr ⟨.inr ⟨_, rfl⟩, fun reply => Check.upholds_require.mpr ?_⟩))
      split
      · constructor
        · simp only [started_snoc, Exchange.started?, Option.toList_some, Option.toList_none,
            List.append_nil, List.length_append, reared.started, List.length_singleton]
        · simp only [joined_snoc_exchange, Exchange.joined?, Option.toList_some, Option.toList_none,
            List.append_nil, List.length_append, reared.joined, List.length_singleton]
      · next wrong =>
          refine failure _ _ fun served => absurd ?_ wrong
          cases answers (throughout_snoc.mp (throughout_snoc.mp served).1).2
          exact decide_eq_true rfl
    · cases answers (throughout_snoc.mp served).2
  · have full : (unjoined past).length = capacity := (throughout_snoc.mp served).2
    rw [length_unjoined, reared.started, reared.joined] at full
    omega

/-- All children are started and joined unless the program is stopped, by induction on
those to come.
-/
theorem upholds_runChildren (name : String) (count : Nat) (reared : Reared number past)
    (whole : number + count = childCount)
    : (runChildren name count (Int32.ofNat (number + 1))).Upholds (Issues jobs)
        (fun past _ => Reared childCount past) (Stopped capacity) past := by
  induction count generalizing number past with
  | zero =>
      obtain rfl : number = childCount := whole
      exact reared
  | succ count ih =>
      refine Check.upholds_bind.mpr ((upholds_runChild reared (by omega) name).mono (fun _ _ => id)
        (fun past _ reared => ?_) fun _ _ => id)
      have next : Int32.ofNat (number + 1) + 1 = Int32.ofNat (number + 1 + 1) :=
        (Int32.ofNat_add _ 1).symm
      rw [next]
      exact ih reared (by omega)

/-- The program starts and joins all its children, or it is stopped. -/
theorem upholds_allChildren (capacity : Nat) (name : String)
    : (runChildren name childCount 1).Upholds (Issues jobs) (fun past _ => Reared childCount past)
        (Stopped capacity) [] :=
  upholds_runChildren name childCount ⟨rfl, rfl⟩ rfl

/-- The program needs room for a child. -/
theorem needsRoom (capacity : Nat) (name : String)
    : Spawner.NeedsRoom capacity jobs (runChildren name childCount 1) := by
  refine (upholds_allChildren capacity name).mono (fun _ _ => id) ?_ fun _ _ => id
  intro past _ reared served
  refine ⟨Spawner.room_of_served served fun none => ?_, ?_⟩
  · have number := reared.started
    rw [none] at number
    cases number
  · rw [← List.length_eq_zero_iff, length_unjoined, reared.started, reared.joined]
    rfl

/-- What is left of the program when its children are gone. -/
def rest (name : String) : Check Int32 := do
  let missing ← Check.perform (.exec absentProgram [absentProgram])
  let description := outcomeDescription Pid.description missing
  ExceptT.lift (Prog.putMessage name s!"no process: {description}")
  Check.require (!missing.toBool) (.failure s!"exec {absentProgram} succeeded")
  let unrelated ← Check.perform (.join strangerPid)
  let description := outcomeDescription ExitStatus.description unrelated
  ExceptT.lift (Prog.putMessage name s!"join un-child: {description}")
  Check.require (match unrelated with
    | .error error => error = .noChild
    | .ok _ => false) (.failure s!"join {strangerPid.text}: {description}")
  ExceptT.lift (Prog.putLine "--- PASS exectest")
  pure 0

/-- What is left of the program starts only the program that does not exist, and waits only
for the stranger.
-/
theorem makes_rest {kind : Syscall → Prop} (starts : kind (.exec absentProgram [absentProgram]))
    (waits : kind (.join strangerPid)) (prints : ∀ bytes, kind (.write .stdout bytes))
    (name ending : String)
    : ((rest name).ending ending).Makes kind := by
  have line {text : String} {result : List Exchange → Unit → Prop} (onward : ∀ past, result past ())
      {past : List Exchange}
      : Check.Upholds (fun _ => kind) result (fun _ _ => True) past
          (ExceptT.lift (Prog.putLine text)) :=
    Check.upholds_lift.mpr (Prog.upholds_attempt.mpr ⟨prints _, fun _ => onward _⟩)
  have upholds : (rest name).Upholds (fun _ => kind) (fun _ _ => True) (fun _ _ => True) [] := by
    refine Check.upholds_bind.mpr (Check.upholds_perform.mpr ⟨starts, fun missing => ?_⟩)
    refine Check.upholds_bind.mpr (line fun _ => ?_)
    refine Check.upholds_bind.mpr (Check.upholds_require_of ?_ trivial)
    refine Check.upholds_bind.mpr (Check.upholds_perform.mpr ⟨waits, fun unrelated => ?_⟩)
    refine Check.upholds_bind.mpr (line fun _ => ?_)
    refine Check.upholds_bind.mpr (Check.upholds_require_of ?_ trivial)
    exact Check.upholds_bind.mpr (line fun _ => trivial)
  exact upholds.makes_ending (fun _ _ => id) prints ending

/-- Without the program that does not exist, and with a stranger that is no child, all is as it
should be.
-/
theorem performs_rest {kernel : Kernel} (absent : absentProgram ∉ kernel.programs)
    (foreign
      : ∀ slot, kernel.processes.slots.get? strangerPid = some slot → slot.parent ≠ .proc root)
    (name : String)
    : ∃ after, Performs root kernel (rest name).run (.ok 0) after := by
  obtain ⟨missing, first, refused⟩
      : ∃ missing first,
          kernel.call root (.exec absentProgram [absentProgram]) = some (missing, first) :=
    ⟨_, _, rfl⟩
  cases missing with
  | ok child => exact absurd (Kernel.program_of_call refused) absent
  | error error =>
      obtain ⟨second, printsFirst, same⟩ := Kernel.performs_putLine first root
        (name ++ ": " ++ s!"no process: {outcomeDescription Pid.description (.error error)}")
      have processes := same.processes.trans (Kernel.call_error_processes refused)
      have unrelated
          : second.call root (.join strangerPid) = some (.error .noChild, _) :=
        Wait.retry_noChild ⟨.proc root, strangerPid⟩ (processes ▸ foreign)
      obtain ⟨third, printsSecond, -⟩ := Kernel.performs_putLine _ root
        (name ++ ": "
          ++ s!"join un-child: {outcomeDescription ExitStatus.description (.error .noChild)}")
      obtain ⟨last, passes, -⟩ := Kernel.performs_putLine third root "--- PASS exectest"
      refine ⟨last, ?_⟩
      refine (Performs.perform refused rfl).lift.check_ok ?_
      refine printsFirst.lift.check_ok ?_
      refine (Performs.require_true rfl _).check_ok ?_
      refine (Performs.perform unrelated rfl).lift.check_ok ?_
      refine printsSecond.lift.check_ok ?_
      refine (Performs.require_true rfl _).check_ok ?_
      exact passes.lift.check_ok .done

end ExecTest

end KernelConformance
