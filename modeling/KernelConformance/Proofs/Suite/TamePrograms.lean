import KernelConformance.Proofs.Suite.ParentPrograms
import KernelConformance.Proofs.Suite.ProbeDetection

/-! What the test programs never do, whatever the system replies: they do not fault, do not close
the output of their process, and start nothing but test programs and the one program that there must
not be.
-/

namespace KernelConformance

open Randomness (Stream)

variable {α β : Type}

/-- Whether a call is as a test program may make it. The output is only closed under a number that
was given out for a file.
-/
def TameCall (past : List Exchange) : Syscall → Prop
  | .close fd => fd = .stdout → OpenedIn past fd
  | .exec program _ => program = ExecTest.absentProgram ∨ testProgram? program ≠ none
  | _ => True

/-- Whether a program makes tame calls only, on any system. -/
def Prog.Tame (prog : Prog α) : Prop := ∀ past, prog.Upholds TameCall (fun _ _ => True) past

/-- Whether a check makes tame calls only and never faults, on any system. -/
def Check.Tame (check : Check α) : Prop :=
  ∀ past, check.Upholds TameCall (fun _ _ => True) (fun _ stop => stop ≠ .fault) past

-----------------------------------------------------------------------------------------
-- Programs and checks made of tame ones
-----------------------------------------------------------------------------------------

namespace Prog.Tame

theorem done (value : α) : Tame (.done value) := fun _ => trivial

theorem bind {prog : Prog α} {f : α → Prog β} (tame : prog.Tame) (onward : ∀ value, (f value).Tame)
    : (prog >>= f).Tame :=
  fun past =>
    upholds_bind.mpr ((tame past).mono (fun _ _ => id) fun past value _ => onward value past)

theorem perform {c : Syscall} (tame : ∀ past, TameCall past c) : (Prog.perform c).Tame :=
  fun past => ⟨tame past, fun _ => trivial⟩

theorem attempt {c : Syscall} (tame : ∀ past, TameCall past c) : (Prog.attempt c).Tame :=
  fun past => upholds_attempt.mpr ⟨tame past, fun _ => trivial⟩

theorem putLine (text : String) : (Prog.putLine text).Tame := attempt fun _ => trivial

end Prog.Tame

namespace Check.Tame

variable {check : Check α}

theorem pure (value : α) : Tame (Pure.pure value) := fun _ => trivial

theorem violate (violation : Violation) : Tame (Check.violate violation : Check α) := fun _ => nofun

theorem bind {f : α → Check β} (tame : check.Tame) (onward : ∀ value, (f value).Tame)
    : (check >>= f).Tame :=
  fun past => upholds_bind.mpr
    ((tame past).mono (fun _ _ => id) (fun past value _ => onward value past) fun _ _ => id)

theorem lift {prog : Prog α} (tame : prog.Tame) : Tame (ExceptT.lift prog) :=
  fun past => upholds_lift.mpr (tame past)

theorem perform {c : Syscall} (tame : ∀ past, TameCall past c) : (Check.perform c).Tame :=
  lift (.perform tame)

theorem demand (c : Syscall) (tame : ∀ past, TameCall past c) (wording : Errno → String)
    : (Check.demand c wording).Tame :=
  fun past => upholds_demand.mpr ⟨tame past, fun _ => trivial, fun _ => nofun⟩

theorem require (condition : Bool) (violation : Violation)
    : (Check.require condition violation).Tame :=
  fun _ => upholds_require_of trivial nofun

theorem andFinally {last : Except Violation α → Prog Unit} (tame : check.Tame)
    (finally_ : ∀ result, (last result).Tame)
    : (check.andFinally last).Tame := by
  refine fun past => upholds_andFinally.mpr ((tame past).mono (fun _ _ => id) ?_ ?_)
  · exact fun past value _ => finally_ (.ok value) past
  · intro past stop returns
    cases stop with
    | violation violation =>
        exact (finally_ (.error violation) past).mono (fun _ _ => id) fun _ _ _ => nofun
    | fault => exact returns

theorem argument (read : String → Except Decimal.ReadError α) (what : String) (index : Nat)
    (argv : List String)
    : (KernelConformance.argument read what index argv).Tame := by
  rcases argument_cases read what index argv with ⟨value, same⟩ | ⟨message, same⟩
  · rw [same]
    exact pure _
  · rw [same]
    exact violate _

/-- A tame check ends a process by tame calls, and not by a fault. -/
theorem ending {check : Check Int32} (tame : check.Tame) (name : String) (past : List Exchange)
    : (check.ending name).Upholds TameCall (fun _ ending => ending ≠ .fault) past := by
  refine Prog.upholds_bind.mpr
    (Prog.Upholds.mono (tame past) (fun _ _ => id) fun past outcome stops => ?_)
  rcases outcome with (violation | _) | status
  · refine Prog.upholds_bind.mpr ((Prog.Tame.putLine _ past).mono (fun _ _ => id) fun _ _ _ => ?_)
    exact Ending.noConfusion
  · exact absurd rfl stops
  · exact Ending.noConfusion

end Check.Tame

-----------------------------------------------------------------------------------------
-- Probes
-----------------------------------------------------------------------------------------

namespace Probe

/-- Releasing slots that do not hold the number of the output is tame, by induction on the order. -/
theorem tame_release (keepFirst : Bool) (order : List Nat) {slots : Slots}
    (own : ∀ fd ∈ held slots, fd ≠ .stdout)
    : (release keepFirst order slots).Tame := by
  induction order generalizing slots with
  | nil => exact .done _
  | cons slot rest ih =>
      unfold release
      split
      · exact ih own
      · split
        · exact ih own
        · next fd full =>
            obtain ⟨front, back, before, after⟩ := held_of_full full
            have closes : fd ≠ .stdout := own fd (by simp [before])
            refine .bind (.attempt fun _ same => absurd same closes) fun _ => ih fun other member =>
              ?_
            rw [after] at member
            rw [before] at own
            rcases List.mem_append.mp member with left | right
            · exact own other (List.mem_append_left _ left)
            · exact own other (List.mem_append_right _ (List.mem_cons_of_mem _ right))

theorem tame_refill (file : String) (slots : Slots) : (refill file slots).Tame := by
  induction slots with
  | nil => exact .done _
  | cons slot rest ih =>
      cases slot with
      | none => exact .bind (.perform fun _ => trivial) fun _ => .bind ih fun _ => .done _
      | some fd => exact .bind ih fun _ => .done _

/-- No round closes the output, as the slots that it releases were checked, by induction
on their number.
-/
theorem tame_rounds (probe : Probe) (count : Nat) (slots : Slots) (stream : Stream)
    : (rounds probe count slots stream).Tame := by
  induction count generalizing slots stream with
  | zero => exact .pure _
  | succ count ih =>
      unfold rounds
      dsimp only
      rcases passed : checkSlots slots.length [] slots with violation | ⟨⟩
      · exact .violate violation
      · obtain ⟨fds, rfl, -, own⟩ := of_checkSlots passed List.nodup_nil
        refine .bind (.pure ()) fun _ => ?_
        have last (order : List Nat) (stream : Stream)
            : (onward probe count order (fds.map some) stream).Tame := by
          unfold onward
          split
          · exact .pure _
          · refine .bind (.lift (tame_release _ _ ?_)) fun _ =>
              .bind (.lift (tame_refill _ _)) fun _ => ih _ _
            rw [held_map_some]
            rintro _ member rfl
            exact absurd (own _ member) (by decide)
        split
        · exact .bind (.lift (.putLine _)) fun _ => last _ _
        · exact last _ _

theorem tame_checkAbsent (probe : Probe) : (checkAbsent probe).Tame := by
  unfold checkAbsent
  split
  · exact .bind (.perform fun _ => trivial) fun _ => .require _ _
  · exact .pure _

theorem tame_conclude (probe : Probe) (result : Slots × Stream) : (conclude probe result).Tame := by
  unfold conclude
  split
  · intro past
    refine Check.upholds_bind.mpr (Check.upholds_perform.mpr ⟨trivial, fun reply => ?_⟩)
    cases reply with
    | error => exact Check.Tame.pure _ _
    | ok extra =>
        refine Check.upholds_bind.mpr (Check.upholds_lift.mpr (Prog.upholds_attempt.mpr ?_))
        exact ⟨fun _ => ⟨probe.file, .inr (by simp)⟩, fun _ => Check.Tame.violate _ _⟩
  · exact .pure _

theorem tame_run {probe : Probe} (fits : probe.capacity ≤ maxSlots) (stream : Stream)
    : (run probe stream).Tame := by
  refine .andFinally ?_ fun result => ?_
  · rw [runAllRounds_eq, if_neg (Nat.not_lt_of_le fits)]
    refine .bind (.require _ _) fun _ => .bind (tame_checkAbsent probe) fun _ => ?_
    refine .bind (.demand (.creat probe.file) (fun _ => trivial) _) fun first => ?_
    refine .bind (.lift (.attempt fun _ => nofun)) fun _ => ?_
    exact .bind (tame_rounds _ _ _ _) fun _ => tame_conclude _ _
  · split
    · exact .attempt fun _ => trivial
    · exact .done _

end Probe

-----------------------------------------------------------------------------------------
-- Jobs
-----------------------------------------------------------------------------------------

namespace Spawner

theorem tame_retire (child : Child) (spawner : Spawner) : (retire child spawner).Tame := by
  unfold retire
  refine .bind (.perform fun _ => trivial) fun reply => ?_
  split <;> exact .done _

/-- Starting a job is tame if it runs a test program, by induction on the queue. -/
theorem tame_issueFrom {job : Job} (known : testProgram? job.program ≠ none) (queue : List Child)
    (spawner : Spawner)
    : (issueFrom job queue spawner).Tame := by
  have starts (spawner : Spawner) : (tryStart job spawner).Tame := by
    unfold tryStart
    refine .bind (.perform fun _ => .inr known) fun reply => ?_
    split <;> exact .done _
  induction queue generalizing spawner with
  | nil =>
      unfold issueFrom
      refine .bind (starts _) fun started => ?_
      split <;> exact .done _
  | cons oldest rest ih =>
      unfold issueFrom
      refine .bind (starts _) fun _ => ?_
      split
      · exact .done _
      · refine .bind (tame_retire _ _) fun _ => ?_
        split
        · exact .done _
        · exact ih _

/-- Jobs that run test programs are tame, by induction on them. -/
theorem tame_issueAll {jobs : List Job} (known : ∀ job ∈ jobs, testProgram? job.program ≠ none)
    (spawner : Spawner)
    : (issueAll jobs spawner).Tame := by
  induction jobs generalizing spawner with
  | nil => exact .done _
  | cons job rest ih =>
      unfold issueAll
      refine .bind (tame_issueFrom (known job (List.mem_cons_self ..)) _ _) fun _ => ?_
      split
      · exact .done _
      · exact ih (fun job member => known job (List.mem_cons_of_mem _ member)) _

theorem tame_joinFrom (queue : List Child) (spawner : Spawner) : (joinFrom queue spawner).Tame := by
  induction queue generalizing spawner with
  | nil => exact .done _
  | cons oldest rest ih =>
      unfold joinFrom
      refine .bind (tame_retire _ _) fun _ => ?_
      split
      · exact .done _
      · exact ih _

theorem tame_conclude {issued : Prog (Except Violation Unit × Spawner)} (tame : issued.Tame)
    : (conclude issued).Tame := by
  have judged (result : Except Violation Unit) : (Check.ofResult result).Tame := by
    cases result with
    | ok => exact .pure _
    | error violation => exact .violate violation
  refine .bind (.lift tame) fun issued => .bind (judged _) fun _ => ?_
  exact .bind (.lift (tame_joinFrom _ _)) fun joined => .bind (judged _) fun _ => .pure _

end Spawner

-----------------------------------------------------------------------------------------
-- Bodies
-----------------------------------------------------------------------------------------

theorem ExitCode.tame_body (argv : List String) : (body argv).Tame := by
  rcases ExitCode.body_cases argv with ⟨status, same⟩ | ⟨violation, same⟩
  · rw [same]
    exact .pure _
  · rw [same]
    exact .violate _

/-- Any number of children is tame, by induction on it. -/
theorem ExecTest.tame_runChildren (name : String) (count : Nat) (status : Int32)
    : (runChildren name count status).Tame := by
  induction count generalizing status with
  | zero => exact .pure _
  | succ count ih =>
      unfold runChildren runChild
      dsimp only
      refine .bind ?_ fun _ => ih _
      refine .bind (.demand (.exec ExitCode.program _) (fun _ => .inr (by decide)) _) fun pid => ?_
      refine .bind (.demand (.join pid) (fun _ => trivial) _) fun joined => ?_
      exact .bind (.lift (.putLine _)) fun _ => .require _ _

theorem ExecTest.tame_body (name : String) : (body name).Tame := by
  unfold body
  refine .bind (tame_runChildren _ _ _) fun _ => .bind (.perform fun _ => .inl rfl) fun missing =>
    ?_
  refine .bind (.lift (.putLine _)) fun _ => .bind (.require _ _) fun _ => ?_
  refine .bind (.perform fun _ => trivial) fun unrelated => ?_
  refine .bind (.lift (.putLine _)) fun _ => .bind (.require _ _) fun _ => ?_
  exact .bind (.lift (.putLine _)) fun _ => .pure _

theorem FdTest.tame_body (argv : List String) : (body argv).Tame := by
  have ends (line : String) (status : Int32) (result : List Fd × Stream)
      : (rest line status result).Tame :=
    .bind (.lift (.putLine _)) fun _ => .pure _
  rcases FdTest.body_eq argv with same | ⟨violation, same⟩ | ⟨text, check, same, stops⟩
  · rw [same]
    exact .bind (Probe.tame_run (by decide) _) (ends _ _)
  · rw [same]
    exact .violate _
  · rw [same]
    refine .bind (.lift (.putLine _)) fun _ => ?_
    rcases stops with ⟨violation, rfl⟩ | ⟨index, file, stream, line, -, rfl⟩
    · exact .violate _
    · refine .bind (Probe.tame_run ?_ _) (ends _ _)
      change Probe.sharedCapacity ≤ _
      decide

theorem Fibonacci.tame_body (argv : List String) : (body argv).Tame := by
  rcases Fibonacci.body_eq argv with ⟨signature, index, same⟩ | ⟨message, same⟩
  · rw [same]
    refine .bind (fun past => ?_) fun result => ?_
    · refine (Recurrence.upholds_run _).mono (fun past c calls => ?_) (fun _ _ _ => trivial) ?_
      · cases c with
        | exec | join => exact calls.elim
        | close => exact fun _ => calls
        | _ => trivial
      · rintro _ _ ⟨message, rfl⟩
        exact nofun
    · exact .bind (.require _ _) fun _ => .bind (.lift (.putLine _)) fun _ => .pure _
  · rw [same]
    exact .violate _

/-- Removing files is tame, by induction on them. -/
theorem MultiProg.tame_removeAll (files : List String) : (removeAll files).Tame := by
  induction files with
  | nil => exact .done _
  | cons file rest ih => exact .bind (.attempt fun _ => trivial) fun _ => ih

theorem MultiProg.tame_body : body.Tame := by
  have known (given : Job) (member : given ∈ indices.map job)
      : testProgram? given.program ≠ none := by
    obtain ⟨index, -, rfl⟩ := List.mem_map.mp member
    exact (by decide : testProgram? FdTest.program ≠ none)
  refine .bind (.andFinally ?_ fun _ => tame_removeAll _) fun _ => ?_
  · exact Spawner.tame_conclude (Spawner.tame_issueAll known _)
  · exact .bind (.lift (.putLine _)) fun _ => .pure _

/-- Drawing any number of jobs is tame, by induction on it. -/
theorem SeqFib.tame_issueJobs (count : Nat) (stream : Stream) (spawner : Spawner)
    : (issueJobs count stream spawner).Tame := by
  induction count generalizing stream spawner with
  | zero => exact .done _
  | succ count ih =>
      unfold issueJobs
      refine .bind (Spawner.tame_issueFrom ?_ _ _) fun _ => ?_
      · exact (by decide : testProgram? Fibonacci.program ≠ none)
      · split
        · exact .done _
        · exact ih _ _

theorem SeqFib.tame_body (argv : List String) : (body argv).Tame := by
  unfold body
  refine .bind (.argument _ _ _ _) fun _ => .bind (.argument _ _ _ _) fun _ => ?_
  refine .bind (Spawner.tame_conclude (tame_issueJobs _ _ _)) fun _ => ?_
  exact .bind (.lift (.putLine _)) fun _ => .pure _

end KernelConformance
