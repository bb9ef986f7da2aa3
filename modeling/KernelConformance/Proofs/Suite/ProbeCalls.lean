import KernelConformance.Proofs.Files.Leavings
import KernelConformance.Proofs.Suite.ProbeOutcomes

/-! The calls of a probe on any system: it names only its file. If there is room for its slots it is
stopped only by failures.
-/

namespace KernelConformance.Probe

open Check (Failed failed)
open Kernel (WorksWith upholds_putLine)
open Randomness (Stream)

variable {α : Type} {probe : Probe} {past : List Exchange}

/-- Whether a name is that of the file of a probe. -/
def Uses (probe : Probe) (name : String) : Prop := name = probe.file

theorem worksWith_openFile : WorksWith probe.Uses past (.openFile probe.file) :=
  ⟨rfl, fun _ same => (Option.some.inj same).symm⟩

theorem worksWith_close (fd : Fd) : WorksWith probe.Uses past (.close fd) := ⟨rfl, nofun⟩

theorem upholds_ofResult (result : Except Violation α)
    (failures : ∀ violation, result = .error violation → ∃ message, violation = .failure message)
    : (Check.ofResult result).Upholds (WorksWith probe.Uses) (fun _ _ => True) Failed past := by
  cases result with
  | ok value => exact Check.upholds_pure.mpr trivial
  | error violation =>
      obtain ⟨message, rfl⟩ := failures violation rfl
      exact Check.upholds_violate.mpr (failed message)

/-- Slots that are not as they must be are a failure, by induction on them. -/
theorem failure_of_checkSlots {round : Nat} {before : List Fd} {slots : Slots}
    {violation : Violation} (refused : checkSlots round before slots = .error violation)
    : ∃ message, violation = .failure message := by
  induction slots generalizing before with
  | nil => cases refused
  | cons slot rest ih =>
      cases slot with
      | none =>
          cases refused
          exact ⟨_, rfl⟩
      | some fd =>
          unfold checkSlots at refused
          split at refused
          · cases refused
            exact ⟨_, rfl⟩
          · split at refused
            · cases refused
              exact ⟨_, rfl⟩
            · exact ih refused

/-- Releasing slots only closes descriptors, by induction on the order. -/
theorem upholds_release (keepFirst : Bool) (order : List Nat) (slots : Slots)
    : (release keepFirst order slots).Upholds (WorksWith probe.Uses) (fun _ _ => True) past := by
  induction order generalizing slots past with
  | nil => exact trivial
  | cons slot rest ih =>
      unfold release
      split
      · exact ih slots
      · split
        · exact ih slots
        · next fd _ =>
            refine Prog.upholds_bind.mpr (Prog.upholds_attempt.mpr ⟨worksWith_close fd, ?_⟩)
            exact fun _ => ih _

/-- Refilling slots only opens the file, by induction on the slots. -/
theorem upholds_refill (slots : Slots)
    : (refill probe.file slots).Upholds (WorksWith probe.Uses) (fun _ _ => True) past := by
  induction slots generalizing past with
  | nil => exact trivial
  | cons slot rest ih =>
      cases slot with
      | none =>
          refine Prog.upholds_bind.mpr ⟨worksWith_openFile, fun reply => ?_⟩
          exact Prog.upholds_bind.mpr (ih.mono (fun _ _ => id) fun _ _ _ => trivial)
      | some fd => exact Prog.upholds_bind.mpr (ih.mono (fun _ _ => id) fun _ _ _ => trivial)

/-- Between two rounds the slots are released and filled again. -/
theorem upholds_turn (order : List Nat) {slots : Slots} {next : Slots → Check α}
    (onward
      : ∀ past slots, (next slots).Upholds (WorksWith probe.Uses) (fun _ _ => True) Failed past)
    : Check.Upholds (WorksWith probe.Uses) (fun _ _ => True) Failed past (do
        let slots ← ExceptT.lift (release (!probe.isAlone) order slots)
        let slots ← ExceptT.lift (refill probe.file (slots ++ [none]))
        next slots) := by
  refine Check.upholds_bind.mpr (Check.upholds_lift.mpr ?_)
  refine (upholds_release _ order slots).mono (fun _ _ => id) fun past released _ => ?_
  refine Check.upholds_bind.mpr (Check.upholds_lift.mpr ?_)
  exact (upholds_refill _).mono (fun _ _ => id) fun past filled _ => onward past filled

/-- No round makes other calls, by induction on their number. -/
theorem upholds_rounds (count : Nat) (slots : Slots) (stream : Stream)
    : (rounds probe count slots stream).Upholds (WorksWith probe.Uses) (fun _ _ => True) Failed
        past := by
  induction count generalizing slots stream past with
  | zero => exact trivial
  | succ count ih =>
      unfold rounds
      refine Check.upholds_bind.mpr ((upholds_ofResult _ fun _ => failure_of_checkSlots).mono
        (fun _ _ => id) (fun past _ _ => ?_) fun _ _ => id)
      rcases Randomness.permutation slots.length stream with ⟨order, rest⟩
      have last (past : List Exchange)
          : Check.Upholds (WorksWith probe.Uses) (fun _ _ => True) Failed past
              (if count = 0 then pure (slots, rest)
              else do
                let slots ← ExceptT.lift (release (!probe.isAlone) order slots)
                let slots ← ExceptT.lift (refill probe.file (slots ++ [none]))
                rounds probe count slots rest) := by
        split
        · exact trivial
        · exact upholds_turn order fun past slots => ih slots rest
      dsimp only
      split
      · refine Check.upholds_bind.mpr (Check.upholds_lift.mpr ?_)
        exact (upholds_putLine _ past).mono (fun _ _ => id) fun past _ _ => last past
      · exact last past

theorem upholds_checkAbsent
    : (checkAbsent probe).Upholds (WorksWith probe.Uses) (fun _ _ => True) Failed past := by
  unfold checkAbsent
  split
  · refine Check.upholds_bind.mpr (Check.upholds_perform.mpr ⟨worksWith_openFile, fun reply => ?_⟩)
    refine Check.upholds_require.mpr ?_
    split
    · trivial
    · exact failed _
  · trivial

theorem upholds_conclude (result : Slots × Stream)
    : (conclude probe result).Upholds (WorksWith probe.Uses) (fun _ _ => True) Failed past := by
  unfold conclude
  split
  · refine Check.upholds_bind.mpr (Check.upholds_perform.mpr ⟨worksWith_openFile, fun reply => ?_⟩)
    cases reply with
    | error => trivial
    | ok extra =>
        refine Check.upholds_bind.mpr (Check.upholds_lift.mpr ?_)
        exact Prog.upholds_attempt.mpr ⟨worksWith_close extra, fun _ => ⟨_, rfl⟩⟩
  · trivial

theorem upholds_openRounds (stream : Stream)
    : (openRounds probe stream).Upholds (WorksWith probe.Uses) (fun _ _ => True) Failed past := by
  have creates : WorksWith probe.Uses past (.creat probe.file) :=
    ⟨rfl, fun _ same => (Option.some.inj same).symm⟩
  refine Check.upholds_bind.mpr (Check.upholds_demand.mpr ⟨creates, fun first => ?_, ?_⟩)
  · refine Check.upholds_bind.mpr (Check.upholds_lift.mpr (Prog.upholds_attempt.mpr ?_))
    refine ⟨worksWith_close .stdin, fun _ => Check.upholds_bind.mpr ?_⟩
    exact (upholds_rounds _ _ _).mono (fun _ _ => id) (fun _ _ _ => upholds_conclude _)
      fun _ _ => id
  · exact fun _ => failed _

/-- A probe that has room for its slots works with its file, and is stopped only by failures. -/
theorem upholds_runAllRounds (fits : probe.capacity ≤ maxSlots) (stream : Stream)
    : (runAllRounds probe stream).Upholds (WorksWith probe.Uses) (fun _ _ => True) Failed past := by
  rw [runAllRounds_eq, if_neg (Nat.not_lt_of_le fits)]
  refine Check.upholds_bind.mpr (Check.upholds_require.mpr ?_)
  split
  · exact Check.upholds_bind.mpr (upholds_checkAbsent.mono (fun _ _ => id)
      (fun _ _ _ => upholds_openRounds stream) fun _ _ => id)
  · exact failed _

/-- A probe removes its file in the end, unless it is one of several and comes to a value. -/
theorem upholds_run (fits : probe.capacity ≤ maxSlots) (stream : Stream)
    : (run probe stream).Upholds (WorksWith probe.Uses) (fun _ _ => True) Failed past := by
  have unlinks (past : List Exchange) : WorksWith probe.Uses past (.unlink probe.file) :=
    ⟨rfl, fun _ same => (Option.some.inj same).symm⟩
  refine Check.upholds_andFinally.mpr
    ((upholds_runAllRounds fits stream).mono (fun _ _ => id) ?_ ?_)
  · intro past result _
    split
    · exact Prog.upholds_attempt.mpr ⟨unlinks past, fun _ => trivial⟩
    · trivial
  · rintro past stop ⟨message, rfl⟩
    exact Prog.upholds_attempt.mpr ⟨unlinks past, fun _ => failed message⟩

/-- A probe comes to an end in every kernel, and its file stays only if it is one of several and
comes to a value.
-/
theorem performs_run_absent {kernel : Kernel} (admits : kernel.files.Admits) (pid : Pid)
    (fits : probe.capacity ≤ maxSlots) (stream : Stream)
    : ∃ outcome after,
        Kernel.Performs pid kernel (run probe stream).run outcome after
        ∧ ((∃ stop, outcome = .error stop) ∨ probe.isAlone = true
          → after.files.names.get? probe.file = none) := by
  have upholds
      : (runAllRounds probe stream).Upholds (WorksWith probe.Uses) (fun _ _ => True) Failed [] :=
    upholds_runAllRounds fits stream
  obtain ⟨outcome, middle, _, performs, -, holds⟩ := Kernel.performs_worksWith upholds kernel pid
  have admits := performs.keeps (fun kernel => kernel.files.Admits) Kernel.call_admits admits
  have returns : outcome ≠ .error .fault := by
    rintro rfl
    obtain ⟨message, same⟩ := holds
    cases same
  obtain ⟨after, performs, removed⟩ := performs_run performs (admits _) returns
  exact ⟨outcome, after, performs, removed⟩

end KernelConformance.Probe
