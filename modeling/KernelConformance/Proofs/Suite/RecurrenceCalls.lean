import KernelConformance.Proofs.Programs.Dialogues
import KernelConformance.Suite.Recurrence

/-! The calls of a recurrence on any system: it names only its two files, writes to and closes only
what it has opened, and is stopped only by violations with the code of failures or, at the end, of
wrong results.
-/

namespace KernelConformance

/-- Whether a name is one of a pair. -/
def FilePair.Names (pair : FilePair) (name : String) : Prop :=
  name = pair.first ∨ name = pair.second

/-- Whether a descriptor was given out for a file. -/
def OpenedIn (past : List Exchange) (fd : Fd) : Prop :=
  ∃ name, ⟨.creat name, .ok fd⟩ ∈ past ∨ ⟨.openFile name, .ok fd⟩ ∈ past

namespace Recurrence

open Check (Failed failed)

/-- The calls that a recurrence may make on the files of a pair. -/
def Calls (pair : FilePair) (past : List Exchange) : Syscall → Prop
  | .exec .. | .join .. => False
  | .creat name | .openFile name | .unlink name => pair.Names name
  | .close fd | .write fd _ => OpenedIn past fd
  | .read .. => True

variable {pair : FilePair} {past : List Exchange}

theorem upholds_readNumber (fd : Fd) (name : String) {result : List Exchange → Int32 → Prop}
    (any : ∀ delivery value, result (past ++ [⟨.read fd Record.width, .ok delivery⟩]) value)
    : (readNumber fd name).Upholds (Calls pair) result Failed past := by
  refine Check.upholds_bind.mpr (Check.upholds_demand.mpr ⟨trivial, fun delivery => ?_, ?_⟩)
  · refine Check.upholds_bind.mpr (Check.upholds_require.mpr ?_)
    split
    · split
      · exact any delivery _
      · exact ⟨_, rfl⟩
    · exact failed _
  · exact fun _ => failed _

theorem upholds_writeNumber {fd : Fd} (opened : OpenedIn past fd) (name : String) (value : Int32)
    {result : List Exchange → Unit → Prop}
    (any : ∀ count, result (past ++ [⟨.write fd (Record.encode value), .ok count⟩]) ())
    : (writeNumber fd name value).Upholds (Calls pair) result Failed past := by
  refine Check.upholds_bind.mpr (Check.upholds_demand.mpr ⟨opened, fun count => ?_, ?_⟩)
  · refine Check.upholds_require.mpr ?_
    split
    · exact any count
    · exact failed _
  · exact fun _ => failed _

theorem upholds_openFile {name : String} (own : pair.Names name)
    {result : List Exchange → Fd → Prop}
    (any : ∀ fd, result (past ++ [⟨.openFile name, .ok fd⟩]) fd)
    : (openFile name).Upholds (Calls pair) result Failed past :=
  Check.upholds_demand.mpr ⟨own, any, fun _ => failed _⟩

theorem upholds_close {fd : Fd} (opened : OpenedIn past fd)
    {result : List Exchange → Unit → Prop}
    (any : ∀ reply, result (past ++ [⟨.close fd, .ok reply⟩]) ())
    : (close fd).Upholds (Calls pair) result Failed past :=
  Check.upholds_demand.mpr ⟨opened, fun reply => any reply, fun _ => failed _⟩

theorem upholds_seed {name : String} (own : pair.Names name) (value : Int32)
    : (seed name value).Upholds (Calls pair) (fun _ _ => True) Failed past := by
  refine Check.upholds_bind.mpr (Check.upholds_demand.mpr ⟨own, fun fd => ?_, fun _ => failed _⟩)
  have opened : OpenedIn (past ++ [⟨.creat name, .ok fd⟩]) fd := ⟨name, .inl (by simp)⟩
  refine Check.upholds_bind.mpr (upholds_writeNumber opened name value fun count => ?_)
  exact upholds_close ⟨name, .inl (by simp)⟩ fun _ => trivial

theorem upholds_readState
    : (readState pair).Upholds (Calls pair) (fun _ _ => True) Failed past := by
  refine Check.upholds_bind.mpr (upholds_openFile (.inl rfl) fun firstFd => ?_)
  refine Check.upholds_bind.mpr (upholds_openFile (.inr rfl) fun secondFd => ?_)
  refine Check.upholds_bind.mpr (upholds_readNumber secondFd pair.second fun _ second => ?_)
  refine Check.upholds_bind.mpr (upholds_readNumber firstFd pair.first fun _ first => ?_)
  refine Check.upholds_bind.mpr (upholds_close ⟨pair.first, .inr (by simp)⟩ fun _ => ?_)
  exact Check.upholds_bind.mpr (upholds_close ⟨pair.second, .inr (by simp)⟩ fun _ => trivial)

theorem upholds_writeState (state : Int32 × Int32)
    : (writeState pair state).Upholds (Calls pair) (fun _ _ => True) Failed past := by
  refine Check.upholds_bind.mpr (upholds_openFile (.inl rfl) fun firstFd => ?_)
  refine Check.upholds_bind.mpr
    (upholds_writeNumber ⟨pair.first, .inr (by simp)⟩ pair.first state.1 fun _ => ?_)
  refine Check.upholds_bind.mpr (upholds_openFile (.inr rfl) fun secondFd => ?_)
  refine Check.upholds_bind.mpr
    (upholds_writeNumber ⟨pair.second, .inr (by simp)⟩ pair.second state.2 fun _ => ?_)
  refine Check.upholds_bind.mpr (upholds_close ⟨pair.first, .inr (by simp)⟩ fun _ => ?_)
  exact upholds_close ⟨pair.second, .inr (by simp)⟩ fun _ => trivial

/-- No round makes other calls, by induction on their number. -/
theorem upholds_rounds (number : Nat) (last : Int32)
    : (rounds pair number last).Upholds (Calls pair) (fun _ _ => True) Failed past := by
  induction number generalizing last past with
  | zero => exact trivial
  | succ number ih =>
      refine Check.upholds_bind.mpr (upholds_readState.mono (fun _ _ => id) ?_ fun _ _ => id)
      intro past state _
      refine Check.upholds_bind.mpr ((upholds_writeState _).mono (fun _ _ => id) ?_ fun _ _ => id)
      exact fun past _ _ => ih _

theorem upholds_compute (number : Nat)
    : (compute pair number).Upholds (Calls pair) (fun _ _ => True) Failed past := by
  refine Check.upholds_bind.mpr ((upholds_seed (.inl rfl) 0).mono (fun _ _ => id) ?_ fun _ _ => id)
  intro past _ _
  refine Check.upholds_bind.mpr ((upholds_seed (.inr rfl) 1).mono (fun _ _ => id) ?_ fun _ _ => id)
  exact fun past _ _ => upholds_rounds number 1

/-- A run makes the calls of its rounds, and removes its files whatever came of them. -/
theorem upholds_run (number : Nat)
    : (run pair number).Upholds (Calls pair) (fun _ _ => True) Failed past := by
  refine Check.upholds_andFinally.mpr ((upholds_compute number).mono (fun _ _ => id) ?_ ?_)
  · intro past value _
    refine Prog.upholds_bind.mpr (Prog.upholds_attempt.mpr ⟨.inl rfl, fun _ => ?_⟩)
    exact Prog.upholds_attempt.mpr ⟨.inr rfl, fun _ => trivial⟩
  · intro past stop failed
    obtain ⟨message, rfl⟩ := failed
    refine Prog.upholds_bind.mpr (Prog.upholds_attempt.mpr ⟨.inl rfl, fun _ => ?_⟩)
    exact Prog.upholds_attempt.mpr ⟨.inr rfl, fun _ => ⟨message, rfl⟩⟩

/-- A check makes the calls of its run, and is stopped by a failure or a wrong result. -/
theorem upholds_check
    : (check pair).Upholds (Calls pair) (fun _ _ => True)
        (fun _ stop =>
          ∃ violation, stop = .violation violation ∧ (violation.code = 1 ∨ violation.code = -1))
        past := by
  refine Check.upholds_bind.mpr ((upholds_run fullRounds).mono (fun _ _ => id) ?_ ?_)
  · intro past value _
    refine Check.upholds_require.mpr ?_
    split
    · trivial
    · exact ⟨_, rfl, .inr rfl⟩
  · rintro past stop ⟨message, rfl⟩
    exact ⟨_, rfl, .inl rfl⟩

end Recurrence

end KernelConformance
