import KernelConformance.Proofs.Programs.Dialogues
import KernelConformance.Suite.Recurrence

/-! The protocol of a recurrence on any system. It ends at the first call that goes wrong in any
way; if none does, then its calls and what it has written are those of its rounds, and it comes to
the last sum.
-/

namespace KernelConformance.Recurrence

open Check (Failed failed)

variable {α β : Type} {pair : FilePair} {past exchanges : List Exchange} {name : String} {fd : Fd}
  {value : Int32} {check : Check α}

-----------------------------------------------------------------------------------------
-- The first call that goes wrong
-----------------------------------------------------------------------------------------

/-- Whether a read has delivered the whole record of an integer. -/
def Delivers (delivery : Delivery) (value : Int32) : Prop :=
  delivery.count = Record.width ∧ Record.decode (delivery.front Record.width) = .ok value

/-- Whether a call on files has gone wrong: it has failed, a write is not of a whole record, or a
read has not delivered one that can be decoded.
-/
def Deviates : Exchange → Prop
  | ⟨.creat _, reply⟩ => ∃ error, reply = .error error
  | ⟨.openFile _, reply⟩ => ∃ error, reply = .error error
  | ⟨.close _, reply⟩ => ∃ error, reply = .error error
  | ⟨.write _ _, reply⟩ => reply ≠ .ok Record.width
  | ⟨.read _ _, reply⟩ => ¬∃ delivery value, reply = .ok delivery ∧ Delivers delivery value
  | _ => False

/-- Whether nothing has gone wrong. -/
def Smooth (past : List Exchange) : Prop := ∀ exchange ∈ past, ¬Deviates exchange

theorem smooth_snoc {last : Exchange} (smooth : Smooth past) (fine : ¬Deviates last)
    : Smooth (past ++ [last]) :=
  List.forall_mem_append.mpr ⟨smooth, List.forall_mem_singleton.mpr fine⟩

/-- Whether a check has stopped with a failure at the first call that has gone wrong. -/
def Broken (past : List Exchange) (stop : Check.Stop) : Prop :=
  Failed past stop ∧ ∃ earlier last, past = earlier ++ [last] ∧ Smooth earlier ∧ Deviates last

theorem broken (smooth : Smooth past) {last : Exchange} (wrong : Deviates last) (message : String)
    : Broken (past ++ [last]) (.violation (.failure message)) :=
  ⟨failed message, past, last, rfl, smooth, wrong⟩

/-- Whether a check stops at the first call that goes wrong. -/
def Strict (check : Check α) : Prop :=
  ∀ past,
    Smooth past → check.Upholds (fun past _ => Smooth past) (fun past _ => Smooth past) Broken past

theorem strict_pure (value : α) : Strict (pure value) := fun _ smooth => smooth

theorem Strict.bind {f : α → Check β} (strict : Strict check) (onward : ∀ value, Strict (f value))
    : Strict (check >>= f) := fun past smooth =>
  Check.upholds_bind.mpr ((strict past smooth).mono (fun _ _ => id)
    (fun past value smooth => onward value past smooth) fun _ _ => id)

/-- A call that must succeed stops a check if it fails. -/
theorem strict_demand {call : Syscall} (wording : Errno → String)
    (fine : ∀ value, ¬Deviates ⟨call, .ok value⟩) (wrong : ∀ error, Deviates ⟨call, .error error⟩)
    : Strict (Check.demand call wording) := by
  intro past smooth
  refine Check.upholds_demand.mpr ⟨smooth, fun value => ?_, fun error => ?_⟩
  · exact smooth_snoc smooth (fine value)
  · exact broken smooth (wrong error) _

theorem strict_create (name : String) : Strict (create name) :=
  strict_demand _ (fun _ => nofun) fun error => ⟨error, rfl⟩

theorem strict_openFile (name : String) : Strict (openFile name) :=
  strict_demand _ (fun _ => nofun) fun error => ⟨error, rfl⟩

theorem strict_close (fd : Fd) : Strict (close fd) :=
  strict_demand _ (fun _ => nofun) fun error => ⟨error, rfl⟩

theorem strict_writeNumber (fd : Fd) (name : String) (value : Int32)
    : Strict (writeNumber fd name value) := by
  intro past smooth
  refine Check.upholds_bind.mpr
    (Check.upholds_demand.mpr ⟨smooth, fun count => ?_, fun error => ?_⟩)
  · have fine_iff : Deviates ⟨.write fd (Record.encode value), .ok count⟩ ↔ count ≠ Record.width :=
      not_congr ⟨Except.ok.inj, congrArg _⟩
    refine Check.upholds_require.mpr ?_
    split
    · next whole =>
        exact smooth_snoc smooth fun wrong => fine_iff.mp wrong (of_decide_eq_true whole)
    · next short =>
        exact broken smooth (fine_iff.mpr fun whole => short (decide_eq_true whole)) _
  · have wrong : Deviates ⟨.write fd (Record.encode value), .error error⟩ := nofun
    exact broken smooth wrong _

theorem strict_readNumber (fd : Fd) (name : String) : Strict (readNumber fd name) := by
  intro past smooth
  refine Check.upholds_bind.mpr
    (Check.upholds_demand.mpr ⟨smooth, fun delivery => ?_, fun error => ?_⟩)
  · have fine_iff
        : Deviates ⟨.read fd Record.width, .ok delivery⟩ ↔ ¬∃ value, Delivers delivery value := by
      refine not_congr ⟨?_, fun ⟨value, delivers⟩ => ⟨delivery, value, rfl, delivers⟩⟩
      rintro ⟨_, value, same, delivers⟩
      cases same
      exact ⟨value, delivers⟩
    refine Check.upholds_bind.mpr (Check.upholds_require.mpr ?_)
    split
    · next whole =>
        have whole := of_decide_eq_true whole
        split
        · next value decoded =>
            exact smooth_snoc smooth fun wrong => fine_iff.mp wrong ⟨value, whole, decoded⟩
        · next decoded =>
            refine broken smooth (fine_iff.mpr ?_) _
            rintro ⟨value, -, fine⟩
            cases decoded.symm.trans fine
    · next short =>
        refine broken smooth (fine_iff.mpr ?_) _
        rintro ⟨value, whole, -⟩
        exact short (decide_eq_true whole)
  · have wrong : Deviates ⟨.read fd Record.width, .error error⟩ := by
      rintro ⟨_, _, same, -⟩
      cases same
    exact broken smooth wrong _

theorem strict_seed (name : String) (value : Int32) : Strict (seed name value) :=
  (strict_create name).bind fun fd => (strict_writeNumber fd name value).bind fun _ =>
    strict_close fd

theorem strict_readState (pair : FilePair) : Strict (readState pair) :=
  (strict_openFile pair.first).bind fun firstFd =>
    (strict_openFile pair.second).bind fun secondFd =>
      (strict_readNumber secondFd pair.second).bind fun _ =>
        (strict_readNumber firstFd pair.first).bind fun _ =>
          (strict_close firstFd).bind fun _ => (strict_close secondFd).bind fun _ => strict_pure _

theorem strict_writeState (pair : FilePair) (state : Int32 × Int32)
    : Strict (writeState pair state) :=
  (strict_openFile pair.first).bind fun firstFd =>
    (strict_writeNumber firstFd pair.first state.1).bind fun _ =>
      (strict_openFile pair.second).bind fun secondFd =>
        (strict_writeNumber secondFd pair.second state.2).bind fun _ =>
          (strict_close firstFd).bind fun _ => strict_close secondFd

/-- All rounds stop at the first call that goes wrong, by induction on their number. -/
theorem strict_rounds (pair : FilePair) (number : Nat) (last : Int32)
    : Strict (rounds pair number last) := by
  induction number generalizing last with
  | zero => exact strict_pure last
  | succ number ih =>
      exact (strict_readState pair).bind fun state =>
        (strict_writeState pair _).bind fun _ => ih _

theorem strict_compute (pair : FilePair) (number : Nat) : Strict (compute pair number) :=
  (strict_seed pair.first 0).bind fun _ =>
    (strict_seed pair.second 1).bind fun _ => strict_rounds pair number 1

-----------------------------------------------------------------------------------------
-- The calls of a run in which nothing goes wrong
-----------------------------------------------------------------------------------------

/-- The exchanges that make a file with one record. -/
def Seeded (name : String) (value : Int32) (exchanges : List Exchange) : Prop :=
  ∃ fd,
    exchanges
    = [⟨.creat name, .ok fd⟩, ⟨.write fd (Record.encode value), .ok Record.width⟩,
        ⟨.close fd, .ok ()⟩]

/-- The exchanges that read both files. -/
def HasRead (pair : FilePair) (state : Int32 × Int32) (exchanges : List Exchange) : Prop :=
  ∃ firstFd secondFd first second,
    Delivers first state.1
    ∧ Delivers second state.2
    ∧ exchanges
      = [⟨.openFile pair.first, .ok firstFd⟩, ⟨.openFile pair.second, .ok secondFd⟩,
          ⟨.read secondFd Record.width, .ok second⟩, ⟨.read firstFd Record.width, .ok first⟩,
          ⟨.close firstFd, .ok ()⟩, ⟨.close secondFd, .ok ()⟩]

/-- The exchanges that write both files. -/
def HasWritten (pair : FilePair) (state : Int32 × Int32) (exchanges : List Exchange) : Prop :=
  ∃ firstFd secondFd,
    exchanges
    = [⟨.openFile pair.first, .ok firstFd⟩,
        ⟨.write firstFd (Record.encode state.1), .ok Record.width⟩,
        ⟨.openFile pair.second, .ok secondFd⟩,
        ⟨.write secondFd (Record.encode state.2), .ok Record.width⟩,
        ⟨.close firstFd, .ok ()⟩, ⟨.close secondFd, .ok ()⟩]

/-- The exchanges of some rounds after one with a sum, and the last sum. What a round writes is the
second of the numbers that it has read, and their sum.
-/
inductive Rounds (pair : FilePair) : Nat → Int32 → List Exchange → Int32 → Prop where
  | none (last : Int32) : Rounds pair 0 last [] last
  | round {number : Nat} {last first second result : Int32} {reads writes more : List Exchange}
      (read : HasRead pair (first, second) reads)
      (written : HasWritten pair (second, first + second) writes)
      (rest : Rounds pair number (first + second) more result)
    : Rounds pair (number + 1) last (reads ++ writes ++ more) result

/-- The exchanges of a run up to the removal of its files: both files are made with the first
numbers, and the rounds follow.
-/
def Protocol (pair : FilePair) (number : Nat) (exchanges : List Exchange) (result : Int32) : Prop :=
  ∃ first second more,
    Seeded pair.first 0 first
    ∧ Seeded pair.second 1 second
    ∧ Rounds pair number 1 more result
    ∧ exchanges = first ++ second ++ more

theorem reaches_writeNumber
    (reached : (writeNumber fd name value).run.Reaches exchanges (.done (.ok ())))
    : exchanges = [⟨.write fd (Record.encode value), .ok Record.width⟩] := by
  obtain ⟨count, before, after, rfl, wrote, judged⟩ := Check.reaches_bind_ok reached
  obtain ⟨rfl, whole⟩ := Check.reaches_require judged
  obtain rfl : count = Record.width := of_decide_eq_true whole
  rw [Check.reaches_demand wrote]
  rfl

theorem reaches_readNumber
    (reached : (readNumber fd name).run.Reaches exchanges (.done (.ok value)))
    : ∃ delivery,
        Delivers delivery value ∧ exchanges = [⟨.read fd Record.width, .ok delivery⟩] := by
  obtain ⟨delivery, before, after, rfl, made, judged⟩ := Check.reaches_bind_ok reached
  obtain ⟨_, none, rest, rfl, length, decoded⟩ := Check.reaches_bind_ok judged
  obtain ⟨rfl, whole⟩ := Check.reaches_require length
  split at decoded
  · next number same =>
      cases decoded
      refine ⟨delivery, ⟨of_decide_eq_true whole, same⟩, ?_⟩
      rw [Check.reaches_demand made]
      rfl
  · cases decoded

theorem reaches_seed (reached : (seed name value).run.Reaches exchanges (.done (.ok ())))
    : Seeded name value exchanges := by
  obtain ⟨fd, created, rest, rfl, creates, writes⟩ := Check.reaches_bind_ok reached
  obtain ⟨_, written, closed, rfl, writing, closes⟩ := Check.reaches_bind_ok writes
  refine ⟨fd, ?_⟩
  rw [Check.reaches_demand creates, reaches_writeNumber writing, Check.reaches_demand closes]
  rfl

theorem reaches_readState {state : Int32 × Int32}
    (reached : (readState pair).run.Reaches exchanges (.done (.ok state)))
    : HasRead pair state exchanges := by
  obtain ⟨firstFd, _, _, rfl, opensFirst, r1⟩ := Check.reaches_bind_ok reached
  obtain ⟨secondFd, _, _, rfl, opensSecond, r2⟩ := Check.reaches_bind_ok r1
  obtain ⟨second, _, _, rfl, readsSecond, r3⟩ := Check.reaches_bind_ok r2
  obtain ⟨first, _, _, rfl, readsFirst, r4⟩ := Check.reaches_bind_ok r3
  obtain ⟨_, _, _, rfl, closesFirst, r5⟩ := Check.reaches_bind_ok r4
  obtain ⟨_, _, _, rfl, closesSecond, returns⟩ := Check.reaches_bind_ok r5
  obtain ⟨secondGiven, delivers, rfl⟩ := reaches_readNumber readsSecond
  obtain ⟨firstGiven, delivered, rfl⟩ := reaches_readNumber readsFirst
  cases returns
  refine ⟨firstFd, secondFd, firstGiven, secondGiven, delivered, delivers, ?_⟩
  rw [Check.reaches_demand opensFirst, Check.reaches_demand opensSecond,
    Check.reaches_demand closesFirst, Check.reaches_demand closesSecond]
  rfl

theorem reaches_writeState {state : Int32 × Int32}
    (reached : (writeState pair state).run.Reaches exchanges (.done (.ok ())))
    : HasWritten pair state exchanges := by
  obtain ⟨firstFd, _, _, rfl, opensFirst, r1⟩ := Check.reaches_bind_ok reached
  obtain ⟨_, _, _, rfl, writesFirst, r2⟩ := Check.reaches_bind_ok r1
  obtain ⟨secondFd, _, _, rfl, opensSecond, r3⟩ := Check.reaches_bind_ok r2
  obtain ⟨_, _, _, rfl, writesSecond, r4⟩ := Check.reaches_bind_ok r3
  obtain ⟨_, _, _, rfl, closesFirst, closesSecond⟩ := Check.reaches_bind_ok r4
  refine ⟨firstFd, secondFd, ?_⟩
  rw [Check.reaches_demand opensFirst, reaches_writeNumber writesFirst,
    Check.reaches_demand opensSecond, reaches_writeNumber writesSecond,
    Check.reaches_demand closesFirst, Check.reaches_demand closesSecond]
  rfl

/-- Rounds in which nothing goes wrong make the calls of the protocol, by induction
on their number.
-/
theorem reaches_rounds {number : Nat} {last result : Int32}
    (reached : (rounds pair number last).run.Reaches exchanges (.done (.ok result)))
    : Rounds pair number last exchanges result := by
  induction number generalizing last exchanges with
  | zero =>
      cases reached
      exact .none _
  | succ number ih =>
      obtain ⟨⟨first, second⟩, reads, later, rfl, read, goes⟩ := Check.reaches_bind_ok reached
      obtain ⟨_, writes, more, rfl, written, rest⟩ := Check.reaches_bind_ok goes
      rw [← List.append_assoc]
      exact .round (reaches_readState read) (reaches_writeState written) (ih rest)

theorem reaches_compute {number : Nat} {result : Int32}
    (reached : (compute pair number).run.Reaches exchanges (.done (.ok result)))
    : Protocol pair number exchanges result := by
  obtain ⟨_, first, later, rfl, seeds, goes⟩ := Check.reaches_bind_ok reached
  obtain ⟨_, second, more, rfl, seedsToo, rest⟩ := Check.reaches_bind_ok goes
  exact ⟨first, second, more, reaches_seed seeds, reaches_seed seedsToo, reaches_rounds rest,
    (List.append_assoc ..).symm⟩

-----------------------------------------------------------------------------------------
-- What a run comes to
-----------------------------------------------------------------------------------------

/-- What a run may come to before it removes its files: the last sum if nothing has gone
wrong and its calls are those of the protocol, and a failure if its last call is the first
that has gone wrong.
-/
def Verdict (pair : FilePair) (number : Nat) (past : List Exchange)
    : Except Check.Stop Int32 → Prop
  | .ok result => Smooth past ∧ Protocol pair number past result
  | .error stop => Broken past stop

/-- A run on any system stops with a failure at the first call that goes wrong, wherever that is,
and comes to the last sum only if none does and it has made the calls of the protocol; and whatever
it comes to, its last two calls remove its files.
-/
theorem run_strict {number : Nat} {outcome : Except Check.Stop Int32}
    (reached : (run pair number).run.Reaches exchanges (.done outcome))
    : ∃ past firstReply secondReply,
        exchanges
          = past ++ [⟨.unlink pair.first, firstReply⟩, ⟨.unlink pair.second, secondReply⟩]
        ∧ Verdict pair number past outcome := by
  obtain ⟨past, ends, rfl, computes, removes⟩ := Check.reaches_andFinally reached
  have verdict : Verdict pair number past outcome := by
    have strict := (strict_compute pair number [] nofun).reaches computes
    cases outcome with
    | ok result => exact ⟨strict, reaches_compute computes⟩
    | error stop => exact strict
  have removed
      : (do
          Prog.attempt (.unlink pair.first)
          Prog.attempt (.unlink pair.second)).Reaches ends (.done ()) := by
    rcases outcome with (violation | _) | result
    · exact removes
    · obtain ⟨⟨message, same⟩, -⟩ := verdict
      cases same
    · exact removes
  cases removed with
  | call firstReply more =>
      cases more with
      | call secondReply nothing =>
          cases nothing
          exact ⟨past, firstReply, secondReply, rfl, verdict⟩

/-- The exchanges of a run whose first read is torn. -/
def tornExchanges : List Exchange :=
  [⟨.creat "a", .ok ⟨2⟩⟩, ⟨.write ⟨2⟩ (Record.encode 0), .ok 20⟩, ⟨.close ⟨2⟩, .ok ()⟩,
    ⟨.creat "b", .ok ⟨2⟩⟩, ⟨.write ⟨2⟩ (Record.encode 1), .ok 20⟩, ⟨.close ⟨2⟩, .ok ()⟩,
    ⟨.openFile "a", .ok ⟨2⟩⟩, ⟨.openFile "b", .ok ⟨3⟩⟩, ⟨.read ⟨3⟩ 20, .ok (.of [49])⟩]

/-- A run whose first read is torn stops there. -/
theorem run_strict_torn
    : Broken tornExchanges (.violation (.failure "short read from b: 1 of 20 bytes")) := by
  obtain ⟨past, firstReply, secondReply, same, verdict⟩ :=
    @run_strict ⟨"a", "b"⟩
      (tornExchanges ++ [⟨.unlink "a", .ok ()⟩, ⟨.unlink "b", .error .noSuchFile⟩]) 1
      (.error (.violation (.failure "short read from b: 1 of 20 bytes")))
      (Prog.reaches_of_replay rfl)
  obtain rfl : tornExchanges = past := (List.append_inj' same rfl).1
  exact verdict

end KernelConformance.Recurrence
