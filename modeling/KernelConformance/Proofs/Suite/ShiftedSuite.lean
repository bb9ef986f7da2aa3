import KernelConformance.Proofs.Programs.ShiftedMachines
import KernelConformance.Proofs.Suite.Cleanliness

/-! The test programs in kernels that give out different numbers. They hand the numbers of their
children on to joins and messages alone, and what they come to depends on neither. The one number
that is built into them is asked for when all children were joined, so that it is refused whoever
has it.
-/

namespace KernelConformance

open Randomness (Stream)

variable {offset : Offset} {starts : String → Prop} {owed : List Pid} {α β : Type}

-----------------------------------------------------------------------------------------
-- Single calls
-----------------------------------------------------------------------------------------

namespace Check.Matches

variable {c other : Syscall} {related : c.Reply → other.Reply → Prop}

theorem perform (counterpart : Counterpart offset starts owed c other related)
    : Matches offset starts
        (fun after reply replyToo => after = owedAfter owed ⟨c, reply⟩ ∧ related reply replyToo)
          owed
        (Check.perform c) (Check.perform other) :=
  .lift (.call counterpart fun _ _ same => .done ⟨rfl, same⟩)

/-- A child that must be started is started in both kernels, or in none. -/
theorem startChild {program : String} (known : starts program) (argv : List String)
    (wording wordingToo : Errno → String)
    : Matches offset starts
        (fun after child childToo => after = child :: owed ∧ childToo = offset.pid child)
        owed (Check.demand (.exec program argv) wording)
          (Check.demand (.exec program argv) wordingToo) := by
  refine .bind (.perform (.exec known argv)) ?_
  rintro _ (error | child) _ ⟨rfl, rfl⟩
  · exact .violate rfl
  · exact .pure ⟨rfl, rfl⟩

/-- A child that must be joined is joined in both kernels, or in none. -/
theorem joinChild (child : Pid) (wording wordingToo : Errno → String)
    : Matches offset starts
        (fun after joined joinedToo => after = owed.erase child ∧ joinedToo = joined) owed
        (Check.demand (.join child) wording)
          (Check.demand (.join (offset.pid child)) wordingToo) := by
  refine .bind (.perform (.join child)) ?_
  rintro _ _ (error | joined) ⟨rfl, rfl⟩
  · exact .violate rfl
  · exact .pure ⟨rfl, rfl⟩

theorem putLine (text textToo : String) (owed : List Pid)
    : Matches offset starts (fun after _ _ => after = owed) owed (ExceptT.lift (Prog.putLine text))
        (ExceptT.lift (Prog.putLine textToo)) :=
  .lift (.putLine text textToo owed)

/-- A line and a status in the end. -/
theorem concluded (text : String) (status : Int32) (owed : List Pid)
    : Matches offset starts (fun _ value valueToo => valueToo = value) owed
        (do ExceptT.lift (Prog.putLine text); Pure.pure status)
        (do ExceptT.lift (Prog.putLine text); Pure.pure status) :=
  .bind (.putLine text text owed) fun _ _ _ _ => .pure rfl

end Check.Matches

-----------------------------------------------------------------------------------------
-- Jobs
-----------------------------------------------------------------------------------------

/-- The child of a spawner in the later kernel. -/
def Offset.child (offset : Offset) (child : Child) : Child :=
  { child with pid := offset.pid child.pid }

/-- The spawner in the later kernel. -/
def Offset.spawner (offset : Offset) (spawner : Spawner) : Spawner :=
  { spawner with outstanding := spawner.outstanding.map offset.child }

/-- Verdicts that are both good, or violations with one code. -/
def SameVerdict : Except Violation Unit → Except Violation Unit → Prop
  | .ok _, .ok _ => True
  | .error violation, .error violationToo => violationToo.code = violation.code
  | _, _ => False

/-- What a spawner comes to in both kernels: the same verdict, and the same state up
to the numbers.
-/
def SameIssue (offset : Offset) (_ : List Pid) (result resultToo : Except Violation Unit × Spawner)
    : Prop :=
  SameVerdict result.1 resultToo.1 ∧ resultToo.2 = offset.spawner result.2

namespace Spawner

theorem sameVerdict_judge (child : Child) (reply : Except Errno ExitStatus)
    : SameVerdict (child.judge reply) ((offset.child child).judge reply) := by
  cases reply with
  | error error => exact rfl
  | ok status =>
      have signature : (offset.child child).signature = child.signature := rfl
      simp only [Child.judge, signature]
      by_cases faulted : status.isAbnormal = true
      · rw [if_pos faulted, if_pos faulted]
        exact rfl
      · rw [if_neg faulted, if_neg faulted]
        by_cases right : status.code = child.signature
        · rw [if_pos right, if_pos right]
          trivial
        · rw [if_neg right, if_neg right]
          exact rfl

theorem matches_tryStart {job : Job} (known : starts job.program) (owed : List Pid)
    (spawner : Spawner)
    : (tryStart job spawner).Matches offset starts
        (fun _ started startedToo =>
          startedToo = (started.1.map offset.child, offset.spawner started.2))
        owed (tryStart job (offset.spawner spawner)) := by
  refine .call (.exec known job.argv) ?_
  rintro reply _ rfl
  cases reply <;> exact .done rfl

theorem matches_retire (child : Child) (owed : List Pid) (spawner : Spawner)
    : (retire child spawner).Matches offset starts (SameIssue offset) owed
        (retire (offset.child child) (offset.spawner spawner)) := by
  refine .call (.join child.pid) ?_
  rintro _ reply rfl
  have same : SameVerdict (child.judge reply) ((offset.child child).judge reply) :=
    sameVerdict_judge child reply
  simp only [Prog.bind]
  generalize child.judge reply = verdict at same ⊢
  generalize (offset.child child).judge reply = verdictToo at same ⊢
  rcases verdict with violation | ⟨⟩ <;> rcases verdictToo with violationToo | ⟨⟩
  · exact .done ⟨same, rfl⟩
  · exact same.elim
  · exact same.elim
  · exact .done ⟨trivial, rfl⟩

/-- After a verdict that is the same in both kernels, a spawner stops in both or goes on in both. -/
theorem matches_next {prog progToo : Prog (Except Violation Unit × Spawner)}
    (matched : prog.Matches offset starts (SameIssue offset) owed progToo)
    {next nextToo : Spawner → Prog (Except Violation Unit × Spawner)}
    (onward
      : ∀ owed spawner,
          (next spawner).Matches offset starts (SameIssue offset) owed
            (nextToo (offset.spawner spawner)))
    : Prog.Matches offset starts (SameIssue offset) owed
        (do
          match ← prog with
          | (.error violation, spawner) => pure (.error violation, spawner)
          | (.ok (), spawner) => next spawner)
        (do
          match ← progToo with
          | (.error violation, spawner) => pure (.error violation, spawner)
          | (.ok (), spawner) => nextToo spawner) := by
  refine matched.bind fun owed result resultToo same => ?_
  obtain ⟨verdict, spawner⟩ := result
  obtain ⟨verdictToo, _⟩ := resultToo
  obtain ⟨same, rfl⟩ := same
  rcases verdict with violation | ⟨⟩ <;> rcases verdictToo with violationToo | ⟨⟩
  · exact .done ⟨same, rfl⟩
  · exact same.elim
  · exact same.elim
  · exact onward owed spawner

/-- A job is started in both kernels after the same joins, by induction on the queue. -/
theorem matches_issueFrom {job : Job} (known : starts job.program) (queue : List Child)
    (owed : List Pid) (spawner : Spawner)
    : (issueFrom job queue spawner).Matches offset starts (SameIssue offset) owed
        (issueFrom job (queue.map offset.child) (offset.spawner spawner)) := by
  induction queue generalizing owed spawner with
  | nil =>
      unfold issueFrom
      refine (matches_tryStart known owed spawner).bind ?_
      rintro owed ⟨_ | child, after⟩ _ rfl
      · exact .done ⟨rfl, rfl⟩
      · exact .done ⟨trivial, by simp [Offset.spawner, enqueue]⟩
  | cons oldest rest ih =>
      unfold issueFrom
      refine (matches_tryStart known owed spawner).bind ?_
      rintro owed ⟨_ | child, after⟩ _ rfl
      · exact matches_next (matches_retire oldest owed { after with outstanding := rest }) ih
      · exact .done ⟨trivial, by simp [Offset.spawner, enqueue]⟩

/-- Jobs are issued in both kernels up to the same violation, by induction on them. -/
theorem matches_issueAll {jobs : List Job} (known : ∀ job ∈ jobs, starts job.program)
    (owed : List Pid) (spawner : Spawner)
    : (issueAll jobs spawner).Matches offset starts (SameIssue offset) owed
        (issueAll jobs (offset.spawner spawner)) := by
  induction jobs generalizing owed spawner with
  | nil => exact .done ⟨trivial, rfl⟩
  | cons job rest ih =>
      unfold issueAll
      refine matches_next (matches_issueFrom (known job (List.mem_cons_self ..)) _ owed spawner) ?_
      exact ih fun job member => known job (List.mem_cons_of_mem _ member)

/-- All children are retired in both kernels up to the same violation, by induction on the queue. -/
theorem matches_joinFrom (queue : List Child) (owed : List Pid) (spawner : Spawner)
    : (joinFrom queue spawner).Matches offset starts (SameIssue offset) owed
        (joinFrom (queue.map offset.child) (offset.spawner spawner)) := by
  induction queue generalizing owed spawner with
  | nil => exact .done ⟨trivial, rfl⟩
  | cons oldest rest ih =>
      unfold joinFrom
      exact matches_next (matches_retire oldest owed { spawner with outstanding := rest }) ih

theorem matches_ofResult {verdict verdictToo : Except Violation Unit}
    (same : SameVerdict verdict verdictToo) (owed : List Pid)
    : (Check.ofResult verdict).Matches offset starts (fun _ _ _ => True) owed
        (Check.ofResult verdictToo) := by
  rcases verdict with violation | ⟨⟩ <;> rcases verdictToo with violationToo | ⟨⟩
  · exact .violate same
  · exact same.elim
  · exact same.elim
  · exact .pure trivial

theorem matches_conclude {issued issuedToo : Prog (Except Violation Unit × Spawner)}
    (matched : issued.Matches offset starts (SameIssue offset) owed issuedToo)
    : (conclude issued).Matches offset starts (fun _ _ _ => True) owed (conclude issuedToo) := by
  refine .bind (.lift matched) ?_
  rintro owed ⟨verdict, spawner⟩ ⟨verdictToo, _⟩ ⟨same, rfl⟩
  refine .bind (matches_ofResult same owed) fun owed _ _ _ => ?_
  refine .bind (.lift (matches_joinFrom spawner.outstanding owed spawner)) ?_
  rintro owed ⟨verdict, spawner⟩ ⟨verdictToo, _⟩ ⟨same, rfl⟩
  exact .bind (matches_ofResult same owed) fun _ _ _ _ => .pure trivial

end Spawner

-----------------------------------------------------------------------------------------
-- Bodies
-----------------------------------------------------------------------------------------

/-- What test programs start: test programs, and the one program that there must not be. -/
def SuiteStarts (program : String) : Prop :=
  program = ExecTest.absentProgram ∨ testProgram? program ≠ none

/-- Whether a check comes to the same status in both kernels when a process without
children makes it.
-/
def Check.Steady (check : Check Int32) : Prop :=
  ∀ offset, check.Matches offset SuiteStarts (fun _ status statusToo => statusToo = status) [] check

theorem ExitCode.steady_body (argv : List String) : (body argv).Steady := by
  intro offset
  rcases ExitCode.body_cases argv with ⟨status, same⟩ | ⟨violation, same⟩
  · rw [same]
    exact .pure rfl
  · rw [same]
    exact .violate rfl

namespace ExecTest

/-- A child that is started is joined before the check goes on. -/
theorem matches_runChild (name : String) (status : Int32)
    : (runChild name status).Matches offset SuiteStarts (fun owed _ _ => owed = []) []
        (runChild name status) := by
  refine .bind (.startChild (.inr (by decide)) _ _ _) ?_
  rintro _ child _ ⟨rfl, rfl⟩
  refine .bind (.joinChild child _ _) ?_
  rintro _ _ joined ⟨rfl, rfl⟩
  rw [List.erase_cons_head]
  refine .bind (.putLine _ _ []) ?_
  rintro _ _ _ rfl
  exact .require _ rfl []

/-- All children that are started are joined, by induction on their number. -/
theorem matches_runChildren (name : String) (count : Nat) (status : Int32)
    : (runChildren name count status).Matches offset SuiteStarts (fun owed _ _ => owed = []) []
        (runChildren name count status) := by
  induction count generalizing status with
  | zero => exact .pure rfl
  | succ count ih =>
      unfold runChildren
      refine .bind (matches_runChild name status) ?_
      rintro _ _ _ rfl
      exact ih (status + 1)

/-- The number that is asked for is refused in both kernels, as no child is left then. -/
theorem steady_body (name : String) : (body name).Steady := by
  intro offset
  unfold body
  refine .bind (matches_runChildren name childCount 1) ?_
  rintro _ _ _ rfl
  refine .bind (.perform (.exec (.inl rfl) _)) ?_
  rintro _ missing _ ⟨rfl, rfl⟩
  refine .bind (.putLine _ _ _) ?_
  rintro _ _ _ rfl
  cases missing with
  | ok child => exact .violate rfl
  | error error =>
      refine .bind (.require _ rfl []) ?_
      rintro _ _ _ rfl
      refine .bind (.perform (.stranger strangerPid strangerPid)) ?_
      rintro _ _ _ ⟨-, rfl, rfl⟩
      refine .bind (.putLine _ _ _) fun owed _ _ _ => ?_
      exact .bind (.require _ rfl owed) fun owed _ _ _ => .concluded _ _ owed

end ExecTest

theorem FdTest.steady_body (argv : List String) : (body argv).Steady := by
  intro offset
  have probes {probe : Probe} (fits : probe.capacity ≤ Probe.maxSlots) (stream : Stream)
    (line : String)
      (status : Int32) (owed : List Pid)
      : (probe.run stream >>= rest line status).Matches offset SuiteStarts
          (fun _ status statusToo => statusToo = status) owed
            (probe.run stream >>= rest line status) :=
    .bind (.self ((Probe.upholds_run fits stream).mono (fun _ _ => And.left) (fun _ _ => id)
      fun _ _ => id) owed) fun owed _ _ _ => .concluded line status owed
  rcases FdTest.body_eq argv with same | ⟨violation, same⟩ | ⟨text, check, same, stops⟩
  · rw [same]
    exact probes (by decide) _ _ _ _
  · rw [same]
    exact .violate rfl
  · rw [same]
    refine .bind (.putLine text text []) fun owed _ _ _ => ?_
    rcases stops with ⟨violation, rfl⟩ | ⟨index, file, stream, line, -, rfl⟩
    · exact .violate rfl
    · exact probes (show Probe.sharedCapacity ≤ _ by decide) _ _ _ _

theorem Fibonacci.steady_body (argv : List String) : (body argv).Steady := by
  intro offset
  rcases Fibonacci.body_eq argv with ⟨signature, index, same⟩ | ⟨message, same⟩
  · rw [same]
    refine .bind (.self ((Recurrence.upholds_run _).mono (fun _ _ => Recurrence.calls_onFiles)
      (fun _ _ => id) fun _ _ => id) []) ?_
    rintro owed _ result ⟨-, rfl⟩
    exact .bind (.require _ rfl owed) fun owed _ _ _ => .concluded _ _ owed
  · rw [same]
    exact .violate rfl

namespace MultiProg

/-- Removing files only calls on files, by induction on them. -/
theorem matches_removeAll (files : List String) (owed : List Pid)
    : (removeAll files).Matches offset starts (fun _ _ _ => True) owed (removeAll files) := by
  induction files generalizing owed with
  | nil => exact .done trivial
  | cons file rest ih =>
      refine .call (.onFiles rfl) ?_
      rintro _ reply rfl
      exact ih _

theorem steady_body : body.Steady := by
  intro offset
  have known (given : Job) (member : given ∈ indices.map job) : SuiteStarts given.program := by
    obtain ⟨index, -, rfl⟩ := List.mem_map.mp member
    exact .inr (by decide : testProgram? FdTest.program ≠ none)
  refine .bind (.andFinally (Spawner.matches_conclude (Spawner.matches_issueAll known [] .empty))
    (fun _ _ _ _ => matches_removeAll _ _) fun _ _ _ => matches_removeAll _ _) ?_
  exact fun owed _ _ _ => .concluded _ _ owed

end MultiProg

namespace SeqFib

/-- Drawing jobs does not depend on the kernel, by induction on their number. -/
theorem matches_issueJobs (count : Nat) (stream : Stream) (owed : List Pid) (spawner : Spawner)
    : (issueJobs count stream spawner).Matches offset SuiteStarts (SameIssue offset) owed
        (issueJobs count stream (offset.spawner spawner)) := by
  induction count generalizing stream owed spawner with
  | zero => exact .done ⟨trivial, rfl⟩
  | succ count ih =>
      unfold issueJobs
      have known : SuiteStarts Fibonacci.program := .inr (by decide)
      exact Spawner.matches_next (Spawner.matches_issueFrom known _ owed spawner) (ih _)

theorem steady_body (argv : List String) : (body argv).Steady := by
  intro offset
  unfold body
  have argument (what : String) (index : Nat)
      : (argumentNat64 what index argv).Matches offset SuiteStarts
          (fun owed value valueToo => owed = [] ∧ valueToo = value) []
            (argumentNat64 what index argv) := by
    rcases argument_cases Decimal.readNat64 what index argv with ⟨value, same⟩ | ⟨message, same⟩
    · rw [argumentNat64, same]
      exact .pure ⟨rfl, rfl⟩
    · rw [argumentNat64, same]
      exact .violate rfl
  refine .bind (argument _ _) ?_
  rintro _ _ jobs ⟨rfl, rfl⟩
  refine .bind (argument _ _) ?_
  rintro _ _ seed ⟨rfl, rfl⟩
  refine .bind (Spawner.matches_conclude (matches_issueJobs _ _ [] .empty)) ?_
  exact fun owed _ _ _ => .concluded _ _ owed

end SeqFib

/-- The test programs do the same in kernels that give out different numbers. -/
theorem matches_testProgram (offset : Offset) {program : String} {main : Main}
    (known : testProgram? program = some main) (name : String) (argv : List String)
    : (main name argv).EndAlike offset SuiteStarts [] (main name argv) := by
  have member := mem_of_testProgram known
  simp only [testPrograms, List.mem_cons, List.not_mem_nil, or_false, Prod.mk.injEq] at member
  rcases member with ⟨-, rfl⟩ | ⟨-, rfl⟩ | ⟨-, rfl⟩ | ⟨-, rfl⟩ | ⟨-, rfl⟩ | ⟨-, rfl⟩
  · exact (ExecTest.steady_body name offset).ending name
  · exact (ExitCode.steady_body argv offset).ending name
  · exact (FdTest.steady_body argv offset).ending name
  · exact (Fibonacci.steady_body argv offset).ending name
  · exact (MultiProg.steady_body offset).ending name
  · exact (SeqFib.steady_body argv offset).ending name

end KernelConformance
