import KernelConformance.Proofs.Files.DescriptorLaw
import KernelConformance.Proofs.Programs.Followers
import KernelConformance.Proofs.Suite.RecurrenceRefinement
import KernelConformance.Proofs.Text.Numerals
import KernelConformance.Suite.Programs

/-! What the status of one run of the recurrence means. It has passed its check and said so, or its
status is the code of a violation, which a signature can be too.
-/

namespace KernelConformance

open Utf8 (Bytes)

-----------------------------------------------------------------------------------------
-- Arguments
-----------------------------------------------------------------------------------------

section Arguments

variable {argv : List String} {index n : Nat}

/-- An argument that is the text of a small number is read as that number. -/
theorem argumentInt32_of_le (what : String) (given : argv[index]? = some (toString n))
    (small : n ≤ 2147483647)
    : argumentInt32 what index argv = pure (some (Int32.ofNat n)) := by
  rw [argumentInt32, argument, given]
  simp only [Decimal.readInt32_toString, if_pos small]

/-- An argument that is the text of a number too large is a failure. -/
theorem argumentInt32_of_gt (what : String) (given : argv[index]? = some (toString n))
    (large : 2147483647 < n)
    : ∃ message, argumentInt32 what index argv = Check.violate (.failure message) := by
  rw [argumentInt32, argument, given]
  simp only [Decimal.readInt32_toString, if_neg (Nat.not_le_of_lt large)]
  exact ⟨_, rfl⟩

/-- An argument that is the text of a number with at most 64 bits is read as that number. -/
theorem argumentNat64_of_le (what : String) (given : argv[index]? = some (toString n))
    (small : n ≤ 18446744073709551615)
    : argumentNat64 what index argv = pure (some n) := by
  rw [argumentNat64, argument, given]
  simp only [Decimal.readNat64_toString, if_pos small]

theorem argumentNat64_cases (what : String) (given : argv[index]? = some (toString n))
    : argumentNat64 what index argv = pure (some n)
      ∨ ∃ message, argumentNat64 what index argv = Check.violate (.failure message) := by
  by_cases small : n ≤ 18446744073709551615
  · exact .inl (argumentNat64_of_le what given small)
  · rw [argumentNat64, argument, given]
    simp only [Decimal.readNat64_toString, if_neg small]
    exact .inr ⟨_, rfl⟩

end Arguments

-----------------------------------------------------------------------------------------
-- The output of a process
-----------------------------------------------------------------------------------------

namespace Kernel.Run

variable {config : Config} {deeds : List Deed} {kernel : Kernel} {pid : Pid}

/-- No file is opened under the number of the output. -/
theorem opened_ne_stdout (run : Run config deeds kernel) {deed : Deed} {fd : Fd} {name : String}
    (member : deed ∈ deeds) (opened : deed.fdEvent? = some (pid, .opened fd name))
    : fd ≠ .stdout := by
  obtain ⟨before, after, rfl⟩ := List.append_of_mem member
  obtain ⟨middle, next, earlier, step⟩ := run.split
  have tables := opened ▸ step.fds earlier.rooted
  obtain ⟨-, -, inode, -, inserted⟩ := tables.inserted_of_opened earlier.tidy.streams
  rintro rfl
  exact absurd inserted.file (by decide)

/-- A process that has not closed its output has printed all that it has written to it. -/
theorem write_stdout (run : Run config deeds kernel) {bytes : Bytes} {reply : Except Errno Nat}
    (member : .call pid (.write .stdout bytes) (some reply) ∈ deeds)
    (unclosed : ¬ClosedBy deeds pid .stdout)
    : reply = .ok bytes.length := by
  obtain ⟨before, after, rfl⟩ := List.append_of_mem member
  obtain ⟨middle, next, earlier, step⟩ := run.split
  have kept : ¬ClosedBy before pid .stdout := fun closed =>
    unclosed (List.mem_append_left _ closed)
  have given : (Descriptors.initial config.maxOpenFiles).get? .stdout = some .stdout := rfl
  cases step with
  | call runs done =>
      rcases earlier.stream runs given with ⟨closed, -⟩ | ⟨-, held⟩
      · exact absurd closed kept
      · obtain ⟨printed, performed, -⟩ := call_cases done
        simp only [perform, write, held, Option.some.injEq, Prod.mk.injEq] at performed
        exact performed.1.symm

/-- A process that has not closed its output can print. -/
theorem print (run : Run config deeds kernel) (runs : kernel.processes.isRunning pid = true)
    (bytes : Bytes) (unclosed : ¬ClosedBy deeds pid .stdout)
    : ∃ after,
        Run config (deeds ++ [.call pid (.write .stdout bytes) (some (.ok bytes.length))]) after
        ∧ after.processes.isRunning pid = true := by
  obtain ⟨reply, after, printed⟩ := @call_onFiles (.write .stdout bytes) rfl kernel pid
  have step : kernel.Step (.call pid (.write .stdout bytes) (some reply)) after :=
    .call runs printed
  have told : reply = .ok bytes.length :=
    (run.step step).write_stdout (List.mem_append_right _ (.head _))
      fun closed => unclosed (by simpa [ClosedBy] using closed)
  subst told
  exact ⟨after, run.step step, run.isRunning_call step runs⟩

/-- A process that closes its output only if it was given out for a file never closes it. -/
theorem stdout_unclosed (run : Run config deeds kernel)
    (opened : ∀ before after,
      exchanges pid deeds = before ++ ⟨.close .stdout, .ok ()⟩ :: after → OpenedIn before .stdout)
    : ¬ClosedBy deeds pid .stdout := by
  intro closed
  have made : ⟨.close .stdout, .ok ()⟩ ∈ exchanges pid deeds := mem_exchanges.mpr closed
  obtain ⟨before, after, whole⟩ := List.append_of_mem made
  obtain ⟨name, created | found⟩ := opened before after whole
  · have member := mem_exchanges.mp (whole ▸ List.mem_append_left _ created)
    exact run.opened_ne_stdout member rfl rfl
  · have member := mem_exchanges.mp (whole ▸ List.mem_append_left _ found)
    exact run.opened_ne_stdout member rfl rfl

end Kernel.Run

-----------------------------------------------------------------------------------------
-- A run of the recurrence
-----------------------------------------------------------------------------------------

namespace Fibonacci

/-- The line in which a run says that it has passed. -/
def passLine (number : Nat) : Bytes :=
  Utf8.encode (s!"--- PASS fibonacci {Decimal.write (Int32.ofNat number)}" ++ "\n")

/-- What a run has done that has passed: it has come through its check, and then
written its line.
-/
def Passed (number : Nat) (past : List Exchange) : Prop :=
  ∃ checked reply,
    (Recurrence.check (.ofIndex (Int32.ofNat number))).run.Reaches checked (.done (.ok ()))
    ∧ past = checked ++ [⟨.write .stdout (passLine number), reply⟩]

/-- The check of a run with its signature and its number, once its arguments are read. -/
def passing (signature : Int32) (number : Nat) : Check Int32 := do
  Recurrence.check (.ofIndex (Int32.ofNat number))
  ExceptT.lift (Prog.putLine s!"--- PASS fibonacci {Decimal.write (Int32.ofNat number)}")
  pure signature

theorem body_eq_bind (text : String) {signature : Nat} (small : signature ≤ 2147483647)
    (number : Nat)
    : body [text, toString signature, toString number]
      = (argumentInt32 "instance" 2 [text, toString signature, toString number] >>= fun index => do
          Recurrence.check (.ofIndex (index.getD 0))
          ExceptT.lift (Prog.putLine s!"--- PASS fibonacci {Decimal.write (index.getD 0)}")
          pure (Int32.ofNat signature)) := by
  have first : [text, toString signature, toString number][1]? = some (toString signature) := rfl
  rw [body, argumentInt32_of_le "signature" first small]
  rfl

/-- A run with a signature and a number that are small enough is its check. -/
theorem body_of_le (text : String) {signature number : Nat} (small : signature ≤ 2147483647)
    (fits : number ≤ 2147483647)
    : body [text, toString signature, toString number]
      = passing (Int32.ofNat signature) number := by
  have second : [text, toString signature, toString number][2]? = some (toString number) := rfl
  rw [body_eq_bind text small, argumentInt32_of_le "instance" second fits]
  rfl

/-- A run with a small signature passes its check, or it refuses its number. -/
theorem body_cases (text : String) {signature : Nat} (small : signature ≤ 2147483647) (number : Nat)
    : body [text, toString signature, toString number] = passing (Int32.ofNat signature) number
      ∨ ∃ message,
          body [text, toString signature, toString number] = Check.violate (.failure message) := by
  have second : [text, toString signature, toString number][2]? = some (toString number) := rfl
  rcases Nat.lt_or_ge 2147483647 number with large | fits
  · obtain ⟨message, refused⟩ := argumentInt32_of_gt "instance" second large
    rw [body_eq_bind text small, refused]
    exact .inr ⟨message, rfl⟩
  · exact .inl (body_of_le text small fits)

/-- With room for two files a run by itself exits with its signature. -/
theorem performs_ending {start kernel : Kernel} {pid : Pid} {slots : Fd → Option Handle}
    {count : Nat} {files : FileSystem} (text name : String) {signature number : Nat}
    (small : signature ≤ 2147483647) (fits : number ≤ 2147483647)
    (usable : Recurrence.Usable start count (.ofIndex (Int32.ofNat number)))
    (between
      : Recurrence.Between start pid slots count (.ofIndex (Int32.ofNat number)) files kernel)
    : ∃ after,
        Kernel.Performs pid kernel ((body [text, toString signature, toString number]).ending name)
          (.exit (Int32.ofNat signature)) after := by
  obtain ⟨_, middle, checks, -⟩ := Recurrence.performs_check usable between
  obtain ⟨reply, after, written⟩ :=
    @Kernel.call_onFiles (.write .stdout (passLine number)) rfl middle pid
  have passes
      : Kernel.Performs pid kernel (passing (Int32.ofNat signature) number).run
          (.ok (Int32.ofNat signature)) after :=
    checks.check_ok ((Kernel.Performs.attempt written rfl).lift.check_ok .done)
  exact ⟨after, body_of_le text small fits ▸ passes.ending name⟩

/-- What the check of a run comes to: it has passed, or was stopped with the code of a violation. -/
theorem reaches_passing {signature : Int32} {number : Nat} {past : List Exchange}
    {outcome : Except Check.Stop Int32}
    (reached : (passing signature number).run.Reaches past (.done outcome))
    : Passed number past ∧ outcome = .ok signature
      ∨ ∃ violation,
          outcome = .error (.violation violation)
          ∧ (violation.code = 1 ∨ violation.code = -1) := by
  rcases Check.reaches_bind reached with
    ⟨stop, stopped, rfl⟩ | ⟨_, checked, rest, rfl, passed, last⟩
  · have upholds : (Recurrence.check (.ofIndex (Int32.ofNat number))).Upholds _ _ _ [] :=
      Recurrence.upholds_check
    obtain ⟨violation, rfl, code⟩ := Prog.Upholds.reaches upholds stopped
    exact .inr ⟨violation, rfl, code⟩
  · cases last with
    | call reply onward =>
        cases onward
        exact .inl ⟨⟨checked, reply, passed, rfl⟩, rfl⟩

/-- A run exits with its signature after it has passed, or with the code of a violation. -/
theorem passed_of_reaches {name text : String} {signature number : Nat} {past : List Exchange}
    {status : Int32} (small : signature ≤ 2147483647)
    (reached : ((body [text, toString signature, toString number]).ending name).Reaches past
      (.done (.exit status)))
    : Passed number past ∨ status = 1 ∨ status = -1 := by
  rcases body_cases text small number with same | ⟨message, same⟩
  · rw [same] at reached
    rcases Check.reaches_ending reached with finished | ⟨violation, before, stopped, -, rfl⟩
    · rcases reaches_passing finished with ⟨passed, -⟩ | ⟨violation, equal, -⟩
      · exact .inl passed
      · cases equal
    · rcases reaches_passing stopped with ⟨-, equal⟩ | ⟨other, equal, code⟩
      · cases equal
      · cases equal
        exact .inr code
  · rw [same] at reached
    rcases Check.reaches_ending reached with finished | ⟨violation, before, stopped, -, rfl⟩
    · cases finished
    · cases stopped
      exact .inr (.inl rfl)

/-- Whether a run has passed in the course of some deeds, and its line was printed. -/
structure Validated (deeds : List Deed) (child : Pid) (number : Nat) : Prop where
  passed : Passed number (exchanges child deeds)
  printed
    : .call child (.write .stdout (passLine number)) (some (.ok (passLine number).length)) ∈ deeds

/-- The last call of a run that has passed writes its line. -/
theorem Validated.last_call {deeds : List Deed} {child : Pid} {number : Nat}
    (validated : Validated deeds child number)
    : (exchanges child deeds).getLast?.map Exchange.call
      = some (.write .stdout (passLine number)) := by
  obtain ⟨checked, reply, -, whole⟩ := validated.passed
  rw [whole, List.getLast?_concat]
  rfl

/-- A run that has passed has printed its line, as it has closed only files. -/
theorem validated_of_passed {config : Config} {deeds : List Deed} {kernel : Kernel} {child : Pid}
    {number : Nat} (run : Kernel.Run config deeds kernel)
    (passed : Passed number (exchanges child deeds))
    : Validated deeds child number := by
  refine ⟨passed, ?_⟩
  obtain ⟨checked, reply, reached, whole⟩ := passed
  have unclosed : ¬ClosedBy deeds child .stdout := by
    refine run.stdout_unclosed fun before after cut => ?_
    rw [whole] at cut
    rcases cut_snoc cut.symm with ⟨-, same⟩ | ⟨rest, same⟩
    · cases same
    · rw [← same] at reached
      obtain ⟨middle, first, second⟩ := reached.split
      cases second with
      | call reply onward =>
          have upholds : (Recurrence.check (.ofIndex (Int32.ofNat number))).Upholds _ _ _ [] :=
            Recurrence.upholds_check
          have allowed := Prog.Upholds.reaches upholds first
          rw [List.nil_append] at allowed
          exact allowed.1
  have member : ⟨.write .stdout (passLine number), reply⟩ ∈ exchanges child deeds :=
    whole ▸ List.mem_append_right _ (List.mem_singleton.mpr rfl)
  have written := mem_exchanges.mp member
  rwa [run.write_stdout written unclosed] at written

end Fibonacci

end KernelConformance
