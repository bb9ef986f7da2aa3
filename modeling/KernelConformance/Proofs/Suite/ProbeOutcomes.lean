import KernelConformance.Proofs.Files.AdmittedNames
import KernelConformance.Proofs.Suite.ProbeSaturation

/-! What a probe comes to in a process that has just started, for every capacity and every limit of
the descriptor table, whatever order its generator draws.
-/

namespace KernelConformance.Probe

open Function (update)

-----------------------------------------------------------------------------------------
-- The parts of a probe
-----------------------------------------------------------------------------------------

/-- A probe that is alone checks first that its file is not there. -/
def checkAbsent (probe : Probe) : Check Unit :=
  if probe.isAlone then do
    let reply ← Check.perform (.openFile probe.file)
    Check.require (!reply.toBool)
      (.failure s!"test_fd: {probe.file} exists before creation. check unlink.")
  else pure ()

/-- A probe that is alone checks in the end that nothing more can be opened. -/
def conclude (probe : Probe) (result : Slots × Randomness.Stream)
    : Check (List Fd × Randomness.Stream) :=
  if probe.isAlone then do
    match ← Check.perform (.openFile probe.file) with
    | .error _ => pure (held result.1, result.2)
    | .ok extra =>
        ExceptT.lift (Prog.attempt (.close extra))
        Check.violate (.failure "test_fd: available fds exceed.")
  else pure (held result.1, result.2)

/-- Making the file and giving up the input, all rounds, and the check after them. -/
def openRounds (probe : Probe) (stream : Randomness.Stream)
    : Check (List Fd × Randomness.Stream) := do
  let first ← Check.demand (.creat probe.file) fun error =>
    s!"test_fd: {probe.file} create fails: {error.message}"
  ExceptT.lift (Prog.attempt (.close .stdin))
  let result ← rounds probe (probe.capacity - 1) [some first] stream
  conclude probe result

/-- A probe is made of these parts, by cases on its mode and its capacity. -/
theorem runAllRounds_eq (probe : Probe) (stream : Randomness.Stream)
    : runAllRounds probe stream
      = (Check.require (2 ≤ probe.capacity)
            (.failure s!"test_fd: capacity {probe.capacity} is too small") >>= fun _ =>
          checkAbsent probe >>= fun _ =>
            if maxSlots < probe.capacity then Check.fault else openRounds probe stream) := by
  have stopped {α β : Type} (f : α → Check β) : (Check.fault >>= f) = Check.fault := rfl
  have violated {α β : Type} (f : α → β) (violation : Violation)
      : (f <$> Check.violate violation : Check β) = Check.violate violation :=
    rfl
  obtain ⟨capacity, file, mode⟩ := probe
  unfold runAllRounds
  by_cases large : maxSlots < capacity
  · cases mode <;> simp [checkAbsent, isAlone, large, stopped]
  · cases mode with
    | alone =>
        simp [checkAbsent, openRounds, isAlone, large, violated]
        rfl
    | shared index =>
        simp [checkAbsent, openRounds, isAlone, large]
        rfl

-----------------------------------------------------------------------------------------
-- What each part comes to
-----------------------------------------------------------------------------------------

variable {start kernel : Kernel} {pid : Pid} {inode : Inode} {files : FileSystem} {probe : Probe}
  {slots : Fd → Option Handle} {count : Nat}

/-- A process that has just started, apart from what it has printed: the streams are open. -/
def Fresh (start : Kernel) (pid : Pid) (kernel : Kernel) : Prop :=
  start.Workspace pid (Descriptors.initial start.config.maxOpenFiles).get? 2 start.files kernel

theorem performs_checkAbsent (fresh : Fresh start pid kernel)
    (absent : probe.isAlone = true → start.files.names.get? probe.file = none)
    : ∃ after,
        Kernel.Performs pid kernel (checkAbsent probe).run (.ok ()) after
        ∧ Fresh start pid after := by
  unfold checkAbsent
  split
  · next alone =>
      have missing : ∃ error, start.files.find probe.file = .error error := by
        unfold FileSystem.find
        split
        · exact ⟨_, rfl⟩
        · rw [absent alone]
          exact ⟨_, rfl⟩
      obtain ⟨error, after, refused, fresh⟩ := fresh.openFile_error probe.file (.inr missing)
      refine ⟨after, ?_, fresh⟩
      exact (Kernel.Performs.perform refused rfl).lift.check_ok (.require_true rfl _)
  · exact ⟨kernel, .done, fresh⟩

/-- Of the descriptors for files the first one is free at the start of a process. -/
theorem firstFree_initial (limit : Nat)
    : FirstFree (Descriptors.initial limit).get? ⟨Descriptors.firstFile⟩ where
  file := Nat.le_refl _
  free := rfl
  lower _ file less := absurd file (Nat.not_le_of_lt less)

/-- With room for a third descriptor, the file is made and the first slot is full. -/
theorem performs_first (fresh : Fresh start pid kernel)
    (room : 3 ≤ start.config.maxOpenFiles) {name : String}
    (accepted : start.files.acceptsName name = true)
    : ∃ inode made middle after,
        kernel.call pid (.creat name) = some (.ok ⟨Descriptors.firstFile⟩, middle)
        ∧ Kernel.Performs pid middle (Prog.attempt (.close .stdin)) () after
        ∧ made.find name = .ok inode
        ∧ Holds start pid inode made (consecutive 1) after := by
  obtain ⟨inode, made, created, same, named, -⟩ := FileSystem.create_of_accepted accepted
  obtain ⟨fd, middle, opened, first, workspace⟩ := fresh.creat room created
  obtain rfl := first.unique (firstFree_initial _)
  obtain ⟨after, closed, workspace⟩ := workspace.close .stdin rfl
  have slots
      : update (update (Descriptors.initial start.config.maxOpenFiles).get?
          ⟨Descriptors.firstFile⟩ (some (.file inode 0))) .stdin none
        = occupied inode (consecutive 1) := by
    funext fd
    obtain ⟨index⟩ := fd
    match index with
    | 0 => rfl
    | 1 => rfl
    | 2 => rfl
    | index + 3 =>
        simp [Descriptors.get?, Descriptors.initial, Descriptors.firstFile, Fd.stdin, Fd.stdout,
          occupied, mem_consecutive]
  rw [slots] at workspace
  exact ⟨inode, made, middle, after, opened, .attempt closed rfl,
    FileSystem.find_of_named (same ▸ accepted) named, workspace, nodup_consecutive 1,
    fun fd member => (mem_consecutive.mp member).1⟩

/-- With descriptors left a probe that is alone objects to one too many, and otherwise
it is content.
-/
theorem performs_conclude {held : Nat}
    (holds : Holds start pid inode files (consecutive held) kernel)
    (found : files.find probe.file = .ok inode) (stream : Randomness.Stream)
    : (probe.isAlone = true
        → 1 + held < start.config.maxOpenFiles
        → ∃ message after,
            Kernel.Performs pid kernel (conclude probe ((consecutive held).map some, stream)).run
              (.error (.violation (.failure message))) after)
      ∧ ((probe.isAlone = true → start.config.maxOpenFiles ≤ 1 + held)
        → ∃ after,
            Kernel.Performs pid kernel (conclude probe ((consecutive held).map some, stream)).run
              (.ok (consecutive held, stream)) after) := by
  unfold conclude
  rw [held_map_some]
  refine ⟨fun alone room => ?_, fun full => ?_⟩
  · rw [if_pos alone]
    obtain ⟨middle, opened, _⟩ := holds.openFile room found
    obtain ⟨_, after, closed⟩ :=
      Kernel.call_onFiles (c := .close ⟨Descriptors.firstFile + held⟩) rfl middle pid
    refine ⟨"test_fd: available fds exceed.", after, opened.lift.check_ok ?_⟩
    exact (Kernel.Performs.attempt closed rfl).lift.check_ok .done
  · split
    · next alone =>
        obtain ⟨error, after, refused, _⟩ := holds.openFile_full
          (by rw [length_consecutive]; exact full alone) probe.file
        exact ⟨after, refused.lift.check_ok .done⟩
    · exact ⟨kernel, .done⟩

-----------------------------------------------------------------------------------------
-- What a probe comes to
-----------------------------------------------------------------------------------------

/-- What a probe of a table with a limit must come to. It comes to a value exactly if its capacity
is the limit, or within the limit if it is not alone, and then it has held the lowest descriptors.
-/
structure Verdict (probe : Probe) (limit : Nat)
    (outcome : Except Check.Stop (List Fd × Randomness.Stream))
    : Prop where
  ok_iff
    : (∃ result, outcome = .ok result)
      ↔ 3 ≤ limit
        ∧ if probe.isAlone then probe.capacity = limit
          else 2 ≤ probe.capacity ∧ probe.capacity ≤ limit
  held
    : ∀ fds stream,
        outcome = .ok (fds, stream) → fds = (List.range' 2 (probe.capacity - 1)).map Fd.mk
  failed : ∀ stop, outcome = .error stop → ∃ message, stop = .violation (.failure message)
  full
    : 3 ≤ limit
      → limit < probe.capacity
      → outcome
        = .error (.violation (.failure s!"test_fd: round {limit} fd[{limit - 1}] fails"))

theorem Verdict.of_ok {limit : Nat} (enough : 3 ≤ limit)
    (within : 2 ≤ probe.capacity ∧ probe.capacity ≤ limit)
    (exact : probe.isAlone = true → probe.capacity = limit) (stream : Randomness.Stream)
    : probe.Verdict limit (.ok (consecutive (probe.capacity - 1), stream)) where
  ok_iff := by
    refine iff_of_true ⟨_, rfl⟩ ⟨enough, ?_⟩
    split
    · next alone => exact exact alone
    · exact within
  held fds stream same := by
    cases same
    rfl
  failed _ same := by cases same
  full _ short := absurd within.2 (Nat.not_le_of_lt short)

theorem Verdict.of_failure {limit : Nat} {message : String}
    (unfit
      : ¬(3 ≤ limit
        ∧ if probe.isAlone then probe.capacity = limit
          else 2 ≤ probe.capacity ∧ probe.capacity ≤ limit))
    (full : 3 ≤ limit → limit < probe.capacity → message = fullMessage limit)
    : probe.Verdict limit (.error (.violation (.failure message))) where
  ok_iff := iff_of_false (by simp) unfit
  held _ _ same := by cases same
  failed _ same := by
    cases same
    exact ⟨message, rfl⟩
  full enough short := by
    rw [full enough short]
    rfl

/-- From the making of its file on a probe finds out what it must, by cases on the limit. -/
theorem performs_openRounds (fresh : Fresh start pid kernel)
    (accepted : start.files.acceptsName probe.file = true) (large : 2 ≤ probe.capacity)
    (stream : Randomness.Stream)
    : ∃ outcome after,
        Kernel.Performs pid kernel (openRounds probe stream).run outcome after
        ∧ probe.Verdict start.config.maxOpenFiles outcome := by
  by_cases room : 3 ≤ start.config.maxOpenFiles
  · obtain ⟨inode, made, k₁, k₂, creat, close, found, holds⟩ := performs_first fresh room accepted
    have begun {outcome last} (onward : Kernel.Performs pid k₂
        (rounds probe (probe.capacity - 2 + 1) ((consecutive 1).map some) stream
          >>= conclude probe).run outcome last)
        : Kernel.Performs pid kernel (openRounds probe stream).run outcome last := by
      have count : probe.capacity - 1 = probe.capacity - 2 + 1 := by omega
      rw [openRounds, count]
      exact (Kernel.Performs.demand_ok _ creat rfl).check_ok (close.lift.check_ok onward)
    by_cases short : start.config.maxOpenFiles < probe.capacity
    · obtain ⟨after, full, -⟩ := performs_rounds_full found (probe.capacity - 2) (Nat.le_refl 1)
        (by omega) (by omega) stream holds
      refine ⟨_, after, begun (full.check_stop _), .of_failure ?_ fun _ _ => rfl⟩
      split <;> omega
    · obtain ⟨left, k₃, passed, holds⟩ := performs_rounds_ok found (probe.capacity - 2)
        (Nat.le_refl 1) (by omega) stream holds
      have held : 1 + (probe.capacity - 2) = probe.capacity - 1 := by omega
      rw [held] at passed holds
      obtain ⟨objects, agrees⟩ := performs_conclude holds found left
      by_cases extra : probe.isAlone = true ∧ probe.capacity < start.config.maxOpenFiles
      · obtain ⟨message, after, stopped⟩ := objects extra.1 (by omega)
        refine ⟨_, after, begun (passed.check_ok stopped), .of_failure ?_ (by omega)⟩
        rw [if_pos extra.1]
        omega
      · have exact : probe.isAlone = true → probe.capacity = start.config.maxOpenFiles :=
          fun alone => by
            have none := not_and.mp extra alone
            omega
        obtain ⟨after, content⟩ := agrees fun alone => by
          have same := exact alone
          omega
        exact ⟨_, after, begun (passed.check_ok content),
          .of_ok room ⟨large, Nat.le_of_not_lt short⟩ exact left⟩
  · obtain ⟨error, after, refused, -⟩ := fresh.creat_error probe.file (.inl (by omega))
    refine ⟨_, after, (Kernel.Performs.demand_error _ refused).check_stop _, ?_⟩
    exact .of_failure (fun fits => room fits.1) fun enough => absurd enough room

/-- A probe of a capacity that a process has room for finds out what it must. -/
theorem performs_runAllRounds (fresh : Fresh start pid kernel)
    (accepted : start.files.acceptsName probe.file = true)
    (absent : probe.isAlone = true → start.files.names.get? probe.file = none)
    (fits : probe.capacity ≤ maxSlots) (stream : Randomness.Stream)
    : ∃ outcome after,
        Kernel.Performs pid kernel (runAllRounds probe stream).run outcome after
        ∧ probe.Verdict start.config.maxOpenFiles outcome := by
  rw [runAllRounds_eq]
  by_cases large : 2 ≤ probe.capacity
  · obtain ⟨middle, checked, fresh⟩ := performs_checkAbsent fresh absent
    obtain ⟨outcome, after, performs, verdict⟩ := performs_openRounds fresh accepted large stream
    rw [if_neg (Nat.not_lt_of_le fits)]
    refine ⟨outcome, after, ?_, verdict⟩
    exact (Kernel.Performs.require_true (decide_eq_true large) _).check_ok
      (checked.check_ok performs)
  · refine ⟨_, kernel, (Kernel.Performs.require_false (decide_eq_false large) _).check_stop _, ?_⟩
    refine .of_failure ?_ (by omega)
    split <;> omega

/-- A probe that has no room for its slots faults before it makes its file. -/
theorem performs_runAllRounds_fault (fresh : Fresh start pid start)
    (absent : probe.isAlone = true → start.files.names.get? probe.file = none)
    (excess : maxSlots < probe.capacity) (stream : Randomness.Stream)
    : ∃ after,
        Kernel.Performs pid start (runAllRounds probe stream).run (.error .fault) after
        ∧ Fresh start pid after := by
  have large : 2 ≤ probe.capacity := Nat.le_of_lt (Nat.lt_of_le_of_lt (by decide) excess)
  obtain ⟨after, checked, fresh⟩ := performs_checkAbsent fresh absent
  rw [runAllRounds_eq, if_pos excess]
  exact ⟨after, (Kernel.Performs.require_true (decide_eq_true large) _).check_ok
    (checked.check_ok .done), fresh⟩

/-- A probe removes its file on a violation and when it is alone. -/
theorem performs_run {outcome : Except Check.Stop (List Fd × Randomness.Stream)} {middle : Kernel}
    {stream : Randomness.Stream}
    (performs : Kernel.Performs pid start (runAllRounds probe stream).run outcome middle)
    (admitted
      : ∀ inode,
          middle.files.names.get? probe.file = some inode
          → middle.files.acceptsName probe.file = true)
    (returns : outcome ≠ .error .fault)
    : ∃ after,
        Kernel.Performs pid start (run probe stream).run outcome after
        ∧ ((∃ stop, outcome = .error stop) ∨ probe.isAlone = true
          → after.files.names.get? probe.file = none) := by
  obtain ⟨_, after, removed⟩ := Kernel.call_onFiles (c := .unlink probe.file) rfl middle pid
  obtain ⟨absent, -⟩ := Kernel.call_unlink_absent removed admitted
  have unlink : Kernel.Performs pid middle (Prog.attempt (.unlink probe.file)) () after :=
    .attempt removed rfl
  rcases outcome with (violation | _) | result
  · exact ⟨after, performs.andFinally_violation unlink, fun _ => absent⟩
  · exact absurd rfl returns
  · by_cases alone : probe.isAlone = true
    · refine ⟨after, performs.andFinally_ok ?_, fun _ => absent⟩
      rwa [alone, Bool.or_true, if_pos rfl]
    · refine ⟨middle, performs.andFinally_ok ?_, by simp [alone]⟩
      rw [if_neg (by simpa [Except.toBool] using alone)]
      exact .done

/-- A probe of a capacity that a process has room for comes to its verdict, and its file is gone
after a violation and when it is alone.
-/
theorem performs_verdict (fresh : Fresh start pid kernel)
    (accepted : start.files.acceptsName probe.file = true)
    (absent : probe.isAlone = true → start.files.names.get? probe.file = none)
    (fits : probe.capacity ≤ maxSlots) (stream : Randomness.Stream)
    : ∃ outcome after,
        Kernel.Performs pid kernel (run probe stream).run outcome after
        ∧ probe.Verdict start.config.maxOpenFiles outcome
        ∧ ((∃ stop, outcome = .error stop) ∨ probe.isAlone = true
          → after.files.names.get? probe.file = none) := by
  obtain ⟨outcome, middle, performs, verdict⟩ :=
    performs_runAllRounds fresh accepted absent fits stream
  have returns : outcome ≠ .error .fault := by
    rintro rfl
    obtain ⟨message, same⟩ := verdict.failed .fault rfl
    cases same
  have stillAccepted : middle.files.acceptsName probe.file = true :=
    performs.keeps (fun kernel => kernel.files.acceptsName probe.file = true)
      (fun replied accepted => by rwa [(Kernel.call_files replied).acceptsName])
      (fresh.files ▸ accepted)
  obtain ⟨after, performs, removed⟩ := performs_run performs (fun _ _ => stillAccepted) returns
  exact ⟨outcome, after, performs, verdict, removed⟩

theorem fresh_of_started (started : kernel.fds pid = .initial kernel.config.maxOpenFiles)
    : Fresh kernel pid kernel := by
  have streams : Descriptors.firstFile ≤ (kernel.fds pid).slots.length := by
    rw [started]
    exact Nat.le_refl _
  have limit : (kernel.fds pid).limit = kernel.config.maxOpenFiles := by
    rw [started]
    rfl
  have workspace := Kernel.Workspace.begin kernel pid streams limit
  rwa [started] at workspace

/-- In a process that has just started and is by itself, with a file that can be made, and is not
there if the probe is alone, a probe of up to the most slots comes to its verdict on the table,
whatever its generator is, and its file is gone after a violation and when it is alone. A probe of
more slots faults with all files as they were.
-/
theorem run_saturates {ρ : Type} (images : Images ρ) (reports : List (Pid × ρ)) {kernel : Kernel}
    {pid : Pid} {probe : Probe} (stream : Randomness.Stream)
    (started : kernel.fds pid = .initial kernel.config.maxOpenFiles)
    (accepted : kernel.files.acceptsName probe.file = true)
    (absent : probe.isAlone = true → kernel.files.names.get? probe.file = none)
    : ∃ outcome after,
        Machine.runFor images pid (run probe stream).run ⟨kernel, reports⟩
          = (some outcome, ⟨after, reports⟩)
        ∧ (probe.capacity ≤ maxSlots
          → probe.Verdict kernel.config.maxOpenFiles outcome
            ∧ ((∃ stop, outcome = .error stop) ∨ probe.isAlone = true
              → after.files.names.get? probe.file = none))
        ∧ (maxSlots < probe.capacity → outcome = .error .fault ∧ after.files = kernel.files) := by
  have fresh := fresh_of_started started
  by_cases fits : probe.capacity ≤ maxSlots
  · obtain ⟨outcome, after, performs, verdict, removed⟩ :=
      performs_verdict fresh accepted absent fits stream
    exact ⟨outcome, after, performs.runFor images reports, fun _ => ⟨verdict, removed⟩,
      fun excess => absurd fits (Nat.not_le_of_lt excess)⟩
  · obtain ⟨after, performs, fresh⟩ :=
      performs_runAllRounds_fault fresh absent (Nat.lt_of_not_le fits) stream
    have faults : Kernel.Performs pid kernel (run probe stream).run (.error .fault) after :=
      performs.bind .done
    exact ⟨_, after, faults.runFor images reports, fun within => absurd within fits,
      fun _ => ⟨rfl, fresh.files⟩⟩

/-- A kernel with the limits of the standard and one process, which has just started. -/
def startedKernel : Kernel := (((Kernel.boot .standard).register "p").start .host "p" []).2

/-- The probe that is alone holds the descriptors from 2 to 16 in such a process, and
removes its file.
-/
theorem run_saturates_alone
    : ∃ stream after,
        Machine.runFor (fun _ => none : Images Unit) .first (run alone (.cycle [])).run
            ⟨startedKernel, []⟩
          = (some (.ok ((List.range' 2 15).map Fd.mk, stream)), ⟨after, []⟩)
        ∧ after.files.names.get? loneFile = none := by
  obtain ⟨outcome, after, same, verdict, -⟩ :=
    @run_saturates Unit (fun _ => none) [] startedKernel .first alone (.cycle []) rfl (by decide)
      fun _ => rfl
  obtain ⟨verdict, removed⟩ := verdict (by decide)
  obtain ⟨⟨fds, stream⟩, rfl⟩ := verdict.ok_iff.mpr ⟨by decide, rfl⟩
  obtain rfl := verdict.held fds stream rfl
  exact ⟨stream, after, same, removed (.inr rfl)⟩

/-- A probe of one slot more than there can be does not name the round in which the
table is full.
-/
theorem not_saturates_beyond_slots
    : ¬∀ (kernel : Kernel) (pid : Pid) (probe : Probe) (stream : Randomness.Stream),
        kernel.fds pid = .initial kernel.config.maxOpenFiles
        → kernel.files.acceptsName probe.file = true
        → (probe.isAlone = true → kernel.files.names.get? probe.file = none)
        → 3 ≤ kernel.config.maxOpenFiles
        → kernel.config.maxOpenFiles < probe.capacity
        → (Machine.runFor (fun _ => none : Images Unit) pid (run probe stream).run
            ⟨kernel, []⟩).1
          = some (.error (.violation (.failure (fullMessage kernel.config.maxOpenFiles)))) := by
  intro saturates
  have stopped := saturates startedKernel .first ⟨576460752303423488, "pf", .shared 1⟩ (.cycle [])
    rfl (by decide) nofun (by decide) (by decide)
  have fresh : Fresh startedKernel .first startedKernel := fresh_of_started rfl
  obtain ⟨after, performs, -⟩ := @performs_runAllRounds_fault startedKernel .first
    ⟨576460752303423488, "pf", .shared 1⟩ fresh nofun (by decide) (.cycle [])
  have faults : Kernel.Performs .first startedKernel
      (run ⟨576460752303423488, "pf", .shared 1⟩ (.cycle [])).run (.error .fault) after :=
    performs.bind .done
  rw [faults.runFor] at stopped
  cases stopped

end KernelConformance.Probe
