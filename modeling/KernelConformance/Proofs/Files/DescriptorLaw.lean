import KernelConformance.Proofs.Files.Openings

/-! The law of descriptor tables. Whatever was opened and closed before, a process gets the lowest
number that is free, and can open as many files as its limit leaves.
-/

namespace KernelConformance

/-- Whether a process has closed a descriptor. -/
def ClosedBy (deeds : List Deed) (pid : Pid) (fd : Fd) : Prop :=
  .call pid (.close fd) (some (.ok ())) ∈ deeds

namespace Deed

/-- Whether a process has opened a file. -/
def opens (pid : Pid) (deed : Deed) : Bool :=
  match deed.fdEvent? with
  | some (caller, .opened _ _) => caller = pid
  | _ => false

/-- Whether a process has closed a descriptor or ended. -/
def releases (pid : Pid) (deed : Deed) : Bool :=
  match deed.fdEvent? with
  | some (caller, .closed _) => caller = pid
  | some (caller, .ended) => caller = pid
  | _ => false

/-- Whether a process was refused a file for want of room. -/
def lacksRoom (pid : Pid) : Deed → Bool
  | call caller (.creat _) (some (.error .tooManyOpenFiles)) => caller = pid
  | call caller (.openFile _) (some (.error .tooManyOpenFiles)) => caller = pid
  | _ => false

variable {deed : Deed} {pid : Pid} {fd : Fd}

theorem eq_close_of_closed (closed : deed.fdEvent? = some (pid, .closed fd))
    : deed = .call pid (.close fd) (some (.ok ())) := by
  unfold fdEvent? at closed
  split at closed <;> cases closed
  rfl

theorem opens_iff
    : deed.opens pid = true ↔ ∃ fd name, deed.fdEvent? = some (pid, .opened fd name) := by
  unfold opens
  split
  · next caller fd name event => simp [event]
  · next other =>
      simp only [Bool.false_eq_true, false_iff, not_exists]
      exact fun fd name event => other pid fd name event

theorem releases_of_releases (released : Kernel.Releases pid fd deed.fdEvent?)
    : deed.releases pid = true := by
  rcases released with closed | ended
  · simp [releases, closed]
  · simp [releases, ended]

end Deed

section

variable {deeds : List Deed} {deed : Deed} {pid : Pid} {fd : Fd}

theorem closedBy_snoc
    : ClosedBy (deeds ++ [deed]) pid fd
      ↔ ClosedBy deeds pid fd ∨ deed.fdEvent? = some (pid, .closed fd) := by
  rw [ClosedBy, List.mem_append, List.mem_singleton]
  refine or_congr_right ⟨?_, fun closed => (Deed.eq_close_of_closed closed).symm⟩
  rintro rfl
  rfl

end

namespace Kernel

variable {config : Config} {deeds more : List Deed} {kernel after later : Kernel} {deed : Deed}
  {pid : Pid} {fd : Fd}

-----------------------------------------------------------------------------------------
-- The streams of the console
-----------------------------------------------------------------------------------------

/-- A process that has closed a descriptor was numbered before the next one, by
induction on the run.
-/
theorem Run.number_lt_of_closed (run : Run config deeds kernel) (closed : ClosedBy deeds pid fd)
    : pid.number < kernel.processes.next.number := by
  induction run with
  | boot => cases closed
  | step run step ih =>
      refine Nat.lt_of_lt_of_le ?_ step.processes.next_le
      rcases closedBy_snoc.mp closed with earlier | last
      · exact ih earlier
      · obtain rfl := Deed.eq_close_of_closed last
        cases step with
        | call runs => exact run.rooted.running_lt runs

/-- A stream of the console stays where it was at the start of a process until it is closed, and its
number is never in use again, by induction on the run.
-/
theorem Run.stream (run : Run config deeds kernel)
    (runs : kernel.processes.isRunning pid = true) {stream : Handle}
    (given : (Descriptors.initial config.maxOpenFiles).get? fd = some stream)
    : ClosedBy deeds pid fd ∧ (kernel.fds pid).get? fd = none
      ∨ ¬ClosedBy deeds pid fd ∧ (kernel.fds pid).get? fd = some stream := by
  induction run with
  | boot => cases runs
  | @step deeds kernel deed after run step ih =>
      have tables := step.fds run.rooted
      rcases run.running_step step runs with started | ⟨old, stays⟩
      -- the number is a new one, so that no earlier call can have closed anything under it
      · obtain ⟨rfl, table⟩ := (started ▸ tables).table_started
        have unclosed : ¬ClosedBy (deeds ++ [deed]) kernel.processes.next fd := by
          intro closed
          rcases closedBy_snoc.mp closed with earlier | last
          · exact Nat.lt_irrefl _ (run.number_lt_of_closed earlier)
          · cases started.symm.trans last
        rw [table, run.tidy.configured]
        exact .inr ⟨unclosed, given⟩
      · by_cases closes : deed.fdEvent? = some (pid, .closed fd)
        · exact .inl ⟨closedBy_snoc.mpr (.inr closes), (closes ▸ tables).get?_closed⟩
        · have kept : ¬Releases pid fd deed.fdEvent? := not_or.mpr ⟨closes, stays⟩
          have reserved : ∀ name, deed.fdEvent? ≠ some (pid, .opened fd name) := by
            intro name opened
            obtain ⟨-, -, _, -, inserted⟩ := (opened ▸ tables).inserted_of_opened run.tidy.streams
            have file := inserted.file
            rcases Descriptors.get?_initial given with ⟨rfl, -⟩ | ⟨rfl, -⟩ <;>
              simp [Descriptors.firstFile, Fd.stdin, Fd.stdout] at file
          have unmoved : ∀ count, stream.advance count = stream := by
            rcases Descriptors.get?_initial given with ⟨-, rfl⟩ | ⟨-, rfl⟩ <;> exact fun _ => rfl
          rw [tables.get?_kept run.tidy.streams old kept reserved, closedBy_snoc,
            or_iff_left closes]
          rcases ih old with ⟨closed, free⟩ | ⟨unclosed, held⟩
          · exact .inl ⟨closed, by rw [free]; rfl⟩
          · exact .inr ⟨unclosed, by rw [held, Option.map_some, unmoved]⟩

-----------------------------------------------------------------------------------------
-- How many files can be opened
-----------------------------------------------------------------------------------------

/-- A process that is refused a file has reached its limit, by cases on the call. -/
theorem Step.full_of_lacksRoom (step : kernel.Step deed after) (streams : kernel.HasStreams)
    (lacks : deed.lacksRoom pid = true)
    : (kernel.fds pid).limit ≤ (kernel.fds pid).size := by
  rw [← Descriptors.length_inUse]
  unfold Deed.lacksRoom at lacks
  split at lacks
  · next caller name =>
      obtain rfl := of_decide_eq_true lacks
      cases step with
      | call runs done =>
          obtain ⟨reply, after, same, opening⟩ := call_creat (streams _ runs) name
          cases done.symm.trans same
          exact opening.refused.mp rfl
  · next caller name =>
      obtain rfl := of_decide_eq_true lacks
      cases step with
      | call runs done =>
          obtain ⟨reply, after, same, opening⟩ := call_openFile (streams _ runs) name
          cases done.symm.trans same
          exact opening.refused.mp rfl
  · cases lacks

/-- As long as a process releases nothing, the files it opens are as many as its limit leaves, or as
many as it asks for if these are fewer, by induction on the deeds.
-/
theorem Run.opened_count (run : Run config deeds kernel) (steps : Steps kernel more later)
    (runs : kernel.processes.isRunning pid = true)
    (kept : ∀ deed ∈ more, deed.releases pid = false)
    : more.countP (Deed.opens pid)
      = min (config.maxOpenFiles - (kernel.fds pid).size)
          (more.countP fun deed => deed.opens pid || deed.lacksRoom pid) := by
  induction steps generalizing deeds with
  | nil => simp
  | @cons kernel deed middle more later step rest ih =>
      have tables := step.fds run.rooted
      have held : ∀ fd, ¬Releases pid fd deed.fdEvent? := fun fd released => by
        have released := Deed.releases_of_releases released
        rw [kept deed List.mem_cons_self] at released
        cases released
      have stays : deed.fdEvent? ≠ some (pid, .ended) := fun ends => held .stdin (.inr ends)
      have counted := ih (run.step step) (run.running_after step runs stays)
        fun other member => kept other (List.mem_cons_of_mem _ member)
      have limit := run.tidy.limits pid
      rw [List.countP_cons, List.countP_cons, counted]
      -- an opening takes one of the descriptors that are left, and only a full table refuses it
      cases opens : deed.opens pid with
      | true =>
          obtain ⟨fd, name, opened⟩ := Deed.opens_iff.mp opens
          obtain ⟨-, -, inode, -, inserted⟩ := (opened ▸ tables).inserted_of_opened run.tidy.streams
          have room := inserted.room
          have grown := inserted.size
          simp only [Bool.true_or, if_true]
          omega
      | false =>
          have old : ∀ fd name, deed.fdEvent? ≠ some (pid, .opened fd name) := by
            intro fd name opened
            rw [Deed.opens_iff.mpr ⟨fd, name, opened⟩] at opens
            cases opens
          have same := tables.size_kept runs held old
          cases lacks : deed.lacksRoom pid with
          | true =>
              have full := step.full_of_lacksRoom run.tidy.streams lacks
              simp only [Bool.false_or, Bool.false_eq_true, if_false, if_true]
              omega
          | false => simp [same]

/-- A process can create files under a name that is accepted until its limit is reached, by
induction on what its limit leaves.
-/
theorem Run.creates (run : Run config deeds kernel)
    (runs : kernel.processes.isRunning pid = true) {name : String}
    (accepted : kernel.files.acceptsName name = true) {left : Nat}
    (leaves : config.maxOpenFiles - (kernel.fds pid).size = left)
    : ∃ more later,
        Steps kernel more later
        ∧ more.length = left
        ∧ ∀ deed ∈ more, ∃ fd, deed = .call pid (.creat name) (some (.ok fd)) := by
  induction left generalizing deeds kernel with
  | zero => exact ⟨[], kernel, .nil, rfl, nofun⟩
  | succ left ih =>
      have limit := run.tidy.limits pid
      obtain ⟨reply, middle, done, opening⟩ := call_creat (run.tidy.streams pid runs) name
      have room : (kernel.fds pid).inUse.length < (kernel.fds pid).limit := by
        rw [Descriptors.length_inUse]
        omega
      obtain ⟨fd, rfl⟩ := opening.granted.mpr ⟨room, accepted⟩
      obtain ⟨inode, inserted⟩ := opening.inserted fd rfl
      have step : kernel.Step (.call pid (.creat name) (some (.ok fd))) middle := .call runs done
      have grown := inserted.size
      obtain ⟨more, later, steps, length, creations⟩ :=
        ih (run.step step) (run.running_after step runs nofun)
          (step.files.acceptsName ▸ accepted) (by omega)
      refine ⟨_ :: more, later, .cons step steps, congrArg Nat.succ length, ?_⟩
      intro deed member
      rcases List.mem_cons.mp member with rfl | member
      · exact ⟨fd, rfl⟩
      · exact creations deed member

-----------------------------------------------------------------------------------------
-- The law
-----------------------------------------------------------------------------------------

/-- What holds of the table of a process that runs, after any deeds. -/
structure DescriptorLaw (config : Config) (deeds : List Deed) (kernel : Kernel) (pid : Pid)
    : Prop where
  limit : (kernel.fds pid).limit = config.maxOpenFiles
  input
    : ClosedBy deeds pid .stdin ∧ (kernel.fds pid).get? .stdin = none
      ∨ ¬ClosedBy deeds pid .stdin ∧ (kernel.fds pid).get? .stdin = some .stdin
  output
    : ClosedBy deeds pid .stdout ∧ (kernel.fds pid).get? .stdout = none
      ∨ ¬ClosedBy deeds pid .stdout ∧ (kernel.fds pid).get? .stdout = some .stdout
  listed : (kernel.fds pid).inUse.Nodup
  inUse : ∀ fd, fd ∈ (kernel.fds pid).inUse ↔ ((kernel.fds pid).get? fd).isSome = true
  bounded : (kernel.fds pid).inUse.length ≤ max config.maxOpenFiles 2
  slots : (kernel.fds pid).slots.length ≤ config.maxOpenFiles + 2
  creat
    : ∀ name, ∃ reply after,
        kernel.call pid (.creat name) = some (reply, after)
        ∧ (kernel.fds pid).Opening (kernel.files.acceptsName name = true) reply (after.fds pid)
  openFile
    : ∀ name, ∃ reply after,
        kernel.call pid (.openFile name) = some (reply, after)
        ∧ (kernel.fds pid).Opening
            (kernel.files.acceptsName name = true
              ∧ (kernel.files.names.get? name).isSome = true)
            reply (after.fds pid)
  further
    : ∀ more later,
        Steps kernel more later
        → (∀ deed ∈ more, deed.releases pid = false)
        → more.countP (Deed.opens pid)
          = min (config.maxOpenFiles - (kernel.fds pid).inUse.length)
              (more.countP fun deed => deed.opens pid || deed.lacksRoom pid)
  attained
    : ∀ name,
        kernel.files.acceptsName name = true
        → ∃ more later,
            Steps kernel more later
            ∧ more.length = config.maxOpenFiles - (kernel.fds pid).inUse.length
            ∧ ∀ deed ∈ more, ∃ fd, deed = .call pid (.creat name) (some (.ok fd))

/-- The descriptors of every process keep to the law: the streams of the console are there until
they are closed, files get the lowest numbers that are free, and there is room for as many as the
limit leaves.
-/
theorem Run.descriptor_law (run : Run config deeds kernel)
    (runs : kernel.processes.isRunning pid = true)
    : kernel.DescriptorLaw config deeds pid := by
  have limit := run.tidy.limits pid
  have within := run.tidy.tables pid runs
  have streams := within.streams
  constructor
  · exact limit
  · exact run.stream runs rfl
  · exact run.stream runs rfl
  · exact Descriptors.nodup_inUse _
  · exact fun _ => Descriptors.mem_inUse
  · rw [Descriptors.length_inUse, ← limit]
    exact within.size
  · rw [← limit]
    exact within.length
  · exact call_creat streams
  · exact call_openFile streams
  · intro more later steps kept
    rw [Descriptors.length_inUse]
    exact run.opened_count steps runs kept
  · intro name accepted
    rw [Descriptors.length_inUse]
    exact run.creates runs accepted rfl

/-- The deeds of a process that closes its input, creates two files and closes the first of them. -/
def reopeningDeeds : List Deed :=
  [
    .register "p",
    .spawn "p" [] (.ok (.ofNat 1)),
    .call (.ofNat 1) (.close .stdin) (some (.ok ())),
    .call (.ofNat 1) (.creat "a") (some (.ok ⟨2⟩)),
    .call (.ofNat 1) (.creat "b") (some (.ok ⟨3⟩)),
    .call (.ofNat 1) (.close ⟨2⟩) (some (.ok ()))
  ]

/-- With a limit of three the input stays closed and one more file can be opened, as the law says
after these deeds.
-/
theorem descriptor_law_reopened
    : ∃ kernel,
        Run { Config.standard with maxOpenFiles := 3 } reopeningDeeds kernel
        ∧ kernel.processes.isRunning (.ofNat 1) = true
        ∧ (kernel.fds (.ofNat 1)).get? .stdin = none
        ∧ ∃ fd later, Steps kernel [.call (.ofNat 1) (.creat "c") (some (.ok fd))] later := by
  obtain ⟨kernel, run, runs, accepted, used⟩
      : ∃ kernel,
          Run { Config.standard with maxOpenFiles := 3 } reopeningDeeds kernel
          ∧ kernel.processes.isRunning (.ofNat 1) = true
          ∧ kernel.files.acceptsName "c" = true
          ∧ (kernel.fds (.ofNat 1)).inUse.length = 2 :=
    ⟨_, .extend .boot (.cons (.register "p") <| .cons (.spawn rfl) <| .cons (.call rfl rfl)
      <| .cons (.call rfl rfl) <| .cons (.call rfl rfl) <| .cons (.call rfl rfl) .nil),
      rfl, rfl, rfl⟩
  have law := run.descriptor_law runs
  have closed : ClosedBy reopeningDeeds (.ofNat 1) .stdin := by simp [ClosedBy, reopeningDeeds]
  obtain ⟨-, free⟩ := law.input.resolve_right fun unclosed => unclosed.1 closed
  obtain ⟨more, later, steps, length, creations⟩ := law.attained "c" accepted
  rw [used] at length
  obtain ⟨deed, rfl⟩ := List.length_eq_one_iff.mp length
  obtain ⟨fd, rfl⟩ := creations deed List.mem_cons_self
  exact ⟨kernel, run, runs, free, fd, later, steps⟩

end Kernel

end KernelConformance
