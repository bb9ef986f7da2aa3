import KernelConformance.Proofs.Suite.Reruns
import KernelConformance.Proofs.Suite.Thresholds

/-! Pools of test programs in which everybody can come to an end. A test program has only children
without children of their own, and those never wait for anybody, so that whatever was done before,
every process can go on until it has ended.
-/

namespace KernelConformance

open Kernel (Performs)

variable {α β : Type} {past : List Exchange} {argv : List String}

-----------------------------------------------------------------------------------------
-- Programs by the kinds of their calls
-----------------------------------------------------------------------------------------

/-- Whether a call is on files, so that it starts nobody and waits for nobody. -/
def Syscall.IsOnFiles (c : Syscall) : Prop := c.onFiles = true

/-- Whether a program is a test program that never has children. -/
def Childless (program : String) : Prop :=
  ∃ main, testProgram? program = some main ∧ ∀ name argv, (main name argv).Makes Syscall.IsOnFiles

/-- Whether a call is one that a test program can make: what it starts is childless, unless it is
the program that there must not be.
-/
def Parental : Syscall → Prop
  | .exec program _ => program = ExecTest.absentProgram ∨ Childless program
  | _ => True

theorem parental_of_onFiles {c : Syscall} (onFiles : c.IsOnFiles) : Parental c := by
  cases c with
  | exec => cases onFiles
  | _ => trivial

-----------------------------------------------------------------------------------------
-- Programs without children
-----------------------------------------------------------------------------------------

/-- A line that is printed after a check of one kind is of that kind. -/
theorem upholds_line {kind : Syscall → Prop} (prints : ∀ bytes, kind (.write .stdout bytes))
    (text : String) (value : α)
    : (do
        ExceptT.lift (Prog.putLine text)
        pure value : Check α).Upholds (fun _ => kind) (fun _ _ => True) (fun _ _ => True) past :=
  Check.upholds_bind.mpr (Check.upholds_lift.mpr
    (Prog.upholds_attempt.mpr ⟨prints _, fun _ => trivial⟩))

theorem ExitCode.childless : Childless ExitCode.program := by
  refine ⟨_, rfl, fun name argv => ?_⟩
  have upholds
      : (body argv).Upholds (fun _ => Syscall.IsOnFiles) (fun _ _ => True)
          (fun _ _ => True) [] := by
    rcases body_cases argv with ⟨status, same⟩ | ⟨violation, same⟩ <;> rw [same] <;> trivial
  exact upholds.makes_ending (fun _ _ => id) (fun _ => rfl) name

theorem FdTest.childless : Childless FdTest.program := by
  refine ⟨_, rfl, fun name argv => ?_⟩
  have probes {past : List Exchange} {probe : Probe} (fits : probe.capacity ≤ Probe.maxSlots)
      (stream : Randomness.Stream) (line : String) (status : Int32)
      : (probe.run stream >>= rest line status).Upholds (fun _ => Syscall.IsOnFiles)
          (fun _ _ => True)
          (fun _ _ => True) past :=
    Check.upholds_bind.mpr ((Probe.upholds_run fits stream).mono (fun _ _ works => works.1)
      (fun _ _ _ => upholds_line (fun _ => rfl) line status) fun _ _ _ => trivial)
  have upholds
      : (body argv).Upholds (fun _ => Syscall.IsOnFiles) (fun _ _ => True)
          (fun _ _ => True) [] := by
    rcases body_eq argv with same | ⟨violation, same⟩ | ⟨text, check, same, stops⟩ <;> rw [same]
    · exact probes (by decide) _ _ _
    · trivial
    · refine Check.upholds_bind.mpr (Check.upholds_lift.mpr
        (Prog.upholds_attempt.mpr ⟨rfl, fun _ => ?_⟩))
      rcases stops with ⟨violation, rfl⟩ | ⟨index, file, stream, line, -, rfl⟩
      · trivial
      · exact probes (show Probe.sharedCapacity ≤ _ by decide) _ _ _
  exact upholds.makes_ending (fun _ _ => id) (fun _ => rfl) name

theorem Fibonacci.childless : Childless Fibonacci.program := by
  refine ⟨_, rfl, fun name argv => ?_⟩
  have upholds
      : (body argv).Upholds (fun _ => Syscall.IsOnFiles) (fun _ _ => True)
          (fun _ _ => True) [] := by
    rcases body_eq argv with ⟨signature, index, same⟩ | ⟨message, same⟩ <;> rw [same]
    · refine Check.upholds_bind.mpr ((Recurrence.upholds_run _).mono
        (fun _ _ => Recurrence.calls_onFiles) (fun _ result _ => ?_) fun _ _ _ => trivial)
      exact (@upholds_rest _ (fun _ => True) signature index result).mono
        (fun _ _ works => works.1) (fun _ _ => id) fun _ _ => id
    · trivial
  exact upholds.makes_ending (fun _ _ => id) (fun _ => rfl) name

-----------------------------------------------------------------------------------------
-- Programs with children
-----------------------------------------------------------------------------------------

/-- A process that runs jobs whose programs are childless makes calls that a test
program can make.
-/
theorem Spawner.upholds_parental {jobs : List Job} (childless : ∀ job ∈ jobs, Childless job.program)
    : (runJobs jobs).Upholds (fun _ => Parental) (fun _ _ => True) (fun _ _ => True) [] := by
  refine (upholds_runJobs 0 jobs).mono (fun past c allowed => ?_) (fun _ _ _ => trivial)
    fun _ _ _ => trivial
  cases c with
  | exec program argv =>
      obtain ⟨job, next, rfl, rfl⟩ := allowed.1
      exact .inr (childless job (List.mem_of_getElem? next))
  | _ => trivial

theorem ExecTest.makes_parental (name : String) : ((body name).ending name).Makes Parental := by
  have issues (past : List Exchange) (c : Syscall) (issued : Spawner.Issues jobs past c)
      : Parental c := by
    rcases issued with calls | ⟨bytes, rfl⟩
    · cases c with
      | exec =>
          obtain ⟨job, next, rfl, rfl⟩ := calls
          obtain ⟨number, -, rfl⟩ := exists_of_jobs next
          exact .inr ExitCode.childless
      | _ => trivial
    · trivial
  have parts
      : (body name).ending name
        = (runChildren name childCount 1).run >>= Check.resume (fun _ => rest name) name :=
    Check.ending_bind
  rw [parts]
  exact Prog.Makes.bind (Prog.Upholds.makes (upholds_allChildren 0 name) issues) (Check.makes_resume
    (fun _ => trivial) fun _ => makes_rest (.inl rfl) trivial (fun _ => trivial) name name)

theorem MultiProg.makes_parental (name : String) : (body.ending name).Makes Parental := by
  rw [ending_body]
  refine Prog.Makes.bind
    (Prog.Upholds.makes (Spawner.upholds_parental fun job member => ?_) fun _ _ => id)
    (makes_onward name (fun _ => trivial) fun _ => trivial)
  obtain ⟨index, -, rfl⟩ := List.mem_map.mp member
  exact FdTest.childless

theorem SeqFib.makes_parental (argv : List String) (ending : String)
    : ((body argv).ending ending).Makes Parental := by
  have upholds
      : (body argv).Upholds (fun _ => Parental) (fun _ _ => True) (fun _ _ => True) [] := by
    rw [body, argumentNat64, argumentNat64]
    rcases argument_cases Decimal.readNat64 "unit count" 1 argv with ⟨count, read⟩ | ⟨_, refused⟩
    · rw [read, pure_bind]
      rcases argument_cases Decimal.readNat64 "seed" 2 argv with ⟨seed, read⟩ | ⟨_, refused⟩
      · rw [read, pure_bind]
        simp only [issueJobs_eq]
        refine Check.upholds_bind.mpr
          ((Spawner.upholds_parental fun job member => ?_).mono (fun _ _ => id)
          (fun past _ _ => upholds_line (fun _ => trivial) _ _) fun _ _ => id)
        obtain ⟨index, found⟩ := List.mem_iff_getElem?.mp member
        obtain ⟨signature, -, rfl⟩ := drawnJobs_getElem? found
        exact Fibonacci.childless
      · rw [refused]
        trivial
    · rw [refused]
      trivial
  exact upholds.makes_ending (fun _ _ => id) (fun _ => trivial) ending

/-- Whatever its name and its arguments are, a test program makes only calls that a test
program can make.
-/
theorem testProgram_makes_parental {program : String} {main : Main}
    (known : testProgram? program = some main) (name : String) (argv : List String)
    : (main name argv).Makes Parental := by
  have wider {program : String} (childless : Childless program) {main : Main}
      (known : testProgram? program = some main)
      : (main name argv).Makes Parental := by
    obtain ⟨other, same, makes⟩ := childless
    cases known.symm.trans same
    exact (makes name argv).mono fun _ => parental_of_onFiles
  have member := mem_of_testProgram known
  simp only [testPrograms, List.mem_cons, List.not_mem_nil, or_false, Prod.mk.injEq] at member
  rcases member with ⟨rfl, rfl⟩ | ⟨rfl, rfl⟩ | ⟨rfl, rfl⟩ | ⟨rfl, rfl⟩ | ⟨rfl, rfl⟩ | ⟨rfl, rfl⟩
  · exact ExecTest.makes_parental name
  · exact wider ExitCode.childless rfl
  · exact wider FdTest.childless rfl
  · exact wider Fibonacci.childless rfl
  · exact MultiProg.makes_parental name
  · exact SeqFib.makes_parental argv name

/-- The calls that a process can make, by its parent: only a process without a
parent has children.
-/
def Parent.Permits : Parent → Syscall → Prop
  | .proc _ => Syscall.IsOnFiles
  | _ => Parental

/-- Whether a program is a test program that makes only calls which a parent permits
its processes.
-/
def Parent.Fits (parent : Parent) (program : String) : Prop :=
  ∃ main, testProgram? program = some main ∧ ∀ name argv, (main name argv).Makes parent.Permits

-----------------------------------------------------------------------------------------
-- Pools
-----------------------------------------------------------------------------------------

namespace Pool

variable {config : Config} {pool after : Pool} {pid child : Pid} {program : String}

/-- What becomes of a pool when a process goes on. -/
inductive WentOn (pool : Pool) (pid : Pid) : Pool → Prop where
  | idle : WentOn pool pid pool
  | finish {ending} (found : pool.left.get? pid = some (.done ending))
    : WentOn pool pid
        { pool with kernel := pool.kernel.finish pid ending, left := pool.left.erase pid }
  | call {c next reply kernel} (found : pool.left.get? pid = some (.call c next))
    (replied : pool.kernel.call pid c = some (reply, kernel))
    : WentOn pool pid
        (load (c.started? reply) { pool with kernel, left := pool.left.insert pid (next reply) })

theorem wentOn (pool : Pool) (pid : Pid) : WentOn pool pid (pool.goOn pid).2 := by
  rcases found : pool.left.get? pid with _ | ending | ⟨c, next⟩
  · simpa only [goOn, found] using WentOn.idle
  · simpa only [goOn, found] using WentOn.finish found
  · rcases replied : pool.kernel.call pid c with _ | ⟨reply, kernel⟩
    · simpa only [goOn, found, replied] using WentOn.idle
    · simpa only [goOn, found, replied] using WentOn.call found replied

theorem goOn_of_done {ending : Ending} (found : pool.left.get? pid = some (.done ending))
    : (pool.goOn pid).2
      = { pool with kernel := pool.kernel.finish pid ending, left := pool.left.erase pid } := by
  simp only [goOn, found]

theorem goOn_of_call {c : Syscall} {next : c.Reply → Prog Ending} {reply : c.Reply}
    {kernel : Kernel} (found : pool.left.get? pid = some (.call c next))
    (replied : pool.kernel.call pid c = some (reply, kernel))
    : (pool.goOn pid).2
      = load (c.started? reply)
          { pool with kernel, left := pool.left.insert pid (next reply) } := by
  simp only [goOn, found, replied]

@[simp] theorem load_mains (started : Option (String × Pid)) (pool : Pool)
    : (pool.load started).mains = pool.mains := by
  rcases started with _ | ⟨program, pid⟩
  · rfl
  · rw [load]
    split <;> rfl

/-- Who was not started has what it had. -/
theorem get?_load_of_ne {started : Option (String × Pid)}
    (other : ∀ program, started ≠ some (program, pid))
    : (pool.load started).left.get? pid = pool.left.get? pid := by
  rcases started with _ | ⟨program, child⟩
  · rfl
  · rw [load]
    split
    · rfl
    · rw [FiniteMap.get?_insert, if_neg]
      rintro rfl
      exact other program rfl

/-- Who was started has what its program does. -/
theorem get?_load_self {main : Main} (known : pool.mains.get? program = some main)
    : (pool.load (some (program, child))).left.get? child
      = some (main (pool.kernel.context child).name (pool.kernel.context child).argv) := by
  simp only [load, known, FiniteMap.get?_insert, if_pos]

/-- Who is started has nothing to do before. -/
theorem Sound.left_started (sound : pool.Sound config) {parent : Parent} {table : ProcessTable}
    (started : pool.kernel.processes.Started parent program child table)
    : pool.left.get? child = none := by
  obtain ⟨deeds, run⟩ := sound.reachable
  rcases had : pool.left.get? child with _ | prog
  · rfl
  · exact absurd rfl (run.rooted.ne_started started (sound.running child prog had))

/-- A process that has a reply goes on with what is left then. -/
theorem Sound.goOn_call (sound : pool.Sound config) {c : Syscall} {next : c.Reply → Prog Ending}
    (found : pool.left.get? pid = some (.call c next)) {reply : c.Reply} {kernel : Kernel}
    (replied : pool.kernel.call pid c = some (reply, kernel))
    : (pool.goOn pid).2.left.get? pid = some (next reply) := by
  rw [goOn_of_call found replied, get?_load_of_ne fun program begun => ?_, FiniteMap.get?_insert,
    if_pos rfl]
  cases c with
  | exec =>
      rcases reply with _ | _
      · cases begun
      · cases begun
        cases (sound.left_started (Kernel.started_of_call replied)).symm.trans found
  | _ => cases begun

/-- Whether every process of a pool has something to do that comes to an end. -/
structure Tended (config : Config) (pool : Pool) : Prop where
  sound : pool.Sound config
  mains : pool.mains = testMains
  loadable : ∀ program ∈ pool.kernel.programs, testProgram? program ≠ none
  tended
    : ∀ pid parent,
        pool.kernel.processes.slots.get? pid = some ⟨parent, .running⟩
        → ∃ prog, pool.left.get? pid = some prog ∧ prog.Makes parent.Permits

namespace Tended

/-- A step that makes no program loadable leaves a pool tended, if the processes go on with what is
left of what they had, and who is started has a program that fits its parent.
-/
theorem advance (tended : pool.Tended config) {deed : Deed} {kernel : Kernel}
    {left : FiniteMap Pid (Prog Ending)} {started : Option (String × Pid)}
    (step : pool.kernel.Step deed kernel) (programs : kernel.programs = pool.kernel.programs)
    (kept
      : ∀ pid prog,
          pool.left.get? pid = some prog
          → kernel.processes.isRunning pid = true
          → ∃ rest, left.get? pid = some rest ∧ ∀ kind, prog.Makes kind → rest.Makes kind)
    (begun
      : ∀ pid parent program,
          deed.event? = some (.spawned pid parent program)
          → started = some (program, pid) ∧ parent.Fits program)
    (fresh : ∀ program pid, started = some (program, pid) → pool.left.get? pid = none)
    (sound : (load started { pool with kernel, left }).Sound config)
    : (load started { pool with kernel, left }).Tended config where
  sound
  mains := by
    rw [load_mains]
    exact tended.mains
  loadable := by
    rw [load_kernel, programs]
    exact tended.loadable
  tended pid parent found := by
    rw [load_kernel] at found
    have runs : kernel.processes.isRunning pid = true :=
      ProcessTable.isRunning_iff.mpr ⟨parent, found⟩
    have goesOn (prog : Prog Ending) (had : pool.left.get? pid = some prog)
        (makes : prog.Makes parent.Permits)
        : ∃ rest,
            (load started { pool with kernel, left }).left.get? pid = some rest
            ∧ rest.Makes parent.Permits := by
      obtain ⟨rest, has, weaker⟩ := kept pid prog had runs
      refine ⟨rest, ?_, weaker _ makes⟩
      rw [get?_load_of_ne fun program same => ?_]
      · exact has
      · cases (fresh program pid same).symm.trans had
    rcases step.processes.found found with
      before | ⟨parent, before, same⟩ | ⟨_, program, event, same⟩ | ⟨_, _, ended⟩
    · obtain ⟨prog, had, makes⟩ := tended.tended pid parent before
      exact goesOn prog had makes
    · cases same
      obtain ⟨prog, had, makes⟩ := tended.tended pid (.proc parent) before
      exact goesOn prog had (makes.mono fun _ => parental_of_onFiles)
    · cases same
      obtain ⟨rfl, main, known, makes⟩ := begun pid parent program event
      refine ⟨_, get?_load_self ?_, makes _ _⟩
      rw [← known, ← get?_testMains, ← tended.mains]
    · cases ended

/-- A program that was started is a test program. -/
theorem testProgram (tended : pool.Tended config) (loaded : program ∈ pool.kernel.programs)
    : ∃ main, testProgram? program = some main :=
  Option.ne_none_iff_exists'.mp (tended.loadable program loaded)

/-- What a process starts fits to be its child. -/
theorem fits_child (tended : pool.Tended config) {argv : List String} {kernel : Kernel}
    {next : (Syscall.exec program argv).Reply → Prog Ending}
    (found : pool.left.get? pid = some (.call (.exec program argv) next))
    (replied : pool.kernel.call pid (.exec program argv) = some (.ok child, kernel))
    : (Parent.proc pid).Fits program := by
  obtain ⟨parent, slot⟩ := ProcessTable.isRunning_iff.mp (tended.sound.running pid _ found)
  obtain ⟨prog, same, makes⟩ := tended.tended pid parent slot
  cases found.symm.trans same
  have parental : Parental (.exec program argv) := by
    cases parent with
    | proc => cases makes.1
    | _ => exact makes.1
  rcases parental with rfl | childless
  · exact absurd rfl (tended.loadable _ (Kernel.program_of_call replied))
  · exact childless

/-- Whatever a process does next leaves a pool tended, by cases on it. -/
theorem goOn (tended : pool.Tended config) (pid : Pid) : (pool.goOn pid).2.Tended config := by
  have sound := tended.sound.goOn pid
  have went := pool.wentOn pid
  generalize (pool.goOn pid).2 = after at went sound
  cases went with
  | idle => exact tended
  | finish found =>
      refine @advance _ _ tended _ _ _ none (.finish (tended.sound.running pid _ found))
        (Kernel.finish_programs ..) (fun other prog had runs => ⟨prog, ?_, fun _ => id⟩)
          nofun nofun sound
      rw [FiniteMap.get?_erase, if_neg]
      · exact had
      · rintro rfl
        rw [Kernel.finish_processes, ProcessTable.isRunning_exit_self] at runs
        cases runs
  | @call c next reply kernel found replied =>
      have runs := tended.sound.running pid _ found
      refine tended.advance (.call runs replied) (Kernel.call_programs replied)
        (fun other prog had _ => ?_) (fun child parent program event => ?_)
          (fun program child begun => ?_) sound
      · rw [FiniteMap.get?_insert]
        split
        · next same =>
            subst same
            cases had.symm.trans found
            exact ⟨next reply, rfl, fun kind makes => makes.2 reply⟩
        · exact ⟨prog, had, fun _ => id⟩
      · cases c with
        | exec =>
            rcases reply with _ | _
            · cases event
            · cases event
              exact ⟨rfl, tended.fits_child found replied⟩
        | join => rcases reply with _ | _ <;> cases event
        | _ => cases event
      · cases c with
        | exec =>
            rcases reply with _ | _
            · cases begun
            · cases begun
              exact tended.sound.left_started (Kernel.started_of_call replied)
        | _ => cases begun

end Tended

-----------------------------------------------------------------------------------------
-- Every process can come to its end
-----------------------------------------------------------------------------------------

/-- Pools that come of a pool when processes go on. -/
inductive GoesOn (pool : Pool) : Pool → Prop where
  | refl : GoesOn pool pool
  | step {middle} (onward : GoesOn pool middle) (pid : Pid) : GoesOn pool (middle.goOn pid).2

theorem GoesOn.trans {last : Pool} (first : pool.GoesOn after) (second : after.GoesOn last)
    : pool.GoesOn last := by
  induction second with
  | refl => exact first
  | step _ pid ih => exact ih.step pid

theorem GoesOn.from_step (pid : Pid) (onward : GoesOn (pool.goOn pid).2 after)
    : pool.GoesOn after :=
  (GoesOn.refl.step pid).trans onward

theorem isRunning_goOn_of_done {ending : Ending} (found : pool.left.get? pid = some (.done ending))
    : (pool.goOn pid).2.kernel.processes.isRunning pid = false := by
  rw [goOn_of_done found]
  dsimp only
  rw [Kernel.finish_processes, ProcessTable.isRunning_exit_self]

/-- Only a join can be without a reply, and only while it is for a child that runs. -/
theorem blocked_cases {kernel : Kernel} {c : Syscall} (runs : kernel.processes.isRunning pid = true)
    (blocked : kernel.call pid c = none)
    : ∃ child,
        c = .join child ∧ kernel.processes.slots.get? child = some ⟨.proc pid, .running⟩ := by
  cases c with
  | join child =>
      refine ⟨child, rfl, ?_⟩
      by_cases owned
        : ∃ slot, kernel.processes.slots.get? child = some slot ∧ slot.parent = .proc pid
      · obtain ⟨⟨_, _ | status⟩, found, rfl⟩ := owned
        · exact found
        · obtain ⟨after, replied, -⟩ := Wait.retry_zombie ⟨.proc pid, child⟩ runs found
          cases blocked.symm.trans replied
      · have replied :=
          Wait.retry_noChild ⟨.proc pid, child⟩ fun slot found same => owned ⟨slot, found, same⟩
        cases blocked.symm.trans replied
  | _ => cases blocked

namespace Tended

/-- A process without children can go on until it has ended, while all others stay where they are,
by induction on what is left of its program.
-/
theorem ends_childless (tended : pool.Tended config) {prog : Prog Ending}
    (found : pool.left.get? pid = some prog) (makes : prog.Makes Syscall.IsOnFiles)
    : ∃ after,
        pool.GoesOn after
        ∧ after.Tended config
        ∧ after.kernel.processes.isRunning pid = false
        ∧ ∀ other, other ≠ pid → after.left.get? other = pool.left.get? other := by
  induction prog generalizing pool with
  | done ending =>
      refine ⟨_, GoesOn.refl.step pid, tended.goOn pid, isRunning_goOn_of_done found,
        fun other different => ?_⟩
      rw [goOn_of_done found, FiniteMap.get?_erase, if_neg different]
  | call c next ih =>
      obtain ⟨onFiles, onward⟩ := makes
      obtain ⟨reply, kernel, replied⟩ := Kernel.call_onFiles onFiles pool.kernel pid
      have went := tended.goOn pid
      have same := goOn_of_call found replied
      rw [Kernel.started?_onFiles onFiles] at same
      have lookup (other : Pid)
          : (pool.goOn pid).2.left.get? other
            = if other = pid then some (next reply) else pool.left.get? other := by
        rw [same, load, FiniteMap.get?_insert]
      obtain ⟨after, goes, kept, finished, others⟩ :=
        ih reply went (by rw [lookup, if_pos rfl]) (onward reply)
      refine ⟨after, .from_step pid goes, kept, finished, fun other different => ?_⟩
      rw [others other different, lookup, if_neg different]

/-- Every process can come to its end if the processes go on in a suitable order, by induction on
what is left of its program: a child that it waits for can end first.
-/
theorem ends (tended : pool.Tended config) {prog : Prog Ending}
    (found : pool.left.get? pid = some prog)
    : ∃ after,
        pool.GoesOn after
        ∧ after.Tended config
        ∧ after.kernel.processes.isRunning pid = false := by
  induction prog generalizing pool with
  | done ending => exact ⟨_, GoesOn.refl.step pid, tended.goOn pid, isRunning_goOn_of_done found⟩
  | call c next ih =>
      have onward {ready : Pool} (tended : ready.Tended config)
          (found : ready.left.get? pid = some (.call c next)) {reply : c.Reply} {kernel : Kernel}
          (replied : ready.kernel.call pid c = some (reply, kernel))
          : ∃ after,
              ready.GoesOn after
              ∧ after.Tended config
              ∧ after.kernel.processes.isRunning pid = false := by
        obtain ⟨after, goes, kept, finished⟩ :=
          ih reply (tended.goOn pid) (tended.sound.goOn_call found replied)
        exact ⟨after, .from_step pid goes, kept, finished⟩
      rcases replied : pool.kernel.call pid c with _ | ⟨reply, kernel⟩
      · obtain ⟨child, rfl, slot⟩ := blocked_cases (tended.sound.running pid _ found) replied
        obtain ⟨todo, had, makes⟩ := tended.tended child (.proc pid) slot
        obtain ⟨ready, goes, kept, finished, others⟩ := tended.ends_childless had makes
        have different : pid ≠ child := by
          obtain ⟨deeds, run⟩ := tended.sound.reachable
          rintro rfl
          exact absurd (run.rooted.parentRuns slot rfl).2 (Nat.lt_irrefl _)
        have still : ready.left.get? pid = some (.call (.join child) next) := by
          rw [others pid different]
          exact found
        rcases answered : ready.kernel.call pid (.join child) with _ | ⟨reply, kernel⟩
        · obtain ⟨_, same, stays⟩ := blocked_cases (kept.sound.running pid _ still) answered
          cases same
          rw [ProcessTable.isRunning_iff.mpr ⟨_, stays⟩] at finished
          cases finished
        · obtain ⟨after, further, done⟩ := onward kept still answered
          exact ⟨after, goes.trans further, done⟩
      · exact onward tended found replied

end Tended

end Pool

end KernelConformance
