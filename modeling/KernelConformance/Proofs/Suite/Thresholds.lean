import KernelConformance.Proofs.Suite.ParentNeeds

/-! The resources at which each test passes. On a kernel that it has for itself, whether a program
exits with zero depends on nothing but how many process slots and open files there are, in whatever
order it and its children act, and if it does it leaves nothing.
-/

namespace KernelConformance

open Kernel (Performs WorksWith noName)
open Spawner (Dependable Feasible Issues NeedsRoom Sequel Served Sweeps failing)

variable {α : Type} {config : Config}

theorem Settles.congr {program : String} {argv : List String} {passes holds : Prop}
    (settles : Settles config program argv passes) (same : passes ↔ holds)
    : Settles config program argv holds :=
  propext same ▸ settles

-----------------------------------------------------------------------------------------
-- Programs without children
-----------------------------------------------------------------------------------------

theorem failureCode_ne_zero : failureCode ≠ 0 := by decide

/-- The condition on which a program exits with zero and not with another status. -/
theorem ite_eq_zero {condition : Prop} [Decidable condition] {status : Int32}
    (different : status ≠ 0)
    : (if condition then 0 else status) = 0 ↔ condition := by
  split
  · next holds => exact iff_of_true rfl holds
  · next fails => exact iff_of_false different fails

/-- A probe that is alone passes if it can have exactly as many open files as it expects. -/
theorem FdTest.settles (long : 23 ≤ config.maxNameLength)
    : Settles config program [program] (config.maxOpenFiles = Probe.loneCapacity) := by
  refine settles_of_endsAlone rfl ((endsAlone config _).mono fun _ _ _ _ leaves => ?_)
    fun root begin opening => ?_
  · exact leaves.mono fun name left => by cases left.1
  · obtain ⟨deeds, run⟩ := opening.reachable
    obtain ⟨after, performs⟩ := performs_alone run opening.newborn long (opening.names _) program
    exact ⟨_, after, performs, ite_eq_zero failureCode_ne_zero⟩

/-- A run of the recurrence passes if it can have both of its files open. -/
theorem Fibonacci.settles (long : 20 ≤ config.maxNameLength)
    : Settles config program [program, "0", "0"] (4 ≤ config.maxOpenFiles) := by
  refine settles_of_endsAlone rfl (endsAlone config _) fun root begin opening => ?_
  obtain ⟨deeds, run⟩ := opening.reachable
  by_cases room : 4 ≤ config.maxOpenFiles
  · obtain ⟨after, performs⟩ :=
      (@can_end _ _ _ _ 0 0 run room long (by decide) (by decide) opening.newborn.runs
        (opening.newborn.fds run) program).ends
    exact ⟨0, after, performs, iff_of_true rfl room⟩
  · obtain ⟨after, performs⟩ :=
      performs_failure run opening.newborn (Nat.lt_of_not_le room) program
    exact ⟨failureCode, after, performs, iff_of_false failureCode_ne_zero room⟩

-----------------------------------------------------------------------------------------
-- Programs that run jobs
-----------------------------------------------------------------------------------------

/-- A program that runs jobs passes if there is a slot for a child and the children have what they
need, as it has seen one fail otherwise.
-/
theorem settles_of_jobs {program : String} {argv : List String} {prog : Prog Ending}
    {check : Check α} {onward : Except Check.Stop α → Prog Ending} {jobs : List Job}
    {names : Nat → String → Prop} {except : String → Prop} {enough : Prop}
    (known : testRun? program argv = some prog) (parts : prog = check.run >>= onward)
    (shipped : ∀ job ∈ jobs, ∃ main, (job.program, main) ∈ testPrograms)
    (sweeps : ∀ job ∈ jobs, Sweeps except job) (sequel : Sequel except onward)
    (passing
      : enough → Feasible config jobs names ∧ ∀ capacity, NeedsRoom capacity jobs check)
    (fails
      : ¬enough
        → Feasible config (jobs.map failing) names
          ∧ ∀ capacity,
              check.Upholds (Issues (jobs.map failing))
                (fun past _ => ¬Served capacity (jobs.map failing) past) Check.Failed [])
    : Settles config program argv (2 ≤ config.maxProcesses ∧ enough) := by
  refine ⟨prog, known, fun root begin during kernel ending opening steps acts finished => ?_⟩
  rw [parts] at acts
  have loadable (job : Job) (member : job ∈ jobs) : job.program ∈ begin.programs := by
    obtain ⟨main, installed⟩ := shipped job member
    exact opening.installed _ installed
  by_cases holds : enough
  · obtain ⟨feasible, needs⟩ := passing holds
    rw [and_iff_left holds]
    exact feasible.passes opening loadable (needs _) sequel sweeps steps acts finished
  · obtain ⟨feasible, issues⟩ := fails holds
    refine ⟨iff_of_false ?_ fun both => holds both.2, fun both => absurd both.2 holds⟩
    refine feasible.fails opening (fun job member => ?_) (issues _) sequel steps acts finished
    obtain ⟨original, among, rfl⟩ := List.mem_map.mp member
    exact loadable original among

/-- After a check a process goes on with the rest of its program, which makes no files. -/
theorem sequel_resume {rest : α → Check Int32} {name : String}
    (makes : ∀ value, ((rest value).ending name).Makes Syscall.MakesNoFile)
    (passes
      : ∀ value (kernel : Kernel) root,
          ExecTest.absentProgram ∉ kernel.programs
          → (∀ pid slot, kernel.processes.slots.get? pid = some slot → slot.parent = .host)
          → ∃ after, Performs root kernel (rest value).run (.ok 0) after)
    : Sequel noName (Check.resume rest name) where
  makes := Check.makes_resume (fun _ => nofun) makes
  passes value kernel root absent hosted := by
    obtain ⟨after, performs⟩ := passes value kernel root absent hosted
    exact ⟨after, performs.ending name⟩
  removes value :=
    (@Prog.Makes.unremoved [] _ _ noName (makes value) nofun).mono (fun _ _ => id) fun _ _ _ _ =>
      nofun
  fails := Check.upholds_resume_failure

/-- A program that makes no files sweeps. -/
theorem sweeps_of_makes {job : Job}
    (makes : ∀ todo, testRun? job.program job.argv = some todo → todo.Makes Syscall.MakesNoFile)
    : Sweeps noName job :=
  fun todo known => (makes todo known).unremoved nofun

/-- Calls on the output make no files. -/
theorem makesNoFile_print (bytes : Utf8.Bytes) : (Syscall.write .stdout bytes).MakesNoFile := nofun

namespace ExecTest

theorem shipped (job : Job) (member : job ∈ jobs) : ∃ main, (job.program, main) ∈ testPrograms := by
  obtain ⟨index, found⟩ := List.mem_iff_getElem?.mp member
  obtain ⟨number, -, rfl⟩ := exists_of_jobs found
  exact ⟨_, .tail _ (.head _)⟩

/-- The children make no files. -/
theorem sweeps (job : Job) (member : job ∈ jobs) : Sweeps noName job := by
  obtain ⟨index, found⟩ := List.mem_iff_getElem?.mp member
  obtain ⟨number, -, rfl⟩ := exists_of_jobs found
  refine sweeps_of_makes fun todo known => ?_
  cases known
  have upholds
      : (ExitCode.body (job number).argv).Upholds (fun _ => Syscall.MakesNoFile) (fun _ _ => True)
          (fun _ _ => True) [] := by
    rcases ExitCode.body_cases (job number).argv with ⟨status, same⟩ | ⟨violation, same⟩ <;>
      rw [same]
      <;> trivial
  exact upholds.makes_ending (fun _ _ => id) makesNoFile_print _

/-- The program that starts and joins children passes if there is a slot for a child. -/
theorem settles (config : Config) : Settles config program [program] (2 ≤ config.maxProcesses) := by
  have parts
      : (body program).ending program
        = (runChildren program childCount 1).run >>= Check.resume (fun _ => rest program) program :=
    Check.ending_bind
  refine (@settles_of_jobs _ config program [program] _ _ _ jobs (fun _ => noName) noName
    True rfl parts
    shipped sweeps
      (sequel_resume (fun _ => makes_rest nofun nofun (fun _ => nofun) program program) ?_) ?_
    (absurd trivial)).congr (and_iff_left trivial)
  · intro _ kernel root absent hosted
    refine performs_rest absent (fun slot found => ?_) program
    rw [hosted _ slot found]
    nofun
  · exact fun _ => ⟨feasible config, fun capacity => needsRoom capacity program⟩

end ExecTest

namespace MultiProg

variable {index : Nat} {task : Job}

/-- The file of the job at a place. -/
def names (index : Nat) (name : String) : Prop :=
  index < instances ∧ name = instanceFile (Int32.ofNat index)

theorem jobs_getElem? (found : (indices.map job)[index]? = some task)
    : index < instances ∧ task = job (Int32.ofNat index) := by
  rw [indices, List.map_map, List.getElem?_map, Option.map_eq_some_iff] at found
  obtain ⟨number, place, rfl⟩ := found
  obtain ⟨bound, same⟩ := List.getElem?_eq_some_iff.mp place
  rw [List.length_range] at bound
  rw [List.getElem_range] at same
  exact ⟨bound, same ▸ rfl⟩

theorem argv_job (bound : index < instances)
    : (job (Int32.ofNat index)).argv
      = [FdTest.program, toString index, instanceFile (Int32.ofNat index)] := by
  rw [← Decimal.write_ofNat (Nat.le_trans (Nat.le_of_lt bound) (by decide))]
  rfl

theorem small_of_index (bound : index < instances) : index ≤ 2147483647 :=
  Nat.le_trans (Nat.le_of_lt bound) (by decide)

theorem names_eq (bound : index < instances)
    : names index = (· = instanceFile (Int32.ofNat index)) :=
  funext fun _ => propext (and_iff_right bound)

theorem names_disjoint (index other : Nat) (name : String) (uses : names index name)
    (used : names other name)
    : other = index := by
  obtain ⟨bound, rfl⟩ := uses
  obtain ⟨boundToo, same⟩ := used
  have distinct
      : ∀ index < instances,
          ∀ other < instances,
            instanceFile (Int32.ofNat index) = instanceFile (Int32.ofNat other)
              → other = index := by
    decide
  exact distinct index bound other boundToo same

theorem instanceFile_accepted {deeds : List Deed} {kernel : Kernel}
    (run : Kernel.Run config deeds kernel) (long : 24 ≤ config.maxNameLength)
    (bound : index < instances)
    : kernel.files.acceptsName (instanceFile (Int32.ofNat index)) = true :=
  TestFile.accepted run (.probed _)
    (Nat.le_trans (TestFile.byteSize_name_le_of_small (small_of_index bound) rfl) long)

/-- A probe works with its own file, and exits with its number if it can have the open files that it
expects. Otherwise it fails.
-/
theorem dependable (long : 24 ≤ config.maxNameLength) (bound : index < instances)
    {signature : Int32}
    (exits
      : signature
        = if Probe.sharedCapacity ≤ config.maxOpenFiles then Int32.ofNat index else failureCode)
    : Dependable config (names index) { job (Int32.ofNat index) with signature } := by
  refine ⟨_, rfl, fun deeds kernel pid run newborn => ?_⟩
  dsimp only at newborn ⊢
  rw [argv_job bound] at newborn ⊢
  rw [names_eq bound]
  have small := small_of_index bound
  constructor
  · exact ⟨[], Kernel.upholds_ending (FdTest.upholds_shared small _) _⟩
  · rw [exits]
    exact FdTest.performs_shared run newborn small (instanceFile_accepted run long bound) _

theorem small_argv (number : Int32) : (job number).argv.length ≤ maxArguments :=
  show 3 ≤ 16 by decide

/-- Both probes can be run wherever there is room for a child and for the descriptors
that they expect.
-/
theorem feasible (long : 24 ≤ config.maxNameLength)
    (enough : Probe.sharedCapacity ≤ config.maxOpenFiles)
    : Feasible config (indices.map job) names where
  short task member := by
    obtain ⟨number, -, rfl⟩ := List.mem_map.mp member
    exact small_argv number
  dependable index task found := by
    obtain ⟨bound, rfl⟩ := jobs_getElem? found
    exact dependable long bound (if_pos enough).symm
  disjoint := names_disjoint

/-- Both probes fail where there are not as many descriptors as they expect. -/
theorem feasible_failing (long : 24 ≤ config.maxNameLength)
    (few : ¬Probe.sharedCapacity ≤ config.maxOpenFiles)
    : Feasible config ((indices.map job).map failing) names where
  short task member := by
    obtain ⟨_, among, rfl⟩ := List.mem_map.mp member
    obtain ⟨number, -, rfl⟩ := List.mem_map.mp among
    exact small_argv number
  dependable index task found := by
    rw [List.getElem?_map, Option.map_eq_some_iff] at found
    obtain ⟨original, given, rfl⟩ := found
    obtain ⟨bound, rfl⟩ := jobs_getElem? given
    exact dependable long bound (if_neg few).symm
  disjoint := names_disjoint

/-- A probe makes no file but its own. -/
theorem sweeps (task : Job) (member : task ∈ indices.map job) : Sweeps IsInstanceFile task := by
  obtain ⟨index, found⟩ := List.mem_iff_getElem?.mp member
  obtain ⟨bound, rfl⟩ := jobs_getElem? found
  have among : Int32.ofNat index ∈ indices := List.mem_map_of_mem (List.mem_range.mpr bound)
  intro todo known
  cases known
  have upholds := Kernel.upholds_ending
    (@FdTest.upholds_shared FdTest.program index (small_of_index bound)
      (instanceFile (Int32.ofNat index)))
    FdTest.program
  rw [argv_job bound]
  refine (Prog.Upholds.unremoved upholds (fun _ _ works => works.2 _ rfl) nofun).mono
    (fun _ _ _ => trivial) fun past _ left name member => ?_
  rw [left.2 name member]
  exact List.mem_map_of_mem among

/-- Files can always be removed, by induction on them. -/
theorem performs_removeAll (files : List String) (kernel : Kernel) (pid : Pid)
    : ∃ after, Performs pid kernel (removeAll files) () after := by
  induction files generalizing kernel with
  | nil => exact ⟨kernel, .done⟩
  | cons file rest ih =>
      obtain ⟨reply, middle, replied⟩ := @Kernel.call_onFiles (.unlink file) rfl kernel pid
      obtain ⟨after, removes⟩ := ih middle
      exact ⟨after, (Performs.attempt replied rfl).bind removes⟩

theorem makes_removeAll {kind : Syscall → Prop} (unlinks : ∀ file, kind (.unlink file))
    (files : List String)
    : (removeAll files).Makes kind := by
  induction files with
  | nil => trivial
  | cons file rest ih => exact Prog.Makes.bind ⟨unlinks file, fun _ => trivial⟩ fun _ => ih

/-- Each of the files is removed by a call, by induction on them. -/
theorem upholds_removeAll (files : List String) {past : List Exchange}
    : (removeAll files).Upholds (fun _ _ => True)
        (fun after _ =>
          ∀ name,
            (name ∈ files ∨ ∃ reply, ⟨.unlink name, reply⟩ ∈ past)
            → ∃ reply, ⟨.unlink name, reply⟩ ∈ after)
        past := by
  induction files generalizing past with
  | nil => exact fun name removed => removed.resolve_left nofun
  | cons file rest ih =>
      refine Prog.upholds_bind.mpr (Prog.upholds_attempt.mpr ⟨trivial, fun reply => ?_⟩)
      refine ih.mono (fun _ _ => id) fun after _ removed name either => removed name ?_
      rcases either with among | ⟨reply, before⟩
      · rcases List.mem_cons.mp among with rfl | later
        · exact .inr ⟨reply, List.mem_append_right _ (.head _)⟩
        · exact .inl later
      · exact .inr ⟨reply, List.mem_append_left _ before⟩

/-- What is left of the program when its jobs have passed. -/
def rest : Check Int32 := do
  ExceptT.lift (Prog.putLine "--- PASS multiprogramming")
  pure 0

/-- How the program goes on after its jobs. -/
def onward (name : String) (outcome : Except Check.Stop Spawner.Report) : Prog Ending := do
  Check.lastOf (fun _ => removeAll (indices.map instanceFile)) outcome
  Check.resume (fun _ => rest) name outcome

theorem ending_body (name : String)
    : body.ending name = ((Spawner.runJobs (indices.map job)).run >>= onward name) :=
  Check.ending_andFinally

/-- After its jobs the program only removes files and prints. -/
theorem makes_onward {kind : Syscall → Prop} (name : String) (unlinks : ∀ file, kind (.unlink file))
    (prints : ∀ bytes, kind (.write .stdout bytes)) (outcome : Except Check.Stop Spawner.Report)
    : (onward name outcome).Makes kind := by
  refine Prog.Makes.bind ?_ fun _ => Check.makes_resume prints (fun _ => ?_) outcome
  · rcases outcome with (violation | _) | report
    · exact makes_removeAll unlinks _
    · trivial
    · exact makes_removeAll unlinks _
  · exact ⟨prints _, fun _ => trivial⟩

theorem sequel (name : String) : Sequel IsInstanceFile (onward name) where
  makes := makes_onward name (fun _ => nofun) fun _ => nofun
  passes report kernel root _ _ := by
    obtain ⟨middle, removes⟩ := performs_removeAll (indices.map instanceFile) kernel root
    obtain ⟨after, prints, -⟩ := Kernel.performs_putLine middle root "--- PASS multiprogramming"
    exact ⟨after, removes.bind (Performs.ending (prints.lift.check_ok .done) name)⟩
  removes report := by
    refine Prog.upholds_bind.mpr
      ((upholds_removeAll _).mono (fun _ _ => id) fun past _ removed => ?_)
    refine ⟨trivial, fun _ file among => ?_⟩
    exact (removed file (.inl among)).imp fun _ => List.mem_append_left _
  fails message := by
    refine Prog.upholds_bind.mpr ((upholds_removeAll _).mono (fun _ _ => id) fun past _ _ => ?_)
    exact Check.upholds_resume_failure message

/-- The program that makes two probes at the same time passes if there is a slot for a child and the
probes can have as many open files as they expect.
-/
theorem settles (long : 24 ≤ config.maxNameLength)
    : Settles config program [program]
        (2 ≤ config.maxProcesses ∧ Probe.sharedCapacity ≤ config.maxOpenFiles) := by
  refine settles_of_jobs rfl (ending_body program) (fun task member => ?_) sweeps (sequel program)
    (fun enough =>
      ⟨feasible long enough, fun capacity => Spawner.needsRoom_runJobs capacity (by decide)⟩)
    fun few => ⟨feasible_failing long few, fun capacity => ?_⟩
  · obtain ⟨number, -, rfl⟩ := List.mem_map.mp member
    exact ⟨_, .tail _ (.tail _ (.head _))⟩
  · exact Spawner.upholds_runJobs_failing (List.head?_map ..) (by decide) capacity

end MultiProg

namespace SeqFib

/-- What the program does without arguments. -/
theorem body_standard
    : body [program] = (Spawner.runJobs (jobs standardJobs standardSeed) >>= fun _ => rest) := by
  have first : argumentNat64 "unit count" 1 [program] = pure none := rfl
  have second : argumentNat64 "seed" 2 [program] = pure none := rfl
  rw [body, first, pure_bind, second, pure_bind]
  simp only [Option.getD_none, issueJobs_eq]
  rfl

/-- The first of the jobs has the signature 12. -/
theorem first_standard : (jobs standardJobs standardSeed).head? = some (job 12 standardJobs) := by
  decide +kernel

/-- Nothing is left of a pair of files when both were removed. -/
theorem not_left {pair : FilePair} {past : List Exchange}
    (left : ∀ name ∈ unremoved past, pair.Names name) {first second : Except Errno Unit}
    : ∀ name ∈ unremoved (past ++ [⟨.unlink pair.first, first⟩] ++ [⟨.unlink pair.second, second⟩]),
        noName name := by
  intro name member
  obtain ⟨earlier, notSecond⟩ := (mem_unremoved_snoc.mp member).resolve_left nofun
  obtain ⟨earliest, notFirst⟩ := (mem_unremoved_snoc.mp earlier).resolve_left nofun
  rcases left name earliest with rfl | rfl
  · exact notFirst rfl
  · exact notSecond rfl

/-- A run of the recurrence removes the files that it has made. -/
theorem sweeps_run (pair : FilePair) (rounds : Nat) {rest : Int32 → Check Int32} {name : String}
    (makes : ∀ result, ((rest result).ending name).Makes Syscall.MakesNoFile)
    : ((Recurrence.run pair rounds >>= rest).ending name).Upholds (fun _ _ => True)
        (fun past _ => ∀ name ∈ unremoved past, noName name) [] := by
  have makesPair (past : List Exchange) (name : String)
    (calls : Recurrence.Calls pair past (.creat name))
      : pair.Names name :=
    calls
  have nothing : ∀ name ∈ unremoved [], pair.Names name := fun _ => nofun
  have computes := Prog.Upholds.unremoved (Recurrence.upholds_compute rounds) makesPair nothing
  rw [Recurrence.run, Check.ending_andFinally]
  refine Prog.upholds_bind.mpr
    (computes.mono (fun _ _ _ => trivial) fun past outcome computed => ?_)
  have resumes {first second : Except Errno Unit}
      : (Check.resume rest name outcome).Upholds (fun _ _ => True)
          (fun past _ => ∀ name ∈ unremoved past, noName name)
          (past ++ [⟨.unlink pair.first, first⟩] ++ [⟨.unlink pair.second, second⟩]) :=
    (Check.makes_resume (fun _ => nofun) makes outcome).unremoved (not_left computed.2)
  rcases outcome with (violation | _) | result
  · exact ⟨trivial, fun first => ⟨trivial, fun second => resumes⟩⟩
  · obtain ⟨message, stopped⟩ := computed.1
    cases stopped
  · exact ⟨trivial, fun first => ⟨trivial, fun second => resumes⟩⟩

/-- A job that is a run of the recurrence leaves no files. -/
theorem sweeps (argv : List String) (signature : Int32)
    : Sweeps noName ⟨Fibonacci.program, argv, signature⟩ := by
  intro todo known
  cases known
  change ((Fibonacci.body argv).ending _).Upholds _ _ _
  rcases Fibonacci.body_eq argv with ⟨signature, index, same⟩ | ⟨message, same⟩
  · rw [same]
    refine sweeps_run _ _ fun result => ?_
    refine (@Fibonacci.upholds_rest [] noName signature index result).makes_ending ?_
      makesNoFile_print _
    exact fun _ _ works name same => (works.2 name (same ▸ rfl)).elim
  · rw [same]
    exact ⟨trivial, fun _ => nofun⟩

/-- A run of the recurrence fails where there is no room for its files. -/
theorem dependable_failing {count seed index : Nat} {task : Job} (small : count ≤ 2147483647)
    (few : ¬4 ≤ config.maxOpenFiles) (found : (jobs count seed)[index]? = some task)
    : Dependable config (names count index) (failing task) := by
  obtain ⟨bound, signature, below, rfl⟩ := jobs_getElem? found
  have own : names count index = (FilePair.ofIndex (Int32.ofNat (count - index))).Names :=
    funext fun _ => propext (and_iff_right bound)
  have bounded : signature ≤ 2147483647 := Nat.le_of_lt (Nat.lt_trans below (by decide))
  have body : Fibonacci.body (job signature (count - index)).argv = _ :=
    Fibonacci.body_of_le Fibonacci.program bounded (by omega)
  refine ⟨_, rfl, fun deeds kernel pid run newborn => ⟨⟨[], ?_⟩, ?_⟩⟩
  · rw [own]
    change ((Fibonacci.body (job signature (count - index)).argv).ending _).Upholds _ _ _
    rw [body]
    exact Kernel.upholds_ending (Fibonacci.upholds_passing _ _) _
  · exact Fibonacci.performs_failure run newborn (Nat.lt_of_not_le few) _

/-- All runs fail where there is no room for their files. -/
theorem feasible_failing {count seed : Nat} (small : count ≤ 2147483647)
    (few : ¬4 ≤ config.maxOpenFiles)
    : Feasible config ((jobs count seed).map failing) (names count) where
  short task member := by
    obtain ⟨original, among, rfl⟩ := List.mem_map.mp member
    obtain ⟨index, found⟩ := List.mem_iff_getElem?.mp among
    obtain ⟨-, signature, -, rfl⟩ := jobs_getElem? found
    exact show 3 ≤ 16 by decide
  dependable index task found := by
    rw [List.getElem?_map, Option.map_eq_some_iff] at found
    obtain ⟨original, given, rfl⟩ := found
    exact dependable_failing small few given
  disjoint := names_disjoint small

/-- The program that makes many runs of the recurrence passes if there is a slot for a child and
room for the files of one.
-/
theorem settles (long : 20 ≤ config.maxNameLength)
    : Settles config program [program] (2 ≤ config.maxProcesses ∧ 4 ≤ config.maxOpenFiles) := by
  have small : standardJobs ≤ 2147483647 := by decide
  have some : jobs standardJobs standardSeed ≠ [] := by
    intro none
    have first := first_standard
    rw [none] at first
    cases first
  have parts
      : (body [program]).ending program
        = (Spawner.runJobs (jobs standardJobs standardSeed)).run
          >>= Check.resume (fun _ => rest) program := by
    rw [body_standard, Check.ending_bind]
  refine settles_of_jobs rfl parts (fun task member => ?_) (fun task member => ?_)
    (sequel_resume (fun _ => ⟨nofun, fun _ => trivial⟩) fun report kernel root _ _ => ?_)
    (fun room =>
      ⟨feasible room long small, fun capacity => Spawner.needsRoom_runJobs capacity some⟩)
    fun few => ⟨feasible_failing small few, fun capacity =>
      Spawner.upholds_runJobs_failing first_standard (by decide) capacity⟩
  · obtain ⟨index, found⟩ := List.mem_iff_getElem?.mp member
    obtain ⟨-, signature, -, rfl⟩ := jobs_getElem? found
    exact ⟨_, .tail _ (.tail _ (.tail _ (.head _)))⟩
  · obtain ⟨index, found⟩ := List.mem_iff_getElem?.mp member
    obtain ⟨-, signature, -, rfl⟩ := jobs_getElem? found
    exact sweeps _ _
  · obtain ⟨after, prints, -⟩ := Kernel.performs_putLine kernel root "--- PASS sequential fibonacci"
    exact ⟨after, prints.lift.check_ok .done⟩

end SeqFib

end KernelConformance
