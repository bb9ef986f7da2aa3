import KernelConformance.Proofs.Suite.CrewEnds
import KernelConformance.Proofs.Suite.SequentialJobs

/-! Many runs of the recurrence always come to a good end. Wherever there is room for one child and
for its two files, each child ends with the signature that was drawn for it, in whatever order the
processes act, and the children are joined in the order of their starts.
-/

namespace KernelConformance

open Kernel (Steps)
open Randomness (Stream)
open Spawner (Concluded Dependable Issues Over Prints Served Undertaking Whole)
open Utf8 (Bytes)

namespace SeqFib

variable {config : Config} {deeds during : List Deed}
  {before begin kernel after : Kernel} {root : Pid}
  {count seed capacity : Nat} {past : List Exchange} {ending : Ending}

/-- The arguments of the program with a number of jobs and a seed. -/
def arguments (count seed : Nat) : List String := [program, toString count, toString seed]

/-- What the program does with these arguments. -/
def main (count seed : Nat) : Prog Ending := (body (arguments count seed)).ending program

/-- The jobs with these arguments. -/
def jobs (count seed : Nat) : List Job := drawnJobs count (.ofSeed seed)

/-- The files of the job at a place. -/
def names (count index : Nat) (name : String) : Prop :=
  index < count ∧ (FilePair.ofIndex (Int32.ofNat (count - index))).Names name

/-- What is printed, the oldest line first: the jobs pass in the order of their starts, and then the
program says so.
-/
def lines (count : Nat) : List Bytes :=
  (List.range count).map (fun index => Fibonacci.passLine (count - index)) ++ [doneLine]

-----------------------------------------------------------------------------------------
-- The program
-----------------------------------------------------------------------------------------

/-- What the program has done when it has come to its end: it has run its jobs and then said so. -/
structure Finished (capacity : Nat) (jobs : List Job) (past : List Exchange) (ending : Ending)
    : Prop where
  status : ending = .exit 0
  whole
    : ∃ earlier reply report,
        past = earlier ++ [⟨.write .stdout doneLine, reply⟩]
        ∧ Concluded capacity jobs earlier report
        ∧ ∀ exchange ∈ earlier, exchange.printed? = none

/-- What is left of the program when its jobs have passed. -/
def rest : Check Int32 := do
  ExceptT.lift (Prog.putLine "--- PASS sequential fibonacci")
  pure 0

/-- With arguments that are small enough the program runs its jobs, and then says so. -/
theorem body_arguments (small : count ≤ 2147483647) (fits : seed ≤ 18446744073709551615)
    : body (arguments count seed) = (Spawner.runJobs (jobs count seed) >>= fun _ => rest) := by
  have first : (arguments count seed)[1]? = some (toString count) := rfl
  have second : (arguments count seed)[2]? = some (toString seed) := rfl
  rw [body, argumentNat64_of_le "unit count" first (by omega), pure_bind,
    argumentNat64_of_le "seed" second fits, pure_bind]
  simp only [Option.getD_some, issueJobs_eq]
  rfl

/-- A call of a spawner prints nothing. -/
theorem printed?_of_calls {jobs : List Job} {exchange : Exchange}
    (calls : Spawner.Calls jobs past exchange.call)
    : exchange.printed? = none := by
  obtain ⟨c, reply⟩ := exchange
  cases c with
  | write => exact calls.elim
  | _ => rfl

/-- If it is served, the program comes to its end as it should. -/
theorem upholds_main (room : 0 < capacity) (small : count ≤ 2147483647)
    (fits : seed ≤ 18446744073709551615)
    : (main count seed).Upholds (Issues (jobs count seed))
        (fun past ending =>
          Served capacity (jobs count seed) past → Finished capacity (jobs count seed) past ending)
        [] := by
  have runs := (Spawner.upholds_runJobs capacity (jobs count seed)).recorded throughout_nil
  rw [main, body_arguments small fits]
  refine Prog.upholds_bind.mpr ?_
  rw [ExceptT.run_bind]
  refine Prog.upholds_bind.mpr (runs.mono (fun _ _ allowed => .inl allowed.1) ?_)
  rintro past (stop | report) ⟨concluded, calls⟩
  · obtain ⟨violation, rfl, -, starved⟩ := concluded
    refine Prog.upholds_bind.mpr (Prog.upholds_attempt.mpr ⟨.inr ⟨_, rfl⟩, fun reply served => ?_⟩)
    have full := (starved (throughout_snoc.mp served).1).full
    omega
  · refine ⟨.inr ⟨_, rfl⟩, fun reply served => ⟨rfl, past, reply, report, rfl, concluded, ?_⟩⟩
    intro exchange member
    obtain ⟨earlier, later, whole⟩ := List.append_of_mem member
    exact printed?_of_calls (calls earlier exchange later whole).1

/-- What the program has come to if it was served. -/
def Result (begin : Kernel) (count seed : Nat) (past : List Exchange) (ending : Ending) : Prop :=
  Served (Spawner.room begin.processes) (jobs count seed) past
  → Finished (Spawner.room begin.processes) (jobs count seed) past ending

/-- The program has started and joined a child for each job when it has come to its end. -/
theorem concludes (begin : Kernel) (count seed : Nat)
    : Spawner.Concludes begin (jobs count seed) (Result begin count seed) := by
  intro past ending result served
  obtain ⟨earlier, reply, report, rfl, concluded, -⟩ := (result served).whole
  rw [started_snoc, joined_snoc_exchange]
  simpa [Exchange.started?, Exchange.joined?] using ⟨concluded.started, concluded.joined⟩

-----------------------------------------------------------------------------------------
-- The jobs
-----------------------------------------------------------------------------------------

section Jobs

variable {index : Nat} {task : Job}

theorem jobs_getElem? (found : (jobs count seed)[index]? = some task)
    : index < count ∧ ∃ signature < signatureBound, task = job signature (count - index) := by
  have bound := (List.getElem?_eq_some_iff.mp found).1
  rw [jobs, length_drawnJobs] at bound
  exact ⟨bound, drawnJobs_getElem? found⟩

theorem jobs_loadable (installed : Fibonacci.program ∈ kernel.programs)
    : ∀ task ∈ jobs count seed, task.program ∈ kernel.programs := by
  intro task member
  obtain ⟨index, found⟩ := List.mem_iff_getElem?.mp member
  obtain ⟨-, signature, -, rfl⟩ := jobs_getElem? found
  exact installed

variable (files : 4 ≤ config.maxOpenFiles) (long : 20 ≤ config.maxNameLength)
  (small : count ≤ 2147483647)

include files long small

/-- Each job ends with its signature wherever it is started. -/
theorem dependable (found : (jobs count seed)[index]? = some task)
    : Dependable config (names count index) task := by
  obtain ⟨bound, signature, below, rfl⟩ := jobs_getElem? found
  have own : names count index = (FilePair.ofIndex (Int32.ofNat (count - index))).Names :=
    funext fun _ => propext (and_iff_right bound)
  have few : signature ≤ 2147483647 := Nat.le_of_lt (Nat.lt_trans below (by decide))
  refine ⟨_, rfl, fun deeds kernel pid run newborn => ?_⟩
  have fds := newborn.fds run
  rw [own]
  exact Fibonacci.can_end run files long few (by omega) newborn.runs fds _

/-- Each job prints its line and nothing else. -/
theorem prints (found : (jobs count seed)[index]? = some task)
    : Prints config task [Fibonacci.passLine (count - index)] := by
  obtain ⟨bound, signature, below, rfl⟩ := jobs_getElem? found
  intro deeds kernel pid todo last run newborn known performs silent
  cases known
  have few : signature ≤ 2147483647 := Nat.le_of_lt (Nat.lt_trans below (by decide))
  have fds := newborn.fds run
  exact Fibonacci.console run files long few (by omega) newborn.runs fds performs silent

omit files long in
/-- No two jobs have a name in common. -/
theorem names_disjoint (index other : Nat) (name : String) (uses : names count index name)
    (used : names count other name)
    : other = index := by
  have same := FilePair.ofIndex_disjoint (by omega) (by omega) uses.2 used.2
  have bounds : index < count ∧ other < count := ⟨uses.1, used.1⟩
  omega

/-- The jobs can be run wherever there is room for a child. -/
theorem feasible : Spawner.Feasible config (jobs count seed) (names count) where
  short task member := by
    obtain ⟨index, found⟩ := List.mem_iff_getElem?.mp member
    obtain ⟨-, signature, -, rfl⟩ := jobs_getElem? found
    exact show 3 ≤ 16 by decide
  dependable index task found := dependable files long small found
  disjoint := names_disjoint small

/-- The program can be depended on to run its jobs once it was started. -/
theorem undertaking (run : Kernel.Run config deeds before)
    (slots : before.processes.size + 2 ≤ config.maxProcesses)
    (installed : Fibonacci.program ∈ before.programs) (fits : seed ≤ 18446744073709551615)
    {caller : Parent}
    (step : before.Step (.start caller program (arguments count seed) (.ok root)) begin)
    : Undertaking config (jobs count seed) (names count) begin root (main count seed)
        (Result begin count seed) := by
  obtain ⟨newborn, parent, started⟩ := step.begun
  have reached := run.step step
  refine (feasible files long small).undertaking reached newborn
    (jobs_loadable (step.programs installed)) (upholds_main ?_ small fits)
  have size := started.size run.rooted
  have capacity := reached.capacity
  rw [Spawner.room]
  omega

end Jobs

-----------------------------------------------------------------------------------------
-- Completeness
-----------------------------------------------------------------------------------------

/-- What holds after some deeds of the program and its children, in whatever order they act. The
journal tells of all of them, and each child that has ended has ended with the signature that it was
given. The program can come to its end, and if it has, it has ended well and has joined a child for
each job, in the order of their starts.
-/
structure Progress (count seed : Nat) (root : Pid) (begin : Kernel) (during : List Deed)
    (after : Kernel)
    : Prop where
  logged : after.processes.events = begin.processes.events ++ history during
  signed
    : ∀ (child : Pid) (signature number : Nat) (ending : Ending),
        .call root
            (.exec Fibonacci.program [Fibonacci.program, toString signature, toString number])
            (some (.ok child))
          ∈ during
        → .finish child ending ∈ during
        → ending = .exit (Int32.ofNat signature)
  whole
    : ∀ ending,
        .finish root ending ∈ during
        → ending = .exit 0 ∧ ∃ children, Whole (jobs count seed) root children during
  ends
    : ∃ more last,
        Steps after more last
        ∧ Throughout (Acts root (main count seed)) (during ++ more)
        ∧ .finish root (.exit 0) ∈ during ++ more

section Progress

variable (undertaking
    : Undertaking config (jobs count seed) (names count) begin root (main count seed)
        (Result begin count seed))

include undertaking

omit undertaking in
/-- A child of a crew that has ended has ended with the signature that it was given. -/
theorem signed_of_crew
    (crew : Spawner.Crew config (jobs count seed) (names count) begin root (main count seed) during
      kernel)
    {child : Pid} {signature number : Nat}
    (begun
      : ⟨Fibonacci.program, [Fibonacci.program, toString signature, toString number], child⟩
        ∈ starts during)
    (finished : .finish child ending ∈ during)
    : ending = .exit (Int32.ofNat signature) := by
  obtain ⟨index, task, found, same, rfl⟩ := crew.signed begun finished
  obtain ⟨-, drawn, -, rfl⟩ := jobs_getElem? found
  have text : toString signature = toString drawn := (List.cons.inj (List.cons.inj same).2).1
  obtain rfl := Decimal.toString_inj text
  rfl

/-- The crew of the program can come to its end from wherever it is. -/
theorem ends_of_crew
    (crew : Spawner.Crew config (jobs count seed) (names count) begin root (main count seed) during
      after)
    : ∃ more last,
        Steps after more last
        ∧ Throughout (Acts root (main count seed)) (during ++ more)
        ∧ .finish root (.exit 0) ∈ during ++ more := by
  obtain ⟨more, ending, last, settled, ends⟩ := crew.ends undertaking
  obtain rfl := (settled.holds settled.crew.hosted.served).status
  have steps := settled.crew.steps.snoc ends
  rw [List.append_assoc] at steps
  refine ⟨_, _, steps.of_append crew.steps, ?_, ?_⟩
  · rw [← List.append_assoc]
    refine throughout_snoc.mpr ⟨?_, .ends settled.reached⟩
    exact fun before deed rest whole => .proceeds (settled.crew.proceeds before deed rest whole)
  · exact List.mem_append_right _ (List.mem_append_right _ (List.mem_singleton.mpr rfl))

/-- Whatever the program and its children do, it makes progress. -/
theorem progress (steps : Steps begin during after)
    (acts : Throughout (Acts root (main count seed)) during)
    : Progress count seed root begin during after := by
  obtain ⟨earlier, run⟩ := undertaking.reachable
  rcases undertaking.crew_or_over (concludes begin count seed) steps acts with
    crew | ⟨during, ending, kernel, rfl, settled, rfl⟩
  · constructor
    · exact run.events_extend steps (untaken_of_proceeds crew.proceeds)
    · intro child signature number ending begun
      exact signed_of_crew crew (@mem_starts during (.proc root) _ _ child begun)
    · exact fun ending finished => absurd finished (crew.unfinished undertaking ending)
    · exact ends_of_crew undertaking crew
  · obtain rfl := (settled.holds settled.crew.hosted.served).status
    constructor
    · refine run.events_extend steps ?_
      simp only [List.forall_mem_append, List.forall_mem_cons]
      exact ⟨untaken_of_proceeds settled.crew.proceeds, rfl, nofun⟩
    · intro child signature number ending begun finished
      have made := (List.mem_append.mp begun).resolve_right (by simp)
      have listed := @mem_starts during (.proc root) _ _ child made
      rcases List.mem_append.mp finished with ended | last
      · exact signed_of_crew settled.crew listed ended
      · cases List.mem_singleton.mp last
        exact absurd rfl (settled.crew.begun_ne_root undertaking listed)
    · intro ending finished
      refine ⟨?_, _, settled.whole undertaking (concludes begin count seed)⟩
      rcases List.mem_append.mp finished with ended | last
      · exact absurd ended (settled.crew.unfinished undertaking ending)
      · cases List.mem_singleton.mp last
        rfl
    · refine ⟨[], _, .nil, by rwa [List.append_nil], ?_⟩
      rw [List.append_nil]
      exact List.mem_append_right _ (List.mem_singleton.mpr rfl)

end Progress

/-- The lines of the program and its jobs are what is printed in the course of its exchanges. -/
theorem shown_eq_lines {jobs : List Job} (finished : Finished capacity jobs past ending)
    (long : jobs.length = count)
    (printed
      : ∀ bytes reply, ⟨.write .stdout bytes, reply⟩ ∈ past → reply = .ok bytes.length)
    : shown (fun index => [Fibonacci.passLine (count - index)]) 0 past = lines count := by
  obtain ⟨earlier, reply, report, rfl, concluded, silent⟩ := finished.whole
  obtain rfl := printed doneLine reply (List.mem_append_right _ (List.mem_singleton.mpr rfl))
  rw [shown_append, shown_of_silent _ _ silent, concluded.started, long, ← List.range_eq_range',
    ← List.map_eq_flatMap]
  rfl

/-- On every kernel with room for a child and its files the program can be started, and whatever it
and its children do then, it makes progress. On a machine it exits with zero after it has started
and joined a child for each job, and prints the lines of its jobs in order and its own line, if
nothing is traced.
-/
theorem runs_complete {images : Images Unit} (run : Kernel.Run config deeds before)
    (files : 4 ≤ config.maxOpenFiles) (long : 20 ≤ config.maxNameLength)
    (slots : before.processes.size + 2 ≤ config.maxProcesses)
    (installed : program ∈ before.programs) (installedToo : Fibonacci.program ∈ before.programs)
    (shipped : Shipped images) (small : count ≤ 2147483647) (fits : seed ≤ 18446744073709551615)
    (reports : List (Pid × Unit))
    : (∀ caller,
        before.processes.canAct caller = true
        → ∃ root begin,
            before.Step (.start caller program (arguments count seed) (.ok root)) begin
            ∧ ∀ during after,
                Steps begin during after
                → Throughout (Acts root (main count seed)) during
                → Progress count seed root begin during after)
      ∧ ∃ root begin during kernel children after last,
          before.start .host program (arguments count seed) = (.ok root, begin)
          ∧ Steps begin (during ++ [.finish root (.exit 0)]) kernel
          ∧ Throughout (Acts root (main count seed)) (during ++ [.finish root (.exit 0)])
          ∧ Whole (jobs count seed) root children (during ++ [.finish root (.exit 0)])
          ∧ Machine.run images program (arguments count seed) ⟨before, reports⟩
            = (some (.ok (root, .exited 0)), ⟨after, last⟩)
          ∧ after.processes.events
            = before.processes.events
              ++ history
                (.spawn program (arguments count seed) (.ok root) :: during
                  ++ [.finish root (.exit 0), .wait root (some (.ok (.exited 0)))])
          ∧ ((∀ kind, config.traces kind = false)
            → after.console.writes = (lines count).reverse ++ before.console.writes) := by
  have room : before.processes.size < before.processes.capacity := by
    rw [run.capacity]
    omega
  have short : (arguments count seed).length ≤ maxArguments :=
    show 3 ≤ 16 by decide
  have jobsOf {caller : Parent} {root : Pid} {begin : Kernel}
      (step : before.Step (.start caller program (arguments count seed) (.ok root)) begin) :=
    undertaking files long small run slots installedToo fits step
  refine ⟨fun caller acts => ?_, ?_⟩
  · obtain ⟨root, begin, step⟩ := Kernel.exists_start acts installed short room
    exact ⟨root, begin, step, fun _ _ => progress (jobsOf step)⟩
  · have host : before.processes.canAct .host = true := rfl
    obtain ⟨root, begin, step⟩ := Kernel.exists_start host installed short room
    have jobs := jobsOf step
    have started : before.start .host program (arguments count seed) = (.ok root, begin) := by
      cases step with
      | spawn started => exact started
    obtain ⟨during, ending, kernel, after, last, runs, serial, settled, events, console⟩ :=
      jobs.run run started shipped rfl rfl reports
    have finished := settled.holds settled.crew.hosted.served
    obtain rfl := finished.status
    obtain ⟨_, reached, -⟩ := serial.crew.reachable jobs
    have acts := serial.crew.hosted.hosts.isRunning (Spawner.Crew.rooted jobs) jobs.runs
    refine ⟨root, begin, during, _, _, after, last, started, settled.crew.steps.snoc (.finish acts),
      ?_,
      settled.whole jobs (concludes begin count seed), runs, events, fun silent => ?_⟩
    · refine throughout_snoc.mpr ⟨?_, .ends settled.reached⟩
      exact fun before deed rest whole => .proceeds (settled.crew.proceeds before deed rest whole)
    · have shows := serial.console (fun index => [Fibonacci.passLine (count - index)])
        (fun index task found => prints files long small found) silent
      rw [shown_eq_lines finished (length_drawnJobs count _) fun _ _ => serial.crew.printed jobs]
        at shows
      rw [console, Kernel.finish, Kernel.untraced silent reached.tidy.configured]
      change kernel.console.writes = _
      rw [shows]
      rcases Kernel.start_cases started with ⟨_, -, rfl⟩ | ⟨_, _, -, -, rfl⟩ <;> rfl

/-- The least limits that the program can do with. -/
def tightConfig : Config :=
  { Config.standard with maxProcesses := 2, maxOpenFiles := 4, maxNameLength := 20 }

/-- With the least limits three jobs pass, one child at a time. -/
theorem runs_complete_tight
    : ∃ root after last,
        Machine.run testImages program (arguments 3 7) ⟨.bootWithTests tightConfig, []⟩
          = (some (.ok (root, .exited 0)), ⟨after, last⟩)
        ∧ after.console.writes
          = [doneLine, Fibonacci.passLine 1, Fibonacci.passLine 2, Fibonacci.passLine 3] := by
  have run : Kernel.Run tightConfig (testPrograms.map fun entry => .register entry.1)
      (.bootWithTests tightConfig) :=
    .extend .boot <| .cons (.register _) <| .cons (.register _) <| .cons (.register _)
      <| .cons (.register _) <| .cons (.register _) <| .cons (.register _) .nil
  obtain ⟨-, root, _, _, _, _, after, last, -, -, -, -, runs, -, console⟩ :=
    @runs_complete _ _ _ 3 7 _ run (by decide) (by decide) (by decide) (by decide) (by decide)
      shipped_testImages (by decide) (by decide) []
  exact ⟨root, after, last, runs, console fun kind => by cases kind <;> rfl⟩

end SeqFib

end KernelConformance
