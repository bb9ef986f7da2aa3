import KernelConformance.Proofs.Programs.Companions
import KernelConformance.Proofs.Programs.Supervision
import KernelConformance.Proofs.Suite.AdmissionControl
import KernelConformance.Suite.Programs

/-! A process that runs jobs, and its children, which act in any order while nobody else does. Each
child works with names that no other one has, so that it can always come to its end with the
signature of its job.
-/

namespace KernelConformance

open Kernel (CanEnd Steps)

/-- What a process does that is started as a test program with some arguments. -/
def testRun? (program : String) (argv : List String) : Option (Prog Ending) :=
  (testProgram? program).map fun main => main (argv.headD program) argv

/-- Whether a deed is one of a process, which goes on with the given program, or of one of its
children, which goes on with the test program that it was started as.
-/
inductive Proceeds {α : Type} (root : Pid) (prog : Prog α) (past : List Deed) : Deed → Prop where
  | root {c next reply} (reached : prog.Reaches (exchanges root past) (.call c next))
    : Proceeds root prog past (.call root c reply)
  | child {program argv child todo c next reply} (begun : ⟨program, argv, child⟩ ∈ starts past)
    (known : testRun? program argv = some todo)
    (reached : todo.Reaches (exchanges child past) (.call c next))
    : Proceeds root prog past (.call child c reply)
  | finish {program argv child todo ending} (begun : ⟨program, argv, child⟩ ∈ starts past)
    (known : testRun? program argv = some todo)
    (reached : todo.Reaches (exchanges child past) (.done ending))
    : Proceeds root prog past (.finish child ending)

/-- What a process has exchanged has made it older than the next process, by
induction on the run.
-/
theorem Kernel.Run.exchanges_eq_nil {config : Config} {deeds : List Deed} {kernel : Kernel}
    {pid : Pid} (run : Run config deeds kernel) (new : kernel.processes.next.number ≤ pid.number)
    : exchanges pid deeds = [] := by
  induction run with
  | boot => rfl
  | @step deeds kernel deed after run step ih =>
      have later := step.processes.next_le
      rw [exchanges_snoc, ih (Nat.le_trans later new), List.nil_append]
      rcases made : deed.exchange? pid with _ | exchange
      · rfl
      · obtain rfl := Deed.eq_call_of_exchange made
        cases step with
        | call runs =>
            have older := run.rooted.running_lt runs
            omega

/-- Nobody but a child that is started notices its start. -/
theorem Kernel.unnoticed_start {kernel after : Kernel} {root child : Pid} {program : String}
    {argv : List String} (replied : kernel.call root (.exec program argv) = some (.ok child, after))
    {pid : Pid} (different : pid ≠ child) (mine : String → Prop)
    : kernel.Unnoticed mine pid after := by
  obtain ⟨files, fds⟩ := Kernel.exec_fds replied
  exact Kernel.unnoticed_of_same mine
    (fds pid fun same => different (Except.ok.inj same).symm) files

namespace Spawner

variable {α : Type} {config : Config} {jobs : List Job} {names : Nat → String → Prop}
  {begin kernel after : Kernel} {root child : Pid} {prog : Prog α}
  {result : List Exchange → α → Prop} {past : List Exchange} {during : List Deed} {deed : Deed}

-----------------------------------------------------------------------------------------
-- What a crew relies on
-----------------------------------------------------------------------------------------

/-- The calls of a process that runs jobs and prints. -/
def Issues (jobs : List Job) (past : List Exchange) (c : Syscall) : Prop :=
  Calls jobs past c ∨ ∃ bytes, c = .write .stdout bytes

/-- An exchange that starts and joins nobody leaves everything in place. -/
theorem Hosted.aside (hosted : Hosted begin root jobs past kernel) {last : Exchange}
    (idle : last.started? = none) (idleToo : last.joined? = none)
    (answered : Answered (room begin.processes) jobs past last)
    (processes : after.processes = kernel.processes) (programs : after.programs = kernel.programs)
    : Hosted begin root jobs (past ++ [last]) after where
  hosts := processes ▸ hosted.hosts.aside idle idleToo
  served := throughout_snoc.mpr ⟨hosted.served, answered⟩
  issued := by simpa [idle] using hosted.issued
  loadable := programs ▸ hosted.loadable

/-- Whether a job is that of a test program which works with some names, and which comes to its end
with the signature of the job wherever it is started.
-/
def Dependable (config : Config) (names : String → Prop) (job : Job) : Prop :=
  ∃ todo,
    testRun? job.program job.argv = some todo
    ∧ ∀ deeds kernel pid,
        Kernel.Run config deeds kernel
        → kernel.Newborn pid job.program job.argv
        → kernel.CanEnd names pid todo job.signature

/-- What is given when a process begins with jobs: it can start them, their names are all different,
and each of them can be depended on.
-/
structure Undertaking (config : Config) (jobs : List Job) (names : Nat → String → Prop)
    (begin : Kernel) (root : Pid) (prog : Prog α) (result : List Exchange → α → Prop)
    : Prop where
  reachable : ∃ deeds, Kernel.Run config deeds begin
  runs : begin.processes.isRunning root = true
  fds : begin.fds root = .initial config.maxOpenFiles
  loadable : ∀ job ∈ jobs, job.program ∈ begin.programs
  short : ∀ job ∈ jobs, job.argv.length ≤ maxArguments
  dependable : ∀ index job, jobs[index]? = some job → Dependable config (names index) job
  disjoint : ∀ index other name, names index name → names other name → other = index
  issues : prog.Upholds (Issues jobs) result []

/-- Jobs that a process can run wherever it is started, if there is room for a child: they have few
arguments, their names are all different, and each of them can be depended on.
-/
structure Feasible (config : Config) (jobs : List Job) (names : Nat → String → Prop) : Prop where
  short : ∀ job ∈ jobs, job.argv.length ≤ maxArguments
  dependable : ∀ index job, jobs[index]? = some job → Dependable config (names index) job
  disjoint : ∀ index other name, names index name → names other name → other = index

/-- A process that was just started can begin with jobs that it can run. -/
theorem Feasible.undertaking (feasible : Feasible config jobs names) {deeds : List Deed}
    (run : Kernel.Run config deeds begin) {program : String} {argv : List String}
    (newborn : begin.Newborn root program argv)
    (loadable : ∀ job ∈ jobs, job.program ∈ begin.programs)
    (issues : prog.Upholds (Issues jobs) result [])
    : Undertaking config jobs names begin root prog result where
  reachable := ⟨deeds, run⟩
  runs := newborn.runs
  fds := newborn.fds run
  loadable := loadable
  short := feasible.short
  dependable := feasible.dependable
  disjoint := feasible.disjoint
  issues := issues

/-- The names of the jobs that were not started yet. -/
def Reserved (names : Nat → String → Prop) (past : List Exchange) (name : String) : Prop :=
  ∃ index, (started past).length ≤ index ∧ names index name

/-- The processes of a crew with their names: the one that runs jobs has those of
the jobs to come.
-/
inductive Member (root : Pid) (names : Nat → String → Prop) (past : List Exchange)
    (table : ProcessTable)
    : Pid → (String → Prop) → Prop where
  | root : Member root names past table root (Reserved names past)
  | child {index child} (place : (started past)[index]? = some child)
    (alive : table.isRunning child = true)
    : Member root names past table child (names index)

/-- Who is a member, and with which names, depends only on the children that were started. -/
theorem Member.of_started {earlier : List Exchange} {table : ProcessTable} {pid : Pid}
    {mine : String → Prop} (member : Member root names past table pid mine)
    (same : started earlier = started past)
    : Member root names earlier table pid mine := by
  cases member with
  | root =>
      have reserved : Reserved names past = Reserved names earlier := by
        funext name
        simp only [Reserved, same]
      rw [reserved]
      exact .root
  | child place alive => exact .child (same ▸ place) alive

/-- Whether a child was started for a job, which has a place among the jobs. -/
structure Assigned (jobs : List Job) (past : List Exchange) (index : Nat) (child : Pid) (job : Job)
    : Prop where
  place : (started past)[index]? = some child
  given : jobs[index]? = some job

/-- A place among the jobs is one among the children that were started. -/
theorem Assigned.of_started {earlier : List Exchange} {index : Nat} {job : Job}
    (assigned : Assigned jobs past index child job) (same : started earlier = started past)
    : Assigned jobs earlier index child job :=
  ⟨same ▸ assigned.place, assigned.given⟩

/-- The next child is assigned the next job, and the others keep theirs. -/
theorem assigned_start {job : Job} (next : jobs[(started past).length]? = some job)
    {program : String} {argv : List String} {index : Nat} {pid : Pid} {other : Job}
    : Assigned jobs (past ++ [⟨.exec program argv, .ok child⟩]) index pid other
      ↔ Assigned jobs past index pid other
        ∨ index = (started past).length ∧ pid = child ∧ other = job := by
  have starts := started_exec past program argv child
  constructor
  · intro assigned
    obtain ⟨place, given⟩ := assigned
    rw [starts, List.getElem?_append] at place
    split at place
    · exact .inl ⟨place, given⟩
    · obtain ⟨bound, same⟩ := List.getElem?_eq_some_iff.mp place
      rw [List.length_singleton] at bound
      obtain rfl : index = (started past).length := by omega
      rw [next] at given
      cases given
      exact .inr ⟨rfl, by simpa using same.symm, rfl⟩
  · rintro (⟨place, given⟩ | ⟨rfl, rfl, rfl⟩)
    · have bound := (List.getElem?_eq_some_iff.mp place).1
      exact ⟨by rwa [starts, List.getElem?_append_left bound], given⟩
    · exact ⟨by simp [starts], next⟩

/-- A child that was just started has the names of its job. -/
theorem names_started {program : String} {argv : List String} {table : ProcessTable}
    {mine : String → Prop} (fresh : ∀ sibling ∈ started past, sibling ≠ child)
    (older : root ≠ child)
    (member
      : Member root names (past ++ [⟨.exec program argv, .ok child⟩]) table child mine)
    : mine = names (started past).length := by
  cases member with
  | root => exact absurd rfl older
  | @child index _ place alive =>
      have starts := started_exec past program argv child
      rw [starts, List.getElem?_append] at place
      split at place
      · exact absurd rfl (fresh child (List.mem_of_getElem? place))
      · have bound := (List.getElem?_eq_some_iff.mp place).1
        rw [List.length_singleton] at bound
        exact congrArg names (by omega)

/-- What holds of a crew after some deeds: the children hold their slots, and each of them that has
not ended with the signature of its job can come to this end by itself, apart from all others.
-/
structure Crew (config : Config) (jobs : List Job) (names : Nat → String → Prop) (begin : Kernel)
    (root : Pid) (prog : Prog α) (during : List Deed) (kernel : Kernel)
    : Prop where
  steps : Steps begin during kernel
  proceeds : Throughout (Proceeds root prog) during
  hosted : Hosted begin root jobs (exchanges root during) kernel
  fds : kernel.fds root = .initial config.maxOpenFiles
  begun
    : ∀ entry ∈ starts during,
        ∃ index job,
          Assigned jobs (exchanges root during) index entry.child job
          ∧ entry.program = job.program
          ∧ entry.argv = job.argv
  listed
    : ∀ index child job,
        Assigned jobs (exchanges root during) index child job
        → ⟨job.program, job.argv, child⟩ ∈ starts during
  ended
    : ∀ child ending,
        .finish child ending ∈ during
        → ∃ index job,
            Assigned jobs (exchanges root during) index child job ∧ ending = .exit job.signature
  live
    : ∀ index child job,
        Assigned jobs (exchanges root during) index child job
        → kernel.processes.isRunning child = true
        → ∃ todo rest,
            testRun? job.program job.argv = some todo
            ∧ todo.Reaches (exchanges child during) rest
            ∧ kernel.CanEnd (names index) child rest job.signature
  apart
    : ∀ {pid mine other yours},
        Member root names (exchanges root during) kernel.processes pid mine
        → Member root names (exchanges root during) kernel.processes other yours
        → other ≠ pid
        → kernel.Apart mine pid yours other

theorem Undertaking.begins (undertaking : Undertaking config jobs names begin root prog result)
    : Crew config jobs names begin root prog [] begin := by
  obtain ⟨deeds, run⟩ := undertaking.reachable
  have idle {index : Nat} {child : Pid} (place : (started (exchanges root []))[index]? = some child)
      : False := by
    simp [exchanges, started] at place
  have nobody : ∀ entry, entry ∉ starts [] := fun _ => List.not_mem_nil
  refine ⟨.nil, throughout_nil, ?_, undertaking.fds, fun entry begun => (nobody entry begun).elim,
    ?_,
    fun _ _ ended => absurd ended List.not_mem_nil, ?_, ?_⟩
  · exact ⟨hosts_begin run.rooted root jobs, throughout_nil, Nat.zero_le _, undertaking.loadable⟩
  · exact fun _ _ _ assigned => (idle assigned.place).elim
  · exact fun _ _ _ assigned => (idle assigned.place).elim
  · rintro pid mine other yours (_ | ⟨place, _⟩) (_ | ⟨placeToo, _⟩) different
    · exact absurd rfl different
    · exact (idle placeToo).elim
    · exact (idle place).elim
    · exact (idle place).elim

namespace Crew

variable (undertaking : Undertaking config jobs names begin root prog result)

include undertaking

theorem reachable (crew : Crew config jobs names begin root prog during kernel)
    : ∃ deeds, Kernel.Run config deeds kernel ∧ ∃ before, deeds = before ++ during := by
  obtain ⟨before, run⟩ := undertaking.reachable
  exact ⟨_, run.extend crew.steps, before, rfl⟩

theorem rooted : begin.processes.Rooted := by
  obtain ⟨before, run⟩ := undertaking.reachable
  exact run.rooted

/-- A child is a younger process than the one that runs the jobs. -/
theorem ne_root (crew : Crew config jobs names begin root prog during kernel)
    (member : child ∈ started (exchanges root during))
    : child ≠ root := by
  have fresh := (crew.hosted.hosts.fresh child member).1
  have older := (rooted undertaking).running_lt undertaking.runs
  rintro rfl
  omega

/-- What a member can get at was taken before. -/
theorem taken (crew : Crew config jobs names begin root prog during kernel) {index : Nat}
    (place : (started (exchanges root during))[index]? = some child)
    (alive : kernel.processes.isRunning child = true) (inode : Inode)
    (inside : kernel.Footprint (names index) child inode)
    : inode.index < kernel.files.next.index := by
  have different := (crew.ne_root undertaking (List.mem_of_getElem? place)).symm
  exact (crew.apart (.child place alive) .root different).taken inode inside

omit undertaking in
/-- A crew goes on with a deed that starts nobody, if afterwards its children can come to their ends
and its members are apart.
-/
theorem unstarted (crew : Crew config jobs names begin root prog during kernel)
    (step : kernel.Step deed after) (proceeds : Proceeds root prog during deed)
    (hosted : Hosted begin root jobs (exchanges root (during ++ [deed])) after)
    (same : started (exchanges root (during ++ [deed])) = started (exchanges root during))
    (begins : deed.begin? = none) (fds : after.fds root = kernel.fds root)
    (ends
      : ∀ child ending,
          deed = .finish child ending
          → ∃ index job,
              Assigned jobs (exchanges root during) index child job ∧ ending = .exit job.signature)
    (live
      : ∀ index child job,
          Assigned jobs (exchanges root during) index child job
          → after.processes.isRunning child = true
          → ∃ todo rest,
              testRun? job.program job.argv = some todo
              ∧ todo.Reaches (exchanges child (during ++ [deed])) rest
              ∧ after.CanEnd (names index) child rest job.signature)
    (apart
      : ∀ {pid mine other yours},
          Member root names (exchanges root during) after.processes pid mine
          → Member root names (exchanges root during) after.processes other yours
          → other ≠ pid
          → after.Apart mine pid yours other)
    : Crew config jobs names begin root prog (during ++ [deed]) after := by
  constructor
  · exact crew.steps.snoc step
  · exact throughout_snoc.mpr ⟨crew.proceeds, proceeds⟩
  · exact hosted
  · exact fds.trans crew.fds
  · rw [starts_snoc_of_none during begins]
    intro entry member
    obtain ⟨index, job, assigned, rest⟩ := crew.begun entry member
    exact ⟨index, job, assigned.of_started same, rest⟩
  · rw [starts_snoc_of_none during begins]
    exact fun index child job assigned =>
      crew.listed index child job (assigned.of_started same.symm)
  · intro child ending finished
    obtain ⟨index, job, assigned, signed⟩
        : ∃ index job,
            Assigned jobs (exchanges root during) index child job
              ∧ ending = .exit job.signature := by
      rcases List.mem_append.mp finished with earlier | last
      · exact crew.ended child ending earlier
      · exact ends child ending (List.mem_singleton.mp last).symm
    exact ⟨index, job, assigned.of_started same, signed⟩
  · exact fun index child job assigned => live index child job (assigned.of_started same.symm)
  · exact fun member memberToo =>
      apart (member.of_started same.symm) (memberToo.of_started same.symm)

/-- A crew goes on with a deed that starts nobody and changes neither the files nor the descriptors
of those who still run.
-/
theorem quiet (crew : Crew config jobs names begin root prog during kernel)
    (step : kernel.Step deed after) (proceeds : Proceeds root prog during deed)
    (hosted : Hosted begin root jobs (exchanges root (during ++ [deed])) after)
    (same : started (exchanges root (during ++ [deed])) = started (exchanges root during))
    (begins : deed.begin? = none) (files : after.files = kernel.files)
    (fds : after.fds root = kernel.fds root)
    (ends
      : ∀ child ending,
          deed = .finish child ending
          → ∃ index job,
              Assigned jobs (exchanges root during) index child job ∧ ending = .exit job.signature)
    (others
      : ∀ child ∈ started (exchanges root during),
          after.processes.isRunning child = true
          → (∀ change, deed.fdEvent? ≠ some (child, change)) ∧ deed.exchange? child = none)
    : Crew config jobs names begin root prog (during ++ [deed]) after := by
  obtain ⟨deeds, run, -⟩ := crew.reachable undertaking
  have kept {child : Pid} (member : child ∈ started (exchanges root during))
      (alive : after.processes.isRunning child = true)
      : kernel.processes.isRunning child = true ∧ after.fds child = kernel.fds child := by
    obtain ⟨unseen, -⟩ := others child member alive
    refine ⟨?_, (step.fds run.rooted).elsewhere unseen⟩
    exact (run.running_step step alive).elim (fun started => absurd started (unseen _)) And.left
  have unnoticed {pid : Pid} {mine : String → Prop}
      (member : Member root names (exchanges root during) after.processes pid mine)
      : Member root names (exchanges root during) kernel.processes pid mine
        ∧ kernel.Unnoticed mine pid after := by
    cases member with
    | root => exact ⟨.root, Kernel.unnoticed_of_same _ fds files⟩
    | child place alive =>
        obtain ⟨before, unmoved⟩ := kept (List.mem_of_getElem? place) alive
        exact ⟨.child place before, Kernel.unnoticed_of_same _ unmoved files⟩
  refine crew.unstarted step proceeds hosted same begins fds ends ?_ ?_
  · intro index child job assigned alive
    have member := List.mem_of_getElem? assigned.place
    obtain ⟨aliveBefore, unmoved⟩ := kept member alive
    obtain ⟨todo, rest, known, reached, can⟩ := crew.live index child job assigned aliveBefore
    refine ⟨todo, rest, known, ?_, ?_⟩
    · rw [exchanges_snoc, (others child member alive).2, Option.toList_none, List.append_nil]
      exact reached
    · exact can.unnoticed (crew.taken undertaking assigned.place aliveBefore)
        (Kernel.unnoticed_of_same _ unmoved files)
  · intro pid mine other yours member memberToo different
    obtain ⟨before, unseen⟩ := unnoticed member
    obtain ⟨beforeToo, unseenToo⟩ := unnoticed memberToo
    exact (crew.apart before beforeToo different).unseen unseen unseenToo

-----------------------------------------------------------------------------------------
-- Calls of the process that runs the jobs
-----------------------------------------------------------------------------------------

/-- The process goes on with a call that starts nobody and changes neither the files
nor its descriptors.
-/
theorem quiet_call (crew : Crew config jobs names begin root prog during kernel) {c : Syscall}
    {reply : Option c.Reply} (step : kernel.Step (.call root c reply) after)
    (proceeds : Proceeds root prog during (.call root c reply))
    (hosted : Hosted begin root jobs (exchanges root (during ++ [.call root c reply])) after)
    (same
      : started (exchanges root (during ++ [.call root c reply]))
        = started (exchanges root during))
    (begins : (Deed.call root c reply).begin? = none) (files : after.files = kernel.files)
    (fds : after.fds root = kernel.fds root)
    (unseen
      : ∀ child, child ≠ root → ∀ change, (Deed.call root c reply).fdEvent? ≠ some (child, change))
    : Crew config jobs names begin root prog (during ++ [.call root c reply]) after := by
  refine crew.quiet undertaking step proceeds hosted same begins files fds nofun ?_
  intro child member _
  have different := crew.ne_root undertaking member
  refine ⟨unseen child different, ?_⟩
  cases reply with
  | none => rfl
  | some reply => exact if_neg different.symm

/-- The other members were there before a child is started, and none of them has kept the names that
it has now.
-/
theorem member_before {program : String} {argv : List String}
    (replied : kernel.call root (.exec program argv) = some (.ok child, after)) {pid : Pid}
    {mine : String → Prop} (different : pid ≠ child)
    (member
      : Member root names (exchanges root during ++ [⟨.exec program argv, .ok child⟩])
          after.processes pid mine)
    : ∃ wide,
        Member root names (exchanges root during) kernel.processes pid wide
        ∧ ∀ name,
            mine name → wide name ∧ ¬names (started (exchanges root during)).length name := by
  have starts := started_exec (exchanges root during) program argv child
  cases member with
  | root =>
      refine ⟨_, .root, fun name reserved => ?_⟩
      obtain ⟨index, later, uses⟩ := reserved
      rw [starts, List.length_append, List.length_singleton] at later
      refine ⟨⟨index, Nat.le_of_succ_le later, uses⟩, fun used => ?_⟩
      have same := undertaking.disjoint _ _ name uses used
      omega
  | child place alive =>
      rw [starts, List.getElem?_append] at place
      split at place
      · next earlier =>
          rw [(Kernel.started_of_call replied).isRunning_of_ne different] at alive
          refine ⟨_, .child place alive, ?_⟩
          intro name uses
          refine ⟨uses, fun used => ?_⟩
          have same := undertaking.disjoint _ _ name uses used
          omega
      · exact absurd (List.mem_singleton.mp (List.mem_of_getElem? place)) different

/-- A child that was just started is apart from all other members, as none of them can get at a file
of its names.
-/
theorem apart_started (crew : Crew config jobs names begin root prog during kernel)
    {program : String} {argv : List String} (acts : kernel.processes.isRunning root = true)
    (replied : kernel.call root (.exec program argv) = some (.ok child, after)) {pid : Pid}
    {mine : String → Prop} (different : pid ≠ child)
    (member
      : Member root names (exchanges root during ++ [⟨.exec program argv, .ok child⟩])
          after.processes pid mine)
    : after.Apart (names (started (exchanges root during)).length) child mine pid := by
  obtain ⟨_, run, -⟩ := crew.reachable undertaking
  have newborn := Kernel.newborn_of_call replied
  have older := run.rooted.ne_started (Kernel.started_of_call replied) acts
  obtain ⟨wide, before, narrower⟩ := member_before undertaking replied different member
  cases before with
  | root =>
      have unmoved :=
        (Kernel.unnoticed_start replied older (Reserved names (exchanges root during))).fds
      refine Kernel.apart_of_closed (run.step (.call acts replied)) different ?_ newborn.closed ?_
      · exact fun name uses kept => (narrower name kept).2 uses
      · intro inode
        rw [unmoved, crew.fds]
        exact Descriptors.not_opens_initial _
  | child place alive =>
      have other := crew.ne_root undertaking (List.mem_of_getElem? place)
      have apart := (crew.apart .root (.child place alive) other).unseen
        (Kernel.unnoticed_start replied older _) (Kernel.unnoticed_start replied different _)
      have narrowed := (apart.symm.narrow fun name kept => (narrower name kept).1).symm
      exact (narrowed.narrow fun name uses => ⟨_, Nat.le_refl _, uses⟩).inherit different
        newborn.closed

/-- A child that is started is younger than all members of the crew, and has made no calls yet. -/
theorem newest (crew : Crew config jobs names begin root prog during kernel)
    {program : String} {argv : List String} (acts : kernel.processes.isRunning root = true)
    (replied : kernel.call root (.exec program argv) = some (.ok child, after))
    : root ≠ child
      ∧ (∀ sibling ∈ started (exchanges root during), sibling ≠ child)
      ∧ exchanges child during = [] := by
  obtain ⟨_, run, earlier, rfl⟩ := crew.reachable undertaking
  have number : child.number = kernel.processes.next.number :=
    congrArg Pid.number (Kernel.started_of_call replied).numbered
  refine ⟨run.rooted.ne_started (Kernel.started_of_call replied) acts, fun sibling member => ?_, ?_⟩
  · rintro rfl
    have fresh := (crew.hosted.hosts.fresh sibling member).2
    omega
  · have none := run.exchanges_eq_nil (Nat.le_of_eq number.symm)
    rw [exchanges_append] at none
    exact (List.append_eq_nil_iff.mp none).2

/-- When a child is started, the members that there were stay apart, and the child is
apart from them.
-/
theorem members_apart (crew : Crew config jobs names begin root prog during kernel)
    {program : String} {argv : List String} (acts : kernel.processes.isRunning root = true)
    (replied : kernel.call root (.exec program argv) = some (.ok child, after)) {pid other : Pid}
    {mine yours : String → Prop}
    (member
      : Member root names (exchanges root during ++ [⟨.exec program argv, .ok child⟩])
          after.processes pid mine)
    (memberToo
      : Member root names (exchanges root during ++ [⟨.exec program argv, .ok child⟩])
          after.processes other yours)
    (different : other ≠ pid)
    : after.Apart mine pid yours other := by
  obtain ⟨older, olderChild, -⟩ := crew.newest undertaking acts replied
  by_cases first : pid = child
  · subst first
    obtain rfl := names_started olderChild older member
    exact crew.apart_started undertaking acts replied different memberToo
  · by_cases second : other = child
    · subst second
      obtain rfl := names_started olderChild older memberToo
      exact (crew.apart_started undertaking acts replied different.symm member).symm
    · obtain ⟨wide, before, narrower⟩ := member_before undertaking replied first member
      obtain ⟨wideToo, beforeToo, narrowerToo⟩ := member_before undertaking replied second memberToo
      have apart := (crew.apart before beforeToo different).unseen
        (Kernel.unnoticed_start replied first _) (Kernel.unnoticed_start replied second _)
      have narrowed := apart.narrow fun name kept => (narrower name kept).1
      exact (narrowed.symm.narrow fun name kept => (narrowerToo name kept).1).symm

/-- A child that was there before another one was started can come to its end as before. -/
theorem live_before (crew : Crew config jobs names begin root prog during kernel)
    {program : String} {argv : List String}
    (replied : kernel.call root (.exec program argv) = some (.ok child, after)) {index : Nat}
    {pid : Pid} {job : Job} (assigned : Assigned jobs (exchanges root during) index pid job)
    (different : pid ≠ child) (alive : after.processes.isRunning pid = true)
    : ∃ todo rest,
        testRun? job.program job.argv = some todo
        ∧ todo.Reaches (exchanges pid during) rest
        ∧ after.CanEnd (names index) pid rest job.signature := by
  rw [(Kernel.started_of_call replied).isRunning_of_ne different] at alive
  obtain ⟨todo, rest, known, reached, can⟩ := crew.live index pid job assigned alive
  refine ⟨todo, rest, known, reached, ?_⟩
  exact can.unnoticed (crew.taken undertaking assigned.place alive)
    (Kernel.unnoticed_start replied different (names index))

/-- A child is started with the names of the next job, and can come to its end from there. -/
theorem start (crew : Crew config jobs names begin root prog during kernel) {job : Job}
    (next : jobs[(started (exchanges root during)).length]? = some job)
    (step : kernel.Step (.call root (.exec job.program job.argv) (some (.ok child))) after)
    (proceeds
      : Proceeds root prog during (.call root (.exec job.program job.argv) (some (.ok child))))
    : Crew config jobs names begin root prog
        (during ++ [.call root (.exec job.program job.argv) (some (.ok child))]) after := by
  obtain ⟨_, run, -⟩ := crew.reachable undertaking
  have calls : Calls jobs (exchanges root during) (.exec job.program job.argv) :=
    ⟨job, next, rfl, rfl⟩
  have hosted :=
    crew.hosted.exchange (rooted undertaking) undertaking.runs undertaking.short calls step
  obtain ⟨acts, replied⟩
      : kernel.processes.isRunning root = true
        ∧ kernel.call root (.exec job.program job.argv) = some (.ok child, after) := by
    cases step with
    | call acts replied => exact ⟨acts, replied⟩
  obtain ⟨older, olderChild, idle⟩ := crew.newest undertaking acts replied
  have exchanged := exchanges_call root during (c := .exec job.program job.argv) (.ok child)
  have unchanged {pid : Pid} (different : root ≠ pid) :=
    exchanges_call_of_ne different during (c := .exec job.program job.argv) (some (.ok child))
  constructor
  · exact crew.steps.snoc step
  · exact throughout_snoc.mpr ⟨crew.proceeds, proceeds⟩
  · exact exchanged ▸ hosted
  · rw [(Kernel.unnoticed_start replied older (names 0)).fds]
    exact crew.fds
  · rw [exchanged, starts_snoc]
    intro entry member
    rcases List.mem_append.mp member with before | last
    · obtain ⟨index, other, assigned, rest⟩ := crew.begun entry before
      exact ⟨index, other, (assigned_start next).mpr (.inl assigned), rest⟩
    · obtain rfl := List.mem_singleton.mp last
      exact ⟨_, job, (assigned_start next).mpr (.inr ⟨rfl, rfl, rfl⟩), rfl, rfl⟩
  · rw [exchanged, starts_snoc]
    intro index pid other assigned
    rcases (assigned_start next).mp assigned with before | ⟨rfl, rfl, rfl⟩
    · exact List.mem_append_left _ (crew.listed index pid other before)
    · exact List.mem_append_right _ (List.mem_singleton.mpr rfl)
  · rw [exchanged]
    intro pid ending finished
    obtain ⟨index, other, assigned, signed⟩ := crew.ended pid ending (by simpa using finished)
    exact ⟨index, other, (assigned_start next).mpr (.inl assigned), signed⟩
  · rw [exchanged]
    intro index pid other assigned alive
    rcases (assigned_start next).mp assigned with before | ⟨rfl, rfl, rfl⟩
    · have member := List.mem_of_getElem? before.place
      rw [unchanged (crew.ne_root undertaking member).symm]
      exact crew.live_before undertaking replied before (olderChild pid member) alive
    · obtain ⟨todo, known, ends⟩ := undertaking.dependable _ _ next
      refine ⟨todo, todo, known, ?_, ends _ _ _ (run.step step) (Kernel.newborn_of_call replied)⟩
      rw [unchanged older, idle]
      exact .refl
  · rw [exchanged]
    exact crew.members_apart undertaking acts replied

/-- What the process calls that runs the jobs are calls for jobs, or it prints. -/
theorem issued {c : Syscall} {next : c.Reply → Prog α} (reached : prog.Reaches past (.call c next))
    : Issues jobs past c := by
  have upholds := undertaking.issues.reaches reached
  rw [List.nil_append] at upholds
  exact upholds.1

omit undertaking in
/-- A line that the process prints changes nothing but the console. -/
theorem print (crew : Crew config jobs names begin root prog during kernel) {bytes : Utf8.Bytes}
    {reply : Except Errno Nat}
    (replied : kernel.call root (.write .stdout bytes) = some (reply, after))
    : reply = .ok bytes.length ∧ after.files = kernel.files ∧ after.fds root = kernel.fds root := by
  have held : (kernel.fds root).get? .stdout = some .stdout := by
    rw [crew.fds]
    rfl
  obtain ⟨middle, performed, rfl⟩ := Kernel.call_cases replied
  have done : kernel.write root .stdout bytes = (reply, middle) := Option.some.inj performed
  cases (Kernel.write_of_stdout held bytes).symm.trans done
  rw [Kernel.trace_files, Kernel.fds_trace]
  exact ⟨rfl, rfl, rfl⟩

/-- The process waits for a child. -/
theorem call_blocked (crew : Crew config jobs names begin root prog during kernel) {c : Syscall}
    (step : kernel.Step (.call root c none) after)
    (proceeds : Proceeds root prog during (.call root c none))
    : Crew config jobs names begin root prog (during ++ [.call root c none]) after := by
  have exchanged := exchanges_call_blocked root root during c
  cases step with
  | callBlocked acts blocked =>
      refine crew.quiet_call undertaking (.callBlocked acts blocked) proceeds ?_
        (congrArg started exchanged) ?_ rfl rfl ?_
      · exact exchanged ▸ crew.hosted
      · cases c <;> rfl
      · intro child _ change moved
        cases c <;> cases moved

/-- The process prints a line. -/
theorem call_print (crew : Crew config jobs names begin root prog during kernel)
    {bytes : Utf8.Bytes} {reply : Except Errno Nat}
    (step : kernel.Step (.call root (.write .stdout bytes) (some reply)) after)
    (replied : kernel.call root (.write .stdout bytes) = some (reply, after))
    (proceeds : Proceeds root prog during (.call root (.write .stdout bytes) (some reply)))
    : Crew config jobs names begin root prog
        (during ++ [.call root (.write .stdout bytes) (some reply)]) after := by
  have exchanged := exchanges_call root during (c := .write .stdout bytes) reply
  obtain ⟨rfl, files, fds⟩ := crew.print replied
  have same := Kernel.call_elsewhere rfl replied
  refine crew.quiet_call undertaking step proceeds ?_ ?_ rfl files fds ?_
  · rw [exchanged]
    exact crew.hosted.aside rfl rfl trivial same.processes same.programs
  · rw [exchanged, started_snoc]
    exact List.append_nil _
  · intro child different change moved
    cases moved
    exact different rfl

/-- The process goes on with its next call, by cases on it. -/
theorem call (crew : Crew config jobs names begin root prog during kernel) {c : Syscall}
    {reply : Option c.Reply} (step : kernel.Step (.call root c reply) after)
    (proceeds : Proceeds root prog during (.call root c reply))
    (issued : Issues jobs (exchanges root during) c)
    : Crew config jobs names begin root prog (during ++ [.call root c reply]) after := by
  cases reply with
  | none => exact crew.call_blocked undertaking step proceeds
  | some reply =>
      have exchanged := exchanges_call root during reply
      have hosted (calls : Calls jobs (exchanges root during) c)
          : Hosted begin root jobs (exchanges root (during ++ [.call root c (some reply)])) after :=
        exchanged ▸ crew.hosted.exchange (rooted undertaking) undertaking.runs
          undertaking.short calls
          step
      have replied : kernel.call root c = some (reply, after) := by
        cases step with
        | call _ replied => exact replied
      rcases issued with calls | ⟨bytes, rfl⟩
      · cases c with
        | exec program argv =>
            cases reply with
            | ok child =>
                obtain ⟨job, next, rfl, rfl⟩ := calls
                exact crew.start undertaking next step proceeds
            | error error =>
                obtain ⟨files, fds⟩ := Kernel.exec_fds replied
                refine crew.quiet_call undertaking step proceeds (hosted calls) ?_ rfl files
                  (fds root fun started => by cases started) fun _ _ _ moved => by cases moved
                rw [exchanged, started_snoc]
                exact List.append_nil _
        | join child =>
            obtain ⟨files, fds⟩ := Kernel.join_unseen replied
            refine crew.quiet_call undertaking step proceeds (hosted calls) ?_ rfl files
              (congrFun fds root) fun _ _ _ moved => by cases moved
            rw [exchanged, started_snoc]
            exact List.append_nil _
        | _ => exact calls.elim
      · exact crew.call_print undertaking step replied proceeds

-----------------------------------------------------------------------------------------
-- Calls and ends of the children
-----------------------------------------------------------------------------------------

omit undertaking in
/-- What is left of a child's program is what it can come to its end by. -/
theorem can_end (crew : Crew config jobs names begin root prog during kernel) {index : Nat}
    {job : Job} (assigned : Assigned jobs (exchanges root during) index child job)
    (alive : kernel.processes.isRunning child = true) {todo rest : Prog Ending}
    (known : testRun? job.program job.argv = some todo)
    (reached : todo.Reaches (exchanges child during) rest)
    : kernel.CanEnd (names index) child rest job.signature := by
  obtain ⟨other, left, same, reachedToo, can⟩ := crew.live index child job assigned alive
  cases known.symm.trans same
  obtain rfl := reached.unique reachedToo
  exact can

/-- Children have one place each, and the names of it. -/
theorem names_eq (crew : Crew config jobs names begin root prog during kernel) {index : Nat}
    (place : (started (exchanges root during))[index]? = some child) {table : ProcessTable}
    {mine : String → Prop} (member : Member root names (exchanges root during) table child mine)
    : mine = names index := by
  cases member with
  | root => exact absurd rfl (crew.ne_root undertaking (List.mem_of_getElem? place))
  | child placeToo _ => exact congrArg names (crew.hosted.hosts.index_eq place placeToo)

omit undertaking in
/-- What a child calls is on files and returns. It is confined to the names of the child, which can
come to its end from there.
-/
theorem answered (crew : Crew config jobs names begin root prog during kernel) {index : Nat}
    {job : Job} (assigned : Assigned jobs (exchanges root during) index child job)
    {todo : Prog Ending} (known : testRun? job.program job.argv = some todo) {c : Syscall}
    {next : c.Reply → Prog Ending} (reached : todo.Reaches (exchanges child during) (.call c next))
    {reply : Option c.Reply} (step : kernel.Step (.call child c reply) after)
    : kernel.processes.isRunning child = true
      ∧ c.onFiles = true
      ∧ ∃ given,
          reply = some given
          ∧ kernel.Confined (names index) child after
          ∧ after.CanEnd (names index) child (next given) job.signature := by
  cases step with
  | call alive replied =>
      obtain ⟨onFiles, given, later, made, confined, can⟩ :=
        (crew.can_end assigned alive known reached).call
      cases replied.symm.trans made
      exact ⟨alive, onFiles, _, rfl, confined, can⟩
  | callBlocked alive blocked =>
      obtain ⟨-, given, later, made, -⟩ := (crew.can_end assigned alive known reached).call
      cases blocked.symm.trans made

/-- Members stay apart when a child does something that is confined to its names. -/
theorem apart_confined (crew : Crew config jobs names begin root prog during kernel) {index : Nat}
    (place : (started (exchanges root during))[index]? = some child)
    (alive : kernel.processes.isRunning child = true)
    (confined : kernel.Confined (names index) child after) {pid other : Pid}
    {mine yours : String → Prop}
    (member : Member root names (exchanges root during) kernel.processes pid mine)
    (memberToo : Member root names (exchanges root during) kernel.processes other yours)
    (different : other ≠ pid)
    : after.Apart mine pid yours other := by
  have apart := crew.apart member memberToo different
  by_cases first : pid = child
  · subst first
    obtain rfl := crew.names_eq undertaking place member
    exact apart.confined confined
  · by_cases second : other = child
    · subst second
      obtain rfl := crew.names_eq undertaking place memberToo
      exact (apart.symm.confined confined).symm
    · exact apart.unseen ((crew.apart (.child place alive) member first).unnoticed confined)
        ((crew.apart (.child place alive) memberToo second).unnoticed confined)

/-- A child goes on with a call. It is confined to its names, so that nobody else notices it. -/
theorem act (crew : Crew config jobs names begin root prog during kernel) {index : Nat} {job : Job}
    (assigned : Assigned jobs (exchanges root during) index child job) {todo : Prog Ending}
    (known : testRun? job.program job.argv = some todo) {c : Syscall} {next : c.Reply → Prog Ending}
    (reached : todo.Reaches (exchanges child during) (.call c next)) {reply : Option c.Reply}
    (step : kernel.Step (.call child c reply) after)
    (proceeds : Proceeds root prog during (.call child c reply))
    : Crew config jobs names begin root prog (during ++ [.call child c reply]) after := by
  have notRoot := crew.ne_root undertaking (List.mem_of_getElem? assigned.place)
  obtain ⟨alive, onFiles, given, rfl, confined, can⟩ := crew.answered assigned known reached step
  have exchanged := exchanges_call_of_ne notRoot during (some given)
  obtain ⟨silent, none⟩
      : (Deed.call child c (some given)).event? = none
        ∧ (Deed.call child c (some given)).begin? = none := by
    cases c with
    | exec => cases onFiles
    | join => cases onFiles
    | _ => exact ⟨rfl, rfl⟩
  have unnoticed {pid : Pid} {mine : String → Prop} (different : pid ≠ child)
      (member : Member root names (exchanges root during) kernel.processes pid mine)
      : kernel.Unnoticed mine pid after :=
    (crew.apart (.child assigned.place alive) member different).unnoticed confined
  refine crew.unstarted step proceeds ?_ (congrArg started exchanged) none
    (unnoticed notRoot.symm .root).fds nofun ?_ ?_
  · rw [exchanged]
    refine crew.hosted.silent (rooted undertaking) undertaking.runs step (.inr (.inl silent)) ?_
    exact if_neg notRoot
  · rw [confined.elsewhere.processes]
    intro other pid task assignedToo aliveToo
    by_cases same : pid = child
    · subst same
      obtain rfl := crew.hosted.hosts.index_eq assigned.place assignedToo.place
      cases assigned.given.symm.trans assignedToo.given
      exact ⟨todo, _, known, exchanges_call pid during given ▸ reached.snoc given, can⟩
    · obtain ⟨run, rest, knownToo, reachedToo, canToo⟩ :=
        crew.live other pid task assignedToo aliveToo
      have idle := exchanges_call_of_ne (Ne.symm same) during (some given)
      refine ⟨run, rest, knownToo, idle ▸ reachedToo, ?_⟩
      exact canToo.unnoticed (crew.taken undertaking assignedToo.place aliveToo)
        (unnoticed same (.child assignedToo.place aliveToo))
  · rw [confined.elsewhere.processes]
    exact crew.apart_confined undertaking assigned.place alive confined

/-- A child ends with the signature of its job. -/
theorem finish (crew : Crew config jobs names begin root prog during kernel) {index : Nat}
    {job : Job} (assigned : Assigned jobs (exchanges root during) index child job)
    {todo : Prog Ending} (known : testRun? job.program job.argv = some todo) {ending : Ending}
    (reached : todo.Reaches (exchanges child during) (.done ending))
    (step : kernel.Step (.finish child ending) after)
    (proceeds : Proceeds root prog during (.finish child ending))
    : Crew config jobs names begin root prog (during ++ [.finish child ending]) after := by
  obtain ⟨_, run, -⟩ := crew.reachable undertaking
  have notRoot := crew.ne_root undertaking (List.mem_of_getElem? assigned.place)
  cases step with
  | finish alive =>
      obtain rfl := (crew.can_end assigned alive known reached).ending_eq
      have ends : kernel.Step (.finish child (.exit job.signature)) _ := .finish alive
      have exchanged := exchanges_finish root child during (.exit job.signature)
      refine crew.quiet undertaking ends proceeds ?_ (by rw [exchanged]) rfl
        (Kernel.finish_files ..) ?_
        ?_ ?_
      · rw [exchanged]
        exact crew.hosted.silent (rooted undertaking) undertaking.runs ends
          (.inr (.inr ⟨index, child, job, assigned.place, assigned.given, rfl⟩)) rfl
      · rw [Kernel.fds_finish, Function.update_of_ne notRoot.symm]
      · intro pid other same
        cases same
        exact ⟨index, job, assigned, rfl⟩
      · intro sibling _ aliveAfter
        refine ⟨fun change same => ?_, rfl⟩
        cases same
        rcases run.running_step ends aliveAfter with started | ⟨-, stays⟩
        · cases started
        · exact stays rfl

/-- Whatever a member of a crew does next, the crew goes on, by cases on the deed. -/
theorem step (crew : Crew config jobs names begin root prog during kernel)
    (step : kernel.Step deed after) (proceeds : Proceeds root prog during deed)
    : Crew config jobs names begin root prog (during ++ [deed]) after := by
  cases proceeds with
  | root reached => exact crew.call undertaking step (.root reached) (issued undertaking reached)
  | child begun known reached =>
      obtain ⟨index, job, assigned, rfl, rfl⟩ := crew.begun _ begun
      exact crew.act undertaking assigned known reached step (.child begun known reached)
  | finish begun known reached =>
      obtain ⟨index, job, assigned, rfl, rfl⟩ := crew.begun _ begun
      exact crew.finish undertaking assigned known reached step (.finish begun known reached)

end Crew

/-- A crew goes on in any order of its deeds, by induction on them. -/
theorem Undertaking.crew (undertaking : Undertaking config jobs names begin root prog result)
    (steps : Steps begin during kernel) (proceeds : Throughout (Proceeds root prog) during)
    : Crew config jobs names begin root prog during kernel := by
  induction during using List.reverseRecOn generalizing kernel with
  | nil =>
      cases steps
      exact undertaking.begins
  | append_singleton during deed ih =>
      obtain ⟨middle, earlier, last⟩ := steps.of_snoc
      obtain ⟨before, next⟩ := throughout_snoc.mp proceeds
      exact (ih earlier before).step undertaking last next

section Members

variable (undertaking : Undertaking config jobs names begin root prog result)

include undertaking

/-- What was started is not the process that runs the jobs. -/
theorem Crew.begun_ne_root (crew : Crew config jobs names begin root prog during kernel)
    {entry : Begin} (begun : entry ∈ starts during)
    : entry.child ≠ root := by
  obtain ⟨index, job, assigned, -⟩ := crew.begun entry begun
  exact crew.ne_root undertaking (List.mem_of_getElem? assigned.place)

/-- A process that runs jobs is somewhere in its program, by induction on the deeds. -/
theorem Undertaking.reaches (steps : Steps begin during after)
    (proceeds : Throughout (Proceeds root prog) during)
    : ∃ rest, prog.Reaches (exchanges root during) rest := by
  induction during using List.reverseRecOn generalizing after with
  | nil => exact ⟨prog, .refl⟩
  | append_singleton during deed ih =>
      obtain ⟨middle, earlier, -⟩ := steps.of_snoc
      obtain ⟨before, next⟩ := throughout_snoc.mp proceeds
      obtain ⟨rest, reached⟩ := ih earlier before
      rw [exchanges_snoc]
      rcases made : deed.exchange? root with _ | ⟨c, reply⟩
      · exact ⟨rest, by rwa [Option.toList_none, List.append_nil]⟩
      · obtain rfl := Deed.eq_call_of_exchange made
        cases next with
        | root reached => exact ⟨_, reached.snoc reply⟩
        | child begun =>
            have crew := undertaking.crew earlier before
            exact absurd rfl (crew.begun_ne_root undertaking begun)

/-- The process that runs the jobs has not ended while it has a crew. -/
theorem Crew.unfinished (crew : Crew config jobs names begin root prog during kernel)
    (ending : Ending)
    : .finish root ending ∉ during := by
  intro finished
  obtain ⟨index, job, assigned, -⟩ := crew.ended root ending finished
  exact crew.ne_root undertaking (List.mem_of_getElem? assigned.place) rfl

end Members

end Spawner

end KernelConformance
