import KernelConformance.Proofs.Runner.Courses

/-! Tests that are awaited. While the runner waits for a test the processes go on in any order, and
all that they do are deeds of the test and its children, each of which is where its calls say. So
the runner learns what the test settles, and if the test has passed it finds all as it was before.
-/

namespace KernelConformance

open Kernel (Steps)

variable {config : Config} {deeds during : List Deed} {begin kernel : Kernel} {root pid : Pid}
  {prog rest : Prog Ending} {program : String} {argv : List String} {pool : Pool}

-----------------------------------------------------------------------------------------
-- A process of the host
-----------------------------------------------------------------------------------------

/-- A process that the host has started and not joined is not joined by its own deeds and those of
its children.
-/
theorem Kernel.Run.not_joined_of_acts (run : Run config deeds begin)
    (steps : Steps begin during kernel) (acts : Throughout (Acts root prog) during)
    (started : StartedBy deeds .host root) (kept : ¬Joined deeds root)
    : ¬Joined (deeds ++ during) root := by
  intro joined
  obtain ⟨program, argv, begun⟩ := started
  obtain ⟨status, member⟩ :=
    (run.extend steps).joinedBy_of_joined ⟨program, argv, List.mem_append_left _ begun⟩ nofun joined
  rcases List.mem_append.mp member with before | now
  · exact kept ⟨.host, status, before⟩
  · obtain ⟨earlier, later, whole⟩ := List.append_of_mem now
    cases acts earlier _ later whole with
    | proceeds onward => cases onward

/-- When the host joins the process it gets the status that the process has ended with. -/
theorem Kernel.Opening.reaped (opening : begin.Opening config program argv root)
    (steps : Steps begin during kernel) (acts : Throughout (Acts root prog) during)
    {reply : Except Errno ExitStatus} {after : Kernel}
    (reaped : kernel.reap .host root = some (reply, after))
    : ∃ ending, .finish root ending ∈ during ∧ reply = .ok ending.status := by
  obtain ⟨deeds, run⟩ := opening.reachable
  obtain ⟨started, kept⟩ := run.child_of_slot opening.hosted nofun
  have unjoined := run.not_joined_of_acts steps acts started kept
  obtain ⟨program, argv, begun⟩ := started
  have started : StartedBy (deeds ++ during) .host root :=
    ⟨program, argv, List.mem_append_left _ begun⟩
  have whole := run.extend steps
  by_cases ended : Ended (deeds ++ during) root
  · obtain ⟨ending, finished⟩ := ended
    obtain ⟨_, returned⟩ := @Run.join_returns _ _ _ .host _ whole rfl started unjoined _ finished
    cases reaped.symm.trans returned
    refine ⟨ending, (List.mem_append.mp finished).resolve_left fun before => ?_, rfl⟩
    exact (run.isRunning_iff.mp opening.newborn.runs).2 ⟨ending, before⟩
  · cases reaped.symm.trans (@Run.join_blocked _ _ _ .host _ whole rfl started unjoined ended)

/-- A kernel that the process has left as it was is idle again when the host has joined it. -/
theorem Kernel.Opening.idle (opening : begin.Opening config program argv root)
    (steps : Steps begin during kernel) (acts : Throughout (Acts root prog) during)
    (vacated : kernel.Vacated root) {status : ExitStatus} {after : Kernel}
    (reaped : kernel.reap .host root = some (.ok status, after))
    : after.Idle config := by
  obtain ⟨deeds, run⟩ := opening.reachable
  have programs := programs_of_acts steps acts
  rcases Kernel.reap_cases reaped with ⟨error, same, -⟩ | ⟨status, processes, -, done, rfl⟩
  · cases same
  · have freed := ProcessTable.freed_of_reap done
    constructor
    · exact ⟨_, (run.extend steps).step (.wait reaped)⟩
    · exact programs ▸ opening.installed
    · exact programs ▸ opening.absent
    · intro pid
      rw [freed.get?]
      split
      · rfl
      · next other => exact vacated.slots pid other
    · exact vacated.names

-----------------------------------------------------------------------------------------
-- Pools in which nobody is
-----------------------------------------------------------------------------------------

namespace Pool

/-- A pool that knows the test programs, without a process or a file. -/
structure Quiet (config : Config) (pool : Pool) : Prop where
  idle : pool.kernel.Idle config
  sound : pool.Sound config
  mains : pool.mains = testMains

namespace Quiet

theorem left_eq_none (quiet : pool.Quiet config) (pid : Pid) : pool.left.get? pid = none := by
  rcases found : pool.left.get? pid with _ | prog
  · rfl
  · obtain ⟨parent, slot⟩ := ProcessTable.isRunning_iff.mp (quiet.sound.running pid prog found)
    cases (quiet.idle.slots pid).symm.trans slot

/-- Nothing goes on where nobody is. -/
theorem goOn (quiet : pool.Quiet config) (pid : Pid) : (pool.goOn pid).2.Quiet config := by
  simpa only [Pool.goOn, quiet.left_eq_none] using quiet

theorem ofTests (config : Config) : (Pool.ofTests (.bootWithTests config)).Quiet config :=
  ⟨.boot config, (Kernel.Idle.boot config).pool_sound, rfl⟩

/-- Nobody is there after a deed of the host either if the kernel is idle then. -/
theorem host (quiet : pool.Quiet config) (idle : kernel.Idle config)
    : Quiet config { pool with kernel } where
  idle
  sound := ⟨idle.reachable, fun pid _ found => (nomatch (quiet.left_eq_none pid).symm.trans found)⟩
  mains := quiet.mains

end Quiet

-----------------------------------------------------------------------------------------
-- Pools in which a test is made
-----------------------------------------------------------------------------------------

/-- What is left to do of a process, or of one of its children, after some deeds. -/
inductive Doing (root : Pid) (prog : Prog Ending) (during : List Deed)
    : Pid → Prog Ending → Prop where
  | root {rest : Prog Ending} (reached : prog.Reaches (exchanges root during) rest)
    : Doing root prog during root rest
  | child {program argv pid todo} {rest : Prog Ending}
    (begun : ⟨program, argv, pid⟩ ∈ starts during)
    (known : testRun? program argv = some todo) (reached : todo.Reaches (exchanges pid during) rest)
    : Doing root prog during pid rest

namespace Doing

theorem acts_finish {ending : Ending} (doing : Doing root prog during pid (.done ending))
    : Acts root prog during (.finish pid ending) := by
  cases doing with
  | root reached => exact .ends reached
  | child begun known reached => exact .proceeds (.finish begun known reached)

theorem acts_call {c : Syscall} {next : c.Reply → Prog Ending}
    (doing : Doing root prog during pid (.call c next)) (reply : Option c.Reply)
    : Acts root prog during (.call pid c reply) := by
  cases doing with
  | root reached => exact .proceeds (.root reached)
  | child begun known reached => exact .proceeds (.child begun known reached)

/-- A deed that is no exchange of a process leaves it to do what it had to do. -/
theorem kept (doing : Doing root prog during pid rest) {deed : Deed}
    (same : exchanges pid (during ++ [deed]) = exchanges pid during)
    : Doing root prog (during ++ [deed]) pid rest := by
  cases doing with
  | root reached => exact .root (same ▸ reached)
  | child begun known reached =>
      exact .child (starts_append during _ ▸ List.mem_append_left _ begun) known (same ▸ reached)

/-- After a call a process is where the reply leads. -/
theorem call {c : Syscall} {next : c.Reply → Prog Ending}
    (doing : Doing root prog during pid (.call c next)) (reply : c.Reply)
    : Doing root prog (during ++ [.call pid c (some reply)]) pid (next reply) := by
  cases doing with
  | root reached => exact .root (exchanges_call root during reply ▸ reached.snoc reply)
  | child begun known reached =>
      exact .child (starts_append during _ ▸ List.mem_append_left _ begun) known
        (exchanges_call pid during reply ▸ reached.snoc reply)

end Doing

/-- All that has happened in a pool since a process was started are deeds of that process
and its children.
-/
structure Enacts (config : Config) (begin : Kernel) (root : Pid) (prog : Prog Ending)
    (during : List Deed) (pool : Pool)
    : Prop where
  sound : pool.Sound config
  mains : pool.mains = testMains
  steps : Steps begin during pool.kernel
  acts : Throughout (Acts root prog) during
  left : ∀ pid rest, pool.left.get? pid = some rest → Doing root prog during pid rest

/-- A process that was started as a test program has its run before it, or nothing. -/
theorem get?_load_started (found : (pool.load (some (program, pid))).left.get? pid = some rest)
    (nothing : pool.left.get? pid = none) (mains : pool.mains = testMains)
    (newborn : pool.kernel.Newborn pid program argv)
    : testRun? program argv = some rest := by
  rcases known : testProgram? program with _ | main
  · have missing : pool.mains.get? program = none := by rw [mains, get?_testMains, known]
    simp only [load, missing] at found
    cases nothing.symm.trans found
  · have present : pool.mains.get? program = some main := by rw [mains, get?_testMains, known]
    rw [get?_load_self present, newborn.context] at found
    rw [testRun?, known]
    exact found

/-- A process that was started by a call has all of its program before it. -/
theorem Enacts.started (run : Kernel.Run config deeds begin)
    (enacts : pool.Enacts config begin root prog during) {child : Pid} {kernel : Kernel}
    {next : (Syscall.exec program argv).Reply → Prog Ending}
    (found : pool.left.get? pid = some (.call (.exec program argv) next))
    (replied : pool.kernel.call pid (.exec program argv) = some (.ok child, kernel))
    (has
      : (load (some (program, child))
            { pool with kernel, left := pool.left.insert pid (next (.ok child)) }).left.get? child
        = some rest)
    : Doing root prog
        (during ++ [.call pid (.exec program argv) (some (.ok child))]) child rest := by
  have whole := run.extend enacts.steps
  have started := Kernel.started_of_call replied
  have different : pid ≠ child := whole.rooted.ne_started started (enacts.sound.running pid _ found)
  have nothing : (pool.left.insert pid (next (.ok child))).get? child = none := by
    rw [FiniteMap.get?_insert, if_neg different.symm]
    exact enacts.sound.left_started started
  have silent := whole.exchanges_eq_nil (Nat.le_of_eq (congrArg Pid.number started.numbered.symm))
  rw [exchanges_append, List.append_eq_nil_iff] at silent
  have known := get?_load_started has nothing enacts.mains (Kernel.newborn_of_call replied)
  refine .child ?_ known ?_
  · rw [starts_append]
    exact List.mem_append_right _ (.head _)
  · rw [exchanges_call_of_ne different, silent.2]
    exact .refl

/-- Whoever goes on, all that has happened are deeds of the process and its children. -/
theorem Enacts.goOn (run : Kernel.Run config deeds begin)
    (enacts : pool.Enacts config begin root prog during) (pid : Pid)
    : ∃ more, (pool.goOn pid).2.Enacts config begin root prog (during ++ more) := by
  have sound := enacts.sound.goOn pid
  have went := pool.wentOn pid
  generalize (pool.goOn pid).2 = after at went sound
  cases went with
  | idle => exact ⟨[], by rwa [List.append_nil]⟩
  | @finish ending found =>
      have step : pool.kernel.Step (.finish pid ending) _ :=
        .finish (enacts.sound.running pid _ found)
      refine ⟨[.finish pid ending], sound, enacts.mains, enacts.steps.snoc step, ?_, ?_⟩
      · exact throughout_snoc.mpr ⟨enacts.acts, (enacts.left pid _ found).acts_finish⟩
      · intro other rest has
        rw [FiniteMap.get?_erase] at has
        split at has
        · cases has
        · exact (enacts.left other rest has).kept (exchanges_finish ..)
  | @call c next reply kernel found replied =>
      have step : pool.kernel.Step (.call pid c (some reply)) kernel :=
        .call (enacts.sound.running pid _ found) replied
      have doing := enacts.left pid _ found
      refine ⟨[.call pid c (some reply)], sound, ?_, ?_, ?_, ?_⟩
      · rw [load_mains, enacts.mains]
      · rw [load_kernel]
        exact enacts.steps.snoc step
      · exact throughout_snoc.mpr ⟨enacts.acts, doing.acts_call _⟩
      · intro other rest has
        rcases get?_load has with ⟨program, begun⟩ | had
        · cases c with
          | exec =>
              rcases reply with _ | child
              · cases begun
              · cases begun
                exact enacts.started run found replied has
          | _ => cases begun
        · rw [FiniteMap.get?_insert] at had
          split at had
          · next same =>
              subst same
              cases had
              exact doing.call reply
          · next different =>
              exact (enacts.left other rest had).kept
                (exchanges_call_of_ne (Ne.symm different) during _)

/-- Nothing has happened yet in a pool in which nobody was when a process was started there. -/
theorem Quiet.enacts (quiet : pool.Quiet config) {main : Main}
    (known : testProgram? program = some main)
    (started : pool.kernel.start .host program argv = (.ok root, begin))
    : (load (some (program, root)) { pool with kernel := begin }).Enacts config begin root
        (main (argv.headD program) argv) [] := by
  have newborn := Kernel.newborn_of_start started
  constructor
  · have step : pool.kernel.Step (.spawn program argv (.ok root)) begin := .spawn started
    refine (quiet.sound.advance step nofun).load fun name pid same => ?_
    cases same
    exact newborn.runs
  · rw [load_mains, quiet.mains]
  · rw [load_kernel]
    exact .nil
  · exact throughout_nil
  · intro pid rest has
    rcases get?_load has with ⟨name, begun⟩ | had
    · cases begun
      have here := get?_load_started has (quiet.left_eq_none root) quiet.mains newborn
      rw [testRun?, known] at here
      cases here
      exact .root .refl
    · cases (quiet.left_eq_none pid).symm.trans had

end Pool

-----------------------------------------------------------------------------------------
-- Tests
-----------------------------------------------------------------------------------------

/-- Whether a test is settled by something. -/
abbrev TestCase.Settles (config : Config) (test : TestCase) (passes : Prop) : Prop :=
  KernelConformance.Settles config test.program (test.program :: test.args) passes

/-- Only a process that exits with zero has the status of success. -/
theorem Ending.status_eq_zero {ending : Ending} : ending.status = .exited 0 ↔ ending = .exit 0 := by
  cases ending <;> simp [Ending.status]

/-- A root process that is awaited has come to what settles it, in whatever order the processes go
on, and if that holds nobody and nothing is left of it.
-/
theorem ensures_await {passes : Prop} {onward : Pool}
    (opening : begin.Opening config program argv root)
    (settles
      : ∀ during kernel ending,
          Steps begin during kernel
          → Throughout (Acts root prog) during
          → .finish root ending ∈ during
          → (ending = .exit 0 ↔ passes) ∧ (passes → kernel.Vacated root))
    (enacts : onward.Enacts config begin root prog [])
    : Host.Ensures onward (Host.perform (.await root)) fun result after =>
        (result = .ok (.exited 0) ↔ passes) ∧ (passes → after.Quiet config) := by
  obtain ⟨deeds, run⟩ := opening.reachable
  refine @Host.Ensures.call _ _ _ (fun pool => ∃ during, pool.Enacts config begin root prog during)
    (fun pool pid => ?_) ⟨[], enacts⟩ _ _ ?_
  · rintro ⟨during, enacts⟩
    obtain ⟨more, enacts⟩ := enacts.goOn run pid
    exact ⟨_, enacts⟩
  · rintro waiting reply kernel ⟨during, enacts⟩ reaped
    obtain ⟨ending, finished, rfl⟩ := opening.reaped enacts.steps enacts.acts reaped
    obtain ⟨verdict, vacated⟩ := settles during _ ending enacts.steps enacts.acts finished
    have quiet (holds : passes) : Pool.Quiet config { waiting with kernel } :=
      ⟨opening.idle enacts.steps enacts.acts (vacated holds) reaped,
        enacts.sound.advance (.wait reaped) nofun, enacts.mains⟩
    refine @Host.Ensures.done _ _ _ (fun pool => passes → pool.Quiet config)
      (fun _ pid quiet holds => (quiet holds).goOn pid) quiet _ fun after quiet => ⟨?_, quiet⟩
    rw [Except.ok.injEq, Ending.status_eq_zero, verdict]

/-- A test that has a kernel for itself passes exactly if there is a slot for it and what settles it
holds, in whatever order the processes go on, and then nobody and nothing is left of it.
-/
theorem TestCase.ensures_await {test : TestCase} {passes : Prop}
    (settles : test.Settles config passes)
    (short : (test.program :: test.args).length ≤ maxArguments) (quiet : pool.Quiet config)
    : Host.Ensures pool test.await fun result after =>
        (result = .ok (.exited 0) ↔ 1 ≤ config.maxProcesses ∧ passes)
        ∧ (result = .ok (.exited 0) → after.Quiet config) := by
  obtain ⟨prog, known, settles⟩ := settles
  obtain ⟨main, program, rfl⟩ := Option.map_eq_some_iff.mp known
  refine @Host.Ensures.call _ _ _ (Pool.Quiet config)
    (fun _ pid quiet => quiet.goOn pid) quiet _ _ ?_
  intro waiting reply begin quiet served
  have started := Option.some.inj served
  cases reply with
  | error error =>
      have none := quiet.idle.refused program short started
      refine @Host.Ensures.done _ _ _ (fun _ => True) (fun _ _ => id) trivial _ fun _ _ => ?_
      exact ⟨iff_of_false nofun (by omega), nofun⟩
  | ok root =>
      have slot := quiet.idle.slot_of_started started
      have opening := quiet.idle.opening started
      refine (KernelConformance.ensures_await opening (fun during kernel ending =>
        settles root begin during kernel ending opening) (quiet.enacts program started)).mono ?_
      rintro result after ⟨verdict, quiet⟩
      rw [verdict, and_iff_right slot]
      exact ⟨.rfl, quiet⟩

end KernelConformance
