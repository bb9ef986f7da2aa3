import KernelConformance.Proofs.Programs.Pools
import KernelConformance.Proofs.Programs.ShiftedPrograms
import Mathlib.Data.Option.Basic

/-! Pools whose kernels give out different numbers. In whatever order processes go on,
corresponding ones stay at corresponding places of their programs, so that the host gets the
same of a run in both pools.
-/

namespace KernelConformance.Pool

variable {config : Config} {offset : Offset} {starts : String → Prop}
  {left right : Pool} {pid : Pid} {program : String}

/-- Whether a pool is another one with later numbers, as far as processes can tell that start only
some programs.
-/
structure Shifted (left : Pool) (offset : Offset) (starts : String → Prop) (right : Pool)
    : Prop where
  kernel : left.kernel.Shifted offset starts right.kernel
  mains
    : ∀ program,
        starts program
        → program ∈ left.kernel.programs
        → ∃ main,
            left.mains.get? program = some main
            ∧ right.mains.get? program = some main
            ∧ ∀ name argv, (main name argv).EndAlike offset starts [] (main name argv)
  going
    : ∀ pid,
        Option.Rel
          (fun prog progToo => ∃ owed,
            left.kernel.Owes pid owed ∧ prog.EndAlike offset starts owed progToo)
          (left.left.get? pid) (right.left.get? (offset.pid pid))

namespace Shifted

/-- Who has nothing to do with a step has the same to do after it. -/
theorem bystander (shifted : left.Shifted offset starts right) (sound : left.Sound config)
    {deed : Deed} {after : Kernel} (step : left.kernel.Step deed after)
    (quiet : exchanges pid [deed] = [])
    : Option.Rel
        (fun prog progToo => ∃ owed, after.Owes pid owed ∧ prog.EndAlike offset starts owed progToo)
        (left.left.get? pid) (right.left.get? (offset.pid pid)) := by
  obtain ⟨deeds, run⟩ := sound.reachable
  have going := shifted.going pid
  generalize right.left.get? (offset.pid pid) = progToo at going ⊢
  rcases found : left.left.get? pid with _ | prog <;> rw [found] at going
  · cases going
    exact .none
  · cases going with
    | some alike =>
        obtain ⟨owed, owes, alike⟩ := alike
        exact .some
          ⟨owed, owes.kept run (sound.running pid prog found) (.cons step .nil) quiet, alike⟩

/-- Corresponding processes that were started have corresponding programs to do. -/
theorem load (shifted : left.Shifted offset starts right) {started : Option (String × Pid)}
    (begun
      : ∀ program child,
          started = some (program, child)
          → starts program ∧ program ∈ left.kernel.programs ∧ left.kernel.Owes child [])
    : (left.load started).Shifted offset starts
        (right.load (started.map (Prod.map id offset.pid))) := by
  rcases started with _ | ⟨program, child⟩
  · exact shifted
  · obtain ⟨named, loaded, owes⟩ := begun program child rfl
    obtain ⟨main, found, foundToo, alike⟩ := shifted.mains program named loaded
    have context := shifted.kernel.contexts child
    simp only [Pool.load, Option.map_some, Prod.map, id_eq, found, foundToo, context]
    refine ⟨shifted.kernel, shifted.mains, fun pid => ?_⟩
    simp only [FiniteMap.get?_insert, offset.pid_inj]
    split
    · next same => exact .some ⟨[], same ▸ owes, alike _ _⟩
    · exact shifted.going pid

/-- When a process ends in one pool and the corresponding one in the other, nothing
sets them apart.
-/
theorem finish (shifted : left.Shifted offset starts right) (sound : left.Sound config)
    (runs : left.kernel.processes.isRunning pid = true) (ending : Ending)
    : Shifted
        { left with kernel := left.kernel.finish pid ending, left := left.left.erase pid } offset
          starts
        { right with
          kernel := right.kernel.finish (offset.pid pid) ending,
          left := right.left.erase (offset.pid pid) } := by
  have step : left.kernel.Step (.finish pid ending) _ := .finish runs
  refine ⟨shifted.kernel.finish pid ending, ?_, fun other => ?_⟩
  · rw [Kernel.finish_programs]
    exact shifted.mains
  · simp only [FiniteMap.get?_erase, offset.pid_inj]
    split
    · exact .none
    · exact shifted.bystander sound step (show exchanges other [.finish pid ending] = [] from rfl)

/-- Corresponding replies to corresponding calls set nothing apart either. -/
theorem answered (shifted : left.Shifted offset starts right) (sound : left.Sound config)
    (runs : left.kernel.processes.isRunning pid = true) {owed : List Pid}
    (owes : left.kernel.Owes pid owed) {c other : Syscall} {related : c.Reply → other.Reply → Prop}
    (counterpart : Counterpart offset starts owed c other related) {reply : c.Reply}
    {replyToo : other.Reply} {after afterToo : Kernel}
    (replied : left.kernel.call pid c = some (reply, after)) (same : related reply replyToo)
    (kernels : after.Shifted offset starts afterToo) {rest restToo : Prog Ending}
    (onward : rest.EndAlike offset starts (owedAfter owed ⟨c, reply⟩) restToo)
    : (Pool.load (c.started? reply)
        { left with kernel := after, left := left.left.insert pid rest }).Shifted offset starts
        (Pool.load (other.started? replyToo)
          { right with
            kernel := afterToo
            left := right.left.insert (offset.pid pid) restToo }) := by
  obtain ⟨deeds, run⟩ := sound.reachable
  have step : left.kernel.Step (.call pid c (some reply)) after := .call runs replied
  have programs := Kernel.call_programs replied
  rw [counterpart.started same]
  refine load ⟨kernels, ?_, fun third => ?_⟩ fun program child begun => ?_
  · rw [programs]
    exact shifted.mains
  · simp only [FiniteMap.get?_insert, offset.pid_inj]
    split
    · next here =>
        subst here
        refine .some ⟨_, owes.exchanged run runs (.cons step .nil) ?_, onward⟩
        exact exchanges_cons_call third reply []
    · next different =>
        exact shifted.bystander sound step (exchanges_cons_other (Ne.symm different) [])
  · cases c with
    | exec name argv =>
        rcases reply with _ | newest
        · cases begun
        · cases begun
          refine ⟨counterpart.known rfl, ?_, ?_⟩
          · rw [programs]
            exact Kernel.program_of_call replied
          · exact (run.step step).owes_newest (Kernel.started_of_call replied).next
    | _ => cases begun

/-- When a process goes on in one pool and the corresponding one in the other, nothing sets them
apart. By cases on what they do next.
-/
theorem goOn (shifted : left.Shifted offset starts right) (sound : left.Sound config) (pid : Pid)
    : (left.goOn pid).2.Shifted offset starts (right.goOn (offset.pid pid)).2 := by
  obtain ⟨deeds, run⟩ := sound.reachable
  have going := shifted.going pid
  rcases found : left.left.get? pid with _ | prog
    <;> rcases foundToo : right.left.get? (offset.pid pid) with _ | progToo
    <;> rw [found, foundToo] at going
  · simpa only [Pool.goOn, found, foundToo] using shifted
  · cases going
  · cases going
  · have runs := sound.running pid prog found
    obtain ⟨owed, owes, alike⟩ : ∃ owed,
        left.kernel.Owes pid owed ∧ prog.EndAlike offset starts owed progToo := by
      cases going with
      | some alike => exact alike
    cases alike with
    | @done _ _ ending same =>
        subst same
        simp only [Pool.goOn, found, foundToo]
        exact shifted.finish sound runs ending
    | call counterpart onward =>
        simp only [Pool.goOn, found, foundToo]
        rcases counterpart.replied shifted.kernel run owes with
          ⟨blocked, blockedToo⟩
          | ⟨reply, replyToo, after, afterToo, replied, repliedToo, same, kernels⟩
        · simpa only [blocked, blockedToo] using shifted
        · simp only [replied, repliedToo]
          exact shifted.answered sound runs owes counterpart replied same kernels
            (onward reply replyToo same)

/-- However often processes go on, and in whatever order, nothing sets the pools apart. By induction
on the moves.
-/
theorem run_goOn (shifted : left.Shifted offset starts right) (sound : left.Sound config)
    (order : List Pid)
    : (run (order.map .goOn) left).2.Shifted offset starts
        (run ((order.map offset.pid).map .goOn) right).2 := by
  induction order generalizing left right with
  | nil => exact shifted
  | cons pid rest ih => exact ih (shifted.goOn sound pid) (sound.goOn pid)

end Shifted

-----------------------------------------------------------------------------------------
-- Runs for the host
-----------------------------------------------------------------------------------------

/-- What the host gets of a run: it starts a program, processes go on in some order, and it joins
the process that it has started. There is no reply if that still runs.
-/
def hostRun (program : String) (argv : List String) (order : List Pid) (pool : Pool)
    : Option (Except Errno ExitStatus) :=
  match pool.kernel.start .host program argv with
  | (.error error, _) => some (.error error)
  | (.ok root, kernel) =>
      let (_, after) := run (order.map .goOn) (load (some (program, root)) { pool with kernel })
      (after.kernel.reap .host root).map Prod.fst

/-- The host gets the same of a run in both pools if corresponding processes go on in
the same order.
-/
theorem Shifted.hostRun (shifted : left.Shifted offset starts right) (sound : left.Sound config)
    (named : starts program) (argv : List String) (order : List Pid)
    : right.hostRun program argv (order.map offset.pid) = left.hostRun program argv order := by
  rcases shifted.kernel.start .host named argv with
    ⟨error, failed, failedToo⟩ | ⟨root, begin, beginToo, started, startedToo, kernels⟩
  · rw [offset.parent_host] at failedToo
    simp only [Pool.hostRun, failed, failedToo]
  · rw [offset.parent_host] at startedToo
    obtain ⟨deeds, run⟩ := sound.reachable
    have step : left.kernel.Step (.spawn program argv (.ok root)) begin := .spawn started
    have programs := (Kernel.start_frame started).1
    have begun
        : Shifted { left with kernel := begin } offset starts
            { right with kernel := beginToo } := by
      refine ⟨kernels, ?_, fun pid => shifted.bystander sound step rfl⟩
      rw [programs]
      exact shifted.mains
    have soundToo
        : Sound config (Pool.load (some (program, root)) { left with kernel := begin }) := by
      refine (sound.advance step nofun).load ?_
      rintro _ _ ⟨⟩
      exact (Kernel.newborn_of_start started).runs
    have opens (name : String) (child : Pid) (same : some (program, root) = some (name, child))
        : starts name ∧ name ∈ begin.programs ∧ begin.Owes child [] := by
      cases same
      exact ⟨named, programs ▸ Kernel.program_of_start started,
        (run.step step).owes_newest (Kernel.started_of_start started).next⟩
    have ready := begun.load opens
    have answers := (ready.run_goOn soundToo order).kernel.reap .host root
    simp only [Option.map_some, Prod.map, id_eq, offset.parent_host] at answers
    rcases answers with
      ⟨blocked, blockedToo⟩ | ⟨reply, after, afterToo, reaped, reapedToo, -⟩
    · simp only [Pool.hostRun, started, startedToo, blocked, blockedToo]
    · simp only [Pool.hostRun, started, startedToo, reaped, reapedToo, Option.map_some]

end KernelConformance.Pool
