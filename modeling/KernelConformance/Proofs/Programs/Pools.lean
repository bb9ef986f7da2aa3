import KernelConformance.Proofs.Files.TidyKernels
import KernelConformance.Proofs.Programs.Families

/-! Processes that go on in any order. The host and the processes make one move after the other. A
process does what is registered under its program, so that its calls depend on its name, its
arguments and the replies that it has got, and on nothing else.
-/

namespace KernelConformance

open Utf8 (Bytes)

/-- A kernel, what is registered under the names of programs, and what the processes that have not
ended are still to do.
-/
structure Pool where
  kernel : Kernel
  mains : FiniteMap String Main
  left : FiniteMap Pid (Prog Ending)

/-- What comes next: a step of the host, or a process goes on by one call or by its end. -/
inductive Move where
  | register (program : String) (main : Main)
  | spawn (program : String) (argv : List String)
  | wait (pid : Pid)
  | install (name : String) (bytes : Bytes)
  | config
  | usage
  | journal
  | takeJournal
  | contents (name : String)
  | console
  | takeConsole
  | goOn (pid : Pid)

/-- What comes of a move: a deed of the host or of a process with a name, which says what was
replied, or what the host sees. A process that has nothing to do is idle.
-/
inductive Outcome where
  | hosted (deed : Deed)
  | acted (name : String) (deed : Deed)
  | config (config : Config)
  | usage (usage : Usage)
  | journal (events : List Event)
  | contents (bytes : Option Bytes)
  | console (text : String)
  | idle

/-- The deed that has come of a move. -/
def Outcome.deed? : Outcome → Option Deed
  | hosted deed | acted _ deed => some deed
  | _ => none

namespace Pool

/-- A pool without processes and programs. -/
def boot (config : Config) : Pool := ⟨.boot config, .empty, .empty⟩

/-- A process that was started has to do what is registered under its program. -/
def load : Option (String × Pid) → Pool → Pool
  | none, pool => pool
  | some (program, pid), pool =>
      match pool.mains.get? program with
      | none => pool
      | some main =>
          let context := pool.kernel.context pid
          { pool with left := pool.left.insert pid (main context.name context.argv) }

/-- A process makes its next call, or ends. A join without a reply is tried again
when it goes on.
-/
def goOn (pid : Pid) (pool : Pool) : Outcome × Pool :=
  let name := (pool.kernel.context pid).name
  match pool.left.get? pid with
  | none => (.idle, pool)
  | some (.done ending) =>
      (.acted name (.finish pid ending),
        { pool with kernel := pool.kernel.finish pid ending, left := pool.left.erase pid })
  | some (.call c next) =>
      match pool.kernel.call pid c with
      | none => (.acted name (.call pid c none), pool)
      | some (reply, kernel) =>
          (.acted name (.call pid c (some reply)),
            load (c.started? reply) { pool with kernel, left := pool.left.insert pid (next reply) })

/-- Makes a move. -/
def move (pool : Pool) : Move → Outcome × Pool
  | .register program main =>
      (.hosted (.register program),
        { pool with
          kernel := pool.kernel.register program
          mains := pool.mains.insert program main })
  | .spawn program argv =>
      let (reply, kernel) := pool.kernel.start .host program argv
      (.hosted (.spawn program argv reply),
        load (reply.toOption.map (program, ·)) { pool with kernel })
  | .wait pid =>
      match pool.kernel.reap .host pid with
      | none => (.hosted (.wait pid none), pool)
      | some (reply, kernel) => (.hosted (.wait pid (some reply)), { pool with kernel })
  | .install name bytes =>
      let (reply, kernel) := pool.kernel.install name bytes
      (.hosted (.install name bytes reply), { pool with kernel })
  | .config => (.config pool.kernel.config, pool)
  | .usage => (.usage pool.kernel.usage, pool)
  | .journal => (.journal pool.kernel.processes.events, pool)
  | .takeJournal =>
      (.hosted (.takeJournal pool.kernel.processes.events),
        { pool with kernel := pool.kernel.clearJournal })
  | .contents name => (.contents (pool.kernel.files.contents? name), pool)
  | .console => (.console pool.kernel.console.text, pool)
  | .takeConsole =>
      (.hosted (.takeConsole pool.kernel.console.text),
        { pool with kernel := pool.kernel.clearConsole })
  | .goOn pid => pool.goOn pid

/-- Makes moves in order. -/
def run : List Move → Pool → List Outcome × Pool
  | [], pool => ([], pool)
  | next :: rest, pool =>
      let (outcome, pool) := pool.move next
      let (outcomes, pool) := run rest pool
      (outcome :: outcomes, pool)

-----------------------------------------------------------------------------------------
-- Moves as deeds
-----------------------------------------------------------------------------------------

/-- The kernel of a pool was reached from its boot, and only processes that run have
something to do.
-/
structure Sound (config : Config) (pool : Pool) : Prop where
  reachable : ∃ deeds, Kernel.Run config deeds pool.kernel
  running : ∀ pid prog, pool.left.get? pid = some prog → pool.kernel.processes.isRunning pid = true

variable {config : Config} {pool : Pool} {pid : Pid}

@[simp] theorem load_kernel (started : Option (String × Pid)) (pool : Pool)
    : (pool.load started).kernel = pool.kernel := by
  rcases started with _ | ⟨program, pid⟩
  · rfl
  · rw [load]
    split <;> rfl

/-- Besides what was left before, only the process that was started has something to do. -/
theorem get?_load {started : Option (String × Pid)} {prog : Prog Ending}
    (found : (pool.load started).left.get? pid = some prog)
    : (∃ program, started = some (program, pid)) ∨ pool.left.get? pid = some prog := by
  rcases started with _ | ⟨program, child⟩
  · exact .inr found
  · rw [load] at found
    split at found
    · exact .inr found
    · rw [FiniteMap.get?_insert] at found
      split at found
      · next same => exact .inl ⟨program, same ▸ rfl⟩
      · exact .inr found

theorem boot_sound (config : Config) : (boot config).Sound config := ⟨⟨[], .boot⟩, nofun⟩

/-- A process that was started has something to do, and the others have what they had. -/
theorem Sound.load (sound : pool.Sound config) {started : Option (String × Pid)}
    (runs : ∀ program pid,
        started = some (program, pid)
        → pool.kernel.processes.isRunning pid = true)
    : (pool.load started).Sound config where
  reachable := by simpa using sound.reachable
  running pid prog found := by
    rw [load_kernel]
    rcases get?_load found with ⟨program, begun⟩ | before
    · exact runs program pid begun
    · exact sound.running pid prog before

/-- What comes of a move is a step of the kernel, or leaves the kernel as it is, by
cases on the move.
-/
theorem Sound.step (sound : pool.Sound config) (move : Move)
    : (∃ deed,
        (pool.move move).1.deed? = some deed ∧ pool.kernel.Step deed (pool.move move).2.kernel)
      ∨ (pool.move move).1.deed? = none ∧ (pool.move move).2.kernel = pool.kernel := by
  cases move with
  | register program main => exact .inl ⟨_, rfl, .register program⟩
  | spawn program argv =>
      refine .inl ⟨_, rfl, ?_⟩
      simp only [Pool.move, load_kernel]
      exact .spawn rfl
  | wait pid =>
      refine .inl ?_
      simp only [Pool.move]
      split
      · next blocked => exact ⟨_, rfl, .waitBlocked blocked⟩
      · next done => exact ⟨_, rfl, .wait done⟩
  | install name bytes => exact .inl ⟨_, rfl, .install rfl⟩
  | takeJournal => exact .inl ⟨_, rfl, .takeJournal⟩
  | takeConsole => exact .inl ⟨_, rfl, .takeConsole⟩
  | goOn pid =>
      simp only [Pool.move, goOn]
      split
      · exact .inr ⟨rfl, rfl⟩
      · next ending found => exact .inl ⟨_, rfl, .finish (sound.running pid _ found)⟩
      · next c next found =>
          have runs := sound.running pid _ found
          split
          · next blocked => exact .inl ⟨_, rfl, .callBlocked runs blocked⟩
          · next reply kernel replied =>
              refine .inl ⟨_, rfl, ?_⟩
              rw [load_kernel]
              exact .call runs replied
  | _ => exact .inr ⟨rfl, rfl⟩

/-- Processes that run before a step of the kernel run after it, but for one that it ends. -/
theorem Sound.running_after (sound : pool.Sound config) {deed : Deed} {after : Kernel}
    (step : pool.kernel.Step deed after) {prog : Prog Ending}
    (found : pool.left.get? pid = some prog) (stays : ∀ ending, deed ≠ .finish pid ending)
    : after.processes.isRunning pid = true := by
  obtain ⟨deeds, reached⟩ := sound.reachable
  refine reached.running_after step (sound.running pid prog found) fun ended => ?_
  obtain ⟨ending, same⟩ := Deed.eq_finish_of_ended ended
  exact stays ending same

/-- A step of the kernel that ends no process leaves a pool sound. -/
theorem Sound.advance (sound : pool.Sound config) {deed : Deed} {after : Kernel}
    (step : pool.kernel.Step deed after) (stays : ∀ pid ending, deed ≠ .finish pid ending)
    : Sound config { pool with kernel := after } where
  reachable := sound.reachable.elim fun _ reached => ⟨_, reached.step step⟩
  running pid _ found := sound.running_after step found (stays pid)

/-- Who was started by a call runs. -/
theorem running_of_started {kernel after : Kernel} {c : Syscall} {reply : c.Reply}
    {program : String} {child : Pid} (replied : kernel.call pid c = some (reply, after))
    (begun : c.started? reply = some (program, child))
    : after.processes.isRunning child = true := by
  cases c with
  | exec =>
      rcases reply with _ | child
      · cases begun
      · cases begun
        exact (Kernel.newborn_of_call replied).runs
  | _ => cases begun

/-- A process that goes on leaves a pool sound: it runs on unless it ends, and so does
who it starts.
-/
theorem Sound.goOn (sound : pool.Sound config) (pid : Pid) : (pool.goOn pid).2.Sound config := by
  obtain ⟨deeds, reached⟩ := sound.reachable
  rcases found : pool.left.get? pid with _ | ending | ⟨c, next⟩
  · simpa only [Pool.goOn, found] using sound
  · simp only [Pool.goOn, found]
    have step : pool.kernel.Step (.finish pid ending) _ := .finish (sound.running pid _ found)
    refine ⟨⟨_, reached.step step⟩, fun other prog kept => ?_⟩
    rw [FiniteMap.get?_erase] at kept
    split at kept
    · cases kept
    · next different =>
        refine sound.running_after step kept fun ending same => ?_
        cases same
        exact different rfl
  · have runs := sound.running pid _ found
    rcases replied : pool.kernel.call pid c with _ | ⟨reply, kernel⟩
    · simpa only [Pool.goOn, found, replied] using sound
    · simp only [Pool.goOn, found, replied]
      have step : pool.kernel.Step (.call pid c (some reply)) kernel := .call runs replied
      have stays (other : Pid) (ending : Ending)
          : Deed.call pid c (some reply) ≠ .finish other ending := by
        simp
      refine Sound.load ⟨⟨_, reached.step step⟩, fun other prog kept => ?_⟩
        fun program child begun => ?_
      · rw [FiniteMap.get?_insert] at kept
        split at kept
        · next same =>
            subst same
            exact sound.running_after step found (stays _)
        · exact sound.running_after step kept (stays _)
      · exact running_of_started replied begun

/-- Every move leaves a pool sound, by cases on it. -/
theorem Sound.move (sound : pool.Sound config) (move : Move) : (pool.move move).2.Sound config := by
  cases move with
  | register program main =>
      obtain ⟨reachable, running⟩ := sound.advance (.register program) nofun
      exact ⟨reachable, running⟩
  | spawn program argv =>
      rcases done : pool.kernel.start .host program argv with ⟨reply, after⟩
      simp only [Pool.move, done]
      refine (sound.advance (.spawn done) nofun).load fun name pid begun => ?_
      rcases reply with _ | child
      · cases begun
      · cases begun
        exact (Kernel.newborn_of_start done).runs
  | wait pid =>
      simp only [Pool.move]
      split
      · exact sound
      · next done => exact sound.advance (.wait done) nofun
  | install name bytes => exact sound.advance (.install rfl) nofun
  | takeJournal => exact sound.advance .takeJournal nofun
  | takeConsole => exact sound.advance .takeConsole nofun
  | goOn pid => exact sound.goOn pid
  | _ => exact sound

end Pool

end KernelConformance
