import KernelConformance.Proofs.Programs.Pools
import KernelConformance.Runner.Run

/-! The runner among the processes. It makes one call after the other, and between its calls the
processes go on in any order. What it has exchanged says where it is, whatever the processes have
done meanwhile.
-/

namespace KernelConformance

/-- A call of the runner and the reply to it. -/
structure HostExchange where
  call : HostCall
  reply : call.Reply

/-- Whether a call neither starts nor awaits a process nor counts anything. -/
def HostCall.isAside : HostCall → Bool
  | tell _ | takeJournal | takeConsole => true
  | _ => false

namespace Host

-----------------------------------------------------------------------------------------
-- Where a computation is after some exchanges
-----------------------------------------------------------------------------------------

/-- What is left of a computation after some exchanges, the oldest first. -/
inductive Reaches {α : Type} : Host α → List HostExchange → Host α → Prop where
  | refl {prog} : Reaches prog [] prog
  | call {c next exchanges rest} (reply : c.Reply) (onward : Reaches (next reply) exchanges rest)
    : Reaches (.call c next) (⟨c, reply⟩ :: exchanges) rest

variable {α β : Type} {prog rest : Host α} {exchanges more : List HostExchange}

theorem Reaches.trans {last : Host α} (first : prog.Reaches exchanges rest)
    (second : rest.Reaches more last)
    : prog.Reaches (exchanges ++ more) last := by
  induction first with
  | refl => exact second
  | call reply _ ih => exact .call reply (ih second)

/-- Whether something always holds of what a computation has exchanged, and the values that it comes
to may be a result then, when it goes on after some exchanges.
-/
def Upholds (always : List HostExchange → Prop) (result : List HostExchange → α → Prop)
    : List HostExchange → Host α → Prop
  | past, .done value => always past ∧ result past value
  | past, .call c next =>
      always past ∧ ∀ reply, (next reply).Upholds always result (past ++ [⟨c, reply⟩])

variable {always : List HostExchange → Prop} {result weaker : List HostExchange → α → Prop}
  {past : List HostExchange}

theorem Upholds.now (upholds : prog.Upholds always result past) : always past := by
  cases prog <;> exact upholds.1

/-- The second part of a computation goes on where the first one ends, by induction on
the first part.
-/
theorem Upholds.bind {f : α → Host β} {last : List HostExchange → β → Prop}
    (first : prog.Upholds always (fun past value => (f value).Upholds always last past) past)
    : (prog >>= f).Upholds always last past := by
  induction prog generalizing past with
  | done value => exact first.2
  | call c next ih => exact ⟨first.1, fun reply => ih reply (first.2 reply)⟩

/-- What may be a result can be weakened, by induction on the computation. -/
theorem Upholds.mono (upholds : prog.Upholds always result past)
    (values : ∀ past value, always past → result past value → weaker past value)
    : prog.Upholds always weaker past := by
  induction prog generalizing past with
  | done value => exact ⟨upholds.1, values past value upholds.1 upholds.2⟩
  | call c next ih => exact ⟨upholds.1, fun reply => ih reply (upholds.2 reply)⟩

/-- What holds of a computation holds of what is left of it after more exchanges. -/
theorem Upholds.reaches (upholds : prog.Upholds always result past)
    (reached : prog.Reaches exchanges rest)
    : rest.Upholds always result (past ++ exchanges) := by
  induction reached generalizing past with
  | refl => simpa using upholds
  | call reply _ ih => simpa using ih (upholds.2 reply)

-----------------------------------------------------------------------------------------
-- What the runner does by itself
-----------------------------------------------------------------------------------------

/-- Whether a computation neither starts nor awaits nor counts anything, and comes to
certain values only.
-/
def Utters (values : α → Prop) : Host α → Prop
  | .done value => values value
  | .call c next => c.isAside = true ∧ ∀ reply, (next reply).Utters values

theorem Utters.bind {values : α → Prop} {more : β → Prop} {f : α → Host β}
    (first : prog.Utters values) (onward : ∀ value, values value → (f value).Utters more)
    : (prog >>= f).Utters more := by
  induction prog with
  | done value => exact onward value first
  | call c next ih => exact ⟨first.1, fun reply => ih reply (first.2 reply)⟩

theorem utters_tell (notice : Notice) : (tell notice).Utters fun _ => True :=
  ⟨rfl, fun _ => trivial⟩

/-- What holds whatever is said in between, and of the values that are come to then, is upheld by a
computation that only talks, by induction on it.
-/
theorem Utters.upholds {values : α → Prop} (utters : prog.Utters values)
    (within : ∀ more, (∀ exchange ∈ more, exchange.call.isAside = true) → always (past ++ more))
    (last
      : ∀ more value,
          (∀ exchange ∈ more, exchange.call.isAside = true)
          → values value
          → result (past ++ more) value)
    : prog.Upholds always result past := by
  induction prog generalizing past with
  | done value => exact ⟨by simpa using within [] nofun, by simpa using last [] value nofun utters⟩
  | call c next ih =>
      refine ⟨by simpa using within [] nofun, fun reply => ih reply (utters.2 reply) ?_ ?_⟩
      · intro more aside
        rw [List.append_assoc]
        exact within _ (List.forall_mem_cons.mpr ⟨utters.1, aside⟩)
      · intro more value aside holds
        rw [List.append_assoc]
        exact last _ value (List.forall_mem_cons.mpr ⟨utters.1, aside⟩) holds

-----------------------------------------------------------------------------------------
-- Moves of the runner and of the processes
-----------------------------------------------------------------------------------------

/-- One move, with what is exchanged in it: a process goes on, or the runner makes its next call. A
process that the runner has started has something to do from then on.
-/
inductive Move {α : Type} : Pool → Host α → List HostExchange → Pool → Host α → Prop where
  | goOn {pool prog} (pid : Pid) : Move pool prog [] (pool.goOn pid).2 prog
  | serve {pool c next reply kernel} (served : c.perform pool.kernel = some (reply, kernel))
    : Move pool (.call c next) [⟨c, reply⟩] (Pool.load (c.started? reply) { pool with kernel })
        (next reply)

/-- Any number of moves, with all that is exchanged in them. -/
inductive Moves {α : Type} (pool : Pool) (prog : Host α)
    : List HostExchange → Pool → Host α → Prop where
  | refl : Moves pool prog [] pool prog
  | step {past middle rest more after last} (moves : Moves pool prog past middle rest)
    (move : Move middle rest more after last)
    : Moves pool prog (past ++ more) after last

variable {pool middle after : Pool}

theorem Move.reaches (move : Move pool prog exchanges after rest)
    : prog.Reaches exchanges rest := by
  cases move with
  | goOn => exact .refl
  | serve => exact .call _ .refl

/-- Whatever the processes do, the runner is where its exchanges say, by induction on the moves. -/
theorem Moves.reaches (moves : Moves pool prog exchanges after rest)
    : prog.Reaches exchanges rest := by
  induction moves with
  | refl => exact .refl
  | step _ move ih => exact ih.trans move.reaches

/-- A computation in two parts is in the first one, or has finished it and is in the second one, by
induction on the moves.
-/
theorem Moves.of_bind {f : α → Host β} {last : Host β}
    (moves : Moves pool (prog >>= f) exchanges after last)
    : (∃ rest, last = rest >>= f ∧ Moves pool prog exchanges after rest)
      ∨ ∃ value early late middle,
          exchanges = early ++ late
          ∧ Moves pool prog early middle (.done value)
          ∧ Moves middle (f value) late after last := by
  induction moves with
  | refl => exact .inl ⟨prog, rfl, .refl⟩
  | step _ move ih =>
      rcases ih with ⟨rest, rfl, before⟩ | ⟨value, early, late, middle, rfl, first, second⟩
      · cases rest with
        | done value =>
            exact .inr ⟨value, _, _, _, rfl, before, by simpa using Moves.refl.step move⟩
        | call c next =>
            cases move with
            | goOn pid => exact .inl ⟨_, rfl, before.step (.goOn pid)⟩
            | serve served => exact .inl ⟨_, rfl, before.step (.serve served)⟩
      · refine .inr ⟨value, early, _, middle, ?_, first, second.step move⟩
        rw [List.append_assoc]

/-- While the runner waits with a call, the processes keep what each of them keeps, by induction on
the moves.
-/
theorem Moves.of_call {c : HostCall} {next : c.Reply → Host α} {invariant : Pool → Prop}
    (kept : ∀ pool pid, invariant pool → invariant (pool.goOn pid).2) (holds : invariant pool)
    (moves : Moves pool (.call c next) exchanges after rest)
    : (exchanges = [] ∧ rest = .call c next ∧ invariant after)
      ∨ ∃ waiting reply kernel late,
          invariant waiting
          ∧ c.perform waiting.kernel = some (reply, kernel)
          ∧ exchanges = ⟨c, reply⟩ :: late
          ∧ Moves (Pool.load (c.started? reply) { waiting with kernel }) (next reply)
              late after rest := by
  induction moves with
  | refl => exact .inl ⟨rfl, rfl, holds⟩
  | step _ move ih =>
      rcases ih with ⟨rfl, rfl, here⟩ | ⟨waiting, reply, kernel, late, here, served, rfl, onward⟩
      · cases move with
        | goOn pid => exact .inl ⟨rfl, rfl, kept _ pid here⟩
        | serve served => exact .inr ⟨_, _, _, [], here, served, rfl, .refl⟩
      · exact .inr ⟨waiting, reply, kernel, _, here, served, rfl, onward.step move⟩

theorem Moves.of_done {value : α} {invariant : Pool → Prop}
    (kept : ∀ pool pid, invariant pool → invariant (pool.goOn pid).2) (holds : invariant pool)
    (moves : Moves pool (.done value) exchanges after rest)
    : rest = .done value ∧ invariant after := by
  induction moves with
  | refl => exact ⟨rfl, holds⟩
  | step _ move ih =>
      obtain ⟨rfl, here⟩ := ih
      cases move with
      | goOn pid => exact ⟨rfl, kept _ pid here⟩

-----------------------------------------------------------------------------------------
-- What a computation ensures
-----------------------------------------------------------------------------------------

/-- Whether something holds whenever a computation has come to a value, in whatever order the
processes have gone on and go on then.
-/
def Ensures (pool : Pool) (prog : Host α) (holds : α → Pool → Prop) : Prop :=
  ∀ exchanges after value, Moves pool prog exchanges after (.done value) → holds value after

namespace Ensures

variable {holds : α → Pool → Prop}

theorem bind {f : α → Host β} {last : β → Pool → Prop} (first : Ensures pool prog holds)
    (onward : ∀ value after, holds value after → Ensures after (f value) last)
    : Ensures pool (prog >>= f) last := by
  intro exchanges after value moves
  rcases moves.of_bind with ⟨rest, same, before⟩ | ⟨given, early, late, middle, -, before, later⟩
  · cases rest with
    | done given =>
        rw [bind_done] at same
        exact onward given after (first _ _ _ before) [] after value (same ▸ .refl)
    | call => cases same
  · exact onward given middle (first _ _ _ before) _ _ _ later

theorem mono {more : α → Pool → Prop} (ensures : Ensures pool prog holds)
    (weaker : ∀ value after, holds value after → more value after)
    : Ensures pool prog more :=
  fun _ _ _ moves => weaker _ _ (ensures _ _ _ moves)

/-- What holds of all values that a computation can come to is ensured by it. -/
theorem of_upholds {values : α → Prop}
    (upholds : prog.Upholds (fun _ => True) (fun _ value => values value) [])
    : Ensures pool prog fun value _ => values value := by
  intro exchanges after value moves
  have upholds := upholds.reaches moves.reaches
  exact upholds.2

theorem of_utters {values : α → Prop} (utters : prog.Utters values)
    : Ensures pool prog fun value _ => values value :=
  of_upholds (utters.upholds (fun _ _ => trivial) fun _ _ _ holds => holds)

variable {invariant : Pool → Prop}
  (kept : ∀ pool pid, invariant pool → invariant (pool.goOn pid).2) (now : invariant pool)

include kept now

theorem done {value : α} (implies : ∀ pool, invariant pool → holds value pool)
    : Ensures pool (.done value) holds := by
  intro exchanges after other moves
  obtain ⟨same, here⟩ := moves.of_done kept now
  cases same
  exact implies after here

/-- A call is made while the processes keep what each of them keeps. -/
theorem call {c : HostCall} {next : c.Reply → Host α}
    (onward
      : ∀ waiting reply kernel,
          invariant waiting
          → c.perform waiting.kernel = some (reply, kernel)
          → Ensures (Pool.load (c.started? reply) { waiting with kernel }) (next reply) holds)
    : Ensures pool (.call c next) holds := by
  intro exchanges after value moves
  rcases moves.of_call kept now with
    ⟨-, same, -⟩ | ⟨waiting, reply, kernel, late, here, served, -, later⟩
  · cases same
  · exact onward waiting reply kernel here served _ _ _ later

end Ensures

end Host

end KernelConformance
