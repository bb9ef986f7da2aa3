import KernelConformance.Suite.Check

/-! What programs do on any system: the calls that they make and the values that they come to, given
the replies. Nothing is assumed of the replies here; the system that gives them comes in elsewhere.
-/

namespace KernelConformance

/-- A call and the reply to it. -/
structure Exchange where
  call : Syscall
  reply : call.Reply

namespace Prog

-----------------------------------------------------------------------------------------
-- Where a program is after some exchanges
-----------------------------------------------------------------------------------------

/-- What is left of a program after some exchanges, the oldest first. -/
inductive Reaches {α : Type} : Prog α → List Exchange → Prog α → Prop where
  | refl {prog} : Reaches prog [] prog
  | call {c next exchanges rest} (reply : c.Reply) (onward : Reaches (next reply) exchanges rest)
    : Reaches (.call c next) (⟨c, reply⟩ :: exchanges) rest

variable {α β : Type} {prog rest : Prog α} {exchanges : List Exchange}

theorem Reaches.of_nil (reached : prog.Reaches [] rest) : prog = rest := by
  cases reached
  rfl

theorem Reaches.trans {more : List Exchange} {last : Prog α}
    (first : prog.Reaches exchanges rest) (second : rest.Reaches more last)
    : prog.Reaches (exchanges ++ more) last := by
  induction first with
  | refl => exact second
  | call reply _ ih => exact .call reply (ih second)

/-- What a program reaches, it reaches as the first part of another one, by
induction on the exchanges.
-/
theorem Reaches.bind (reached : prog.Reaches exchanges rest) (f : α → Prog β)
    : (prog >>= f).Reaches exchanges (rest >>= f) := by
  induction reached with
  | refl => exact .refl
  | call reply _ ih => exact .call reply ih

theorem Reaches.snoc {c : Syscall} {next : c.Reply → Prog α}
    (reached : prog.Reaches exchanges (.call c next)) (reply : c.Reply)
    : prog.Reaches (exchanges ++ [⟨c, reply⟩]) (next reply) :=
  reached.trans (.call reply .refl)

/-- The exchanges of a program, cut anywhere, lead to where the later ones go on. -/
theorem Reaches.split {more : List Exchange} (reached : prog.Reaches (exchanges ++ more) rest)
    : ∃ middle, prog.Reaches exchanges middle ∧ middle.Reaches more rest := by
  induction exchanges generalizing prog with
  | nil => exact ⟨prog, .refl, reached⟩
  | cons exchange exchanges ih =>
      cases reached with
      | call reply onward =>
          obtain ⟨middle, first, second⟩ := ih onward
          exact ⟨middle, .call reply first, second⟩

/-- The last exchange of a program is the call that it was about to make. -/
theorem Reaches.of_snoc {last : Exchange} (reached : prog.Reaches (exchanges ++ [last]) rest)
    : ∃ next, prog.Reaches exchanges (.call last.call next) ∧ rest = next last.reply := by
  obtain ⟨middle, first, second⟩ := reached.split
  cases second with
  | call reply onward =>
      exact ⟨_, first, onward.of_nil.symm⟩

/-- Exchanges lead a program to one point only, as they say what was replied. -/
theorem Reaches.unique {other : Prog α} (reached : prog.Reaches exchanges rest)
    (again : prog.Reaches exchanges other)
    : other = rest := by
  induction reached with
  | refl => exact again.of_nil.symm
  | call reply _ ih =>
      cases again with
      | call _ onward => exact ih onward

/-- A composed program is in its first part, or has finished it and is in the second one, by
induction on the first part.
-/
theorem Reaches.of_bind {f : α → Prog β} {last : Prog β}
    (reached : (prog >>= f).Reaches exchanges last)
    : (∃ rest, prog.Reaches exchanges rest ∧ last = rest >>= f)
      ∨ ∃ value before after,
          exchanges = before ++ after
          ∧ prog.Reaches before (.done value)
          ∧ (f value).Reaches after last := by
  induction prog generalizing exchanges with
  | done value => exact .inr ⟨value, [], exchanges, rfl, .refl, reached⟩
  | call c next ih =>
      cases reached with
      | refl => exact .inl ⟨_, .refl, rfl⟩
      | call reply onward =>
          rcases ih reply onward with
            ⟨rest, first, same⟩ | ⟨value, before, after, rfl, first, second⟩
          · exact .inl ⟨rest, .call reply first, same⟩
          · exact .inr ⟨value, _ :: before, after, rfl, .call reply first, second⟩

/-- A composed program that has finished has finished both its parts. -/
theorem Reaches.of_bind_done {f : α → Prog β} {last : β}
    (reached : (prog >>= f).Reaches exchanges (.done last))
    : ∃ value before after,
        exchanges = before ++ after
        ∧ prog.Reaches before (.done value)
        ∧ (f value).Reaches after (.done last) := by
  rcases reached.of_bind with ⟨rest, first, same⟩ | both
  · cases rest with
    | done value =>
        refine ⟨value, exchanges, [], (List.append_nil _).symm, first, ?_⟩
        rw [← bind_done value f, ← same]
        exact .refl
    | call => cases same
  · exact both

/-- The value that a program comes to after some exchanges, if they are the ones that it makes. -/
def replay : List Exchange → Prog α → Option α
  | [], .done value => some value
  | exchange :: exchanges, .call c next =>
      if same : exchange.call = c then replay exchanges (next (same ▸ exchange.reply)) else none
  | _, _ => none

/-- A program that is replayed has come to its value, by induction on the exchanges. -/
theorem reaches_of_replay {value : α} (replayed : replay exchanges prog = some value)
    : prog.Reaches exchanges (.done value) := by
  induction exchanges generalizing prog with
  | nil =>
      cases prog with
      | done _ =>
          cases replayed
          exact .refl
      | call => cases replayed
  | cons exchange exchanges ih =>
      obtain ⟨call, reply⟩ := exchange
      cases prog with
      | done => cases replayed
      | call c next =>
          rw [replay] at replayed
          split at replayed
          · next same =>
              subst same
              exact .call reply (ih replayed)
          · cases replayed

-----------------------------------------------------------------------------------------
-- What holds of a program whatever the replies are
-----------------------------------------------------------------------------------------

/-- Whether a program makes only calls that are allowed after the exchanges before them, and comes
only to values that may be a result then, when it goes on after some exchanges.
-/
def Upholds (allowed : List Exchange → Syscall → Prop) (result : List Exchange → α → Prop)
    : List Exchange → Prog α → Prop
  | past, .done value => result past value
  | past, .call c next =>
      allowed past c ∧ ∀ reply, (next reply).Upholds allowed result (past ++ [⟨c, reply⟩])

variable {allowed : List Exchange → Syscall → Prop} {result : List Exchange → α → Prop}
  {past : List Exchange}

/-- The second part of a program goes on where the first one ends, by induction on
the first part.
-/
theorem upholds_bind {f : α → Prog β} {last : List Exchange → β → Prop}
    : (prog >>= f).Upholds allowed last past
      ↔ prog.Upholds allowed (fun past value => (f value).Upholds allowed last past) past := by
  induction prog generalizing past with
  | done value => exact Iff.rfl
  | call c next ih => exact and_congr_right fun _ => forall_congr' fun reply => ih reply

/-- What is allowed and what may be a result can be weakened, by induction on the program. -/
theorem Upholds.mono {more : List Exchange → Syscall → Prop} {weaker : List Exchange → α → Prop}
    (upholds : prog.Upholds allowed result past)
    (calls : ∀ past call, allowed past call → more past call)
    (values : ∀ past value, result past value → weaker past value)
    : prog.Upholds more weaker past := by
  induction prog generalizing past with
  | done value => exact values past value upholds
  | call c next ih => exact ⟨calls past c upholds.1, fun reply => ih reply (upholds.2 reply)⟩

/-- A call whose reply does not matter. -/
theorem upholds_attempt {c : Syscall} {last : List Exchange → Unit → Prop}
    : (attempt c).Upholds allowed last past
      ↔ allowed past c ∧ ∀ reply, last (past ++ [⟨c, reply⟩]) () :=
  Iff.rfl

/-- What holds of a program holds of what is left of it after more exchanges. -/
theorem Upholds.reaches (upholds : prog.Upholds allowed result past)
    (reached : prog.Reaches exchanges rest)
    : rest.Upholds allowed result (past ++ exchanges) := by
  induction reached generalizing past with
  | refl => simpa using upholds
  | call reply _ ih => simpa using ih (upholds.2 reply)

/-- The calls that a program makes are those that it reaches, and so are its values, by induction on
what is left of it.
-/
theorem Upholds.reaching (upholds : rest.Upholds allowed result past)
    (reached : prog.Reaches past rest)
    : rest.Upholds (fun past c => allowed past c ∧ ∃ next, prog.Reaches past (.call c next))
        (fun past value => result past value ∧ prog.Reaches past (.done value)) past := by
  induction rest generalizing past with
  | done value => exact ⟨upholds, reached⟩
  | call c next ih =>
      obtain ⟨allows, onward⟩ := upholds
      exact ⟨⟨allows, next, reached⟩, fun reply => ih reply (onward reply) (reached.snoc reply)⟩

-----------------------------------------------------------------------------------------
-- Programs by the kinds of their calls
-----------------------------------------------------------------------------------------

/-- Whether all calls that a program can make are of some kind, whatever the replies are. -/
def Makes (kind : Syscall → Prop) : Prog α → Prop
  | .done _ => True
  | .call c next => kind c ∧ ∀ reply, (next reply).Makes kind

variable {kind wider : Syscall → Prop}

theorem Makes.mono (makes : prog.Makes kind) (implies : ∀ c, kind c → wider c)
    : prog.Makes wider := by
  induction prog with
  | done => trivial
  | call c next ih => exact ⟨implies c makes.1, fun reply => ih reply (makes.2 reply)⟩

/-- The calls that are allowed are of some kind if the program makes no others, by
induction on it.
-/
theorem Upholds.makes (upholds : prog.Upholds allowed result past)
    (implies : ∀ past c, allowed past c → kind c)
    : prog.Makes kind := by
  induction prog generalizing past with
  | done => trivial
  | call c next ih => exact ⟨implies past c upholds.1, fun reply => ih reply (upholds.2 reply)⟩

theorem Makes.bind {f : α → Prog β} (first : prog.Makes kind)
    (onward : ∀ value, (f value).Makes kind)
    : (prog >>= f).Makes kind := by
  induction prog with
  | done value => exact onward value
  | call c next ih => exact ⟨first.1, fun reply => ih reply (first.2 reply)⟩

theorem Makes.reaches (makes : prog.Makes kind) (reached : prog.Reaches exchanges rest)
    : rest.Makes kind := by
  induction reached with
  | refl => exact makes
  | call reply _ ih => exact ih (makes.2 reply)

end Prog

namespace Check

variable {α β : Type} {check : Check α} {allowed : List Exchange → Syscall → Prop}
  {result : List Exchange → α → Prop} {stopped : List Exchange → Stop → Prop}
  {past : List Exchange}

/-- Whether a check makes only calls that are allowed, comes only to values that may be a result,
and is stopped only by what may stop it then.
-/
def Upholds (allowed : List Exchange → Syscall → Prop) (result : List Exchange → α → Prop)
    (stopped : List Exchange → Stop → Prop) (past : List Exchange) (check : Check α)
    : Prop :=
  check.run.Upholds allowed
    (fun past outcome =>
      match outcome with
      | .ok value => result past value
      | .error stop => stopped past stop)
    past

/-- What may stop a check that fails: a violation with the code of ordinary failures. -/
def Failed (_ : List Exchange) (stop : Stop) : Prop :=
  ∃ message, stop = .violation (.failure message)

theorem failed (message : String) : Failed past (.violation (.failure message)) := ⟨message, rfl⟩

/-- A check that has come to something was stopped in its first part, or has gone on
with its value.
-/
theorem reaches_bind {f : α → Check β} {exchanges : List Exchange} {outcome : Except Stop β}
    (reached : (check >>= f).run.Reaches exchanges (.done outcome))
    : (∃ stop, check.run.Reaches exchanges (.done (.error stop)) ∧ outcome = .error stop)
      ∨ ∃ value before after,
          exchanges = before ++ after
          ∧ check.run.Reaches before (.done (.ok value))
          ∧ (f value).run.Reaches after (.done outcome) := by
  rw [ExceptT.run_bind] at reached
  obtain ⟨result, before, after, rfl, first, second⟩ := reached.of_bind_done
  rcases result with stop | value
  · cases second
    exact .inl ⟨stop, by rwa [List.append_nil], rfl⟩
  · exact .inr ⟨value, before, after, rfl, first, second⟩

/-- A check that comes to a value has not been stopped in its first part. -/
theorem reaches_bind_ok {f : α → Check β} {exchanges : List Exchange} {last : β}
    (reached : (check >>= f).run.Reaches exchanges (.done (.ok last)))
    : ∃ value before after,
        exchanges = before ++ after
        ∧ check.run.Reaches before (.done (.ok value))
        ∧ (f value).run.Reaches after (.done (.ok last)) := by
  rcases reaches_bind reached with ⟨stop, -, stopped⟩ | goes
  · cases stopped
  · exact goes

/-- A check that makes the calls of a program comes to its value. -/
theorem reaches_lift {prog : Prog α} {exchanges : List Exchange} {value : α}
    (reached : (ExceptT.lift prog : Check α).run.Reaches exchanges (.done (.ok value)))
    : prog.Reaches exchanges (.done value) := by
  rw [ExceptT.run_lift, map_eq_pure_bind] at reached
  obtain ⟨value, before, after, rfl, first, second⟩ := reached.of_bind_done
  cases second
  rwa [List.append_nil]

/-- A check that goes on with a result has come to its value, or was stopped by its violation. -/
theorem reaches_ofResult {result : Except Violation α} {exchanges : List Exchange} {value : α}
    (reached : (ofResult result).run.Reaches exchanges (.done (.ok value)))
    : exchanges = [] ∧ result = .ok value := by
  cases result with
  | ok =>
      cases reached
      exact ⟨rfl, rfl⟩
  | error => cases reached

theorem reaches_require {condition : Bool} {violation : Violation} {exchanges : List Exchange}
    (reached : (require condition violation).run.Reaches exchanges (.done (.ok ())))
    : exchanges = [] ∧ condition = true := by
  unfold require at reached
  split at reached
  · next holds =>
      cases reached
      exact ⟨rfl, holds⟩
  · cases reached

theorem reaches_perform {call : Syscall} {exchanges : List Exchange} {reply : call.Reply}
    (reached : (perform call).run.Reaches exchanges (.done (.ok reply)))
    : exchanges = [⟨call, reply⟩] := by
  cases reaches_lift reached with
  | call reply nothing =>
      cases nothing
      rfl

/-- A call that must succeed has succeeded if the check has gone on. -/
theorem reaches_demand {call : Syscall} {wording : Errno → String} {exchanges : List Exchange}
    {value : call.Value}
    (reached : (demand call wording).run.Reaches exchanges (.done (.ok value)))
    : exchanges = [⟨call, .ok value⟩] := by
  obtain ⟨reply, before, after, rfl, first, second⟩ := reaches_bind_ok reached
  obtain rfl := reaches_perform first
  cases reply with
  | ok value =>
      cases second
      rfl
  | error => cases second

/-- What is done in the end, given what a check has come to: nothing if the process has faulted. -/
def lastOf (last : Except Violation α → Prog Unit) : Except Stop α → Prog Unit
  | .ok value => last (.ok value)
  | .error (.violation violation) => last (.error violation)
  | .error .fault => pure ()

/-- What is done in the end comes after all else. -/
theorem reaches_andFinally {last : Except Violation α → Prog Unit} {exchanges : List Exchange}
    {outcome : Except Stop α}
    (reached : (check.andFinally last).run.Reaches exchanges (.done outcome))
    : ∃ before after,
        exchanges = before ++ after
        ∧ check.run.Reaches before (.done outcome)
        ∧ (lastOf last outcome).Reaches after (.done ()) := by
  unfold andFinally at reached
  rw [ExceptT.run_mk] at reached
  obtain ⟨result, before, after, rfl, first, second⟩ := reached.of_bind_done
  rcases result with (violation | _) | value
  · obtain ⟨_, ends, nothing, rfl, made, last⟩ := second.of_bind_done
    cases last
    exact ⟨before, ends, by rw [List.append_nil], first, made⟩
  · cases second
    exact ⟨before, [], rfl, first, .refl⟩
  · obtain ⟨_, ends, nothing, rfl, made, last⟩ := second.of_bind_done
    cases last
    exact ⟨before, ends, by rw [List.append_nil], first, made⟩

/-- A check that ends a process with a status has come to it, or was stopped by a violation with
that code.
-/
theorem reaches_ending {check : Check Int32} {name : String} {exchanges : List Exchange}
    {status : Int32} (reached : (check.ending name).Reaches exchanges (.done (.exit status)))
    : check.run.Reaches exchanges (.done (.ok status))
      ∨ ∃ violation before,
          check.run.Reaches before (.done (.error (.violation violation)))
          ∧ before <+: exchanges
          ∧ violation.code = status := by
  obtain ⟨outcome, before, after, rfl, first, second⟩ := Prog.Reaches.of_bind_done reached
  rcases outcome with (violation | _) | value
  · obtain ⟨_, printed, rest, rfl, -, last⟩ := Prog.Reaches.of_bind_done second
    cases last
    exact .inr ⟨violation, before, first, List.prefix_append _ _, rfl⟩
  · cases second
  · cases second
    exact .inl (by rwa [List.append_nil])

@[simp] theorem upholds_pure {value : α}
    : (pure value : Check α).Upholds allowed result stopped past ↔ result past value :=
  Iff.rfl

@[simp] theorem upholds_violate {violation : Violation}
    : (violate violation : Check α).Upholds allowed result stopped past
      ↔ stopped past (.violation violation) :=
  Iff.rfl

/-- A check that goes on is stopped where its first part is, or goes on with its value. -/
theorem upholds_bind {f : α → Check β} {last : List Exchange → β → Prop}
    : (check >>= f).Upholds allowed last stopped past
      ↔ check.Upholds allowed (fun past value => (f value).Upholds allowed last stopped past)
          stopped past := by
  unfold Upholds
  rw [ExceptT.run_bind, Prog.upholds_bind]
  refine iff_of_eq (congrArg (fun result => Prog.Upholds allowed result past check.run) ?_)
  funext past outcome
  cases outcome <;> rfl

@[simp] theorem upholds_lift {prog : Prog α}
    : Upholds allowed result stopped past (ExceptT.lift prog)
      ↔ prog.Upholds allowed result past := by
  unfold Upholds
  rw [ExceptT.run_lift, map_eq_pure_bind, Prog.upholds_bind]
  rfl

theorem Upholds.mono {more : List Exchange → Syscall → Prop} {weaker : List Exchange → α → Prop}
    {milder : List Exchange → Stop → Prop} (upholds : check.Upholds allowed result stopped past)
    (calls : ∀ past call, allowed past call → more past call)
    (values : ∀ past value, result past value → weaker past value)
    (stops : ∀ past stop, stopped past stop → milder past stop)
    : check.Upholds more weaker milder past := by
  refine Prog.Upholds.mono upholds calls fun past outcome => ?_
  cases outcome with
  | ok value => exact values past value
  | error stop => exact stops past stop

@[simp] theorem upholds_perform {call : Syscall} {last : List Exchange → call.Reply → Prop}
    : (perform call).Upholds allowed last stopped past
      ↔ allowed past call ∧ ∀ reply, last (past ++ [⟨call, reply⟩]) reply := by
  rw [perform, upholds_lift]
  rfl

/-- A call that must succeed. -/
theorem upholds_demand {call : Syscall} {wording : Errno → String}
    {last : List Exchange → call.Value → Prop}
    : (demand call wording).Upholds allowed last stopped past
      ↔ allowed past call
        ∧ (∀ value, last (past ++ [⟨call, .ok value⟩]) value)
        ∧ ∀ error,
            stopped (past ++ [⟨call, .error error⟩]) (.violation (.failure (wording error))) := by
  rw [demand, upholds_bind, upholds_perform]
  refine and_congr_right fun _ => ⟨fun holds => ⟨fun value => ?_, fun error => ?_⟩, ?_⟩
  · exact holds (.ok value)
  · exact holds (.error error)
  · intro holds reply
    cases reply with
    | ok value => exact holds.1 value
    | error error => exact holds.2 error

theorem upholds_require {condition : Bool} {violation : Violation}
    {last : List Exchange → Unit → Prop}
    : (require condition violation).Upholds allowed last stopped past
      ↔ if condition then last past () else stopped past (.violation violation) := by
  unfold require
  split
  · exact upholds_pure
  · exact upholds_violate

/-- A condition of which it does not matter whether it holds. -/
theorem upholds_require_of {condition : Bool} {violation : Violation}
    {last : List Exchange → Unit → Prop} (onward : last past ())
    (stops : stopped past (.violation violation))
    : (require condition violation).Upholds allowed last stopped past := by
  refine upholds_require.mpr ?_
  split
  · exact onward
  · exact stops

/-- What is done in the end is done after a value and after a violation, but not after a fault. -/
theorem upholds_andFinally {last : Except Violation α → Prog Unit}
    : (check.andFinally last).Upholds allowed result stopped past
      ↔ check.Upholds allowed
          (fun past value =>
            (last (.ok value)).Upholds allowed (fun past _ => result past value) past)
          (fun past stop =>
            match stop with
            | .violation violation =>
                (last (.error violation)).Upholds allowed
                  (fun past _ => stopped past (.violation violation)) past
            | .fault => stopped past .fault)
          past := by
  unfold andFinally Upholds
  rw [ExceptT.run_mk, Prog.upholds_bind]
  refine iff_of_eq (congrArg (fun result => Prog.Upholds allowed result past check.run) ?_)
  funext past outcome
  rcases outcome with (_ | _) | _
  · exact propext Prog.upholds_bind
  · rfl
  · exact propext Prog.upholds_bind

/-- To end by a check, a process at most prints a message after it. -/
theorem Upholds.makes_ending {check : Check Int32} {kind : Syscall → Prop}
    {result : List Exchange → Int32 → Prop} (upholds : check.Upholds allowed result stopped past)
    (implies : ∀ past c, allowed past c → kind c) (prints : ∀ bytes, kind (.write .stdout bytes))
    (name : String)
    : (check.ending name).Makes kind := by
  refine Prog.Makes.bind (Prog.Upholds.makes upholds implies) fun outcome => ?_
  rcases outcome with (violation | _) | status
  · exact ⟨prints _, fun _ => trivial⟩
  · trivial
  · trivial

-----------------------------------------------------------------------------------------
-- What a process does after a check
-----------------------------------------------------------------------------------------

/-- How a process ends after a check that it goes on from. -/
def resume (rest : α → Check Int32) (name : String) : Except Stop α → Prog Ending
  | .ok value => (rest value).ending name
  | .error (.violation violation) => violation.ending name
  | .error .fault => pure .fault

variable {rest : α → Check Int32} {name : String}

theorem ending_bind : (check >>= rest).ending name = check.run >>= resume rest name := by
  rw [ending, ExceptT.run_bind, bind_assoc]
  refine congrArg (check.run >>= ·) (funext fun outcome => ?_)
  rcases outcome with (violation | _) | value <;> rfl

/-- What is done in the end comes before the rest. -/
theorem ending_andFinally {last : Except Violation α → Prog Unit}
    : (check.andFinally last >>= rest).ending name
      = (check.run >>= fun outcome => lastOf last outcome >>= fun _ =>
        resume rest name outcome) := by
  rw [ending_bind, andFinally, ExceptT.run_mk, bind_assoc]
  refine congrArg (check.run >>= ·) (funext fun outcome => ?_)
  rcases outcome with (violation | _) | value
  · exact bind_assoc ..
  · rfl
  · exact bind_assoc ..

theorem makes_resume {kind : Syscall → Prop} (prints : ∀ bytes, kind (.write .stdout bytes))
    (makes : ∀ value, ((rest value).ending name).Makes kind) (outcome : Except Stop α)
    : (resume rest name outcome).Makes kind := by
  rcases outcome with (violation | _) | value
  · exact ⟨prints _, fun _ => trivial⟩
  · trivial
  · exact makes value

/-- A process whose check has failed does not exit with zero. -/
theorem upholds_resume_failure (message : String)
    : (resume rest name (.error (.violation (.failure message)))).Upholds (fun _ _ => True)
        (fun _ ending => ending ≠ .exit 0) past :=
  ⟨trivial, fun _ ended => absurd (Ending.exit.inj ended) (show (1 : Int32) ≠ 0 by decide)⟩

end Check

end KernelConformance
