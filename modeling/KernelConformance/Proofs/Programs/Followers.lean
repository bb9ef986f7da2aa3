import KernelConformance.Proofs.Processes.JoinOutcomes
import KernelConformance.Proofs.Programs.SoloRuns

/-! What one process has exchanged with the kernel in the course of some deeds, and whether it has
followed a program in them, whatever else was done in between. What it performs by itself are deeds
of a run too.
-/

namespace KernelConformance

/-- Whether something holds of every element of a list, given the elements before it. -/
def Throughout {α : Type} (holds : List α → α → Prop) (list : List α) : Prop :=
  ∀ before element after, list = before ++ element :: after → holds before element

theorem throughout_nil {α : Type} {holds : List α → α → Prop} : Throughout holds [] := by
  intro before element after whole
  simp at whole

theorem Throughout.cons {α : Type} {holds : List α → α → Prop} {first : α} {rest : List α}
    (head : holds [] first) (tail : Throughout (fun past => holds (first :: past)) rest)
    : Throughout holds (first :: rest) := by
  intro before element after whole
  cases before with
  | nil =>
      cases whole
      exact head
  | cons other before =>
      cases whole
      exact tail before element after rfl

/-- The last element is an element given all before it, and the others are as they were. -/
theorem throughout_snoc {α : Type} {holds : List α → α → Prop} {list : List α} {last : α}
    : Throughout holds (list ++ [last]) ↔ Throughout holds list ∧ holds list last := by
  constructor
  · intro every
    refine ⟨fun before element after whole => ?_, every list last [] rfl⟩
    exact every before element (after ++ [last]) (by simp [whole])
  · intro both before element after whole
    obtain ⟨earlier, last⟩ := both
    rcases cut_snoc whole.symm with ⟨rfl, rfl⟩ | ⟨rest, cut⟩
    · exact last
    · exact earlier before element rest cut.symm

theorem Throughout.of_append {α : Type} {holds : List α → α → Prop} {list more : List α}
    (every : Throughout holds (list ++ more))
    : Throughout holds list := by
  intro before element after whole
  exact every before element (after ++ more) (by simp [whole])

/-- A program comes to a value on every system, whatever that makes its replies of, by induction on
the program.
-/
theorem Prog.exists_done {α : Type} (answer : List Exchange → (c : Syscall) → c.Reply)
    (prog : Prog α)
    : ∃ exchanges value,
        prog.Reaches exchanges (.done value)
        ∧ Throughout
            (fun past exchange => exchange.reply = answer past exchange.call) exchanges := by
  induction prog generalizing answer with
  | done value => exact ⟨[], value, .refl, throughout_nil⟩
  | call c next ih =>
      let first : Exchange := ⟨c, answer [] c⟩
      obtain ⟨exchanges, value, reached, answered⟩ :=
        ih first.reply fun past => answer (first :: past)
      exact ⟨first :: exchanges, value, .call first.reply reached, .cons rfl answered⟩

/-- Every call of a program that has come somewhere was allowed after the exchanges before it. -/
theorem Prog.Upholds.throughout {α : Type} {prog rest : Prog α} {past : List Exchange}
    {allowed : List Exchange → Syscall → Prop} {result : List Exchange → α → Prop}
    (upholds : prog.Upholds allowed result []) (reached : prog.Reaches past rest)
    : Throughout (fun past exchange => allowed past exchange.call) past := by
  intro before exchange after whole
  subst whole
  obtain ⟨middle, first, second⟩ := reached.split
  cases second with
  | call reply onward =>
      have allows := upholds.reaches first
      rw [List.nil_append] at allows
      exact allows.1

/-- What a program has come to it has come to by calls that were all allowed, by induction on the
program.
-/
theorem Prog.Upholds.recorded {α : Type} {prog : Prog α} {past : List Exchange}
    {allowed : List Exchange → Syscall → Prop} {result : List Exchange → α → Prop}
    (upholds : prog.Upholds allowed result past)
    (before : Throughout (fun past exchange => allowed past exchange.call) past)
    : prog.Upholds allowed
        (fun past value =>
          result past value ∧ Throughout (fun past exchange => allowed past exchange.call) past)
        past := by
  induction prog generalizing past with
  | done value => exact ⟨upholds, before⟩
  | call c next ih =>
      refine ⟨upholds.1, fun reply => ih reply (upholds.2 reply) ?_⟩
      exact throughout_snoc.mpr ⟨before, upholds.1⟩

namespace Exchange

/-- The process that an exchange has started. -/
def started? : Exchange → Option Pid
  | ⟨.exec _ _, .ok child⟩ => some child
  | _ => none

/-- The process that an exchange has joined. -/
def joined? : Exchange → Option Pid
  | ⟨.join child, .ok _⟩ => some child
  | _ => none

/-- Whether an exchange is a start that was refused. -/
def isRefusal : Exchange → Bool
  | ⟨.exec _ _, .error _⟩ => true
  | _ => false

theorem eq_exec_of_started {exchange : Exchange} {child : Pid}
    (begun : exchange.started? = some child)
    : ∃ program argv, exchange = ⟨.exec program argv, .ok child⟩ := by
  unfold started? at begun
  split at begun <;> cases begun
  exact ⟨_, _, rfl⟩

end Exchange

/-- The processes that some exchanges have started, the oldest first. -/
def started (past : List Exchange) : List Pid := past.filterMap Exchange.started?

/-- The processes that some exchanges have joined, in the order of the joins. -/
def joined (past : List Exchange) : List Pid := past.filterMap Exchange.joined?

/-- How many starts were refused. -/
def refusals (past : List Exchange) : Nat := past.countP Exchange.isRefusal

@[simp] theorem started_snoc (past : List Exchange) (last : Exchange)
    : started (past ++ [last]) = started past ++ last.started?.toList :=
  filterMap_snoc _ _ _

@[simp] theorem joined_snoc_exchange (past : List Exchange) (last : Exchange)
    : joined (past ++ [last]) = joined past ++ last.joined?.toList :=
  filterMap_snoc _ _ _

theorem started_exec (past : List Exchange) (program : String) (argv : List String) (child : Pid)
    : started (past ++ [⟨.exec program argv, .ok child⟩]) = started past ++ [child] :=
  started_snoc ..

theorem joined_exec (past : List Exchange) (program : String) (argv : List String) (child : Pid)
    : joined (past ++ [⟨.exec program argv, .ok child⟩]) = joined past := by
  simp [Exchange.joined?]

theorem started_join (past : List Exchange) (child : Pid) (status : ExitStatus)
    : started (past ++ [⟨.join child, .ok status⟩]) = started past := by
  simp [Exchange.started?]

theorem joined_join (past : List Exchange) (child : Pid) (status : ExitStatus)
    : joined (past ++ [⟨.join child, .ok status⟩]) = joined past ++ [child] :=
  joined_snoc_exchange ..

@[simp] theorem refusals_snoc (past : List Exchange) (last : Exchange)
    : refusals (past ++ [last]) = refusals past + last.isRefusal.toNat := by
  cases refused : last.isRefusal <;> simp [refusals, refused]

/-- A process with a new number is not among those with smaller ones. -/
theorem nodup_snoc {pids : List Pid} {pid : Pid} (distinct : pids.Nodup)
    (older : ∀ other ∈ pids, other.number < pid.number)
    : (pids ++ [pid]).Nodup := by
  refine List.nodup_append.mpr ⟨distinct, by simp, ?_⟩
  intro other member last single same
  obtain rfl := List.mem_singleton.mp single
  exact Nat.lt_irrefl _ (same ▸ older other member)

/-- What a deed is for a process: an exchange if it is a call of it that has returned. -/
def Deed.exchange? (pid : Pid) : Deed → Option Exchange
  | .call caller c (some reply) => if caller = pid then some ⟨c, reply⟩ else none
  | _ => none

/-- What a process has exchanged with the kernel, the oldest first. -/
def exchanges (pid : Pid) (deeds : List Deed) : List Exchange :=
  deeds.filterMap (Deed.exchange? pid)

@[simp] theorem exchanges_snoc (pid : Pid) (deeds : List Deed) (deed : Deed)
    : exchanges pid (deeds ++ [deed]) = exchanges pid deeds ++ (deed.exchange? pid).toList :=
  filterMap_snoc _ _ _

/-- A call that has returned is one more exchange of its caller. -/
theorem exchanges_call (pid : Pid) (deeds : List Deed) {c : Syscall} (reply : c.Reply)
    : exchanges pid (deeds ++ [.call pid c (some reply)])
      = exchanges pid deeds ++ [⟨c, reply⟩] := by
  simp [Deed.exchange?]

/-- A call is no exchange of any other process. -/
theorem exchanges_call_of_ne {pid caller : Pid} (different : caller ≠ pid) (deeds : List Deed)
    {c : Syscall} (reply : Option c.Reply)
    : exchanges pid (deeds ++ [.call caller c reply]) = exchanges pid deeds := by
  cases reply <;> simp [Deed.exchange?, different]

/-- A call that waits is no exchange yet. -/
theorem exchanges_call_blocked (pid caller : Pid) (deeds : List Deed) (c : Syscall)
    : exchanges pid (deeds ++ [.call caller c none]) = exchanges pid deeds := by
  simp [Deed.exchange?]

/-- The end of a process is no exchange. -/
theorem exchanges_finish (pid child : Pid) (deeds : List Deed) (ending : Ending)
    : exchanges pid (deeds ++ [.finish child ending]) = exchanges pid deeds := by
  simp [Deed.exchange?]

theorem exchanges_append (pid : Pid) (deeds more : List Deed)
    : exchanges pid (deeds ++ more) = exchanges pid deeds ++ exchanges pid more :=
  List.filterMap_append

theorem exchanges_cons_call (pid : Pid) {c : Syscall} (reply : c.Reply) (deeds : List Deed)
    : exchanges pid (.call pid c (some reply) :: deeds) = ⟨c, reply⟩ :: exchanges pid deeds := by
  simp [exchanges, Deed.exchange?]

theorem exchanges_cons_other {pid caller : Pid} (different : caller ≠ pid) {c : Syscall}
    {reply : Option c.Reply} (deeds : List Deed)
    : exchanges pid (.call caller c reply :: deeds) = exchanges pid deeds := by
  cases reply with
  | none => rfl
  | some reply => simp [exchanges, Deed.exchange?, different]

theorem Deed.eq_call_of_exchange {deed : Deed} {pid : Pid} {exchange : Exchange}
    (made : deed.exchange? pid = some exchange)
    : deed = .call pid exchange.call (some exchange.reply) := by
  unfold exchange? at made
  split at made
  · split at made
    · next same =>
        cases made
        rw [same]
    · cases made
  · cases made

/-- What a process has exchanged are its calls that have returned. -/
theorem mem_exchanges {pid : Pid} {deeds : List Deed} {exchange : Exchange}
    : exchange ∈ exchanges pid deeds ↔ .call pid exchange.call (some exchange.reply) ∈ deeds := by
  constructor
  · intro member
    obtain ⟨deed, done, made⟩ := List.mem_filterMap.mp member
    exact Deed.eq_call_of_exchange made ▸ done
  · intro done
    exact List.mem_filterMap.mpr ⟨_, done, by simp [Deed.exchange?]⟩

/-- Whether a process has followed a program: its calls were those of the program, and it has ended,
if at all, where the program does.
-/
def Follows (deeds : List Deed) (pid : Pid) (prog : Prog Ending) : Prop :=
  ∃ rest,
    prog.Reaches (exchanges pid deeds) rest
    ∧ ∀ ending, .finish pid ending ∈ deeds → rest = .done ending

theorem Kernel.Steps.snoc {kernel middle after : Kernel} {deeds : List Deed} {last : Deed}
    (steps : Kernel.Steps kernel deeds middle) (step : middle.Step last after)
    : Kernel.Steps kernel (deeds ++ [last]) after := by
  induction steps with
  | nil => exact .cons step .nil
  | cons first _ ih => exact .cons first (ih step)

/-- A deed says what came of it, so that it leads to one kernel only, by cases on the deed. -/
theorem Kernel.Step.unique {kernel after other : Kernel} {deed : Deed}
    (step : kernel.Step deed after) (again : kernel.Step deed other)
    : other = after := by
  cases step with
  | spawn done =>
      cases again with
      | spawn doneToo => exact congrArg Prod.snd (doneToo.symm.trans done)
  | wait done =>
      cases again with
      | wait doneToo => exact congrArg Prod.snd (Option.some.inj (doneToo.symm.trans done))
  | install done =>
      cases again with
      | install doneToo => exact congrArg Prod.snd (doneToo.symm.trans done)
  | call _ done =>
      cases again with
      | call _ doneToo => exact congrArg Prod.snd (Option.some.inj (doneToo.symm.trans done))
  | _ =>
      cases again
      rfl

/-- Steps can be cut anywhere, by induction on those before the cut. -/
theorem Kernel.Steps.split {kernel after : Kernel} {deeds more : List Deed}
    (steps : Kernel.Steps kernel (deeds ++ more) after)
    : ∃ middle, Kernel.Steps kernel deeds middle ∧ Kernel.Steps middle more after := by
  induction deeds generalizing kernel with
  | nil => exact ⟨kernel, .nil, steps⟩
  | cons deed deeds ih =>
      cases steps with
      | cons step rest =>
          obtain ⟨middle, earlier, later⟩ := ih rest
          exact ⟨middle, .cons step earlier, later⟩

/-- Steps that end with a deed have made it from where the others led. -/
theorem Kernel.Steps.of_snoc {kernel after : Kernel} {deeds : List Deed} {last : Deed}
    (steps : Kernel.Steps kernel (deeds ++ [last]) after)
    : ∃ middle, Kernel.Steps kernel deeds middle ∧ middle.Step last after := by
  obtain ⟨middle, earlier, later⟩ := steps.split
  cases later with
  | cons step rest =>
      cases rest
      exact ⟨middle, earlier, step⟩

/-- Steps that have come through some deeds go on from where these lead. -/
theorem Kernel.Steps.of_append {kernel middle after : Kernel} {deeds more : List Deed}
    (steps : Kernel.Steps kernel (deeds ++ more) after)
    (earlier : Kernel.Steps kernel deeds middle)
    : Kernel.Steps middle more after := by
  induction earlier with
  | nil => exact steps
  | cons step _ ih =>
      cases steps with
      | cons stepToo rest =>
          obtain rfl := step.unique stepToo
          exact ih rest

-----------------------------------------------------------------------------------------
-- The deeds of a process that acts by itself
-----------------------------------------------------------------------------------------

/-- A process that was started, with its program and its arguments. -/
structure Begin where
  program : String
  argv : List String
  child : Pid

/-- What a deed has started. -/
def Deed.begin? : Deed → Option Begin
  | .spawn program argv (.ok child) => some ⟨program, argv, child⟩
  | .call _ (.exec program argv) (some (.ok child)) => some ⟨program, argv, child⟩
  | _ => none

/-- What was started in the course of some deeds. -/
def starts (deeds : List Deed) : List Begin := deeds.filterMap Deed.begin?

theorem starts_snoc (deeds : List Deed) (last : Deed)
    : starts (deeds ++ [last]) = starts deeds ++ last.begin?.toList :=
  filterMap_snoc _ _ _

/-- A deed that starts nobody adds nothing to what was started. -/
theorem starts_snoc_of_none (deeds : List Deed) {last : Deed} (none : last.begin? = none)
    : starts (deeds ++ [last]) = starts deeds := by
  rw [starts_snoc, none, Option.toList_none, List.append_nil]

theorem starts_append (deeds more : List Deed)
    : starts (deeds ++ more) = starts deeds ++ starts more :=
  List.filterMap_append

theorem mem_starts {deeds : List Deed} {caller : Parent} {program : String} {argv : List String}
    {child : Pid} (begun : .start caller program argv (.ok child) ∈ deeds)
    : ⟨program, argv, child⟩ ∈ starts deeds :=
  List.mem_filterMap.mpr ⟨_, begun, by cases caller <;> rfl⟩

/-- Whether a deed is a call of a process that has returned and has started nobody. -/
def Deed.IsOwn (pid : Pid) (deed : Deed) : Prop :=
  ∃ (call : Syscall) (reply : call.Reply),
    deed = .call pid call (some reply) ∧ call.started? reply = none

namespace Deed.IsOwn

variable {pid other : Pid} {deed : Deed}

theorem begin?_eq_none (own : deed.IsOwn pid) : deed.begin? = none := by
  obtain ⟨call, reply, rfl, alone⟩ := own
  cases call with
  | exec =>
      cases reply with
      | ok => cases alone
      | error => rfl
  | _ => rfl

theorem exchange?_eq_none (own : deed.IsOwn pid) (different : pid ≠ other)
    : deed.exchange? other = none := by
  obtain ⟨call, reply, rfl, -⟩ := own
  exact if_neg different

theorem ne_finish (own : deed.IsOwn pid) (ending : Ending) : deed ≠ .finish other ending := by
  obtain ⟨call, reply, rfl, -⟩ := own
  exact Deed.noConfusion

theorem eq_caller {call : Syscall} {reply : Option call.Reply}
    (own : (Deed.call other call reply).IsOwn pid)
    : other = pid := by
  obtain ⟨_, _, same, -⟩ := own
  cases same
  rfl

end Deed.IsOwn

/-- What a process performs by itself are steps of the kernel that it makes, by
induction on them.
-/
theorem Kernel.Run.steps_performs {α : Type} {config : Config} {deeds : List Deed}
    {kernel after : Kernel} {pid : Pid} {prog : Prog α} {value : α} (run : Run config deeds kernel)
    (runs : kernel.processes.isRunning pid = true)
    (performs : Performs pid kernel prog value after)
    : ∃ more,
        Steps kernel more after
        ∧ prog.Reaches (exchanges pid more) (.done value)
        ∧ ∀ deed ∈ more, deed.IsOwn pid := by
  induction performs generalizing deeds with
  | done => exact ⟨[], .nil, .refl, nofun⟩
  | @call kernel c next reply middle value after replied alone _ ih =>
      have step : kernel.Step (.call pid c (some reply)) middle := .call runs replied
      obtain ⟨more, steps, onward, own⟩ := ih (run.step step) (run.isRunning_call step runs)
      refine ⟨.call pid c (some reply) :: more, .cons step steps, ?_, ?_⟩
      · rw [exchanges_cons_call]
        exact .call reply onward
      · exact List.forall_mem_cons.mpr ⟨⟨c, reply, rfl, alone⟩, own⟩

/-- What a process performs by itself are its own deeds in a run. -/
theorem Kernel.Run.performs {α : Type} {config : Config} {deeds : List Deed} {kernel after : Kernel}
    {pid : Pid} {prog : Prog α} {value : α} (run : Run config deeds kernel)
    (runs : kernel.processes.isRunning pid = true)
    (performs : Performs pid kernel prog value after)
    : ∃ more,
        Run config (deeds ++ more) after
        ∧ prog.Reaches (exchanges pid more) (.done value)
        ∧ ∀ deed ∈ more, deed.IsOwn pid := by
  obtain ⟨more, steps, onward⟩ := run.steps_performs runs performs
  exact ⟨more, run.extend steps, onward⟩

end KernelConformance
