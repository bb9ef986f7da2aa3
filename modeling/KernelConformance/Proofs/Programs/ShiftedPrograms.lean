import KernelConformance.Proofs.Programs.MachineDeeds
import KernelConformance.Proofs.Programs.ShiftedKernels

/-! Programs that do the same in kernels that give out different numbers. The numbers of processes
reach a program only in the replies to its starts. It may join its children by them and print them,
and a process that has no children left may ask for any other number, as all of them are refused.
-/

namespace KernelConformance

variable {config : Config} {deeds during : List Deed} {offset : Offset} {starts : String → Prop}
  {left right kernel after : Kernel} {pid : Pid} {owed : List Pid} {α β γ δ : Type}

-----------------------------------------------------------------------------------------
-- Children that were not joined
-----------------------------------------------------------------------------------------

/-- The children that a process may have after an exchange, given those that it may have before. -/
def owedAfter (owed : List Pid) : Exchange → List Pid
  | ⟨.exec _ _, .ok child⟩ => child :: owed
  | ⟨.join child, .ok _⟩ => owed.erase child
  | _ => owed

theorem owedAfter_onFiles {c : Syscall} (onFiles : c.onFiles = true) (owed : List Pid)
    (reply : c.Reply)
    : owedAfter owed ⟨c, reply⟩ = owed := by
  cases c with
  | exec => cases onFiles
  | join => cases onFiles
  | _ => rfl

namespace Kernel

/-- Whether all children of a process are among some processes. -/
def Owes (kernel : Kernel) (pid : Pid) (owed : List Pid) : Prop :=
  ∀ child slot,
    kernel.processes.slots.get? child = some slot → slot.parent = .proc pid → child ∈ owed

/-- A child that a process has after some steps it had before them, or it has
started it meanwhile.
-/
theorem Run.child_of_steps (run : Run config deeds kernel) (steps : Steps kernel during after)
    (runs : kernel.processes.isRunning pid = true) {child : Pid} {slot : Slot}
    (found : after.processes.slots.get? child = some slot) (owned : slot.parent = .proc pid)
    : (∃ program argv, ⟨.exec program argv, .ok child⟩ ∈ exchanges pid during)
      ∨ ∃ slot, kernel.processes.slots.get? child = some slot ∧ slot.parent = .proc pid := by
  obtain ⟨⟨program, argv, member⟩, kept⟩ :=
    (run.extend steps).child_of_slot found (by simp [owned])
  rw [owned] at member
  rcases List.mem_append.mp member with earlier | later
  · have unjoined : ¬Joined deeds child := fun joined => kept (joined.imp fun _ by_ =>
      by_.imp fun _ => List.mem_append_left _)
    have started : StartedBy deeds (.proc pid) child := ⟨program, argv, earlier⟩
    have acts : kernel.processes.canAct (.proc pid) = true := runs
    exact .inr ⟨_, run.slot_of_child acts started unjoined, rfl⟩
  · exact .inl ⟨program, argv, mem_exchanges.mpr later⟩

/-- The newest process has no children yet. -/
theorem Run.owes_newest (run : Run config deeds kernel) (newest : kernel.processes.next = pid.next)
    : kernel.Owes pid [] := by
  intro child slot found owned
  have younger := (run.rooted.parentRuns found owned).2
  have older := run.rooted.numbered found
  rw [newest, Pid.number_next] at older
  omega

/-- A process that exchanges nothing owes what it has owed before. -/
theorem Owes.kept (owes : kernel.Owes pid owed) (run : Run config deeds kernel)
    (runs : kernel.processes.isRunning pid = true) (steps : Steps kernel during after)
    (quiet : exchanges pid during = [])
    : after.Owes pid owed := by
  intro child slot found owned
  rcases run.child_of_steps steps runs found owned with
    ⟨program, argv, started⟩ | ⟨before, had, same⟩
  · rw [quiet] at started
    cases started
  · exact owes child before had same

/-- What a process owes changes by its own exchanges alone. -/
theorem Owes.exchanged (owes : kernel.Owes pid owed) (run : Run config deeds kernel)
    (runs : kernel.processes.isRunning pid = true) (steps : Steps kernel during after) {c : Syscall}
    {reply : c.Reply} (made : exchanges pid during = [⟨c, reply⟩])
    : after.Owes pid (owedAfter owed ⟨c, reply⟩) := by
  intro child slot found owned
  rcases run.child_of_steps steps runs found owned with
    ⟨program, argv, started⟩ | ⟨before, had, same⟩
  · rw [made, List.mem_singleton] at started
    cases started
    exact List.mem_cons_self ..
  · have member := owes child before had same
    unfold owedAfter
    split
    · exact List.mem_cons_of_mem _ member
    · next joined status same =>
        refine (List.mem_erase_of_ne ?_).mpr member
        rintro rfl
        have kept := ((run.extend steps).child_of_slot found (by simp [owned])).2
        have join : .call pid (.join child) (some (.ok status)) ∈ during :=
          (@mem_exchanges pid during ⟨.join child, .ok status⟩).mp (by simp [made, same])
        exact kept ⟨.proc pid, status, List.mem_append_right _ join⟩
    · exact member

end Kernel

-----------------------------------------------------------------------------------------
-- Calls
-----------------------------------------------------------------------------------------

/-- Calls that a process with some children can make in two kernels, and how the replies to them
correspond.
-/
inductive Counterpart (offset : Offset) (starts : String → Prop)
    : List Pid → (c other : Syscall) → (c.Reply → other.Reply → Prop) → Prop where
  | onFiles {owed : List Pid} {c} (onFiles : c.onFiles = true)
    : Counterpart offset starts owed c c fun reply replyToo => replyToo = reply
  | print {owed : List Pid} (bytes bytesToo : Utf8.Bytes)
    : Counterpart offset starts owed (.write .stdout bytes) (.write .stdout bytesToo) fun _ _ =>
      True
  | exec {owed : List Pid} {program} (known : starts program) (argv : List String)
    : Counterpart offset starts owed (.exec program argv) (.exec program argv)
        fun reply replyToo => replyToo = reply.map offset.pid
  | join {owed : List Pid} (child : Pid)
    : Counterpart offset starts owed (.join child) (.join (offset.pid child))
        fun reply replyToo => replyToo = reply
  | stranger (child childToo : Pid)
    : Counterpart offset starts [] (.join child) (.join childToo)
        fun reply replyToo => reply = .error .noChild ∧ replyToo = .error .noChild

namespace Counterpart

variable {c other : Syscall} {related : c.Reply → other.Reply → Prop} {reply : c.Reply}
  {replyToo : other.Reply}

/-- Corresponding calls start corresponding processes, or none. -/
theorem started (counterpart : Counterpart offset starts owed c other related)
    (same : related reply replyToo)
    : other.started? replyToo = (c.started? reply).map (Prod.map id offset.pid) := by
  cases counterpart with
  | onFiles onFiles =>
      rw [Kernel.started?_onFiles onFiles, Kernel.started?_onFiles onFiles]
      rfl
  | exec =>
      subst same
      cases reply <;> rfl
  | _ => rfl

/-- Only programs are started that the kernels agree on. -/
theorem known (counterpart : Counterpart offset starts owed c other related) {argv : List String}
    {program : String} (same : c = .exec program argv)
    : starts program := by
  cases counterpart with
  | onFiles onFiles =>
      subst same
      cases onFiles
  | exec known =>
      cases same
      exact known
  | _ => cases same

/-- Corresponding calls are blocked in both kernels, or get replies that correspond, by
cases on them.
-/
theorem replied (counterpart : Counterpart offset starts owed c other related)
    (shifted : left.Shifted offset starts right) (run : Kernel.Run config deeds left)
    (owes : left.Owes pid owed)
    : (left.call pid c = none ∧ right.call (offset.pid pid) other = none)
      ∨ ∃ reply replyToo leftAfter rightAfter,
          left.call pid c = some (reply, leftAfter)
          ∧ right.call (offset.pid pid) other = some (replyToo, rightAfter)
          ∧ related reply replyToo
          ∧ leftAfter.Shifted offset starts rightAfter := by
  cases counterpart with
  | onFiles onFiles =>
      obtain ⟨reply, leftAfter, rightAfter, done, doneToo, after⟩ := shifted.call run pid onFiles
      exact .inr ⟨reply, reply, leftAfter, rightAfter, done, doneToo, rfl, after⟩
  | print bytes bytesToo =>
      obtain ⟨reply, replyToo, leftAfter, rightAfter, done, doneToo, after⟩ :=
        shifted.print run pid bytes bytesToo
      exact .inr ⟨reply, replyToo, leftAfter, rightAfter, done, doneToo, trivial, after⟩
  | exec known argv =>
      rcases shifted.exec pid known argv with
        ⟨error, leftAfter, rightAfter, done, doneToo, after⟩
          | ⟨child, leftAfter, rightAfter, done, doneToo, after⟩
      · exact .inr ⟨_, _, leftAfter, rightAfter, done, doneToo, rfl, after⟩
      · exact .inr ⟨_, _, leftAfter, rightAfter, done, doneToo, rfl, after⟩
  | join child =>
      rcases shifted.join pid child with
        blocked | ⟨reply, leftAfter, rightAfter, done, doneToo, after⟩
      · exact .inl blocked
      · exact .inr ⟨reply, reply, leftAfter, rightAfter, done, doneToo, rfl, after⟩
  | stranger child childToo =>
      have childless (child : Pid) (slot : Slot)
          (found : left.processes.slots.get? child = some slot)
          : slot.parent ≠ .proc pid :=
        fun owned => List.not_mem_nil (owes child slot found owned)
      obtain ⟨leftAfter, rightAfter, done, doneToo, after⟩ :=
        shifted.join_childless childless child childToo
      exact .inr ⟨_, _, leftAfter, rightAfter, done, doneToo, ⟨rfl, rfl⟩, after⟩

end Counterpart

-----------------------------------------------------------------------------------------
-- Programs
-----------------------------------------------------------------------------------------

/-- Whether two programs of a process with some children make corresponding calls as long as the
replies correspond, and then come to results that correspond.
-/
inductive Prog.Matches (offset : Offset) (starts : String → Prop) (result : List Pid → α → β → Prop)
    : List Pid → Prog α → Prog β → Prop where
  | done {owed : List Pid} {value valueToo} (same : result owed value valueToo)
    : Matches offset starts result owed (.done value) (.done valueToo)
  | call {owed : List Pid} {c other next nextToo} {related : c.Reply → other.Reply → Prop}
    (counterpart : Counterpart offset starts owed c other related)
    (onward
      : ∀ reply replyToo,
          related reply replyToo
          → Matches offset starts result (owedAfter owed ⟨c, reply⟩) (next reply)
              (nextToo replyToo))
    : Matches offset starts result owed (.call c next) (.call other nextToo)

namespace Prog.Matches

variable {result : List Pid → α → β → Prop} {prog : Prog α} {progToo : Prog β}

/-- Programs that match go on with programs that match, by induction on how they do. -/
theorem bind {last : List Pid → γ → δ → Prop}
    (matched : Matches offset starts result owed prog progToo) {f : α → Prog γ} {g : β → Prog δ}
    (onward
      : ∀ owed value valueToo,
          result owed value valueToo → Matches offset starts last owed (f value) (g valueToo))
    : Matches offset starts last owed (prog >>= f) (progToo >>= g) := by
  induction matched with
  | done same => exact onward _ _ _ same
  | call counterpart _ ih => exact .call counterpart ih

theorem mono {weaker : List Pid → α → β → Prop}
    (matched : Matches offset starts result owed prog progToo)
    (implies : ∀ owed value valueToo, result owed value valueToo → weaker owed value valueToo)
    : Matches offset starts weaker owed prog progToo := by
  induction matched with
  | done same => exact .done (implies _ _ _ same)
  | call counterpart _ ih => exact .call counterpart ih

/-- A program that only calls on files does the same in both kernels, by induction on it. -/
theorem self {past : List Exchange} {comes : List Exchange → α → Prop}
    (upholds : prog.Upholds (fun _ c => c.onFiles = true) comes past) (owed : List Pid)
    : Matches offset starts (fun after value valueToo => after = owed ∧ valueToo = value)
        owed prog prog := by
  induction prog generalizing past with
  | done value => exact .done ⟨rfl, rfl⟩
  | call c next ih =>
      refine .call (.onFiles upholds.1) ?_
      rintro reply _ rfl
      rw [owedAfter_onFiles upholds.1]
      exact ih _ (upholds.2 _)

/-- What is printed need not be the same. -/
theorem putLine (text textToo : String) (owed : List Pid)
    : Matches offset starts (fun after _ _ => after = owed) owed (Prog.putLine text)
        (Prog.putLine textToo) :=
  .call (.print _ _) fun reply _ _ =>
    .done (owedAfter_onFiles (c := .write .stdout _) rfl owed reply)

end Prog.Matches

/-- Whether two programs of a process with some children come to the same end. -/
def Prog.EndAlike (offset : Offset) (starts : String → Prop) (owed : List Pid)
    (prog progToo : Prog Ending)
    : Prop :=
  prog.Matches offset starts (fun _ ending endingToo => endingToo = ending) owed progToo

/-- Outcomes of a check that correspond: two values that do, violations with one code,
or two faults.
-/
def Check.SameOutcome (result : List Pid → α → β → Prop) (owed : List Pid)
    : Except Check.Stop α → Except Check.Stop β → Prop
  | .ok value, .ok valueToo => result owed value valueToo
  | .error (.violation violation), .error (.violation violationToo) =>
      violationToo.code = violation.code
  | .error .fault, .error .fault => True
  | _, _ => False

/-- Whether two checks make corresponding calls as long as the replies correspond, and then come to
outcomes that correspond.
-/
def Check.Matches (offset : Offset) (starts : String → Prop) (result : List Pid → α → β → Prop)
    (owed : List Pid) (check : Check α) (checkToo : Check β)
    : Prop :=
  check.run.Matches offset starts (SameOutcome result) owed checkToo.run

namespace Check.Matches

variable {result : List Pid → α → β → Prop} {check : Check α} {checkToo : Check β}

theorem pure {value : α} {valueToo : β} (same : result owed value valueToo)
    : Matches offset starts result owed (Pure.pure value) (Pure.pure valueToo) :=
  .done same

theorem violate {violation violationToo : Violation} (same : violationToo.code = violation.code)
    : Matches offset starts result owed (Check.violate violation) (Check.violate violationToo) :=
  .done same

theorem bind {last : List Pid → γ → δ → Prop}
    (matched : Matches offset starts result owed check checkToo) {f : α → Check γ} {g : β → Check δ}
    (onward
      : ∀ owed value valueToo,
          result owed value valueToo → Matches offset starts last owed (f value) (g valueToo))
    : Matches offset starts last owed (check >>= f) (checkToo >>= g) := by
  refine Prog.Matches.bind matched fun owed outcome outcomeToo same => ?_
  rcases outcome with (violation | _) | value <;>
    rcases outcomeToo with (violationToo | _) | valueToo <;>
    first
    | exact same.elim
    | exact onward owed value valueToo same
    | exact .done same

theorem lift {prog : Prog α} {progToo : Prog β}
    (matched : prog.Matches offset starts result owed progToo)
    : Matches offset starts result owed (ExceptT.lift prog) (ExceptT.lift progToo) :=
  matched.bind fun _ _ _ same => .done same

theorem require (condition : Bool) {violation violationToo : Violation}
    (same : violationToo.code = violation.code) (owed : List Pid)
    : Matches offset starts (fun after _ _ => after = owed) owed (Check.require condition violation)
        (Check.require condition violationToo) := by
  cases condition with
  | false => exact .violate same
  | true => exact .pure rfl

/-- A check that only calls on files does the same in both kernels. -/
theorem self {comes : List Exchange → α → Prop} {stopped : List Exchange → Stop → Prop}
    (upholds : check.Upholds (fun _ c => c.onFiles = true) comes stopped []) (owed : List Pid)
    : Matches offset starts (fun after value valueToo => after = owed ∧ valueToo = value) owed check
        check := by
  refine (Prog.Matches.self upholds owed).mono fun after outcome outcomeToo same => ?_
  obtain ⟨rfl, same⟩ := same
  subst outcomeToo
  rcases outcome with (violation | _) | value
  · exact rfl
  · trivial
  · exact ⟨rfl, rfl⟩

/-- What is done in the end is done after outcomes that correspond. -/
theorem andFinally {last : Except Violation α → Prog Unit}
    {lastToo : Except Violation β → Prog Unit}
    (matched : Matches offset starts result owed check checkToo)
    (values
      : ∀ owed value valueToo,
          result owed value valueToo
          → (last (.ok value)).Matches offset starts
              (fun after _ _ => result after value valueToo) owed
              (lastToo (.ok valueToo)))
    (violations
      : ∀ owed violation violationToo,
          (last (.error violation)).Matches offset starts (fun _ _ _ => True) owed
            (lastToo (.error violationToo)))
    : Matches offset starts result owed (check.andFinally last) (checkToo.andFinally lastToo) := by
  refine Prog.Matches.bind matched fun owed outcome outcomeToo same => ?_
  rcases outcome with (violation | _) | value <;>
    rcases outcomeToo with (violationToo | _) | valueToo
  · exact (violations owed violation violationToo).bind fun _ _ _ _ => .done same
  · exact same.elim
  · exact same.elim
  · exact same.elim
  · exact .done trivial
  · exact same.elim
  · exact same.elim
  · exact same.elim
  · exact (values owed value valueToo same).bind fun _ _ _ same => .done same

/-- Checks that match end a process in the same way. -/
theorem ending {check checkToo : Check Int32}
    (matched : Matches offset starts (fun _ status statusToo => statusToo = status) owed
      check checkToo)
    (name : String)
    : (check.ending name).EndAlike offset starts owed (checkToo.ending name) := by
  refine Prog.Matches.bind matched fun owed outcome outcomeToo same => ?_
  rcases outcome with (violation | _) | value <;>
    rcases outcomeToo with (violationToo | _) | valueToo
  · refine (Prog.Matches.putLine _ _ owed).bind fun _ _ _ _ => .done ?_
    exact congrArg Ending.exit same
  · exact same.elim
  · exact same.elim
  · exact same.elim
  · exact .done rfl
  · exact same.elim
  · exact same.elim
  · exact same.elim
  · exact .done (congrArg Ending.exit same)

end Check.Matches

end KernelConformance
