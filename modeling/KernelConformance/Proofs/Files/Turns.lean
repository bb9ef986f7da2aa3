import KernelConformance.Proofs.Files.Correspondence
import KernelConformance.Proofs.Programs.Followers

/-! Calls that processes make in turns. Processes that are apart stay so, and each exchanges with
the kernel what it does by itself; all that neither of them uses is left alone.
-/

namespace KernelConformance

/-- A process, and a call that it makes. -/
structure Turn where
  pid : Pid
  call : Syscall

/-- The calls that a process makes in some turns. -/
def callsOf (pid : Pid) (turns : List Turn) : List Syscall :=
  turns.filterMap fun turn => if turn.pid = pid then some turn.call else none

/-- Turns of one process. -/
def turnsOf (pid : Pid) (calls : List Syscall) : List Turn := calls.map (Turn.mk pid)

/-- The names that calls are about. -/
def namesOf (calls : List Syscall) : List String := calls.filterMap Syscall.name?

/-- Turns in which two processes make the given calls, each in their order. -/
structure Interleaves (pid : Pid) (calls : List Syscall) (other : Pid) (others : List Syscall)
    (turns : List Turn)
    : Prop where
  owners : ∀ turn ∈ turns, turn.pid = pid ∨ turn.pid = other
  first : callsOf pid turns = calls
  second : callsOf other turns = others

theorem callsOf_cons_self (pid : Pid) (c : Syscall) (rest : List Turn)
    : callsOf pid (⟨pid, c⟩ :: rest) = c :: callsOf pid rest := by
  simp [callsOf]

theorem callsOf_cons_other {pid : Pid} {turn : Turn} (different : turn.pid ≠ pid)
    (rest : List Turn)
    : callsOf pid (turn :: rest) = callsOf pid rest := by
  simp [callsOf, different]

theorem mem_callsOf {pid : Pid} {turns : List Turn} {c : Syscall}
    : c ∈ callsOf pid turns ↔ ⟨pid, c⟩ ∈ turns := by
  constructor
  · intro member
    obtain ⟨⟨owner, made⟩, turn, same⟩ := List.mem_filterMap.mp member
    dsimp only at same
    split at same
    · next owned =>
        cases same
        exact owned ▸ turn
    · cases same
  · intro turn
    exact List.mem_filterMap.mpr ⟨_, turn, if_pos rfl⟩

/-- Whether a turn is a call on files that is about no name but those of its process. -/
def Turn.Keeps (names : Pid → String → Prop) (turn : Turn) : Prop :=
  turn.call.onFiles = true ∧ ∀ name, turn.call.name? = some name → names turn.pid name

-----------------------------------------------------------------------------------------
-- Turns one after the other
-----------------------------------------------------------------------------------------

namespace Kernel

/-- Makes the calls of some turns one after the other, and returns the deeds that they are. -/
def serve (kernel : Kernel) : List Turn → List Deed × Kernel
  | [] => ([], kernel)
  | ⟨pid, call⟩ :: rest =>
      match kernel.call pid call with
      | none =>
          let (deeds, after) := kernel.serve rest
          (.call pid call none :: deeds, after)
      | some (reply, middle) =>
          let (deeds, after) := middle.serve rest
          (.call pid call (some reply) :: deeds, after)

variable {names : Pid → String → Prop} {pid other : Pid} {turns rest : List Turn}
  {kernel middle after left right : Kernel} {start : Inode} {twin : Inode → Inode}

theorem serve_call {c : Syscall} {reply : c.Reply}
    (replied : kernel.call pid c = some (reply, middle)) (rest : List Turn)
    : kernel.serve (⟨pid, c⟩ :: rest)
      = (.call pid c (some reply) :: (middle.serve rest).1, (middle.serve rest).2) := by
  rw [serve]
  simp only [replied]

theorem serve_append (turns rest : List Turn) (kernel : Kernel)
    : kernel.serve (turns ++ rest)
      = ((kernel.serve turns).1 ++ ((kernel.serve turns).2.serve rest).1,
          ((kernel.serve turns).2.serve rest).2) := by
  induction turns generalizing kernel with
  | nil => rfl
  | cons turn turns ih =>
      obtain ⟨pid, c⟩ := turn
      rw [List.cons_append, serve, serve]
      rcases kernel.call pid c with _ | ⟨reply, middle⟩
      · simp only [ih, List.cons_append]
      · simp only [ih, List.cons_append]

/-- Turns of processes that run are steps, by induction on the turns. -/
theorem serve_steps (keeps : ∀ turn ∈ turns, turn.Keeps names)
    (runs : ∀ turn ∈ turns, kernel.processes.isRunning turn.pid = true)
    : kernel.Steps (kernel.serve turns).1 (kernel.serve turns).2 := by
  induction turns generalizing kernel with
  | nil => exact .nil
  | cons turn rest ih =>
      obtain ⟨⟨onFiles, -⟩, keepsRest⟩ := List.forall_mem_cons.mp keeps
      obtain ⟨reply, middle, replied⟩ := call_onFiles onFiles kernel turn.pid
      rw [serve_call replied]
      refine .cons (.call (runs turn List.mem_cons_self) replied) (ih keepsRest ?_)
      intro later member
      rw [(call_elsewhere onFiles replied).processes]
      exact runs later (List.mem_cons_of_mem _ member)

/-- What both processes keep is kept by all their turns, by induction on the turns. -/
theorem serve_keeps (invariant : Kernel → Prop)
    (keeps : ∀ turn ∈ turns, turn.Keeps names)
    (step
      : ∀ {kernel after turn},
          turn ∈ turns
          → kernel.Confined (names turn.pid) turn.pid after
          → invariant kernel
          → invariant after)
    (holds : invariant kernel)
    : invariant (kernel.serve turns).2 := by
  induction turns generalizing kernel with
  | nil => exact holds
  | cons turn rest ih =>
      obtain ⟨⟨onFiles, uses⟩, keepsRest⟩ := List.forall_mem_cons.mp keeps
      obtain ⟨reply, middle, replied⟩ := call_onFiles onFiles kernel turn.pid
      rw [serve_call replied]
      refine ih keepsRest (fun member => step (List.mem_cons_of_mem _ member)) ?_
      exact step List.mem_cons_self (call_confined onFiles uses replied) holds

theorem serve_confined (kernel : Kernel) (keeps : ∀ turn ∈ turns, turn.Keeps names)
    (own : ∀ turn ∈ turns, turn.pid = pid)
    : kernel.Confined (names pid) pid (kernel.serve turns).2 :=
  serve_keeps (kernel.Confined (names pid) pid) keeps
    (fun member confined before => before.trans (own _ member ▸ confined))
    (.refl kernel (names pid) pid)

theorem Apart.serve (apart : kernel.Apart (names pid) pid (names other) other)
    (keeps : ∀ turn ∈ turns, turn.Keeps names)
    (owners : ∀ turn ∈ turns, turn.pid = pid ∨ turn.pid = other)
    : (kernel.serve turns).2.Apart (names pid) pid (names other) other := by
  refine serve_keeps (fun kernel => kernel.Apart (names pid) pid (names other) other)
    keeps (fun {kernel after turn} member confined apart => ?_) apart
  rcases owners turn member with same | same <;> rw [same] at confined
  · exact apart.confined confined
  · exact (apart.symm.confined confined).symm

/-- The exchanges of a process are with its own calls. -/
theorem exchanges_serve_other (kernel : Kernel) (pid : Pid)
    (keeps : ∀ turn ∈ turns, turn.Keeps names) (others : ∀ turn ∈ turns, turn.pid ≠ pid)
    : exchanges pid (kernel.serve turns).1 = [] := by
  induction turns generalizing kernel with
  | nil => rfl
  | cons turn rest ih =>
      obtain ⟨⟨onFiles, -⟩, keepsRest⟩ := List.forall_mem_cons.mp keeps
      obtain ⟨different, othersRest⟩ := List.forall_mem_cons.mp others
      obtain ⟨reply, middle, replied⟩ := call_onFiles onFiles kernel turn.pid
      rw [serve_call replied, exchanges_cons_other different]
      exact ih _ keepsRest othersRest

/-- Every call gets a reply, by induction on the turns. -/
theorem calls_serve (keeps : ∀ turn ∈ turns, turn.Keeps names)
    : (exchanges pid (kernel.serve turns).1).map Exchange.call = callsOf pid turns := by
  induction turns generalizing kernel with
  | nil => rfl
  | cons turn rest ih =>
      obtain ⟨⟨onFiles, -⟩, keepsRest⟩ := List.forall_mem_cons.mp keeps
      obtain ⟨reply, middle, replied⟩ := call_onFiles onFiles kernel turn.pid
      rw [serve_call replied]
      by_cases same : turn.pid = pid
      · subst same
        rw [exchanges_cons_call, callsOf_cons_self, List.map_cons, ih keepsRest]
      · rw [exchanges_cons_other same, callsOf_cons_other same, ih keepsRest]

/-- A process does in any turns what it does by itself in a kernel that looks the same to it: its
own calls go on in both kernels, and those of the other process go unnoticed. This is by induction
on the turns.
-/
theorem Mirrors.serve (mirrors : left.Mirrors (names pid) pid start twin right)
    (apart : left.Apart (names pid) pid (names other) other)
    (keeps : ∀ turn ∈ turns, turn.Keeps names)
    (owners : ∀ turn ∈ turns, turn.pid = pid ∨ turn.pid = other)
    : exchanges pid (left.serve turns).1
        = exchanges pid (right.serve (turnsOf pid (callsOf pid turns))).1
      ∧ ∃ next,
          (left.serve turns).2.Mirrors (names pid) pid start next
            (right.serve (turnsOf pid (callsOf pid turns))).2 := by
  induction turns generalizing left right twin with
  | nil => exact ⟨rfl, twin, mirrors⟩
  | cons turn rest ih =>
      obtain ⟨⟨onFiles, uses⟩, keepsRest⟩ := List.forall_mem_cons.mp keeps
      obtain ⟨owner, ownersRest⟩ := List.forall_mem_cons.mp owners
      obtain ⟨caller, c⟩ := turn
      rcases owner with same | same <;> obtain rfl := same
      · obtain ⟨reply, leftNext, rightNext, next, replied, repliedToo, matched⟩ :=
          mirrors.call onFiles uses
        rw [callsOf_cons_self, turnsOf, List.map_cons, serve_call replied, serve_call repliedToo,
          exchanges_cons_call, exchanges_cons_call]
        have further := apart.confined (call_confined onFiles uses replied)
        obtain ⟨exchanged, reached⟩ := ih matched further keepsRest ownersRest
        exact ⟨congrArg _ exchanged, reached⟩
      · obtain ⟨reply, leftNext, replied⟩ := call_onFiles onFiles left caller
        have confined := call_confined onFiles uses replied
        have unnoticed := apart.symm.unnoticed confined
        rw [callsOf_cons_other apart.different, serve_call replied,
          exchanges_cons_other apart.different]
        exact ih (mirrors.unnoticed_left unnoticed) (apart.symm.confined confined).symm keepsRest
          ownersRest

-----------------------------------------------------------------------------------------
-- What two processes leave alone
-----------------------------------------------------------------------------------------

/-- A change that two processes can make by calls on files with their names. -/
structure ConfinedToBoth (kernel : Kernel) (names : Pid → String → Prop) (pid other : Pid)
    (after : Kernel)
    : Prop where
  config : after.config = kernel.config
  programs : after.programs = kernel.programs
  processes : after.processes = kernel.processes
  fds : ∀ third, third ≠ pid → third ≠ other → after.fds third = kernel.fds third
  next_le : kernel.files.next.index ≤ after.files.next.index
  spared
    : ∀ name,
        ¬names pid name
        → ¬names other name
        → after.files.names.get? name = kernel.files.names.get? name
  data
    : ∀ inode,
        inode.index < kernel.files.next.index
        → ¬kernel.Footprint (names pid) pid inode
        → ¬kernel.Footprint (names other) other inode
        → after.files.data inode = kernel.files.data inode

theorem ConfinedToBoth.refl (kernel : Kernel) (names : Pid → String → Prop) (pid other : Pid)
    : kernel.ConfinedToBoth names pid other kernel :=
  ⟨rfl, rfl, rfl, fun _ _ _ => rfl, Nat.le_refl _, fun _ _ _ => rfl, fun _ _ _ _ => rfl⟩

theorem ConfinedToBoth.symm (confined : kernel.ConfinedToBoth names pid other after)
    : kernel.ConfinedToBoth names other pid after where
  config := confined.config
  programs := confined.programs
  processes := confined.processes
  fds third notOther notPid := confined.fds third notPid notOther
  next_le := confined.next_le
  spared name notOther notPid := confined.spared name notPid notOther
  data inode old notOther notPid := confined.data inode old notPid notOther

/-- The first of the processes goes on: what it does is confined to the one footprint, and the other
footprint is what it was.
-/
theorem ConfinedToBoth.before (further : middle.ConfinedToBoth names pid other after)
    (apart : kernel.Apart (names pid) pid (names other) other)
    (confined : kernel.Confined (names pid) pid middle)
    : kernel.ConfinedToBoth names pid other after where
  config := further.config.trans confined.elsewhere.config
  programs := further.programs.trans confined.elsewhere.programs
  processes := further.processes.trans confined.elsewhere.processes
  fds third notPid notOther :=
    (further.fds third notPid notOther).trans
      (congrArg Context.fds (confined.elsewhere.contexts third notPid))
  next_le := Nat.le_trans confined.files.next_le further.next_le
  spared name notPid notOther :=
    (further.spared name notPid notOther).trans (confined.files.spared name notPid)
  data inode old notPid notOther := by
    have mine : ¬middle.Footprint (names pid) pid inode := fun inside =>
      (confined.files.footprint inode inside).elim notPid fun new =>
        Nat.lt_irrefl _ (Nat.lt_of_lt_of_le old new.1)
    have yours : ¬middle.Footprint (names other) other inode := fun inside =>
      notOther (((apart.unnoticed confined).footprint inode).mp inside)
    have older := Nat.lt_of_lt_of_le old confined.files.next_le
    exact (further.data inode older mine yours).trans (confined.files.data inode old notPid)

/-- Turns of two processes that are apart leave everything else alone, by induction on the turns. -/
theorem Apart.serve_confined (apart : kernel.Apart (names pid) pid (names other) other)
    (keeps : ∀ turn ∈ turns, turn.Keeps names)
    (owners : ∀ turn ∈ turns, turn.pid = pid ∨ turn.pid = other)
    : kernel.ConfinedToBoth names pid other (kernel.serve turns).2 := by
  induction turns generalizing kernel with
  | nil => exact .refl kernel names pid other
  | cons turn rest ih =>
      obtain ⟨⟨onFiles, uses⟩, keepsRest⟩ := List.forall_mem_cons.mp keeps
      obtain ⟨owner, ownersRest⟩ := List.forall_mem_cons.mp owners
      obtain ⟨caller, c⟩ := turn
      obtain ⟨reply, middle, replied⟩ := call_onFiles onFiles kernel caller
      have confined := call_confined onFiles uses replied
      rw [serve_call replied]
      rcases owner with same | same <;> obtain rfl := same
      · exact (ih (apart.confined confined) keepsRest ownersRest).before apart confined
      · have further := ih (apart.symm.confined confined).symm keepsRest ownersRest
        exact (further.symm.before apart.symm confined).symm

end Kernel

end KernelConformance
