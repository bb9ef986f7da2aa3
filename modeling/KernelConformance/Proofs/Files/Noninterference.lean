import KernelConformance.Proofs.Files.Turns

/-! Calls of two processes on files of their own, in any order. What each process exchanges with the
kernel is what it does when the one acts before the other, and so are the files in the end: only the
console and the order in which inodes were made can differ.
-/

namespace KernelConformance

namespace Kernel

variable {names : Pid → String → Prop} {pid other : Pid} {turns : List Turn}
  {kernel left right : Kernel}

-----------------------------------------------------------------------------------------
-- Kernels that are the same up to a correspondence of inodes
-----------------------------------------------------------------------------------------

/-- Whether an inode is open in some process, or has a name. -/
def InUse (kernel : Kernel) (inode : Inode) : Prop :=
  (∃ pid, (kernel.fds pid).Opens inode) ∨ ∃ name, kernel.files.names.get? name = some inode

/-- Kernels that differ at most in the console and in which inodes their files have: all names have
the same contents and all descriptors stand for corresponding files at the same offsets.
-/
structure SameUpTo (left : Kernel) (twin : Inode → Inode) (right : Kernel) : Prop where
  config : right.config = left.config
  programs : right.programs = left.programs
  processes : right.processes = left.processes
  fds : ∀ pid, right.fds pid = (left.fds pid).rename twin
  names : ∀ name, right.files.names.get? name = (left.files.names.get? name).map twin
  contents : ∀ name, right.files.contents? name = left.files.contents? name
  injective
    : ∀ first second,
        left.InUse first → left.InUse second → twin first = twin second → first = second

theorem Run.inUse_taken {config : Config} {deeds : List Deed} (run : Run config deeds kernel)
    {inode : Inode} (used : kernel.InUse inode)
    : inode.index < kernel.files.next.index := by
  rcases used with ⟨pid, opens⟩ | ⟨name, named⟩
  · exact run.opens_taken opens
  · exact run.tidy.names.taken named

/-- Whether a process holds open the file with a name. -/
def HoldsOpen (kernel : Kernel) (pid : Pid) (name : String) : Prop :=
  ∃ inode, (kernel.fds pid).Opens inode ∧ kernel.files.names.get? name = some inode

/-- What two kernels have become of one, by turns of two processes that see the same in both. -/
structure Confluent (kernel : Kernel) (names : Pid → String → Prop) (pid other : Pid)
    (mine yours : Inode → Inode) (left right : Kernel)
    : Prop where
  taken : ∀ inode, kernel.InUse inode → inode.index < kernel.files.next.index
  distinct : kernel.files.Distinct
  held : ∀ name, kernel.HoldsOpen pid name → names pid name
  heldOther : ∀ name, kernel.HoldsOpen other name → names other name
  confined : kernel.ConfinedToBoth names pid other left
  confinedToo : kernel.ConfinedToBoth names pid other right
  apart : left.Apart (names pid) pid (names other) other
  apartToo : right.Apart (names pid) pid (names other) other
  first : left.Mirrors (names pid) pid kernel.files.next mine right
  second : left.Mirrors (names other) other kernel.files.next yours right

open Classical in
/-- The correspondence of two processes together: each has its own on its footprint. -/
noncomputable def jointTwin (left : Kernel) (names : Pid → String → Prop) (pid other : Pid)
    (mine yours : Inode → Inode) (inode : Inode)
    : Inode :=
  if left.Footprint (names pid) pid inode then mine inode
  else if left.Footprint (names other) other inode then yours inode
  else inode

namespace Confluent

variable {mine yours : Inode → Inode} {inode : Inode}

theorem twin_first (inside : left.Footprint (names pid) pid inode)
    : jointTwin left names pid other mine yours inode = mine inode :=
  if_pos inside

theorem twin_second (confluent : kernel.Confluent names pid other mine yours left right)
    (inside : left.Footprint (names other) other inode)
    : jointTwin left names pid other mine yours inode = yours inode := by
  have outside : ¬left.Footprint (names pid) pid inode := fun both =>
    confluent.apart.inodes inode both inside
  rw [jointTwin, if_neg outside, if_pos inside]

theorem twin_old (confluent : kernel.Confluent names pid other mine yours left right)
    (old : inode.index < kernel.files.next.index)
    : jointTwin left names pid other mine yours inode = inode := by
  unfold jointTwin
  split
  · exact confluent.first.files.fixed inode old
  · split
    · exact confluent.second.files.fixed inode old
    · rfl

/-- A name that neither process uses has kept its inode, which neither of them could get at. -/
theorem unused (confluent : kernel.Confluent names pid other mine yours left right) {name : String}
    (notMine : ¬names pid name) (notYours : ¬names other name)
    : right.files.names.get? name = left.files.names.get? name
      ∧ ∀ inode,
          left.files.names.get? name = some inode
          → inode.index < kernel.files.next.index
            ∧ right.files.data inode = left.files.data inode := by
  have before := confluent.confined.spared name notMine notYours
  refine ⟨(confluent.confinedToo.spared name notMine notYours).trans before.symm,
    fun inode named => ?_⟩
  rw [before] at named
  have old := confluent.taken inode (.inr ⟨name, named⟩)
  have outside {caller : Pid} (held : ∀ name, kernel.HoldsOpen caller name → names caller name)
      (unused : ¬names caller name)
      : ¬kernel.Footprint (names caller) caller inode := by
    intro inside
    rcases inside with opens | ⟨used, uses, namedToo⟩
    · exact unused (held name ⟨inode, opens, named⟩)
    · exact unused (confluent.distinct.injective namedToo named ▸ uses)
  have notPid := outside confluent.held notMine
  have notOther := outside confluent.heldOther notYours
  refine ⟨old, ?_⟩
  rw [confluent.confinedToo.data inode old notPid notOther,
    confluent.confined.data inode old notPid notOther]

theorem fds (confluent : kernel.Confluent names pid other mine yours left right) (caller : Pid)
    : right.fds caller
      = (left.fds caller).rename (jointTwin left names pid other mine yours) := by
  by_cases first : caller = pid
  · subst first
    rw [confluent.first.fds]
    exact Descriptors.rename_congr fun inode opens => (twin_first (.inl opens)).symm
  · by_cases second : caller = other
    · subst second
      rw [confluent.second.fds]
      exact Descriptors.rename_congr fun inode opens => (confluent.twin_second (.inl opens)).symm
    · rw [confluent.confinedToo.fds caller first second, confluent.confined.fds caller first second]
      refine (Descriptors.rename_self fun inode opens => ?_).symm
      exact confluent.twin_old (confluent.taken inode (.inl ⟨caller, opens⟩))

/-- A name leads to corresponding inodes, with the same bytes. -/
theorem names_contents (confluent : kernel.Confluent names pid other mine yours left right)
    (name : String)
    : right.files.names.get? name
        = (left.files.names.get? name).map (jointTwin left names pid other mine yours)
      ∧ right.files.contents? name = left.files.contents? name := by
  suffices matched
      : right.files.names.get? name
          = (left.files.names.get? name).map (jointTwin left names pid other mine yours)
        ∧ ∀ inode,
            left.files.names.get? name = some inode
            → right.files.data (jointTwin left names pid other mine yours inode)
              = left.files.data inode by
    obtain ⟨names, data⟩ := matched
    refine ⟨names, ?_⟩
    rw [FileSystem.contents?, FileSystem.contents?, names]
    rcases named : left.files.names.get? name with _ | inode
    · rfl
    · exact congrArg some (data inode named)
  by_cases first : names pid name
  · refine ⟨?_, fun inode named => ?_⟩
    · rw [confluent.first.files.named name first]
      exact Option.map_congr fun inode named => (twin_first (.inr ⟨name, first, named⟩)).symm
    · have inside := FileSystem.footprint_of_named (left.fds pid) first named
      rw [twin_first inside]
      exact confluent.first.files.data inode inside
  · by_cases second : names other name
    · refine ⟨?_, fun inode named => ?_⟩
      · rw [confluent.second.files.named name second]
        exact Option.map_congr fun inode named =>
          (confluent.twin_second (.inr ⟨name, second, named⟩)).symm
      · have inside := FileSystem.footprint_of_named (left.fds other) second named
        rw [confluent.twin_second inside]
        exact confluent.second.files.data inode inside
    · obtain ⟨same, kept⟩ := confluent.unused first second
      refine ⟨?_, fun inode named => ?_⟩
      · rw [same]
        rcases named : left.files.names.get? name with _ | inode
        · rfl
        · exact congrArg some (confluent.twin_old (kept inode named).1).symm
      · obtain ⟨old, data⟩ := kept inode named
        rw [confluent.twin_old old]
        exact data

/-- An inode in use was there before, or is one that a process has made. -/
theorem inUse_cases (confluent : kernel.Confluent names pid other mine yours left right)
    (used : left.InUse inode)
    : inode.index < kernel.files.next.index
      ∨ left.Footprint (names pid) pid inode
      ∨ left.Footprint (names other) other inode := by
  rcases used with ⟨caller, opens⟩ | ⟨name, named⟩
  · by_cases first : caller = pid
    · exact .inr (.inl (.inl (first ▸ opens)))
    · by_cases second : caller = other
      · exact .inr (.inr (.inl (second ▸ opens)))
      · rw [confluent.confined.fds caller first second] at opens
        exact .inl (confluent.taken inode (.inl ⟨caller, opens⟩))
  · by_cases first : names pid name
    · exact .inr (.inl (.inr ⟨name, first, named⟩))
    · by_cases second : names other name
      · exact .inr (.inr (.inr ⟨name, second, named⟩))
      · exact .inl ((confluent.unused first second).2 inode named).1

/-- What is new corresponds to what is new. -/
theorem twin_new (confluent : kernel.Confluent names pid other mine yours left right)
    (used : left.InUse inode) (new : kernel.files.next.index ≤ inode.index)
    : kernel.files.next.index ≤ (jointTwin left names pid other mine yours inode).index := by
  rcases confluent.inUse_cases used with old | first | second
  · exact absurd (Nat.lt_of_lt_of_le old new) (Nat.lt_irrefl _)
  · rw [twin_first first]
    exact confluent.first.files.fresh inode first new
  · rw [confluent.twin_second second]
    exact confluent.second.files.fresh inode second new

/-- Inodes of the two processes do not correspond to one inode. -/
theorem twin_apart (confluent : kernel.Confluent names pid other mine yours left right)
    {first second : Inode} (mineFirst : left.Footprint (names pid) pid first)
    (yoursSecond : left.Footprint (names other) other second)
    : jointTwin left names pid other mine yours first
      ≠ jointTwin left names pid other mine yours second := by
  intro same
  rw [twin_first mineFirst, confluent.twin_second yoursSecond] at same
  exact confluent.apartToo.inodes _ (confluent.first.footprint_image mineFirst)
    (same ▸ confluent.second.footprint_image yoursSecond)

theorem injective (confluent : kernel.Confluent names pid other mine yours left right)
    {first second : Inode} (usedFirst : left.InUse first) (usedSecond : left.InUse second)
    (same : jointTwin left names pid other mine yours first
      = jointTwin left names pid other mine yours second)
    : first = second := by
  by_cases oldFirst : first.index < kernel.files.next.index <;>
    by_cases oldSecond : second.index < kernel.files.next.index
  · rwa [confluent.twin_old oldFirst, confluent.twin_old oldSecond] at same
  · have new := confluent.twin_new usedSecond (Nat.le_of_not_lt oldSecond)
    rw [← same, confluent.twin_old oldFirst] at new
    exact absurd oldFirst (Nat.not_lt_of_le new)
  · have new := confluent.twin_new usedFirst (Nat.le_of_not_lt oldFirst)
    rw [same, confluent.twin_old oldSecond] at new
    exact absurd oldSecond (Nat.not_lt_of_le new)
  · rcases (confluent.inUse_cases usedFirst).resolve_left oldFirst with mineFirst | yoursFirst <;>
      rcases (confluent.inUse_cases usedSecond).resolve_left oldSecond with mineSecond | yoursSecond
    · rw [twin_first mineFirst, twin_first mineSecond] at same
      exact confluent.first.files.injective first second mineFirst mineSecond same
    · exact absurd same (confluent.twin_apart mineFirst yoursSecond)
    · exact absurd same.symm (confluent.twin_apart mineSecond yoursFirst)
    · rw [confluent.twin_second yoursFirst, confluent.twin_second yoursSecond] at same
      exact confluent.second.files.injective first second yoursFirst yoursSecond same

/-- Whatever the turns were, the kernels are the same up to the correspondence. -/
theorem sameUpTo (confluent : kernel.Confluent names pid other mine yours left right)
    : left.SameUpTo (jointTwin left names pid other mine yours) right where
  config := confluent.confinedToo.config.trans confluent.confined.config.symm
  programs := confluent.confinedToo.programs.trans confluent.confined.programs.symm
  processes := confluent.confinedToo.processes.trans confluent.confined.processes.symm
  fds := confluent.fds
  names name := (confluent.names_contents name).1
  contents name := (confluent.names_contents name).2
  injective _ _ := confluent.injective

/-- What both processes have open has the same bytes. -/
theorem data (confluent : kernel.Confluent names pid other mine yours left right)
    (opens : (left.fds pid).Opens inode ∨ (left.fds other).Opens inode)
    : right.files.data (jointTwin left names pid other mine yours inode)
      = left.files.data inode := by
  rcases opens with first | second
  · rw [twin_first (.inl first)]
    exact confluent.first.files.data inode (.inl first)
  · rw [confluent.twin_second (.inl second)]
    exact confluent.second.files.data inode (.inl second)

end Confluent

-----------------------------------------------------------------------------------------
-- Processes with files of their own
-----------------------------------------------------------------------------------------

/-- Whether two processes have no open file in common, and make calls about different names, none of
which the other process has open.
-/
structure Separate (kernel : Kernel) (pid : Pid) (calls : List Syscall) (other : Pid)
    (others : List Syscall)
    : Prop where
  inodes : ∀ inode, (kernel.fds pid).Opens inode → ¬(kernel.fds other).Opens inode
  names
    : ∀ name ∈ namesOf others, name ∉ namesOf calls ∧ ¬kernel.HoldsOpen pid name
  namesToo
    : ∀ name ∈ namesOf calls, name ∉ namesOf others ∧ ¬kernel.HoldsOpen other name

/-- The names of a process: those that its calls are about, and those that it has open. -/
def Claims (kernel : Kernel) (turns : List Turn) (pid : Pid) (name : String) : Prop :=
  name ∈ namesOf (callsOf pid turns) ∨ kernel.HoldsOpen pid name

/-- Separate processes are apart: an inode that one of them has open has no name of the other, and
no inode has two names.
-/
theorem Separate.apart {config : Config} {deeds : List Deed} (run : Run config deeds kernel)
    (different : other ≠ pid)
    (separate : kernel.Separate pid (callsOf pid turns) other (callsOf other turns))
    : kernel.Apart (kernel.Claims turns pid) pid (kernel.Claims turns other) other := by
  have disjoint (name : String) (mine : kernel.Claims turns pid name)
      : ¬kernel.Claims turns other name := by
    intro yours
    rcases mine with called | ⟨inode, opens, named⟩ <;> rcases yours with calledToo | held
    · exact (separate.namesToo name called).1 calledToo
    · exact (separate.namesToo name called).2 held
    · exact (separate.names name calledToo).2 ⟨inode, opens, named⟩
    · obtain ⟨inodeToo, opensToo, namedToo⟩ := held
      cases named.symm.trans namedToo
      exact separate.inodes inode opens opensToo
  have taken (pid : Pid) (inode : Inode)
      (inside : kernel.Footprint (kernel.Claims turns pid) pid inode)
      : inode.index < kernel.files.next.index := by
    rcases inside with opens | ⟨name, -, named⟩
    · exact run.opens_taken opens
    · exact run.tidy.names.taken named
  refine ⟨different, disjoint, fun inode mine yours => ?_, taken pid, taken other⟩
  rcases mine with opens | ⟨name, claims, named⟩ <;>
    rcases yours with opensToo | ⟨nameToo, claimsToo, namedToo⟩
  · exact separate.inodes inode opens opensToo
  · exact disjoint nameToo (.inr ⟨inode, opens, namedToo⟩) claimsToo
  · exact disjoint name claims (.inr ⟨inode, opensToo, named⟩)
  · obtain rfl := run.tidy.names.injective named namedToo
    exact disjoint name claims claimsToo

/-- In all turns of two processes that run and have files of their own, each of them exchanges with
the kernel what it does when the first one makes all its calls before the second one begins, and all
names, contents, descriptors and offsets are the same in the end.
-/
theorem Run.noninterference {config : Config} {deeds : List Deed} (run : Run config deeds kernel)
    (runs : kernel.processes.isRunning pid = true)
    (runsToo : kernel.processes.isRunning other = true) (different : other ≠ pid)
    {calls others : List Syscall} (onFiles : ∀ c ∈ calls, c.onFiles = true)
    (onFilesToo : ∀ c ∈ others, c.onFiles = true)
    (separate : kernel.Separate pid calls other others)
    (interleaves : Interleaves pid calls other others turns)
    : let mixed := kernel.serve turns
      let serial := kernel.serve (turnsOf pid calls ++ turnsOf other others)
      kernel.Steps mixed.1 mixed.2
      ∧ kernel.Steps serial.1 serial.2
      ∧ (exchanges pid mixed.1).map Exchange.call = calls
      ∧ (exchanges other mixed.1).map Exchange.call = others
      ∧ exchanges pid mixed.1 = exchanges pid serial.1
      ∧ exchanges other mixed.1 = exchanges other serial.1
      ∧ ∃ twin,
          (∀ inode, inode.index < kernel.files.next.index → twin inode = inode)
          ∧ mixed.2.SameUpTo twin serial.2
          ∧ ∀ inode,
              (mixed.2.fds pid).Opens inode ∨ (mixed.2.fds other).Opens inode
              → serial.2.files.data (twin inode) = mixed.2.files.data inode := by
  obtain ⟨owners, rfl, rfl⟩ := interleaves
  intro mixed serial
  have apart := separate.apart run different
  have keeps : ∀ turn ∈ turns, turn.Keeps (kernel.Claims turns) := by
    intro turn member
    have own := mem_callsOf.mpr member
    refine ⟨?_, fun name about => .inl (List.mem_filterMap.mpr ⟨turn.call, own, about⟩)⟩
    rcases owners turn member with same | same <;> rw [same] at own
    · exact onFiles turn.call own
    · exact onFilesToo turn.call own
  have ordered (caller : Pid) (turn : Turn) (member : turn ∈ turnsOf caller (callsOf caller turns))
      : turn.pid = caller ∧ turn ∈ turns := by
    obtain ⟨c, made, rfl⟩ := List.mem_map.mp member
    exact ⟨rfl, mem_callsOf.mp made⟩
  have first := fun turn member => keeps turn (ordered pid turn member).2
  have second := fun turn member => keeps turn (ordered other turn member).2
  have both : ∀ turn ∈ turnsOf pid (callsOf pid turns) ++ turnsOf other (callsOf other turns),
      turn ∈ turns ∧ (turn.pid = pid ∨ turn.pid = other) := by
    intro turn member
    rcases List.mem_append.mp member with mine | yours
    · exact ⟨(ordered pid turn mine).2, .inl (ordered pid turn mine).1⟩
    · exact ⟨(ordered other turn yours).2, .inr (ordered other turn yours).1⟩
  have keepsBoth := fun turn member => keeps turn (both turn member).1
  have ownersBoth := fun turn member => (both turn member).2
  -- the second process acts where the first one has made all its calls
  have confined := serve_confined kernel first fun turn member =>
    (ordered pid turn member).1
  generalize between : (kernel.serve (turnsOf pid (callsOf pid turns))).2 = middle at confined
  have apartBetween := apart.confined confined
  have confinedToo := serve_confined middle second fun turn member =>
    (ordered other turn member).1
  have ended : serial = ((kernel.serve (turnsOf pid (callsOf pid turns))).1
        ++ (middle.serve (turnsOf other (callsOf other turns))).1,
      (middle.serve (turnsOf other (callsOf other turns))).2) := by
    rw [← between]
    exact serve_append ..
  obtain ⟨exchanged, mine, mirrors⟩ := (mirrors_self apart.taken).serve apart keeps owners
  obtain ⟨exchangedToo, yours, mirrorsToo⟩ :=
    ((mirrors_self apart.takenOther).unnoticed_right (apart.unnoticed confined)).serve apart.symm
      keeps fun turn member => (owners turn member).symm
  rw [between] at mirrors
  have confluent
      : kernel.Confluent (kernel.Claims turns) pid other mine yours mixed.2 serial.2 := {
    taken := fun _ => run.inUse_taken
    distinct := run.tidy.names
    held := fun _ => .inr
    heldOther := fun _ => .inr
    confined := apart.serve_confined keeps owners
    confinedToo := apart.serve_confined keepsBoth ownersBoth
    apart := apart.serve keeps owners
    apartToo := apart.serve keepsBoth ownersBoth
    first := by
      rw [ended]
      exact mirrors.unnoticed_right (apartBetween.symm.unnoticed confinedToo)
    second := by
      rw [ended]
      exact mirrorsToo
  }
  have running (turn : Turn) (owner : turn.pid = pid ∨ turn.pid = other)
      : kernel.processes.isRunning turn.pid = true := by
    rcases owner with same | same <;> rwa [same]
  refine ⟨?_, ?_, calls_serve keeps, calls_serve keeps, ?_, ?_, _, ?_, confluent.sameUpTo, ?_⟩
  · exact serve_steps keeps fun turn member => running turn (owners turn member)
  · exact serve_steps keepsBoth fun turn member => running turn (ownersBoth turn member)
  · have silent := exchanges_serve_other middle pid second fun turn member =>
      (ordered other turn member).1 ▸ different
    rw [ended, exchanges_append, silent, List.append_nil]
    exact exchanged
  · have silent := exchanges_serve_other kernel other first fun turn member =>
      (ordered pid turn member).1 ▸ different.symm
    rw [ended, exchanges_append, silent, List.nil_append]
    exact exchangedToo
  · exact fun inode => confluent.twin_old
  · exact fun inode => confluent.data

/-- The deeds that start two processes. -/
def pairDeeds : List Deed :=
  [
    .register "p",
    .spawn "p" [] (.ok (.ofNat 1)),
    .spawn "p" [] (.ok (.ofNat 2))
  ]

/-- Calls of the first process: it creates and fills a file. -/
def fillingCalls : List Syscall := [.creat "a", .write ⟨2⟩ [1, 2, 3]]

/-- Calls of the second process: it fills a file and reads it back. -/
def readingCalls : List Syscall := [.creat "b", .write ⟨2⟩ [7], .openFile "b", .read ⟨3⟩ 9]

/-- Turns in which the second process creates its file first. -/
def crossedTurns : List Turn :=
  [
    ⟨.ofNat 2, .creat "b"⟩,
    ⟨.ofNat 1, .creat "a"⟩,
    ⟨.ofNat 2, .write ⟨2⟩ [7]⟩,
    ⟨.ofNat 2, .openFile "b"⟩,
    ⟨.ofNat 1, .write ⟨2⟩ [1, 2, 3]⟩,
    ⟨.ofNat 2, .read ⟨3⟩ 9⟩
  ]

/-- In these turns the file of the second process has the first inode, and it has the second one
where the first process creates its file first. All else is the same.
-/
theorem noninterference_crossed
    : ∃ kernel twin,
        Run .standard pairDeeds kernel
        ∧ kernel.Separate (.ofNat 1) fillingCalls (.ofNat 2) readingCalls
        ∧ Interleaves (.ofNat 1) fillingCalls (.ofNat 2) readingCalls crossedTurns
        ∧ (kernel.serve crossedTurns).2.SameUpTo twin
          (kernel.serve (turnsOf (.ofNat 1) fillingCalls ++ turnsOf (.ofNat 2) readingCalls)).2
        ∧ twin ⟨0⟩ = ⟨1⟩ := by
  obtain ⟨kernel, run, runs, runsToo, table, tableToo, named, namedToo⟩
      : ∃ kernel,
          Run .standard pairDeeds kernel
          ∧ kernel.processes.isRunning (.ofNat 1) = true
          ∧ kernel.processes.isRunning (.ofNat 2) = true
          ∧ kernel.fds (.ofNat 1) = .initial 16
          ∧ kernel.fds (.ofNat 2) = .initial 16
          ∧ (kernel.serve crossedTurns).2.files.names.get? "b" = some ⟨0⟩
          ∧ (kernel.serve (turnsOf (.ofNat 1) fillingCalls
              ++ turnsOf (.ofNat 2) readingCalls)).2.files.names.get? "b" = some ⟨1⟩ :=
    ⟨_, .extend .boot (.cons (.register "p") <| .cons (.spawn rfl) <| .cons (.spawn rfl) .nil),
      rfl, rfl, rfl, rfl, rfl, rfl⟩
  have separate : kernel.Separate (.ofNat 1) fillingCalls (.ofNat 2) readingCalls := by
    have nothing (inode : Inode) : ¬(Descriptors.initial 16).Opens inode :=
      Descriptors.not_opens_initial 16
    constructor
    · intro inode opens
      exact absurd (table ▸ opens) (nothing inode)
    · intro name member
      refine ⟨?_, fun held => ?_⟩
      · obtain rfl : name = "b" := by
          simpa [namesOf, readingCalls, Syscall.name?, eq_comm] using member
        simp [namesOf, fillingCalls, Syscall.name?]
      · obtain ⟨inode, opens, -⟩ := held
        exact nothing inode (table ▸ opens)
    · intro name member
      refine ⟨?_, fun held => ?_⟩
      · obtain rfl : name = "a" := by
          simpa [namesOf, fillingCalls, Syscall.name?] using member
        simp [namesOf, readingCalls, Syscall.name?]
      · obtain ⟨inode, opens, -⟩ := held
        exact nothing inode (tableToo ▸ opens)
  have interleaves
      : Interleaves (.ofNat 1) fillingCalls (.ofNat 2) readingCalls crossedTurns := by
    refine ⟨?_, rfl, rfl⟩
    simp [crossedTurns]
  have onFiles : ∀ c ∈ fillingCalls, c.onFiles = true := by simp [fillingCalls, Syscall.onFiles]
  have onFilesToo : ∀ c ∈ readingCalls, c.onFiles = true := by simp [readingCalls, Syscall.onFiles]
  obtain ⟨-, -, -, -, -, -, twin, -, same, -⟩ :=
    run.noninterference runs runsToo (by decide) onFiles onFilesToo separate interleaves
  refine ⟨kernel, twin, run, separate, interleaves, same, ?_⟩
  have image := same.names "b"
  rw [named, namedToo] at image
  exact (Option.some.inj image).symm

end Kernel

end KernelConformance
