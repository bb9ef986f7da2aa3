import KernelConformance.Proofs.Suite.SpawnerCalls
import Mathlib.Data.List.Induction

/-! The bookkeeping of a spawner on any system. Its operations can be made in any order, also after
some that have failed, and nothing is assumed of the replies; the ledger of the exchanges that were
made in their course says what the report must say.
-/

namespace KernelConformance

/-- A program with its arguments that was started, and the process that runs it. -/
structure Start where
  program : String
  argv : List String
  pid : Pid

/-- A join of a process, and the reply to it. -/
structure Joining where
  pid : Pid
  reply : Except Errno ExitStatus

namespace Exchange

/-- The start that an exchange is, unless it was refused. -/
def start? : Exchange → Option Start
  | ⟨.exec program argv, .ok pid⟩ => some ⟨program, argv, pid⟩
  | _ => none

/-- The join that an exchange is, whatever the reply. -/
def joining? : Exchange → Option Joining
  | ⟨.join pid, reply⟩ => some ⟨pid, reply⟩
  | _ => none

end Exchange

namespace Spawner

variable {spawner : Spawner} {job : Job} {child oldest : Child} {rest : List Child}

-----------------------------------------------------------------------------------------
-- Operations and ledgers
-----------------------------------------------------------------------------------------

/-- An operation on a spawner. -/
inductive Operation where
  | tryStart (job : Job)
  | issue (job : Job)
  | joinOldest
  | joinAll

namespace Operation

/-- The job that an operation starts. -/
def job? : Operation → Option Job
  | tryStart job => some job
  | issue job => some job
  | joinOldest => none
  | joinAll => none

/-- What an operation does, and whether it fails. A start that is refused to `tryStart`
is no failure.
-/
def run : Operation → Spawner → Prog (Except Violation Unit × Spawner)
  | tryStart job, spawner => do
      let (_, spawner) ← spawner.tryStart job
      pure (.ok (), spawner)
  | issue job, spawner => spawner.issue job
  | joinOldest, spawner => do
      let (result, spawner) ← spawner.joinOldest
      pure (result.map fun _ => (), spawner)
  | joinAll, spawner => spawner.joinAll

end Operation

/-- An exchange that was made in the course of an operation. -/
structure Entry where
  operation : Operation
  exchange : Exchange

/-- The child that an entry puts in the queue, with its number among all that were started. -/
def Entry.child? (order : Nat) (entry : Entry) : Option Child :=
  match entry.exchange.started?, entry.operation with
  | some pid, .issue job => some ⟨pid, job.signature, order⟩
  | _, _ => none

/-- The exchanges of a ledger. -/
def made (ledger : List Entry) : List Exchange := ledger.map Entry.exchange

/-- The children that were put in the queue in the course of a ledger that begins
after some starts.
-/
def enqueuedFrom : Nat → List Entry → List Child
  | _, [] => []
  | order, entry :: rest =>
      (entry.child? order).toList
        ++ enqueuedFrom (order + entry.exchange.started?.toList.length) rest

/-- The children that were ever put in the queue, the oldest first. -/
def enqueued (ledger : List Entry) : List Child := enqueuedFrom 0 ledger

/-- The joins of a ledger, the oldest first. -/
def joins (ledger : List Entry) : List Joining := (made ledger).filterMap Exchange.joining?

/-- The children in the queue: each join takes one from its front. -/
def queue (ledger : List Entry) : List Child := (enqueued ledger).drop (joins ledger).length

/-- The joins, each with the child that it has taken from the queue. -/
def settled (ledger : List Entry) : List (Joining × Child) := (joins ledger).zip (enqueued ledger)

/-- Whether a join says that a child has exited with its signature. -/
def hasSigned : Joining × Child → Bool
  | (⟨_, .ok status⟩, child) => status = .exited child.signature
  | (⟨_, .error _⟩, _) => false

theorem hasSigned_iff {joining : Joining}
    : hasSigned (joining, child) = true ↔ joining.reply = .ok (.exited child.signature) := by
  obtain ⟨pid, error | status⟩ := joining
  · exact iff_of_false nofun nofun
  · simp [hasSigned]

/-- The children that were joined and have exited with their signatures, in the
order of the joins.
-/
def retirements (ledger : List Entry) : List Child :=
  ((settled ledger).filter hasSigned).map Prod.snd

-----------------------------------------------------------------------------------------
-- One more entry
-----------------------------------------------------------------------------------------

variable {operation : Operation} {ledger more : List Entry} {entry : Entry}

/-- A ledger goes on with the number of the next child, by induction on what comes before. -/
theorem enqueuedFrom_append (order : Nat)
    : enqueuedFrom order (ledger ++ more)
      = enqueuedFrom order ledger
        ++ enqueuedFrom (order + (started (made ledger)).length) more := by
  induction ledger generalizing order with
  | nil => rfl
  | cons entry ledger ih =>
      have count
          : (started (made (entry :: ledger))).length
            = entry.exchange.started?.toList.length + (started (made ledger)).length := by
        cases starts : entry.exchange.started? <;> simp [started, made, starts, Nat.add_comm]
      rw [List.cons_append, enqueuedFrom, enqueuedFrom, ih, count, List.append_assoc, Nat.add_assoc]

@[simp] theorem made_snoc : made (ledger ++ [entry]) = made ledger ++ [entry.exchange] :=
  List.map_append

@[simp] theorem enqueued_snoc
    : enqueued (ledger ++ [entry])
      = enqueued ledger ++ (entry.child? (started (made ledger)).length).toList := by
  simp [enqueued, enqueuedFrom_append, enqueuedFrom]

@[simp] theorem joins_snoc
    : joins (ledger ++ [entry]) = joins ledger ++ entry.exchange.joining?.toList := by
  rw [joins, made_snoc, filterMap_snoc]
  rfl

theorem joins_idle (idle : entry.exchange.joining? = none)
    : joins (ledger ++ [entry]) = joins ledger := by
  rw [joins_snoc, idle, Option.toList_none, List.append_nil]

theorem enqueued_idle (idle : ∀ order, entry.child? order = none)
    : enqueued (ledger ++ [entry]) = enqueued ledger := by
  rw [enqueued_snoc, idle, Option.toList_none, List.append_nil]

/-- The number of a child is that of the starts before it. -/
theorem Entry.eq_of_child {order : Nat} (put : entry.child? order = some child)
    : child.order = order ∧ entry.exchange.started? = some child.pid := by
  unfold Entry.child? at put
  split at put
  · next starts _ =>
      cases put
      exact ⟨rfl, starts⟩
  · cases put

/-- The children are numbered in order, below the number of starts, by induction on the ledger. -/
theorem orders_enqueued (ledger : List Entry)
    : ((enqueued ledger).map Child.order).Pairwise (· < ·)
      ∧ ∀ order ∈ (enqueued ledger).map Child.order, order < (started (made ledger)).length := by
  induction ledger using List.reverseRecOn with
  | nil => exact ⟨.nil, nofun⟩
  | append_singleton ledger entry ih =>
      obtain ⟨increasing, below⟩ := ih
      rw [enqueued_snoc, made_snoc, started_snoc, List.length_append]
      cases put : entry.child? (started (made ledger)).length with
      | none =>
          rw [Option.toList_none, List.append_nil]
          exact ⟨increasing, fun order member => Nat.lt_add_right _ (below order member)⟩
      | some child =>
          obtain ⟨order, starts⟩ := Entry.eq_of_child put
          rw [starts]
          simp only [Option.toList_some, List.map_append, List.map_singleton, List.length_singleton,
            List.pairwise_append, List.mem_append, List.mem_singleton, order]
          refine ⟨⟨increasing, List.pairwise_singleton _ _, fun earlier member last same => ?_⟩,
            fun last member => ?_⟩
          · exact same ▸ below earlier member
          · rcases member with earlier | rfl
            · exact Nat.lt_succ_of_lt (below last earlier)
            · exact Nat.lt_succ_self _

/-- What is added to the longer list is beside nothing, by induction on the shorter one. -/
theorem zip_append_of_le {α β : Type} {list : List α} {others : List β} (more : List β)
    (enough : list.length ≤ others.length)
    : list.zip (others ++ more) = list.zip others := by
  induction list generalizing others with
  | nil => rfl
  | cons first list ih =>
      cases others with
      | nil => cases enough
      | cons other others => exact congrArg (_ :: ·) (ih (Nat.le_of_succ_le_succ enough))

/-- The oldest child in the queue is the first one that was not joined. -/
theorem queue_oldest (front : queue ledger = oldest :: rest)
    : (enqueued ledger)[(joins ledger).length]? = some oldest
      ∧ rest = (enqueued ledger).drop ((joins ledger).length + 1) := by
  refine ⟨?_, ?_⟩
  · rw [← List.head?_drop, ← queue, front]
    rfl
  · rw [← List.tail_drop, ← queue, front]
    rfl

/-- A join starts nothing. -/
theorem Entry.of_joining {joining : Joining} (joins : entry.exchange.joining? = some joining)
    : entry.exchange.started? = none
      ∧ entry.exchange.isRefusal = false
      ∧ ∀ order, entry.child? order = none := by
  obtain ⟨operation, exchange⟩ := entry
  have shape : exchange = ⟨.join joining.pid, joining.reply⟩ := by
    change exchange.joining? = some joining at joins
    unfold Exchange.joining? at joins
    split at joins <;> cases joins
    rfl
  subst shape
  exact ⟨rfl, rfl, fun _ => rfl⟩

theorem queue_join {joining : Joining} (front : queue ledger = oldest :: rest)
    (joins : entry.exchange.joining? = some joining)
    : queue (ledger ++ [entry]) = rest := by
  rw [queue, enqueued_idle (Entry.of_joining joins).2.2, joins_snoc, joins, List.length_append]
  exact (queue_oldest front).2.symm

theorem settled_join {joining : Joining} (front : queue ledger = oldest :: rest)
    (joins : entry.exchange.joining? = some joining)
    : settled (ledger ++ [entry]) = settled ledger ++ [(joining, oldest)] := by
  rw [settled, enqueued_idle (Entry.of_joining joins).2.2, joins_snoc, joins]
  exact zip_snoc (queue_oldest front).1 _

/-- An entry without a join adds at most a child to the queue. -/
theorem queue_idle (fits : (joins ledger).length ≤ (enqueued ledger).length)
    (idle : entry.exchange.joining? = none)
    : queue (ledger ++ [entry])
      = queue ledger ++ (entry.child? (started (made ledger)).length).toList := by
  rw [queue, enqueued_snoc, joins_idle idle, List.drop_append_of_le_length fits]
  rfl

theorem settled_idle (fits : (joins ledger).length ≤ (enqueued ledger).length)
    (idle : entry.exchange.joining? = none)
    : settled (ledger ++ [entry]) = settled ledger := by
  rw [settled, enqueued_snoc, joins_idle idle, zip_append_of_le _ fits]
  rfl

/-- The largest number of children that were in the queue at any time. -/
def Peak (ledger : List Entry) (most : Nat) : Prop :=
  (∃ earlier, earlier <+: ledger ∧ (queue earlier).length = most)
  ∧ ∀ earlier, earlier <+: ledger → (queue earlier).length ≤ most

theorem Peak.snoc {most : Nat} (peak : Peak ledger most)
    : Peak (ledger ++ [entry]) (max most (queue (ledger ++ [entry])).length) := by
  obtain ⟨⟨earlier, before, same⟩, bound⟩ := peak
  refine ⟨?_, fun earlier before => ?_⟩
  · rcases Nat.le_total (queue (ledger ++ [entry])).length most with less | more
    · rw [Nat.max_eq_left less]
      exact ⟨earlier, before.trans (List.prefix_append _ _), same⟩
    · rw [Nat.max_eq_right more]
      exact ⟨ledger ++ [entry], List.prefix_rfl, rfl⟩
  · rcases List.prefix_concat_iff.mp before with rfl | before
    · exact Nat.le_max_right _ _
    · exact Nat.le_trans (bound earlier before) (Nat.le_max_left _ _)

/-- An entry that puts no child in the queue makes no new peak. -/
theorem Peak.keep {most : Nat} (peak : Peak ledger most)
    (smaller : (queue (ledger ++ [entry])).length ≤ (queue ledger).length)
    : Peak (ledger ++ [entry]) most := by
  have bound := peak.2 ledger List.prefix_rfl
  have again := @Peak.snoc _ entry _ peak
  rwa [Nat.max_eq_left (Nat.le_trans smaller bound)] at again

-----------------------------------------------------------------------------------------
-- The books
-----------------------------------------------------------------------------------------

/-- What a spawner has on its books: its queue and its report are what the ledger says, and its
joins were of the first children that it has put in the queue.
-/
structure Books (ledger : List Entry) (spawner : Spawner) : Prop where
  outstanding : spawner.outstanding = queue ledger
  numbered : spawner.nextOrder = (started (made ledger)).length
  report
    : spawner.report
      = ⟨(started (made ledger)).length, (retirements ledger).length, refusals (made ledger),
          spawner.report.peakOutstanding, (retirements ledger).map Child.order⟩
  peak : Peak ledger spawner.report.peakOutstanding
  fits : (joins ledger).length ≤ (enqueued ledger).length
  joined
    : (joins ledger).map Joining.pid
      = ((enqueued ledger).take (joins ledger).length).map Child.pid

theorem books_empty : Books [] empty where
  outstanding := rfl
  numbered := rfl
  report := rfl
  peak := ⟨⟨[], List.prefix_rfl, rfl⟩, fun _ before => List.prefix_nil.mp before ▸ Nat.le_refl 0⟩
  fits := Nat.le_refl 0
  joined := rfl

/-- No more children are in the queue than there were at its peak. -/
theorem Books.within (books : Books ledger spawner)
    : spawner.outstanding.length ≤ spawner.report.peakOutstanding :=
  books.outstanding ▸ books.peak.2 ledger List.prefix_rfl

/-- An entry without a join adds at most a child to the queue, and is counted by what it is. -/
theorem Books.idle {after : Spawner} (books : Books ledger spawner)
    (idle : entry.exchange.joining? = none)
    (outstanding
      : after.outstanding = spawner.outstanding ++ (entry.child? spawner.nextOrder).toList)
    (numbered : after.nextOrder = spawner.nextOrder + entry.exchange.started?.toList.length)
    (report
      : after.report
        = ⟨spawner.report.spawned + entry.exchange.started?.toList.length, spawner.report.retired,
            spawner.report.refusals + entry.exchange.isRefusal.toNat,
            max spawner.report.peakOutstanding after.outstanding.length,
            spawner.report.retirementOrder⟩)
    : Books (ledger ++ [entry]) after := by
  have retired : retirements (ledger ++ [entry]) = retirements ledger := by
    rw [retirements, settled_idle books.fits idle]
    rfl
  have queued : after.outstanding = queue (ledger ++ [entry]) := by
    rw [queue_idle books.fits idle, outstanding, books.outstanding, books.numbered]
  refine ⟨queued, ?_, ?_, ?_, ?_, ?_⟩
  · rw [numbered, books.numbered, made_snoc, started_snoc, List.length_append]
  · rw [report, retired, books.report, made_snoc, started_snoc, List.length_append, refusals_snoc]
  · rw [report, queued]
    exact books.peak.snoc
  · rw [joins_idle idle, enqueued_snoc, List.length_append]
    exact Nat.le_add_right_of_le books.fits
  · rw [joins_idle idle, enqueued_snoc, List.take_append_of_le_length books.fits]
    exact books.joined

/-- A start is counted, and if it was issued the child is put at the end of the queue. -/
theorem Books.start (books : Books ledger spawner) (program : String) (argv : List String)
    (pid : Pid)
    : Books (ledger ++ [⟨.tryStart job, ⟨.exec program argv, .ok pid⟩⟩]) spawner.noteSpawned
      ∧ Books (ledger ++ [⟨.issue job, ⟨.exec program argv, .ok pid⟩⟩])
          (spawner.noteSpawned.enqueue ⟨pid, job.signature, spawner.nextOrder⟩) := by
  refine ⟨books.idle rfl (List.append_nil _).symm rfl ?_, books.idle rfl rfl rfl rfl⟩
  rw [noteSpawned, Nat.max_eq_left books.within]
  rfl

/-- A start that is refused is counted. -/
theorem Books.refuse (books : Books ledger spawner) (program : String) (argv : List String)
    (error : Errno)
    : Books (ledger ++ [⟨operation, ⟨.exec program argv, .error error⟩⟩]) spawner.noteRefusal := by
  refine books.idle rfl (List.append_nil _).symm rfl ?_
  rw [noteRefusal, Nat.max_eq_left books.within]
  rfl

/-- A join is of the first child that was not joined before. -/
theorem Books.joined_snoc (books : Books ledger spawner) {joining : Joining}
    (front : queue ledger = oldest :: rest) (joins : entry.exchange.joining? = some joining)
    (same : joining.pid = oldest.pid)
    : (Spawner.joins (ledger ++ [entry])).length ≤ (enqueued (ledger ++ [entry])).length
      ∧ (Spawner.joins (ledger ++ [entry])).map Joining.pid
        = ((enqueued (ledger ++ [entry])).take (Spawner.joins (ledger ++ [entry])).length).map
            Child.pid := by
  obtain ⟨found, -⟩ := queue_oldest front
  rw [joins_snoc, joins, enqueued_idle (Entry.of_joining joins).2.2, List.length_append,
    Option.toList_some, List.length_singleton]
  refine ⟨(List.getElem?_eq_some_iff.mp found).1, ?_⟩
  rw [List.take_add_one, found, List.map_append, List.map_append, books.joined, Option.toList_some,
    List.map_singleton, List.map_singleton, same]

/-- A join takes the oldest child from the queue, and retires it if the reply is its signature. -/
theorem Books.join (books : Books ledger spawner) {joining : Joining}
    (front : spawner.outstanding = oldest :: rest)
    (joins : entry.exchange.joining? = some joining) (same : joining.pid = oldest.pid)
    : Books (ledger ++ [entry])
        (if hasSigned (joining, oldest) then noteRetired oldest { spawner with outstanding := rest }
        else { spawner with outstanding := rest }) := by
  have front := books.outstanding.symm.trans front
  obtain ⟨idle, kept, -⟩ := Entry.of_joining joins
  obtain ⟨fits, joined⟩ := books.joined_snoc front joins same
  have queued := queue_join front joins
  have peak := books.peak.keep (by rw [queued, front]; exact Nat.le_succ _)
  have numbered : spawner.nextOrder = (started (made (ledger ++ [entry]))).length := by
    rw [made_snoc, started_snoc, idle, books.numbered, Option.toList_none, List.append_nil]
  have refused : refusals (made (ledger ++ [entry])) = refusals (made ledger) := by
    rw [made_snoc, refusals_snoc, kept]
    rfl
  have retired
      : retirements (ledger ++ [entry])
        = retirements ledger ++ if hasSigned (joining, oldest) then [oldest] else [] := by
    rw [retirements, settled_join front joins, List.filter_append, List.map_append]
    cases signed : hasSigned (joining, oldest) <;> simp [signed, retirements]
  split
  · next signed =>
      rw [if_pos signed] at retired
      refine ⟨queued.symm, numbered, ?_, peak, fits, joined⟩
      simp only [noteRetired]
      rw [retired, refused, ← numbered, books.numbered, books.report, List.length_append,
        List.map_append]
      rfl
  · next unsigned =>
      rw [if_neg unsigned, List.append_nil] at retired
      refine ⟨queued.symm, numbered, ?_, peak, fits, joined⟩
      rw [retired, refused, ← numbered, books.numbered]
      exact books.report

-----------------------------------------------------------------------------------------
-- What an operation does
-----------------------------------------------------------------------------------------

variable {past : List Exchange}

/-- A ledger with the exchanges of one more operation. -/
def record (operation : Operation) (ledger : List Entry) (past : List Exchange) : List Entry :=
  ledger ++ past.map (Entry.mk operation)

@[simp] theorem record_nil : record operation ledger [] = ledger := List.append_nil ledger

@[simp] theorem record_snoc {last : Exchange}
    : record operation ledger (past ++ [last])
      = record operation ledger past ++ [⟨operation, last⟩] := by
  simp [record]

/-- The calls of an operation: starts of its job, and joins of the oldest child in the queue. -/
def Asks (operation : Operation) (ledger : List Entry) : Syscall → Prop
  | .exec program argv =>
      ∃ job, operation.job? = some job ∧ program = job.program ∧ argv = job.argv
  | .join pid => ∃ oldest rest, queue ledger = oldest :: rest ∧ pid = oldest.pid
  | _ => False

/-- Whether all children that were joined have exited with their signatures. -/
def Faultless (ledger : List Entry) : Prop := ∀ entry ∈ settled ledger, hasSigned entry = true

/-- Where an operation is that has met with nothing wrong so far. -/
structure Going (operation : Operation) (ledger : List Entry) (past : List Exchange)
    (spawner : Spawner) : Prop where
  books : Books (record operation ledger past) spawner
  faultless : Faultless ledger → Faultless (record operation ledger past)

theorem going_nil (books : Books ledger spawner) : Going operation ledger [] spawner where
  books := by
    rw [record_nil]
    exact books
  faultless := by
    rw [record_nil]
    exact id

/-- Whether an operation has done what it is for: an issue has made one start, and a join of all
children has made none and has left no child.
-/
def Operation.Succeeds (past : List Exchange) (spawner : Spawner) : Operation → Prop
  | tryStart _ => True
  | issue job => ∃ pid, past.filterMap Exchange.start? = [⟨job.program, job.argv, pid⟩]
  | joinOldest => True
  | joinAll => past.filterMap Exchange.start? = [] ∧ spawner.outstanding = []

/-- What an operation comes to. Its books are in order even if it fails. -/
def CameTo (operation : Operation) (ledger : List Entry) (past : List Exchange)
    : Except Violation Unit × Spawner → Prop
  | (.ok (), spawner) => Going operation ledger past spawner ∧ operation.Succeeds past spawner
  | (.error _, spawner) => Books (record operation ledger past) spawner

/-- The books after the exchanges of an operation go on with an exchange that joins nothing. -/
theorem Going.idle {last : Exchange} {after : Spawner} (going : Going operation ledger past spawner)
    (books : Books (record operation ledger (past ++ [last])) after) (idle : last.joining? = none)
    : Going operation ledger (past ++ [last]) after := by
  refine ⟨books, fun before => ?_⟩
  have same := @settled_idle _ ⟨operation, last⟩ going.books.fits idle
  rw [Faultless, record_snoc, same]
  exact going.faultless before

/-- A join of the oldest child is asked for, and the operation goes on if the reply
is its signature.
-/
theorem Going.join (going : Going operation ledger past spawner)
    (front : spawner.outstanding = oldest :: rest)
    : Asks operation (record operation ledger past) (.join oldest.pid)
      ∧ Going operation ledger (past ++ [⟨.join oldest.pid, .ok (.exited oldest.signature)⟩])
          (noteRetired oldest { spawner with outstanding := rest })
      ∧ ∀ reply,
          reply ≠ .ok (.exited oldest.signature)
          → Books (record operation ledger (past ++ [⟨.join oldest.pid, reply⟩]))
              { spawner with outstanding := rest } := by
  have queued := going.books.outstanding.symm.trans front
  refine ⟨⟨oldest, rest, queued, rfl⟩, ⟨?_, fun before => ?_⟩, fun reply wrong => ?_⟩
  · rw [record_snoc]
    have books
      := @Books.join _ _ _ _ ⟨operation, ⟨.join oldest.pid, .ok (.exited oldest.signature)⟩⟩
          going.books _ front rfl rfl
    rwa [if_pos (hasSigned_iff.mpr rfl)] at books
  · rw [Faultless, record_snoc, settled_join queued rfl, List.forall_mem_append]
    refine ⟨going.faultless before, ?_⟩
    exact List.forall_mem_singleton.mpr (hasSigned_iff.mpr rfl)
  · rw [record_snoc]
    have books
      := @Books.join _ _ _ _ ⟨operation, ⟨.join oldest.pid, reply⟩⟩ going.books _ front rfl rfl
    rwa [if_neg (mt hasSigned_iff.mp wrong)] at books

/-- Whether a program makes the calls of an operation only, and comes only to what
it may come to.
-/
abbrev Keeps (operation : Operation) (ledger : List Entry) (past : List Exchange)
    (prog : Prog (Except Violation Unit × Spawner)) : Prop :=
  prog.Upholds (fun past => Asks operation (record operation ledger past)) (CameTo operation ledger)
    past

/-- The start of an issued job is asked for; the issue is over if it succeeds, and goes on
if it is refused.
-/
theorem Going.start (going : Going (.issue job) ledger past spawner)
    (nothing : past.filterMap Exchange.start? = [])
    : Asks (.issue job) (record (.issue job) ledger past) (.exec job.program job.argv)
      ∧ (∀ pid,
          CameTo (.issue job) ledger (past ++ [⟨.exec job.program job.argv, .ok pid⟩])
            (.ok (), spawner.noteSpawned.enqueue ⟨pid, job.signature, spawner.nextOrder⟩))
      ∧ ∀ error,
          Going (.issue job) ledger (past ++ [⟨.exec job.program job.argv, .error error⟩])
            spawner.noteRefusal := by
  refine ⟨⟨job, rfl, rfl, rfl⟩, fun pid => ⟨going.idle ?_ rfl, pid, ?_⟩,
    fun error => going.idle ?_ rfl⟩
  · rw [record_snoc]
    exact (going.books.start _ _ _).2
  · rw [filterMap_snoc, nothing]
    rfl
  · rw [record_snoc]
    exact going.books.refuse _ _ _

/-- Children are joined until there is room for a job, by induction on the children
that are left.
-/
theorem Going.issueFrom {queue : List Child} (going : Going (.issue job) ledger past spawner)
    (nothing : past.filterMap Exchange.start? = []) (same : spawner.outstanding = queue)
    : Keeps (.issue job) ledger past (Spawner.issueFrom job queue spawner) := by
  induction queue generalizing past spawner with
  | nil =>
      obtain ⟨asks, starts, refused⟩ := going.start nothing
      rw [Spawner.issueFrom]
      refine Prog.upholds_bind.mpr (upholds_tryStart asks starts fun error => ?_)
      exact (refused error).books
  | cons oldest rest ih =>
      obtain ⟨asks, starts, refused⟩ := going.start nothing
      rw [Spawner.issueFrom]
      refine Prog.upholds_bind.mpr (upholds_tryStart asks starts fun error => ?_)
      obtain ⟨asks, retired, wrong⟩ := (refused error).join same
      refine Prog.upholds_bind.mpr (upholds_retire asks ?_ fun reply message => wrong reply)
      refine ih retired ?_ rfl
      rw [filterMap_snoc, filterMap_snoc, nothing]
      rfl

/-- All children are joined unless one of them fails, by induction on those that are left. -/
theorem Going.joinFrom {queue : List Child} (going : Going .joinAll ledger past spawner)
    (nothing : past.filterMap Exchange.start? = []) (same : spawner.outstanding = queue)
    : Keeps .joinAll ledger past (Spawner.joinFrom queue spawner) := by
  induction queue generalizing past spawner with
  | nil => exact ⟨going, nothing, same⟩
  | cons oldest rest ih =>
      obtain ⟨asks, retired, wrong⟩ := going.join same
      rw [Spawner.joinFrom]
      refine Prog.upholds_bind.mpr (upholds_retire asks ?_ fun reply message => wrong reply)
      refine ih retired ?_ rfl
      rw [filterMap_snoc, nothing]
      rfl

/-- The oldest child is joined, if there is one. -/
theorem Books.joinOldest (books : Books ledger spawner)
    : Keeps .joinOldest ledger [] (Operation.joinOldest.run spawner) := by
  have going : Going .joinOldest ledger [] spawner := going_nil books
  refine Prog.upholds_bind.mpr ?_
  rw [Spawner.joinOldest]
  split
  · exact ⟨going, trivial⟩
  · next oldest rest front =>
      obtain ⟨asks, retired, wrong⟩ := going.join front
      refine Prog.upholds_bind.mpr (upholds_retire asks ?_ fun reply message => wrong reply)
      exact ⟨retired, trivial⟩

/-- Every operation keeps the books, whatever the replies are. -/
theorem Books.run (books : Books ledger spawner) (operation : Operation)
    : Keeps operation ledger [] (operation.run spawner) := by
  cases operation with
  | tryStart job =>
      have going : Going (.tryStart job) ledger [] spawner := going_nil books
      refine Prog.upholds_bind.mpr
        (upholds_tryStart ⟨job, rfl, rfl, rfl⟩ (fun pid => ?_) fun error => ?_)
      · refine ⟨going.idle ?_ rfl, trivial⟩
        exact (books.start job.program job.argv pid).1
      · refine ⟨going.idle ?_ rfl, trivial⟩
        exact books.refuse job.program job.argv error
  | issue job => exact (going_nil books).issueFrom rfl rfl
  | joinOldest => exact books.joinOldest
  | joinAll => exact (going_nil books).joinFrom rfl rfl

end Spawner

end KernelConformance
