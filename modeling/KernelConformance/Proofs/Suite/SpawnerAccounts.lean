import KernelConformance.Proofs.Suite.SpawnerLedgers

/-! The accounts of a spawner on any system, after any operations in any order, and what it comes to
when it runs some jobs: each was started once, and each child was joined once and has exited with
its signature.
-/

namespace KernelConformance

namespace Spawner

-----------------------------------------------------------------------------------------
-- Any operations, one after the other
-----------------------------------------------------------------------------------------

/-- What a spawner is after some operations, each of which may have failed, with the ledger
of all exchanges.
-/
inductive Lives : List Entry → Spawner → Prop where
  | empty : Lives [] empty
  | operate {ledger spawner operation exchanges outcome after} (lives : Lives ledger spawner)
      (run : (operation.run spawner).Reaches exchanges (.done (outcome, after)))
    : Lives (record operation ledger exchanges) after

variable {spawner after : Spawner} {job : Job} {operation : Operation} {ledger : List Entry}
  {past exchanges : List Exchange} {outcome : Except Violation Unit}

/-- What an operation comes to keeps the books. -/
theorem CameTo.books (came : CameTo operation ledger past (outcome, spawner))
    : Books (record operation ledger past) spawner := by
  cases outcome with
  | ok => exact came.1.books
  | error => exact came

theorem Books.operate (books : Books ledger spawner)
    (run : (operation.run spawner).Reaches exchanges (.done (outcome, after)))
    : CameTo operation ledger exchanges (outcome, after) :=
  (books.run operation).reaches run

/-- The books are kept by all operations, by induction on them. -/
theorem Lives.books (lives : Lives ledger spawner) : Books ledger spawner := by
  induction lives with
  | empty => exact books_empty
  | operate _ run ih => exact (ih.operate run).books

/-- The children that have signed are among those that were joined, in order. -/
theorem Books.retirements_sublist (books : Books ledger spawner)
    : (retirements ledger).Sublist ((enqueued ledger).take (joins ledger).length) := by
  have joined : (settled ledger).map Prod.snd = (enqueued ledger).take (joins ledger).length := by
    have length := List.length_take_of_le books.fits
    rw [settled, ← List.take_append_drop (joins ledger).length (enqueued ledger),
      zip_append_of_le _ (Nat.le_of_eq length.symm), List.map_snd_zip (Nat.le_of_eq length),
      List.take_append_drop]
  exact joined ▸ List.Sublist.map _ List.filter_sublist

/-- The accounts of a spawner, told from the ledger of its exchanges. -/
structure Accounts (ledger : List Entry) (spawner : Spawner) : Prop where
  spawned : spawner.report.spawned = (started (made ledger)).length
  refusals : spawner.report.refusals = refusals (made ledger)
  retired : spawner.report.retired = spawner.report.retirementOrder.length
  signed : spawner.report.retirementOrder.length = (settled ledger).countP hasSigned
  increasing
    : (spawner.report.retirementOrder ++ spawner.outstanding.map Child.order).Pairwise (· < ·)
  below
    : ∀ order ∈ spawner.report.retirementOrder ++ spawner.outstanding.map Child.order,
        order < spawner.report.spawned
  outstanding : spawner.outstanding = queue ledger
  peak : Peak ledger spawner.report.peakOutstanding
  joined : (joins ledger).map Joining.pid <+: (enqueued ledger).map Child.pid

/-- Kept books say what the accounts are. -/
theorem Books.accounts (books : Books ledger spawner) : Accounts ledger spawner := by
  have part
      : (spawner.report.retirementOrder ++ spawner.outstanding.map Child.order).Sublist
          ((enqueued ledger).map Child.order) := by
    have both := books.retirements_sublist.append (List.Sublist.refl (queue ledger))
    rw [queue, List.take_append_drop, ← queue, ← books.outstanding] at both
    have orders := both.map Child.order
    rw [List.map_append] at orders
    rwa [books.report]
  obtain ⟨increasing, below⟩ := orders_enqueued ledger
  exact {
    spawned := congrArg Report.spawned books.report
    refusals := congrArg Report.refusals books.report
    retired := by rw [books.report, List.length_map]
    signed := by rw [books.report, List.length_map, retirements, List.length_map,
      List.countP_eq_length_filter]
    increasing := increasing.sublist part
    below := fun order member => by
      rw [books.report]
      exact below order (part.subset member)
    outstanding := books.outstanding
    peak := books.peak
    joined := by
      rw [books.joined]
      exact (List.take_prefix _ _).map _
  }

-----------------------------------------------------------------------------------------
-- Some jobs, each issued once
-----------------------------------------------------------------------------------------

/-- The starts of some jobs. -/
def startsOf (jobs : List Job) (pids : List Pid) : List Start :=
  List.zipWith (fun job pid => ⟨job.program, job.argv, pid⟩) jobs pids

/-- The joins of the processes that run some jobs, all of which exit with their signatures. -/
def joinsOf (jobs : List Job) (pids : List Pid) : List Joining :=
  List.zipWith (fun job pid => ⟨pid, .ok (.exited job.signature)⟩) jobs pids

/-- Whether what was done so far is that some jobs were each issued once, and all
joins were right.
-/
structure Enrolled (jobs : List Job) (pids : List Pid) (ledger : List Entry) (spawner : Spawner)
    : Prop where
  books : Books ledger spawner
  faultless : Faultless ledger
  length : pids.length = jobs.length
  starts : (made ledger).filterMap Exchange.start? = startsOf jobs pids
  queued : enqueued ledger = children pids jobs

theorem enrolled_empty : Enrolled [] [] [] empty where
  books := books_empty
  faultless := nofun
  length := rfl
  starts := rfl
  queued := rfl

theorem made_record
    : made (record operation ledger exchanges) = made ledger ++ exchanges := by
  rw [made, record, List.map_append, List.map_map]
  exact congrArg (made ledger ++ ·) (List.map_id exchanges)

theorem started_eq (past : List Exchange)
    : started past = (past.filterMap Exchange.start?).map Start.pid := by
  rw [List.map_filterMap, started]
  refine congrArg (List.filterMap · past) (funext fun exchange => ?_)
  rcases exchange with ⟨_ | _, _ | _⟩ <;> rfl

/-- The children of an issue are those that it has started, by induction on its exchanges. -/
theorem enqueuedFrom_issue (order : Nat)
    : enqueuedFrom order (past.map (Entry.mk (.issue job)))
      = (started past).mapIdx fun index pid => ⟨pid, job.signature, order + index⟩ := by
  induction past generalizing order with
  | nil => rfl
  | cons first past ih =>
      rw [List.map_cons, enqueuedFrom, ih]
      cases starts : first.started? with
      | none => simp [started, starts, Entry.child?]
      | some pid =>
          simp [started, starts, Entry.child?, List.mapIdx_cons, Nat.add_right_comm, Nat.add_assoc]

/-- Joins put no child in the queue, by induction on the exchanges. -/
theorem enqueuedFrom_joinAll (order : Nat)
    : enqueuedFrom order (past.map (Entry.mk .joinAll)) = [] := by
  induction past generalizing order with
  | nil => rfl
  | cons first past ih =>
      rw [List.map_cons, enqueuedFrom, ih]
      cases starts : first.started? <;> simp [starts, Entry.child?]

theorem enqueued_record
    : enqueued (record operation ledger exchanges)
      = enqueued ledger
        ++ enqueuedFrom (started (made ledger)).length (exchanges.map (Entry.mk operation)) := by
  rw [enqueued, record, enqueuedFrom_append, Nat.zero_add]
  rfl

variable {jobs : List Job} {pids : List Pid}

/-- A job that is issued well is one more of those that were each issued once. -/
theorem Enrolled.issue (enrolled : Enrolled jobs pids ledger spawner)
    (run : (Spawner.issue job spawner).Reaches exchanges (.done (.ok (), after)))
    : ∃ pid,
        Enrolled (jobs ++ [job]) (pids ++ [pid]) (record (.issue job) ledger exchanges) after := by
  obtain ⟨going, pid, start⟩ := @Books.operate _ _ (.issue job) _ _ _ enrolled.books run
  have number : (started (made ledger)).length = pids.length := by
    rw [started_eq, enrolled.starts, startsOf, List.length_map, List.length_zipWith,
      enrolled.length, Nat.min_self]
  have next : (jobs ++ [job])[pids.length]? = some job := by
    rw [enrolled.length, List.getElem?_concat_length]
  refine ⟨pid, going.books, going.faultless enrolled.faultless, ?_, ?_, ?_⟩
  · rw [List.length_append, List.length_append, enrolled.length]
    rfl
  · rw [made_record, List.filterMap_append, enrolled.starts, start, startsOf, startsOf,
      List.zipWith_append enrolled.length.symm]
    rfl
  · rw [enqueued_record, enqueuedFrom_issue, number, started_eq exchanges, start, children_snoc
      next, enrolled.queued, children, children, zip_append_of_le _ (Nat.le_of_eq enrolled.length)]
    rfl

/-- All jobs that are issued well are each issued once, by induction on those that are left. -/
theorem Enrolled.issueAll {rest : List Job} (enrolled : Enrolled jobs pids ledger spawner)
    (run : (Spawner.issueAll rest spawner).Reaches exchanges (.done (.ok (), after)))
    : ∃ pids whole,
        made whole = made ledger ++ exchanges ∧ Enrolled (jobs ++ rest) pids whole after := by
  induction rest generalizing jobs pids ledger spawner exchanges with
  | nil =>
      cases run
      exact ⟨pids, ledger, (List.append_nil _).symm, (List.append_nil jobs).symm ▸ enrolled⟩
  | cons job rest ih =>
      obtain ⟨⟨outcome, middle⟩, before, later, rfl, first, second⟩ := Prog.Reaches.of_bind_done run
      rcases outcome with violation | ⟨⟨⟩⟩
      · cases second
      · obtain ⟨pid, issued⟩ := enrolled.issue first
        obtain ⟨pids, whole, exchanged, all⟩ := ih issued second
        refine ⟨pids, whole, ?_, ?_⟩
        · rw [exchanged, made_record, List.append_assoc]
        · rwa [List.append_assoc] at all

/-- All children that are joined well are those of the jobs that were issued. -/
theorem Enrolled.joinAll (enrolled : Enrolled jobs pids ledger spawner)
    (run : (Spawner.joinAll spawner).Reaches exchanges (.done (.ok (), after)))
    : Enrolled jobs pids (record .joinAll ledger exchanges) after ∧ after.outstanding = [] := by
  obtain ⟨going, nothing, emptied⟩ := @Books.operate _ _ .joinAll _ _ _ enrolled.books run
  refine ⟨⟨going.books, going.faultless enrolled.faultless, enrolled.length, ?_, ?_⟩, emptied⟩
  · rw [made_record, List.filterMap_append, nothing, List.append_nil, enrolled.starts]
  · rw [enqueued_record, enqueuedFrom_joinAll, List.append_nil, enrolled.queued]

/-- The children of some jobs are numbered in order. -/
theorem orders_children (length : pids.length = jobs.length)
    : (children pids jobs).map Child.order = List.range jobs.length := by
  refine List.ext_getElem ?_ fun index _ _ => ?_
  · rw [List.length_map, length_children (Nat.le_of_eq length), length, List.length_range]
  · simp [children]

/-- If all children were joined and have signed, then the joins are theirs. -/
theorem Books.joins_eq (books : Books ledger spawner) (faultless : Faultless ledger)
    (all : (joins ledger).length = (enqueued ledger).length)
    : joins ledger
      = (enqueued ledger).map fun child => ⟨child.pid, .ok (.exited child.signature)⟩ := by
  have firsts : (settled ledger).map Prod.fst = joins ledger := List.map_fst_zip (Nat.le_of_eq all)
  have seconds : (settled ledger).map Prod.snd = enqueued ledger :=
    List.map_snd_zip (Nat.le_of_eq all.symm)
  have pids := books.joined
  rw [all, List.take_length, ← firsts, ← seconds, List.map_map, List.map_map, List.map_inj_left]
    at pids
  rw [← firsts, ← seconds, List.map_map, List.map_inj_left]
  intro entry member
  obtain ⟨⟨pid, reply⟩, child⟩ := entry
  obtain rfl : pid = child.pid := pids _ member
  obtain rfl : reply = .ok (.exited child.signature) := hasSigned_iff.mp (faultless _ member)
  rfl

/-- Where jobs were each issued once and no child is left, each was joined once and has exited with
its signature.
-/
theorem Enrolled.finished (enrolled : Enrolled jobs pids ledger spawner)
    (emptied : spawner.outstanding = [])
    : joins ledger = joinsOf jobs pids
      ∧ spawner.report.spawned = jobs.length
      ∧ spawner.report.retired = jobs.length
      ∧ spawner.report.retirementOrder = List.range jobs.length := by
  obtain ⟨books, faultless, length, starts, queued⟩ := enrolled
  have all : (joins ledger).length = (enqueued ledger).length := by
    have none := books.outstanding.symm.trans emptied
    exact Nat.le_antisymm books.fits (List.drop_eq_nil_iff.mp none)
  have whole : retirements ledger = children pids jobs := by
    rw [retirements, List.filter_eq_self.mpr faultless, settled,
      List.map_snd_zip (Nat.le_of_eq all.symm), queued]
  have count : (children pids jobs).length = jobs.length :=
    (length_children (Nat.le_of_eq length)).trans length
  have accounts := books.accounts
  have spawned : (started (made ledger)).length = jobs.length := by
    rw [started_eq, starts, startsOf, List.length_map, List.length_zipWith, length, Nat.min_self]
  refine ⟨?_, accounts.spawned.trans spawned, ?_, ?_⟩
  · rw [books.joins_eq faultless all, queued]
    refine List.ext_getElem ?_ fun index _ _ => ?_
    · rw [List.length_map, count, joinsOf, List.length_zipWith, length, Nat.min_self]
    · simp [children, joinsOf]
  · rw [accounts.retired, books.report, whole, List.length_map, count]
  · rw [books.report, whole, orders_children length]

/-- A run of some jobs that comes to a report has issued all of them well, and then joined all
children well.
-/
theorem reaches_runJobs {report : Report}
    (reached : (runJobs jobs).run.Reaches exchanges (.done (.ok report)))
    : ∃ before later middle last,
        exchanges = before ++ later
        ∧ (issueAll jobs empty).Reaches before (.done (.ok (), middle))
        ∧ (joinAll middle).Reaches later (.done (.ok (), last))
        ∧ report = last.report := by
  obtain ⟨⟨result, middle⟩, before, rest, cut, issues, checks⟩ := Check.reaches_bind_ok reached
  obtain ⟨_, none, more, join, well, joins⟩ := Check.reaches_bind_ok checks
  obtain ⟨rfl, rfl⟩ := Check.reaches_ofResult well
  obtain ⟨⟨result, last⟩, later, ends, split, joinings, checks⟩ := Check.reaches_bind_ok joins
  obtain ⟨_, none, nothing, closed, well, returns⟩ := Check.reaches_bind_ok checks
  obtain ⟨rfl, rfl⟩ := Check.reaches_ofResult well
  cases returns
  exact ⟨before, later, middle, last, by simp [cut, join, split, closed], Check.reaches_lift issues,
    Check.reaches_lift joinings, rfl⟩

/-- The bookkeeping of a spawner on any system. After any operations in any order, some of which may
have failed, its report counts the starts, the refusals and the children that were joined and have
exited with their signatures; these and those in its queue are in the order of their numbers, below
the number of starts; its peak is the longest that its queue ever was; and its joins are of the
first children that it has put in the queue, each made for the oldest that is left. A run of some
jobs comes to a report only if each job was started once, in order, and each child was joined once,
in order, and has exited with its signature.
-/
theorem accounts_kept
    : (∀ ledger spawner,
        Lives ledger spawner
        → Accounts ledger spawner
          ∧ ∀ (operation : Operation) exchanges call next,
              (operation.run spawner).Reaches exchanges (.call call next)
              → Asks operation (record operation ledger exchanges) call)
      ∧ ∀ jobs exchanges report,
          (runJobs jobs).run.Reaches exchanges (.done (.ok report))
          → ∃ pids : List Pid,
              pids.length = jobs.length
              ∧ exchanges.filterMap Exchange.start? = startsOf jobs pids
              ∧ exchanges.filterMap Exchange.joining? = joinsOf jobs pids
              ∧ report.spawned = jobs.length
              ∧ report.retired = jobs.length
              ∧ report.retirementOrder = List.range jobs.length := by
  refine ⟨fun ledger spawner lives => ⟨lives.books.accounts, ?_⟩,
    fun jobs exchanges report reached => ?_⟩
  · intro operation exchanges call next reached
    exact ((lives.books.run operation).reaches reached).1
  · obtain ⟨before, later, middle, last, rfl, issued, joined, rfl⟩ := reaches_runJobs reached
    obtain ⟨pids, whole, exchanged, enrolled⟩ := enrolled_empty.issueAll issued
    obtain ⟨enrolled, emptied⟩ := enrolled.joinAll joined
    obtain ⟨joins, spawned, retired, orders⟩ := enrolled.finished emptied
    have all : made (record .joinAll whole later) = before ++ later := by
      rw [made_record, exchanged]
      rfl
    refine ⟨pids, enrolled.length, ?_, ?_, spawned, retired, orders⟩
    · rw [← all]
      exact enrolled.starts
    · rw [← all]
      exact joins

/-- A spawner goes on after failures: of three children one is the caller's to join, one has faulted
when it is joined, and one is retired; a start that is refused while no child is in the queue is one
more failure.
-/
theorem accounts_kept_failed
    : ∃ ledger spawner,
        Lives ledger spawner
        ∧ spawner.report = ⟨3, 1, 1, 1, [2]⟩
        ∧ Accounts ledger spawner := by
  let job (signature : Int32) : Job := .of "child" signature
  let start (signature : Int32) (reply : Except Errno Pid) : Exchange :=
    ⟨.exec (job signature).program (job signature).argv, reply⟩
  have first := @Lives.operate _ _ (.tryStart (job 0)) [start 0 (.ok (.ofNat 1))] (.ok ()) _ .empty
    (Prog.reaches_of_replay rfl)
  have second := @Lives.operate _ _ (.issue (job 0)) [start 0 (.ok (.ofNat 2))] (.ok ()) _ first
    (Prog.reaches_of_replay (by rw [Operation.run, issue, issueFrom]; rfl))
  have third :=
    @Lives.operate _ _ .joinOldest [⟨.join (.ofNat 2), .ok .faulted⟩] (.error _) _ second
    (Prog.reaches_of_replay rfl)
  have fourth :=
    @Lives.operate _ _ (.issue (job 5)) [start 5 (.error .unavailable)] (.error _) _ third
    (Prog.reaches_of_replay (by rw [Operation.run, issue, issueFrom]; rfl))
  have fifth := @Lives.operate _ _ (.issue (job 5)) [start 5 (.ok (.ofNat 1))] (.ok ()) _ fourth
    (Prog.reaches_of_replay (by rw [Operation.run, issue, issueFrom]; rfl))
  have last := @Lives.operate _ _ .joinAll [⟨.join (.ofNat 1), .ok (.exited 5)⟩] (.ok ()) _ fifth
    (Prog.reaches_of_replay rfl)
  exact ⟨_, _, last, rfl, (accounts_kept.1 _ _ last).1⟩

end Spawner

end KernelConformance
