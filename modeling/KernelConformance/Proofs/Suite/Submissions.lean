import KernelConformance.Proofs.Suite.SpawnerCalls

/-! One job that is issued, on any system and by a spawner in any state. Every start that is refused
costs the oldest child, so that the queue is what bounds the calls; and which starts were refused
says what is left of it in the end.
-/

namespace KernelConformance

namespace Spawner

-----------------------------------------------------------------------------------------
-- What an issue can come to
-----------------------------------------------------------------------------------------

/-- A start of a job that is refused. -/
def refusal (job : Job) (error : Errno) : Exchange := ⟨.exec job.program job.argv, .error error⟩

/-- A join of a child that has exited with its signature. -/
def signing (child : Child) : Exchange := ⟨.join child.pid, .ok (.exited child.signature)⟩

/-- The starts of a job that were refused, each with the join of the child that has
made room then.
-/
def relief (job : Job) (retired : List (Errno × Child)) : List Exchange :=
  retired.flatMap fun (error, child) => [refusal job error, signing child]

/-- What a spawner is after some refusals, each of which has cost it a child, with the children that
are left.
-/
def relieved (retired : List (Errno × Child)) (younger : List Child) (spawner : Spawner)
    : Spawner :=
  { spawner with
    outstanding := younger
    report := { spawner.report with
      retired := spawner.report.retired + retired.length
      refusals := spawner.report.refusals + retired.length
      retirementOrder :=
        spawner.report.retirementOrder ++ retired.map fun entry => entry.2.order } }

/-- How a job is issued. Its start succeeds when some of the oldest children have been retired,
one for each that was refused, and the new child goes to the end of the queue; or it is refused
even when all have been retired; or a child that must make room fails its check, and has left
the queue too.
-/
inductive Submission (job : Job) (spawner : Spawner)
    : List Exchange → Except Violation Unit × Spawner → Prop where
  | admitted {retired : List (Errno × Child)} {younger : List Child}
    (queue : spawner.outstanding = retired.map Prod.snd ++ younger) (pid : Pid)
    : Submission job spawner (relief job retired ++ [⟨.exec job.program job.argv, .ok pid⟩])
        (.ok (),
          (spawner.relieved retired younger).noteSpawned.enqueue
            ⟨pid, job.signature, spawner.nextOrder⟩)
  | exhausted {retired : List (Errno × Child)} (queue : spawner.outstanding = retired.map Prod.snd)
    (error : Errno)
    : Submission job spawner (relief job retired ++ [refusal job error])
        (.error (.failure s!"cannot exec {job.program} with no children outstanding"),
          (spawner.relieved retired []).noteRefusal)
  | failed {retired : List (Errno × Child)} {oldest : Child} {younger : List Child}
    {violation : Violation}
    (queue : spawner.outstanding = retired.map Prod.snd ++ oldest :: younger) (error : Errno)
    (reply : Except Errno ExitStatus) (judged : oldest.judge reply = .error violation)
    : Submission job spawner
        (relief job retired ++ [refusal job error, ⟨.join oldest.pid, reply⟩])
        (.error violation, (spawner.relieved retired younger).noteRefusal)

variable {job : Job} {spawner : Spawner} {oldest : Child} {queue younger : List Child}
  {retired : List (Errno × Child)} {exchanges : List Exchange}
  {outcome : Except Violation Unit × Spawner}

/-- A spawner whose oldest child has made room after a refusal. -/
def afterRefusal (oldest : Child) (younger : List Child) (spawner : Spawner) : Spawner :=
  noteRetired oldest { spawner.noteRefusal with outstanding := younger }

theorem relieved_nil (same : spawner.outstanding = queue)
    : spawner.relieved [] queue = spawner := by
  subst same
  simp [relieved]

theorem relieved_afterRefusal (error : Errno) (left : List Child)
    : (spawner.afterRefusal oldest younger).relieved retired left
      = spawner.relieved ((error, oldest) :: retired) left := by
  simp [relieved, afterRefusal, noteRetired, noteRefusal, Nat.add_assoc, Nat.add_comm 1]

/-- A child that makes room is one more of those that were retired before the job was issued. -/
theorem Submission.cons
    (submission : Submission job (spawner.afterRefusal oldest younger) exchanges outcome)
    (front : spawner.outstanding = oldest :: younger) (error : Errno)
    : Submission job spawner (refusal job error :: signing oldest :: exchanges) outcome := by
  cases submission with
  | @admitted retired left queue pid =>
      have same : spawner.outstanding = ((error, oldest) :: retired).map Prod.snd ++ left :=
        front.trans (congrArg (oldest :: ·) queue)
      rw [relieved_afterRefusal error]
      exact .admitted same pid
  | @exhausted retired queue last =>
      have same : spawner.outstanding = ((error, oldest) :: retired).map Prod.snd :=
        front.trans (congrArg (oldest :: ·) queue)
      rw [relieved_afterRefusal error]
      exact .exhausted same last
  | @failed retired next left violation queue last reply judged =>
      have same : spawner.outstanding = ((error, oldest) :: retired).map Prod.snd ++ next :: left :=
        front.trans (congrArg (oldest :: ·) queue)
      rw [relieved_afterRefusal error]
      exact .failed same last reply judged

-----------------------------------------------------------------------------------------
-- An issue, call by call
-----------------------------------------------------------------------------------------

/-- A job that is started at once costs no child. -/
theorem submission_start (job : Job) (spawner : Spawner) (pid : Pid)
    : Submission job spawner [⟨.exec job.program job.argv, .ok pid⟩]
        (.ok (), spawner.noteSpawned.enqueue ⟨pid, job.signature, spawner.nextOrder⟩) := by
  have first := @Submission.admitted job spawner [] spawner.outstanding rfl pid
  rwa [relieved_nil rfl] at first

theorem reaches_tryStart {last : Option Child × Spawner}
    (reached : (tryStart job spawner).Reaches exchanges (.done last))
    : (∃ pid,
        exchanges = [⟨.exec job.program job.argv, .ok pid⟩]
        ∧ last = (some ⟨pid, job.signature, spawner.nextOrder⟩, spawner.noteSpawned))
      ∨ ∃ error, exchanges = [refusal job error] ∧ last = (none, spawner.noteRefusal) := by
  cases reached with
  | call reply onward =>
      cases reply with
      | ok pid =>
          cases onward
          exact .inl ⟨pid, rfl, rfl⟩
      | error error =>
          cases onward
          exact .inr ⟨error, rfl, rfl⟩

theorem reaches_retire {child : Child} {last : Except Violation Unit × Spawner}
    (reached : (retire child spawner).Reaches exchanges (.done last))
    : exchanges = [signing child] ∧ last = (.ok (), spawner.noteRetired child)
      ∨ ∃ reply violation,
          exchanges = [⟨.join child.pid, reply⟩]
          ∧ child.judge reply = .error violation
          ∧ last = (.error violation, spawner) := by
  obtain ⟨reply, before, after, rfl, made, judges⟩ := Prog.Reaches.of_bind_done reached
  cases made with
  | call reply onward =>
      cases onward
      rcases judge_cases child reply with ⟨judged, rfl⟩ | ⟨⟨message, judged⟩, -⟩
      · rw [judged] at judges
        cases judges
        exact .inl ⟨rfl, rfl⟩
      · rw [judged] at judges
        cases judges
        exact .inr ⟨reply, _, rfl, judged, rfl⟩

/-- An issue that has come to an end has made the calls of a submission, by
induction on the queue.
-/
theorem submission_of_reaches (same : spawner.outstanding = queue)
    (reached : (issueFrom job queue spawner).Reaches exchanges (.done outcome))
    : Submission job spawner exchanges outcome := by
  induction queue generalizing spawner exchanges with
  | nil =>
      rw [issueFrom] at reached
      obtain ⟨first, before, after, rfl, tried, goes⟩ := Prog.Reaches.of_bind_done reached
      rcases reaches_tryStart tried with ⟨pid, rfl, rfl⟩ | ⟨error, rfl, rfl⟩
      · cases goes
        exact submission_start job spawner pid
      · cases goes
        have last := @Submission.exhausted job spawner [] same error
        rwa [relieved_nil same] at last
  | cons oldest younger ih =>
      rw [issueFrom] at reached
      obtain ⟨first, before, after, rfl, tried, goes⟩ := Prog.Reaches.of_bind_done reached
      rcases reaches_tryStart tried with ⟨pid, rfl, rfl⟩ | ⟨error, rfl, rfl⟩
      · cases goes
        exact submission_start job spawner pid
      · obtain ⟨joined, middle, later, rfl, joins, onward⟩ := Prog.Reaches.of_bind_done goes
        rcases reaches_retire joins with ⟨rfl, rfl⟩ | ⟨reply, violation, rfl, judged, rfl⟩
        · exact (ih rfl onward).cons same error
        · cases onward
          have last :=
            @Submission.failed job spawner [] oldest younger violation same error reply judged
          simpa [relieved, noteRefusal, relief] using last

theorem tryStart_admitted (job : Job) (spawner : Spawner) (pid : Pid)
    : (tryStart job spawner).Reaches [⟨.exec job.program job.argv, .ok pid⟩]
        (.done (some ⟨pid, job.signature, spawner.nextOrder⟩, spawner.noteSpawned)) :=
  .call _ .refl

theorem tryStart_refused (job : Job) (spawner : Spawner) (error : Errno)
    : (tryStart job spawner).Reaches [refusal job error] (.done (none, spawner.noteRefusal)) :=
  .call _ .refl

theorem retire_reaches (child : Child) (spawner : Spawner) (reply : Except Errno ExitStatus)
    : (retire child spawner).Reaches [⟨.join child.pid, reply⟩]
        (match child.judge reply with
        | .ok () => .done (.ok (), spawner.noteRetired child)
        | .error violation => .done (.error violation, spawner)) :=
  .call _ .refl

/-- As many refusals as children are retired lead on to the children that are left, by induction on
those that are retired.
-/
theorem reaches_relief (job : Job) (younger : List Child) {retired : List (Errno × Child)}
    {spawner : Spawner} (same : spawner.outstanding = retired.map Prod.snd ++ younger)
    : (issueFrom job (retired.map Prod.snd ++ younger) spawner).Reaches (relief job retired)
        (issueFrom job younger (spawner.relieved retired younger)) := by
  induction retired generalizing spawner with
  | nil =>
      rw [relieved_nil (show spawner.outstanding = younger from same)]
      exact .refl
  | cons entry retired ih =>
      obtain ⟨error, oldest⟩ := entry
      have onward := @ih (spawner.afterRefusal oldest (retired.map Prod.snd ++ younger)) rfl
      rw [relieved_afterRefusal error] at onward
      have signs := retire_reaches oldest
        { spawner.noteRefusal with outstanding := retired.map Prod.snd ++ younger }
        (.ok (.exited oldest.signature))
      rw [show oldest.judge (.ok (.exited oldest.signature)) = .ok () from if_pos rfl] at signs
      rw [List.map_cons, List.cons_append, issueFrom]
      refine ((tryStart_refused job spawner error).bind _).trans ?_
      exact (signs.bind _).trans onward

/-- Every submission is one that an issue can come to, by cases on it. -/
theorem Submission.reaches (submission : Submission job spawner exchanges outcome)
    : (issue job spawner).Reaches exchanges (.done outcome) := by
  cases submission with
  | @admitted retired younger queue pid =>
      rw [issue, queue]
      refine (reaches_relief job younger queue).trans ?_
      unfold issueFrom
      exact (tryStart_admitted job _ pid).bind _
  | @exhausted retired queue error =>
      have whole : spawner.outstanding = retired.map Prod.snd ++ [] :=
        queue.trans (List.append_nil _).symm
      rw [issue, whole]
      refine (reaches_relief job [] whole).trans ?_
      rw [issueFrom]
      exact (tryStart_refused job _ error).bind _
  | @failed retired oldest younger violation queue error reply judged =>
      rw [issue, queue]
      refine (reaches_relief job (oldest :: younger) queue).trans ?_
      rw [issueFrom]
      refine ((tryStart_refused job _ error).bind _).trans ?_
      have joins := retire_reaches oldest
        { (spawner.relieved retired (oldest :: younger)).noteRefusal with outstanding := younger }
          reply
      rw [judged] at joins
      exact joins.bind _

/-- An issue comes to its end by a submission, and by each of them. -/
theorem reaches_issue_iff
    : (issue job spawner).Reaches exchanges (.done outcome)
      ↔ Submission job spawner exchanges outcome :=
  ⟨submission_of_reaches rfl, Submission.reaches⟩

-----------------------------------------------------------------------------------------
-- How many calls an issue makes
-----------------------------------------------------------------------------------------

/-- How often a system was asked to start or to join a process. -/
def asked (kind : SyscallKind) (exchanges : List Exchange) : Nat :=
  exchanges.countP fun exchange => exchange.call.kind = kind

theorem asked_append (kind : SyscallKind) (first second : List Exchange)
    : asked kind (first ++ second) = asked kind first + asked kind second :=
  List.countP_append

/-- Each child that is retired costs a refusal and a join, by induction on those that are. -/
theorem asked_relief (job : Job) (retired : List (Errno × Child))
    : asked .exec (relief job retired) = retired.length
      ∧ asked .join (relief job retired) = retired.length := by
  induction retired with
  | nil => exact ⟨rfl, rfl⟩
  | cons entry retired ih =>
      have front : relief job (entry :: retired)
        = [refusal job entry.1, signing entry.2] ++ relief job retired :=
        rfl
      rw [front, asked_append, asked_append, ih.1, ih.2]
      exact ⟨Nat.add_comm .., Nat.add_comm ..⟩

/-- A submission asks for one start more than there are children, at most, and for one join
of each child.
-/
theorem Submission.asked_le (submission : Submission job spawner exchanges outcome)
    : asked .exec exchanges ≤ spawner.outstanding.length + 1
      ∧ asked .join exchanges ≤ spawner.outstanding.length := by
  cases submission with
  | @admitted retired younger queue pid =>
      rw [asked_append, asked_append, (asked_relief job retired).1, (asked_relief job retired).2,
        queue]
      simp [asked, Syscall.kind]
  | @exhausted retired queue error =>
      rw [asked_append, asked_append, (asked_relief job retired).1, (asked_relief job retired).2,
        queue]
      simp [asked, Syscall.kind, refusal]
  | @failed retired oldest younger violation queue error reply judged =>
      rw [asked_append, asked_append, (asked_relief job retired).1, (asked_relief job retired).2,
        queue]
      simp [asked, Syscall.kind, refusal]

/-- The calls of an issue: starts of the job, and joins of children in the queue. -/
def Concerns (job : Job) (queue : List Child) (call : Syscall) : Prop :=
  call = .exec job.program job.argv ∨ ∃ child ∈ queue, call = .join child.pid

theorem concerns_relief {exchange : Exchange} (member : exchange ∈ relief job retired)
    : Concerns job (retired.map Prod.snd) exchange.call := by
  obtain ⟨⟨error, child⟩, among, here⟩ := List.mem_flatMap.mp member
  simp only [List.mem_cons, List.not_mem_nil, or_false] at here
  rcases here with rfl | rfl
  · exact .inl rfl
  · exact .inr ⟨child, List.mem_map_of_mem among, rfl⟩

theorem Concerns.of_front {call : Syscall} {front : List Child} (concerns : Concerns job front call)
    (rest : List Child)
    : Concerns job (front ++ rest) call :=
  concerns.imp_right fun ⟨child, member, same⟩ => ⟨child, List.mem_append_left rest member, same⟩

/-- A submission makes no other calls, by cases on how it ends. -/
theorem Submission.concerns (submission : Submission job spawner exchanges outcome)
    {exchange : Exchange} (member : exchange ∈ exchanges)
    : Concerns job spawner.outstanding exchange.call := by
  cases submission with
  | @admitted retired younger queue pid =>
      rw [queue]
      rcases List.mem_append.mp member with earlier | last
      · exact (concerns_relief earlier).of_front younger
      · rw [List.mem_singleton.mp last]
        exact .inl rfl
  | @exhausted retired queue error =>
      rw [queue]
      rcases List.mem_append.mp member with earlier | last
      · exact concerns_relief earlier
      · rw [List.mem_singleton.mp last]
        exact .inl rfl
  | @failed retired oldest younger violation queue error reply judged =>
      rw [queue]
      rcases List.mem_append.mp member with earlier | last
      · exact (concerns_relief earlier).of_front _
      · simp only [List.mem_cons, List.not_mem_nil, or_false] at last
        rcases last with rfl | rfl
        · exact .inl rfl
        · exact .inr ⟨oldest, List.mem_append_right _ (List.mem_cons_self ..), rfl⟩

/-- On every system, and by a spawner in any state, an issue comes to an end. It asks for its job to
be started once more, at most, than there are children in the queue, for a join of each of these,
and for nothing else; and it ends by a submission: in a start after as many joins as were refused,
with none left to join, or at the first child that fails its check.
-/
theorem issue_settles (job : Job) (spawner : Spawner)
    : (∀ answer : List Exchange → (c : Syscall) → c.Reply,
        ∃ exchanges outcome,
          (issue job spawner).Reaches exchanges (.done outcome)
          ∧ Throughout (fun past exchange => exchange.reply = answer past exchange.call) exchanges)
      ∧ (∀ exchanges rest,
        (issue job spawner).Reaches exchanges rest
        → asked .exec exchanges ≤ spawner.outstanding.length + 1
          ∧ asked .join exchanges ≤ spawner.outstanding.length
          ∧ ∀ exchange ∈ exchanges, Concerns job spawner.outstanding exchange.call)
      ∧ ∀ exchanges outcome,
          (issue job spawner).Reaches exchanges (.done outcome)
          ↔ Submission job spawner exchanges outcome := by
  refine ⟨fun answer => Prog.exists_done answer _, fun exchanges rest reached => ?_,
    fun exchanges outcome => reaches_issue_iff⟩
  -- what was asked so far is part of what will have been asked in the end, whatever is replied from
  -- here on
  obtain ⟨more, outcome, ends, -⟩ := Prog.exists_done (fun _ _ => .error .unavailable) rest
  have submission := reaches_issue_iff.mp (reached.trans ends)
  obtain ⟨starts, joins⟩ := submission.asked_le
  rw [asked_append] at starts joins
  refine ⟨Nat.le_of_add_right_le starts, Nat.le_of_add_right_le joins, fun exchange member => ?_⟩
  exact submission.concerns (List.mem_append_left more member)

/-- A spawner with three children, the oldest of which has exited well and the second of
which has not.
-/
def crowded : Spawner :=
  ⟨[⟨.ofNat 1, 7, 0⟩, ⟨.ofNat 2, 8, 1⟩, ⟨.ofNat 3, 9, 2⟩], 3, ⟨3, 0, 0, 3, []⟩⟩

/-- What a job is refused by a full system, and the joins that it costs. -/
def crowdedExchanges : List Exchange :=
  [⟨.exec "child" ["child"], .error .unavailable⟩, ⟨.join (.ofNat 1), .ok (.exited 7)⟩,
    ⟨.exec "child" ["child"], .error .unavailable⟩, ⟨.join (.ofNat 2), .ok (.exited 0)⟩]

/-- An issue ends at the second child: it has left the queue, as the oldest one has, and the
youngest stays.
-/
theorem issue_settles_crowded
    : Submission (.of "child" 5) crowded crowdedExchanges
        (.error (.failure "wrong status: child 2 (spawn #1) exited with 0, expected 8"),
          ⟨[⟨.ofNat 3, 9, 2⟩], 3, ⟨3, 1, 2, 3, [0]⟩⟩)
      ∧ asked .exec crowdedExchanges ≤ 4
      ∧ asked .join crowdedExchanges ≤ 3 := by
  have reached
      : (issue (.of "child" 5) crowded).Reaches crowdedExchanges
          (.done (.error (.failure "wrong status: child 2 (spawn #1) exited with 0, expected 8"),
            ⟨[⟨.ofNat 3, 9, 2⟩], 3, ⟨3, 1, 2, 3, [0]⟩⟩)) := by
    refine Prog.reaches_of_replay ?_
    simp only [issue, crowded, issueFrom]
    rfl
  obtain ⟨-, bounds, ends⟩ := issue_settles (.of "child" 5) crowded
  obtain ⟨starts, joins, -⟩ := bounds _ _ reached
  exact ⟨(ends _ _).mp reached, starts, joins⟩

end Spawner

end KernelConformance
