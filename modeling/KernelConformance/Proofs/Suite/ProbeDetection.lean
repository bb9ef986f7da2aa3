import KernelConformance.Proofs.Programs.Followers
import KernelConformance.Proofs.Suite.ProbeCalls

/-! What a probe detects on any system. A descriptor that it is given in one round is looked at in
the next one; if the probe comes to a value, then each descriptor was a new one when it was given.
-/

namespace KernelConformance.Probe

open Randomness (Stream)

variable {probe : Probe} {past exchanges : List Exchange} {slots filled : Slots}
  {front fds : List Fd} {fd : Fd}

-----------------------------------------------------------------------------------------
-- The descriptors that are held
-----------------------------------------------------------------------------------------

/-- What is held after an exchange: a descriptor that is given is held until it is closed. -/
def hold (fds : List Fd) : Exchange → List Fd
  | ⟨.creat _, .ok fd⟩ => fds ++ [fd]
  | ⟨.openFile _, .ok fd⟩ => fds ++ [fd]
  | ⟨.close fd, _⟩ => fds.erase fd
  | _ => fds

/-- The descriptors that are held after some exchanges. -/
def holding (past : List Exchange) : List Fd := past.foldl hold []

@[simp] theorem holding_snoc {last : Exchange}
    : holding (past ++ [last]) = hold (holding past) last := by
  rw [holding, List.foldl_append]
  rfl

/-- Whether a call for a descriptor is given one that is not standard and not held. -/
def Granted (past : List Exchange) : Exchange → Prop
  | ⟨.creat _, reply⟩ => ∃ fd, reply = .ok fd ∧ 2 ≤ fd.index ∧ fd ∉ holding past
  | ⟨.openFile _, reply⟩ => ∃ fd, reply = .ok fd ∧ 2 ≤ fd.index ∧ fd ∉ holding past
  | _ => True

theorem two_le_index (own : fd.isStandard = false) : 2 ≤ fd.index := by
  by_contra small
  have standard : fd = .stdin ∨ fd = .stdout := by
    obtain ⟨_ | _ | _⟩ := fd
    · exact .inl rfl
    · exact .inr rfl
    · exact absurd (Nat.le_add_left 2 _) small
  rcases standard with rfl | rfl <;> cases own

/-- Whether the slots hold what was given, and each descriptor was a new one when it was given. -/
structure Sound (past : List Exchange) (fds : List Fd) : Prop where
  granted : Throughout Granted past
  holds : (holding past).Perm fds

theorem Sound.perm {other : List Fd} (sound : Sound past fds) (same : fds.Perm other)
    : Sound past other :=
  ⟨sound.granted, sound.holds.trans same⟩

/-- A line on the console gives no descriptor. -/
theorem Sound.print (sound : Sound past fds) (bytes : Utf8.Bytes)
    (reply : (Syscall.write .stdout bytes).Reply)
    : Sound (past ++ [⟨.write .stdout bytes, reply⟩]) fds :=
  ⟨throughout_snoc.mpr ⟨sound.granted, trivial⟩, by rw [holding_snoc]; exact sound.holds⟩

theorem Sound.close (sound : Sound past (front ++ fd :: fds)) (reply : (Syscall.close fd).Reply)
    : Sound (past ++ [⟨.close fd, reply⟩]) (front ++ fds) := by
  refine ⟨throughout_snoc.mpr ⟨sound.granted, trivial⟩, ?_⟩
  rw [holding_snoc]
  have erased := (sound.holds.trans List.perm_middle).erase fd
  rwa [List.erase_cons_head] at erased

/-- A descriptor that is not held keeps what is held sound. -/
theorem Sound.openFile (sound : Sound past fds) (file : String) (own : fd.isStandard = false)
    (new : fd ∉ fds)
    : Sound (past ++ [⟨.openFile file, .ok fd⟩]) (fds ++ [fd]) := by
  refine ⟨throughout_snoc.mpr ⟨sound.granted, fd, rfl, two_le_index own, ?_⟩, ?_⟩
  · exact fun held => new (sound.holds.mem_iff.mp held)
  · rw [holding_snoc]
    exact sound.holds.append_right [fd]

-----------------------------------------------------------------------------------------
-- A turn of the slots
-----------------------------------------------------------------------------------------

/-- Slots that pass their check hold distinct descriptors that are not standard, by
induction on them.
-/
theorem of_checkSlots {round : Nat} (passed : checkSlots round front slots = .ok ())
    (distinct : front.Nodup)
    : ∃ fds,
        slots = fds.map some
        ∧ (front ++ fds).Nodup
        ∧ ∀ fd ∈ fds, fd.isStandard = false := by
  induction slots generalizing front with
  | nil => exact ⟨[], rfl, (List.append_nil front).symm ▸ distinct, nofun⟩
  | cons slot rest ih =>
      cases slot with
      | none => cases passed
      | some fd =>
          unfold checkSlots at passed
          split at passed
          · cases passed
          · next own =>
              split at passed
              · cases passed
              · next new =>
                  have more : (front ++ [fd]).Nodup := by
                    refine List.nodup_append.mpr ⟨distinct, List.pairwise_singleton _ _, ?_⟩
                    rintro other member _ single rfl
                    exact new (List.mem_singleton.mp single ▸ member)
                  obtain ⟨fds, rfl, distinct, all⟩ := ih passed more
                  refine ⟨fd :: fds, rfl, by simpa using distinct, ?_⟩
                  exact List.forall_mem_cons.mpr ⟨eq_false_of_ne_true own, all⟩

/-- Releasing slots closes what they held, by induction on the order. -/
theorem Sound.release {keepFirst : Bool} {order : List Nat} {left : Slots}
    (sound : Sound past (held slots))
    (reached : (Probe.release keepFirst order slots).Reaches exchanges (.done left))
    : Sound (past ++ exchanges) (held left) ∧ left.length = slots.length := by
  induction order generalizing slots past exchanges with
  | nil =>
      cases reached
      exact ⟨by rwa [List.append_nil], rfl⟩
  | cons slot rest ih =>
      unfold Probe.release at reached
      split at reached
      · exact ih sound reached
      · split at reached
        · exact ih sound reached
        · next fd full =>
            obtain ⟨front, back, before, after⟩ := held_of_full full
            cases reached with
            | call reply onward =>
                rw [before] at sound
                have closed := sound.close reply
                rw [← after] at closed
                obtain ⟨sound, length⟩ := ih closed onward
                exact ⟨by simpa using sound, by rw [length, List.length_set]⟩

/-- One more slot is refilled: it keeps what it holds, or is given the reply to a call. -/
theorem reaches_refill_cons {file : String} {slot : Option Fd}
    (reached : (refill file (slot :: slots)).Reaches exchanges (.done filled))
    : ∃ rest,
        (∃ fd,
          slot = some fd
          ∧ filled = some fd :: rest
          ∧ (refill file slots).Reaches exchanges (.done rest))
        ∨ ∃ reply more,
            slot = none
            ∧ exchanges = ⟨.openFile file, reply⟩ :: more
            ∧ filled = reply.toOption :: rest
            ∧ (refill file slots).Reaches more (.done rest) := by
  cases slot with
  | some fd =>
      obtain ⟨rest, before, after, rfl, first, second⟩ := Prog.Reaches.of_bind_done reached
      cases second
      exact ⟨rest, .inl ⟨fd, rfl, rfl, by rwa [List.append_nil]⟩⟩
  | none =>
      obtain ⟨reply, before, after, rfl, asked, onward⟩ := Prog.Reaches.of_bind_done reached
      cases asked with
      | call reply nothing =>
          cases nothing
          obtain ⟨rest, before, after, rfl, first, second⟩ := Prog.Reaches.of_bind_done onward
          cases second
          exact ⟨rest, .inr ⟨reply, before, rfl, by simp, rfl, first⟩⟩

/-- Refilled slots hold what they held before, by induction on them. -/
theorem held_refill {file : String}
    (reached : (refill file slots).Reaches exchanges (.done filled))
    : (held slots).Sublist (held filled) ∧ filled.length = slots.length := by
  induction slots generalizing filled exchanges with
  | nil =>
      cases reached
      exact ⟨.refl _, rfl⟩
  | cons slot slots ih =>
      obtain ⟨rest, ⟨fd, rfl, rfl, onward⟩ | ⟨reply, more, rfl, rfl, rfl, onward⟩⟩ :=
        reaches_refill_cons reached
      · obtain ⟨held, length⟩ := ih onward
        exact ⟨held.cons_cons fd, congrArg (· + 1) length⟩
      · obtain ⟨part, length⟩ := ih onward
        refine ⟨?_, congrArg (· + 1) length⟩
        have later : (held rest).Sublist (held (reply.toOption :: rest)) :=
          (List.sublist_cons_self _ rest).filterMap id
        exact part.trans later

/-- If refilled slots all hold descriptors that are distinct and not standard, then each descriptor
was a new one when it was given, by induction on the slots.
-/
theorem Sound.refill {file : String} (sound : Sound past (front ++ held slots))
    (reached : (Probe.refill file slots).Reaches exchanges (.done (fds.map some)))
    (distinct : (front ++ fds).Nodup) (own : ∀ fd ∈ fds, fd.isStandard = false)
    : Sound (past ++ exchanges) (front ++ fds) := by
  induction slots generalizing front fds past exchanges with
  | nil =>
      cases fds with
      | nil =>
          cases reached
          rwa [List.append_nil past]
      | cons fd fds => cases reached
  | cons slot slots ih =>
      obtain ⟨rest, ⟨fd, rfl, full, onward⟩ | ⟨reply, more, rfl, rfl, full, onward⟩⟩ :=
        reaches_refill_cons reached
      · cases fds with
        | nil => cases full
        | cons first fds =>
            obtain ⟨same, rfl⟩ := List.cons_eq_cons.mp full
            obtain rfl := Option.some.inj same
            rw [List.append_cons] at distinct ⊢
            refine ih ?_ onward distinct (List.forall_mem_cons.mp own).2
            rwa [List.append_assoc]
      · cases fds with
        | nil => cases full
        | cons first fds =>
            obtain ⟨given, rfl⟩ := List.cons_eq_cons.mp full
            obtain ⟨error⟩ | ⟨fd⟩ := reply
            · cases given
            obtain rfl : first = fd := Option.some.inj given
            obtain ⟨mine, own⟩ := List.forall_mem_cons.mp own
            rw [List.append_cons] at distinct
            have kept : (held slots).Sublist fds := by
              simpa using (held_refill onward).1
            have new : first ∉ front ++ held slots := by
              obtain ⟨earlier, -, apart⟩ := List.nodup_append.mp distinct
              intro member
              rcases List.mem_append.mp member with before | after
              · exact (List.nodup_append.mp earlier).2.2 first before first (.head _) rfl
              · exact apart first (by simp) first (kept.subset after) rfl
            have order
                : (front ++ held slots ++ [first]).Perm (front ++ [first] ++ held slots) := by
              rw [List.append_assoc, List.append_assoc]
              exact List.perm_append_comm.append_left front
            have opened := (sound.openFile file mine new).perm order
            rw [List.append_cons past, List.append_cons front]
            exact ih opened onward distinct own

-----------------------------------------------------------------------------------------
-- All rounds
-----------------------------------------------------------------------------------------

/-- What is not known of the slots before they are checked: if they hold distinct descriptors that
are not standard, then each of these was a new one when it was given.
-/
def Awaits (past : List Exchange) (slots : Slots) : Prop :=
  ∀ fds, slots = fds.map some → fds.Nodup → (∀ fd ∈ fds, fd.isStandard = false) → Sound past fds

/-- What is known of the slots after they were checked. -/
structure Checked (past : List Exchange) (fds : List Fd) : Prop extends Sound past fds where
  distinct : fds.Nodup
  own : ∀ fd ∈ fds, fd.isStandard = false

theorem Checked.print (checked : Checked past fds) (bytes : Utf8.Bytes)
    (reply : (Syscall.write .stdout bytes).Reply)
    : Checked (past ++ [⟨.write .stdout bytes, reply⟩]) fds :=
  ⟨checked.toSound.print bytes reply, checked.distinct, checked.own⟩

/-- Between two rounds all slots and one more are filled again, and wait for the next check. -/
theorem Checked.turn {keepFirst : Bool} {order : List Nat} {file : String} {left : Slots}
    {more : List Exchange} (checked : Checked past fds)
    (released : (release keepFirst order (fds.map some)).Reaches exchanges (.done left))
    (refilled : (refill file (left ++ [none])).Reaches more (.done filled))
    : Awaits (past ++ exchanges ++ more) filled ∧ filled.length = fds.length + 1 := by
  have sound : Sound past (held (fds.map some)) := by
    rw [held_map_some]
    exact checked.toSound
  obtain ⟨sound, length⟩ := sound.release released
  refine ⟨?_, ?_⟩
  · rintro fds rfl distinct own
    have empty : held (left ++ [none]) = held left := by
      rw [held_append]
      exact List.append_nil _
    rw [← empty] at sound
    exact @Sound.refill _ _ _ [] fds file sound refilled distinct own
  · rw [(held_refill refilled).2, List.length_append, length, List.length_map]
    rfl

/-- The last round ends before anything is closed, and the others are followed by more rounds. -/
def onward (probe : Probe) (count : Nat) (order : List Nat) (slots : Slots) (stream : Stream)
    : Check (Slots × Stream) :=
  if count = 0 then pure (slots, stream)
  else do
    let slots ← ExceptT.lift (release (!probe.isAlone) order slots)
    let slots ← ExceptT.lift (refill probe.file (slots ++ [none]))
    rounds probe count slots stream

/-- The slots of a round are checked before anything else is done. -/
theorem reaches_rounds_succ {count : Nat} {stream last : Stream}
    (reached
      : (rounds probe (count + 1) slots stream).run.Reaches exchanges (.done (.ok (filled, last))))
    : checkSlots slots.length [] slots = .ok ()
      ∧ ∃ order rest,
          (onward probe count order slots rest).run.Reaches exchanges (.done (.ok (filled, last)))
          ∨ ∃ bytes reply more,
              exchanges = ⟨.write .stdout bytes, reply⟩ :: more
              ∧ (onward probe count order slots rest).run.Reaches more
                  (.done (.ok (filled, last))) := by
  unfold rounds at reached
  obtain ⟨_, before, rest, rfl, checks, prints⟩ := Check.reaches_bind_ok reached
  obtain ⟨rfl, passed⟩ := Check.reaches_ofResult checks
  refine ⟨passed, (Randomness.permutation slots.length stream).1,
    (Randomness.permutation slots.length stream).2, ?_⟩
  dsimp only at prints
  split at prints
  · obtain ⟨_, printed, more, rfl, line, goes⟩ := Check.reaches_bind_ok prints
    cases Check.reaches_lift line with
    | call reply nothing =>
        cases nothing
        exact .inr ⟨_, reply, more, rfl, goes⟩
  · exact .inl prints

/-- A round that is not the last one has a turn of the slots and goes on with the next round. -/
theorem reaches_onward_succ {count : Nat} {order : List Nat} {stream last : Stream}
    (reached
      : (onward probe (count + 1) order slots stream).run.Reaches exchanges
          (.done (.ok (filled, last))))
    : ∃ left next before middle after,
        exchanges = before ++ middle ++ after
        ∧ (release (!probe.isAlone) order slots).Reaches before (.done left)
        ∧ (refill probe.file (left ++ [none])).Reaches middle (.done next)
        ∧ (rounds probe (count + 1) next stream).run.Reaches after
            (.done (.ok (filled, last))) := by
  rw [onward, if_neg (Nat.succ_ne_zero count)] at reached
  obtain ⟨left, before, rest, rfl, released, refills⟩ := Check.reaches_bind_ok reached
  obtain ⟨next, middle, after, rfl, refilled, goes⟩ := Check.reaches_bind_ok refills
  exact ⟨left, next, before, middle, after, (List.append_assoc ..).symm,
    Check.reaches_lift released, Check.reaches_lift refilled, goes⟩

/-- Slots that are checked in a round hold what was each a new one when it was given. -/
theorem Awaits.checked {round : Nat} (awaits : Awaits past slots)
    (passed : checkSlots round [] slots = .ok ())
    : ∃ fds, slots = fds.map some ∧ Checked past fds := by
  obtain ⟨fds, rfl, distinct, own⟩ := of_checkSlots passed .nil
  exact ⟨fds, rfl, awaits fds rfl distinct own, distinct, own⟩

/-- The slots of the last round have passed their check, and each descriptor that was ever given was
a new one then, by induction on the rounds.
-/
theorem reaches_rounds {count : Nat} {stream last : Stream} (awaits : Awaits past slots)
    (reached
      : (rounds probe (count + 1) slots stream).run.Reaches exchanges (.done (.ok (filled, last))))
    : ∃ fds,
        filled = fds.map some
        ∧ fds.length = slots.length + count
        ∧ Checked (past ++ exchanges) fds := by
  induction count generalizing slots stream past exchanges with
  | zero =>
      obtain ⟨passed, order, rest, reached⟩ := reaches_rounds_succ reached
      obtain ⟨fds, rfl, checked⟩ := awaits.checked passed
      rcases reached with nothing | ⟨bytes, reply, more, rfl, nothing⟩
      · cases nothing
        exact ⟨fds, rfl, (List.length_map _).symm, (List.append_nil past).symm ▸ checked⟩
      · cases nothing
        exact ⟨fds, rfl, (List.length_map _).symm, checked.print bytes reply⟩
  | succ count ih =>
      obtain ⟨passed, order, rest, reached⟩ := reaches_rounds_succ reached
      obtain ⟨fds, rfl, checked⟩ := awaits.checked passed
      have next {past exchanges : List Exchange} (checked : Checked past fds)
          (goes
            : (onward probe (count + 1) order (fds.map some) rest).run.Reaches exchanges
                (.done (.ok (filled, last))))
          : ∃ all,
              filled = all.map some
              ∧ all.length = (fds.map some).length + (count + 1)
              ∧ Checked (past ++ exchanges) all := by
        obtain ⟨left, slots, before, middle, after, rfl, released, refilled, reached⟩ :=
          reaches_onward_succ goes
        obtain ⟨awaits, length⟩ := checked.turn released refilled
        obtain ⟨all, same, count, checked⟩ := ih awaits reached
        refine ⟨all, same, ?_, by simpa using checked⟩
        rw [count, length, List.length_map]
        omega
      rcases reached with goes | ⟨bytes, reply, more, rfl, goes⟩
      · exact next checked goes
      · rw [List.append_cons]
        exact next (checked.print bytes reply) goes

-----------------------------------------------------------------------------------------
-- The whole probe
-----------------------------------------------------------------------------------------

/-- What a probe that comes to a value has met with: it holds one descriptor less than its capacity,
all distinct and none standard; the making of its file and all openings in its rounds have each
given a new descriptor; and if it is alone, the openings before and after these have failed.
-/
structure Detected (probe : Probe) (exchanges : List Exchange) (fds : List Fd) : Prop where
  capacity : 2 ≤ probe.capacity
  length : fds.length = probe.capacity - 1
  distinct : fds.Nodup
  own : ∀ fd ∈ fds, 2 ≤ fd.index
  calls
    : ∃ before first during after,
        exchanges = before ++ ⟨.creat probe.file, .ok first⟩ :: during ++ after
        ∧ Throughout Granted (⟨.creat probe.file, .ok first⟩ :: during)
        ∧ (holding (⟨.creat probe.file, .ok first⟩ :: during)).Perm fds
        ∧ if probe.isAlone then
            (∃ error, before = [⟨.openFile probe.file, .error error⟩])
            ∧ ∃ error reply,
                after = [⟨.openFile probe.file, .error error⟩, ⟨.unlink probe.file, reply⟩]
          else before = [] ∧ after = []

/-- The first slot waits for its check. -/
theorem awaits_first (file : String) (first : Fd) (reply : (Syscall.close .stdin).Reply)
    : Awaits [⟨.creat file, .ok first⟩, ⟨.close .stdin, reply⟩] [some first] := by
  intro fds same distinct own
  obtain rfl : [first] = fds := (congrArg held same).trans (held_map_some fds)
  have mine : first.isStandard = false := own first (.head _)
  have other : first ≠ .stdin := by
    rintro rfl
    cases mine
  have kept : [first].erase .stdin = [first] :=
    List.erase_of_not_mem fun member => other (List.mem_singleton.mp member).symm
  have created : Throughout Granted [⟨.creat file, .ok first⟩] :=
    .cons ⟨first, rfl, two_le_index mine, nofun⟩ throughout_nil
  have both : Throughout Granted ([⟨.creat file, .ok first⟩] ++ [⟨.close .stdin, reply⟩]) :=
    throughout_snoc.mpr ⟨created, trivial⟩
  refine ⟨both, ?_⟩
  change ([first].erase .stdin).Perm [first]
  rw [kept]

/-- A probe that is alone has found no file, and one of several has not looked for it. -/
theorem reaches_checkAbsent
    (reached : (checkAbsent probe).run.Reaches exchanges (.done (.ok ())))
    : if probe.isAlone then ∃ error, exchanges = [⟨.openFile probe.file, .error error⟩]
      else exchanges = [] := by
  unfold checkAbsent at reached
  split at reached
  · next alone =>
      rw [if_pos alone]
      obtain ⟨reply, before, after, rfl, looked, judged⟩ := Check.reaches_bind_ok reached
      obtain ⟨rfl, absent⟩ := Check.reaches_require judged
      cases reply with
      | ok fd => cases absent
      | error error => exact ⟨error, by rw [Check.reaches_perform looked, List.append_nil]⟩
  · next shared =>
      rw [if_neg shared]
      cases reached
      rfl

/-- A probe that is alone has found no room for one more descriptor, and one of several has not
looked for it.
-/
theorem reaches_conclude {result : Slots × Stream} {value : List Fd × Stream}
    (reached : (conclude probe result).run.Reaches exchanges (.done (.ok value)))
    : value = (held result.1, result.2)
      ∧ if probe.isAlone then ∃ error, exchanges = [⟨.openFile probe.file, .error error⟩]
        else exchanges = [] := by
  unfold conclude at reached
  split at reached
  · next alone =>
      rw [if_pos alone]
      obtain ⟨reply, before, after, rfl, looked, judged⟩ := Check.reaches_bind_ok reached
      cases reply with
      | ok extra =>
          obtain ⟨_, closed, stopped, rfl, -, violated⟩ := Check.reaches_bind_ok judged
          cases violated
      | error error =>
          cases judged
          exact ⟨rfl, error, by rw [Check.reaches_perform looked, List.append_nil]⟩
  · next shared =>
      rw [if_neg shared]
      cases reached
      exact ⟨rfl, rfl⟩

/-- A probe that has come to a value in its rounds has been given new descriptors only. -/
theorem reaches_openRounds {stream : Stream} {value : List Fd × Stream}
    (capacity : 2 ≤ probe.capacity)
    (reached : (openRounds probe stream).run.Reaches exchanges (.done (.ok value)))
    : ∃ first during after,
        exchanges = ⟨.creat probe.file, .ok first⟩ :: during ++ after
        ∧ value.1.length = probe.capacity - 1
        ∧ Checked (⟨.creat probe.file, .ok first⟩ :: during) value.1
        ∧ if probe.isAlone then ∃ error, after = [⟨.openFile probe.file, .error error⟩]
          else after = [] := by
  obtain ⟨count, enough⟩ : ∃ count, probe.capacity - 1 = count + 1 := ⟨probe.capacity - 2, by omega⟩
  unfold openRounds at reached
  obtain ⟨first, creates, more, rfl, created, goes⟩ := Check.reaches_bind_ok reached
  obtain rfl := Check.reaches_demand created
  obtain ⟨_, closes, turns, rfl, closed, rest⟩ := Check.reaches_bind_ok goes
  cases Check.reaches_lift closed with
  | call reply nothing =>
      cases nothing
      obtain ⟨result, during, after, rfl, all, ends⟩ := Check.reaches_bind_ok rest
      rw [enough] at all
      obtain ⟨fds, filled, length, checked⟩ :=
        reaches_rounds (awaits_first probe.file first reply) all
      obtain ⟨rfl, absent⟩ := reaches_conclude ends
      refine ⟨first, ⟨.close .stdin, reply⟩ :: during, after, rfl, ?_, ?_, absent⟩
      · rw [filled, held_map_some, length, enough, List.length_singleton, Nat.add_comm]
      · rw [filled, held_map_some]
        exact checked

/-- All that stops a probe is a failure, or a lack of room for its slots. -/
def Stops (probe : Probe) (past : List Exchange) (stop : Check.Stop) : Prop :=
  Check.Failed past stop ∨ stop = .fault ∧ maxSlots < probe.capacity

theorem upholds_runAllRounds_stops (probe : Probe) (stream : Stream)
    : (runAllRounds probe stream).Upholds (fun _ _ => True) (fun _ _ => True) (Stops probe) [] := by
  rcases Nat.lt_or_ge maxSlots probe.capacity with large | fits
  · rw [runAllRounds_eq, if_pos large]
    refine Check.upholds_bind.mpr (Check.upholds_require_of ?_ (.inl (Check.failed _)))
    refine Check.upholds_bind.mpr ?_
    exact upholds_checkAbsent.mono (fun _ _ _ => trivial) (fun _ _ _ => .inr ⟨rfl, large⟩)
      fun _ _ => .inl
  · exact (upholds_runAllRounds fits stream).mono (fun _ _ _ => trivial) (fun _ _ => id)
      fun _ _ => .inl

theorem upholds_run_stops (probe : Probe) (stream : Stream)
    : (run probe stream).Upholds (fun _ _ => True) (fun _ _ => True) (Stops probe) [] := by
  refine Check.upholds_andFinally.mpr
    ((upholds_runAllRounds_stops probe stream).mono (fun _ _ => id) ?_ ?_)
  · intro past value _
    split
    · exact Prog.upholds_attempt.mpr ⟨trivial, fun _ => trivial⟩
    · trivial
  · rintro past stop (⟨message, rfl⟩ | ⟨rfl, large⟩)
    · exact Prog.upholds_attempt.mpr ⟨trivial, fun _ => .inl (Check.failed message)⟩
    · exact .inr ⟨rfl, large⟩

/-- What a probe may come to: a value if it was given new descriptors only, and otherwise a failure,
unless there is no room for its slots.
-/
def Judged (probe : Probe) (exchanges : List Exchange) : Except Check.Stop (List Fd × Stream) → Prop
  | .ok (fds, _) => Detected probe exchanges fds
  | .error (.violation violation) => ∃ message, violation = .failure message
  | .error .fault => maxSlots < probe.capacity

variable {outcome : Except Check.Stop (List Fd × Stream)}

/-- A probe detects on any system, whatever its capacity, its mode and its generator are, if a
descriptor that it is given is standard or held already, if it is given none in its rounds, or if it
is alone and its file is there before its rounds or one more descriptor can be had after them: it
comes to a value only if none of these has happened.
-/
theorem run_detects (stream : Stream)
    (reached : (run probe stream).run.Reaches exchanges (.done outcome))
    : Judged probe exchanges outcome := by
  rcases outcome with stop | ⟨fds, last⟩
  · have stops : Stops probe exchanges stop := (upholds_run_stops probe stream).reaches reached
    rcases stops with ⟨message, rfl⟩ | ⟨rfl, large⟩
    · exact ⟨message, rfl⟩
    · exact large
  · obtain ⟨rounds, ends, rfl, made, removes⟩ := Check.reaches_andFinally reached
    rw [runAllRounds_eq] at made
    obtain ⟨_, none, more, rfl, demanded, looks⟩ := Check.reaches_bind_ok made
    obtain ⟨rfl, large⟩ := Check.reaches_require demanded
    obtain ⟨_, before, opens, rfl, looked, goes⟩ := Check.reaches_bind_ok looks
    have capacity : 2 ≤ probe.capacity := of_decide_eq_true large
    have absent := reaches_checkAbsent looked
    split at goes
    · cases goes
    · obtain ⟨first, during, after, rfl, length, checked, full⟩ := reaches_openRounds capacity goes
      refine ⟨capacity, length, checked.distinct, fun fd member => ?_, ?_⟩
      · exact two_le_index (checked.own fd member)
      · refine ⟨before, first, during, after ++ ends, by simp, checked.granted, checked.holds, ?_⟩
        by_cases alone : probe.isAlone = true
        · simp only [Check.lastOf, alone, Bool.or_true] at absent full removes ⊢
          obtain ⟨error, rfl⟩ := full
          cases removes with
          | call reply nothing =>
              cases nothing
              exact ⟨absent, error, reply, rfl⟩
        · simp only [Check.lastOf, alone, Bool.or_false] at absent full removes ⊢
          cases removes
          exact ⟨absent, by rw [full]; rfl⟩

/-- A probe for four descriptors that is alone has opened each of its slots anew at its end. It
holds what it was given in its last round, whatever it was given before.
-/
theorem run_detects_four
    : Detected ⟨4, "file", .alone⟩
        [⟨.openFile "file", .error .noSuchFile⟩, ⟨.creat "file", .ok ⟨7⟩⟩, ⟨.close .stdin, .ok ()⟩,
          ⟨.write .stdout (Utf8.encode "round 1 fds: 7\n"), .ok 15⟩, ⟨.close ⟨7⟩, .ok ()⟩,
          ⟨.openFile "file", .ok ⟨5⟩⟩, ⟨.openFile "file", .ok ⟨7⟩⟩,
          ⟨.write .stdout (Utf8.encode "round 2 fds: 5 7\n"), .ok 17⟩, ⟨.close ⟨7⟩, .ok ()⟩,
          ⟨.close ⟨5⟩, .ok ()⟩, ⟨.openFile "file", .ok ⟨9⟩⟩, ⟨.openFile "file", .ok ⟨5⟩⟩,
          ⟨.openFile "file", .ok ⟨2⟩⟩,
          ⟨.write .stdout (Utf8.encode "round 3 fds: 9 5 2\n"), .ok 19⟩,
          ⟨.openFile "file", .error .tooManyOpenFiles⟩, ⟨.unlink "file", .ok ()⟩]
        [⟨9⟩, ⟨5⟩, ⟨2⟩] := by
  exact @run_detects ⟨4, "file", .alone⟩ _ (.ok ([⟨9⟩, ⟨5⟩, ⟨2⟩], _)) (.cycle [])
    (Prog.reaches_of_replay rfl)

end KernelConformance.Probe
