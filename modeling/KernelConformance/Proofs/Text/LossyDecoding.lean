import KernelConformance.Proofs.Text.Decoding

/-! Texts that are read in parts. A part that does not end inside a character is read as it
is in the whole, whatever else is wrong with it, so that nothing is lost, repeated or
altered where it ends.
-/

namespace KernelConformance.Utf8

-----------------------------------------------------------------------------------------
-- Where bytes end
-----------------------------------------------------------------------------------------

/-- Whether bytes end inside a character: their last ones are some of its bytes from the first one
on, and not all.
-/
def EndsInside (bytes : Bytes) : Prop :=
  ∃ front begun owed c,
    bytes = front ++ begun
    ∧ begun ≠ []
    ∧ owed ≠ []
    ∧ String.utf8EncodeChar c = begun ++ owed

/-- Whether some byte can follow those taken of a character. -/
def Begun.Continues (begun : Begun) : Prop := 0 < begun.taken ∧ begun.low ≤ begun.high

theorem first_continues {byte : UInt8} {begun : Begun} (taken : (first byte).2 = some begun)
    : begun.Continues := by
  simp only [first] at taken
  repeat' split at taken
  all_goals cases taken <;> simp [Begun.Continues]

/-- Inside a character some byte can follow, by cases on whether the last one has continued it. -/
theorem step_continues {state : Option Begun} {byte : UInt8} {begun : Begun}
    (taken : (step state byte).2 = some begun)
    : begun.Continues := by
  cases state with
  | none => exact first_continues taken
  | some before =>
      simp only [step] at taken
      split at taken
      · split at taken
        · cases taken
        · cases taken
          simp [Begun.Continues]
      · exact first_continues taken

theorem takeAll_continues {bytes : Bytes} {begun : Begun}
    (taken : (Reader.start.takeAll bytes).begun = some begun)
    : begun.Continues := by
  rcases List.eq_nil_or_concat bytes with rfl | ⟨front, last, rfl⟩
  · cases taken
  · rw [List.concat_eq_append, Reader.takeAll_append] at taken
    exact step_continues taken

/-- A character that has begun can be completed, with the least byte that can follow. -/
theorem Begun.With.completed {begun : Begun} {bytes : Bytes} (started : begun.With bytes)
    (continues : begun.Continues)
    : ∃ owed c, bytes ≠ [] ∧ owed ≠ [] ∧ String.utf8EncodeChar c = bytes ++ owed := by
  obtain ⟨positive, bounds⟩ := continues
  have lowest := started.low
  have highest := started.high
  obtain ⟨owed, succ⟩ := Nat.exists_eq_add_one_of_ne_zero (Nat.ne_of_gt started.owed)
  generalize digit : begun.low - 0x80 = d
  have next : ((begun.payload * 64 + d) * 64 ^ owed) / 64 ^ owed = begun.payload * 64 + d :=
    Nat.mul_div_cancel _ (Nat.pow_pos (by decide))
  have allowed : begun.Allows ((begun.payload * 64 + d) * 64 ^ owed) := by
    rw [Begun.Allows, succ, Nat.add_sub_cancel, Nat.pow_succ, ← Nat.div_div_eq_div_mul, next]
    omega
  obtain ⟨c, -, coded⟩ := started.whole _ allowed
  refine ⟨_, c, ?_, ?_, coded⟩
  · exact List.ne_nil_of_length_pos (started.taken ▸ positive)
  · rw [succ]
    exact List.cons_ne_nil _ _

theorem length_tail (owed number : Nat) : (tail owed number).length = owed := by
  induction owed with
  | zero => rfl
  | succ owed ih => rw [tail, List.length_cons, ih]

/-- Some of the bytes owed, and not all, leave a character open, by induction on how
many are owed.
-/
theorem takeAll_take_tail (pieces : List Piece) {taken payload owed low high number count : Nat}
    (fewer : count < owed) (allowed : Begun.Allows ⟨taken, payload, owed, low, high⟩ number)
    : (Reader.takeAll ⟨pieces, some ⟨taken, payload, owed, low, high⟩⟩
        ((tail owed number).take count)).begun ≠ none := by
  induction owed generalizing taken payload low high count with
  | zero => cases fewer
  | succ owed ih =>
      cases count with
      | zero => exact Option.some_ne_none _
      | succ count =>
          have more : count < owed := Nat.lt_of_succ_lt_succ fewer
          have stays : Begun.Allows ⟨taken + 1, number / 64 ^ owed, owed, 0x80, 0xbf⟩ number := by
            refine ⟨rfl, ?_⟩
            dsimp only
            omega
          have onward := ih more stays
          simpa only [tail, List.take_succ_cons, Reader.takeAll, List.foldl_cons, Reader.take,
            step_allowed allowed, if_neg (Nat.ne_of_gt (Nat.zero_lt_of_lt more)), List.reverse_nil,
            List.nil_append] using onward

theorem le_mark {owed : Nat} (owing : 0 < owed) : 0xc0 ≤ mark owed := by
  match owed, owing with
  | 1, _ | 2, _ | _ + 3, _ => simp [mark]

/-- A byte that no character is continued with is taken as between characters. -/
theorem step_beyond {state : Option Begun} {bytes : Bytes} (pending : Pending state bytes)
    {byte : UInt8} (beyond : 0xbf < byte.toNat)
    : (step state byte).2 = (first byte).2 := by
  cases pending with
  | between => rfl
  | inside started =>
      have highest := started.high
      rw [step, if_neg (by omega)]

/-- Bytes end inside a character exactly if a reader that has taken them does. -/
theorem endsInside_iff {bytes : Bytes}
    : EndsInside bytes ↔ (Reader.start.takeAll bytes).begun ≠ none := by
  have start : Reads Reader.start.pieces.reverse Reader.start.begun [] :=
    ⟨[], [], .nil, .between, rfl⟩
  constructor
  · intro ⟨front, begun, rest, c, same, any, more, coded⟩
    obtain ⟨lead, others, rfl⟩ := List.exists_cons_of_ne_nil any
    obtain ⟨owed, spans⟩ := exists_spans c
    rw [utf8EncodeChar_eq spans, List.cons_append, List.cons.injEq] at coded
    obtain ⟨first, coded⟩ := coded
    have number : lead.toNat = c.toNat / 64 ^ owed + mark owed := first ▸ toNat_lead spans
    have fewer : others.length < owed := by
      rw [← length_tail owed c.toNat, coded, List.length_append]
      exact Nat.lt_add_of_pos_right (List.length_pos_of_ne_nil more)
    have part : others = (tail owed c.toNat).take others.length := by rw [coded, List.take_left]
    obtain ⟨payload, low, high, taken, allowed⟩ := first_lead (Nat.zero_lt_of_lt fewer) spans number
    have beyond : 0xbf < lead.toNat := by
      rw [number]
      exact Nat.lt_of_lt_of_le (le_mark (Nat.zero_lt_of_lt fewer)) (Nat.le_add_left ..)
    obtain ⟨-, pending, -, left, -⟩ := reads_takeAll start front
    have begins : ((Reader.start.takeAll front).take lead).begun
        = some ⟨1, payload, owed, low, high⟩ :=
      (step_beyond left beyond).trans (congrArg Prod.snd taken)
    rw [same, Reader.takeAll_append, part]
    change (Reader.takeAll ((Reader.start.takeAll front).take lead) _).begun ≠ none
    generalize (Reader.start.takeAll front).take lead = reader at begins
    obtain ⟨pieces, state⟩ := reader
    cases begins
    exact takeAll_take_tail pieces fewer allowed
  · intro inside
    obtain ⟨chunks, rest, spelt, pending, whole⟩ := reads_takeAll start bytes
    rw [List.nil_append] at whole
    generalize state : (Reader.start.takeAll bytes).begun = begun at inside pending
    cases pending with
    | between => exact absurd rfl inside
    | inside started =>
        obtain ⟨owed, c, any, more, coded⟩ := started.completed (takeAll_continues state)
        exact ⟨chunks.flatten, rest, owed, c, whole.symm, any, more, coded⟩

/-- Whether bytes end inside a character can be found out by reading them. -/
instance (bytes : Bytes) : Decidable (EndsInside bytes) := decidable_of_iff _ endsInside_iff.symm

-----------------------------------------------------------------------------------------
-- Reading in parts
-----------------------------------------------------------------------------------------

/-- What a reader takes does not depend on the pieces that it has, by induction on the bytes. -/
theorem takeAll_behind (pieces : List Piece) (state : Option Begun) (bytes : Bytes)
    : Reader.takeAll ⟨pieces, state⟩ bytes
      = ⟨(Reader.takeAll ⟨[], state⟩ bytes).pieces ++ pieces,
          (Reader.takeAll ⟨[], state⟩ bytes).begun⟩ := by
  induction bytes generalizing pieces state with
  | nil => rfl
  | cons byte bytes ih =>
      simp only [Reader.takeAll, List.foldl_cons, Reader.take] at ih ⊢
      rw [ih, ih ((step state byte).1.reverse ++ [])]
      simp

/-- Behind bytes that do not end inside a character the rest is read as by itself. -/
theorem pieces_append {front : Bytes} (between : ¬EndsInside front) (back : Bytes)
    : pieces (front ++ back) = pieces front ++ pieces back := by
  rw [endsInside_iff, ne_eq, not_not] at between
  rw [pieces, Reader.takeAll_append, pieces, pieces]
  generalize Reader.start.takeAll front = reader at between
  obtain ⟨done, state⟩ := reader
  cases between
  rw [takeAll_behind done]
  simp only [Reader.finish, Reader.start]
  split <;> simp

theorem decodeLossy_append {front : Bytes} (between : ¬EndsInside front) (back : Bytes)
    : decodeLossy (front ++ back) = decodeLossy front ++ decodeLossy back := by
  rw [decodeLossy, pieces_append between, List.map_append, String.ofList_append]
  rfl

/-- A text that is read in parts is the one that is read at once, if no part but the last one ends
inside a character, by induction on the parts.
-/
theorem decodeLossy_flatten {parts : List Bytes} (between : ∀ part ∈ parts, ¬EndsInside part)
    (last : Bytes)
    : decodeLossy (parts.flatten ++ last)
      = String.join (parts.map decodeLossy) ++ decodeLossy last := by
  induction parts with
  | nil => simp
  | cons part parts ih =>
      obtain ⟨first, others⟩ := List.forall_mem_cons.mp between
      rw [List.flatten_cons, List.append_assoc, decodeLossy_append first, ih others, List.map_cons,
        String.join_cons, String.append_assoc]

end KernelConformance.Utf8
