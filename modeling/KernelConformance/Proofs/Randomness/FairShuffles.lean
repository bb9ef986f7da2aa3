import KernelConformance.Proofs.Randomness.Shuffles
import Mathlib.Data.Set.Function
import Mathlib.Probability.Distributions.Uniform

/-! The inside-out shuffle is fair. Each order of the numbers comes from exactly one sequence of
positions that can be drawn, which is read off the order by taking the numbers out again, the
newest first; so that positions that are drawn evenly and independently give every order with
the same probability.
-/

namespace KernelConformance.Randomness

variable {count position : Nat} {positions numbers : List Nat}

-----------------------------------------------------------------------------------------
-- Positions that can be drawn
-----------------------------------------------------------------------------------------

/-- The sequences of positions that a shuffle can draw: each number goes in front of the end or to
the end.
-/
def draws (count : Nat) : Set (List Nat) :=
  {positions |
    positions.length = count
    ∧ ∀ (index position : Nat), positions[index]? = some position → position ≤ index}

/-- The orders in which the numbers below `count` can be. -/
def orders (count : Nat) : Set (List Nat) := {numbers | numbers.Perm (List.range count)}

theorem length_of_mem_orders (member : numbers ∈ orders count) : numbers.length = count :=
  (List.Perm.length_eq member).trans List.length_range

/-- One more position is drawn up to the number of those before it. -/
theorem mem_draws_concat
    : positions ++ [position] ∈ draws (count + 1) ↔ positions ∈ draws count ∧ position ≤ count := by
  simp only [draws, Set.mem_ofPred_eq, List.length_append, List.length_singleton,
    Nat.add_right_cancel_iff]
  constructor
  · rintro ⟨rfl, bound⟩
    refine ⟨⟨rfl, fun index position found => ?_⟩, bound positions.length position ?_⟩
    · exact bound index position
        (List.getElem?_append_left (List.getElem?_eq_some_iff.mp found).1 ▸ found)
    · exact List.getElem?_concat_length
  · rintro ⟨⟨rfl, bound⟩, last⟩
    refine ⟨rfl, fun index other found => ?_⟩
    rcases Nat.lt_trichotomy index positions.length with inside | rfl | outside
    · rw [List.getElem?_append_left inside] at found
      exact bound index other found
    · rw [List.getElem?_concat_length] at found
      exact Option.some.inj found ▸ last
    · rw [List.getElem?_eq_none (by simpa using outside)] at found
      cases found

/-- A sequence of one more position ends in a position. -/
theorem exists_of_mem_draws {whole : List Nat} (member : whole ∈ draws (count + 1))
    : ∃ positions position,
        whole = positions ++ [position] ∧ positions ∈ draws count ∧ position ≤ count := by
  rcases List.eq_nil_or_concat whole with rfl | ⟨positions, position, rfl⟩
  · exact absurd member.1 (Nat.zero_ne_add_one count)
  · rw [List.concat_eq_append] at member ⊢
    exact ⟨positions, position, rfl, mem_draws_concat.mp member⟩

/-- A number is drawn by one word or two, from wherever the stream is. -/
theorem Stream.exists_taken_below (range : Nat) (stream : Stream)
    : ∃ taken,
        1 ≤ taken
          ∧ taken ≤ 2
          ∧ (stream.below range).2 = { stream with used := stream.used + taken } := by
  unfold below
  dsimp only [next]
  split
  · exact ⟨2, by decide, by decide, rfl⟩
  · exact ⟨1, by decide, by decide, rfl⟩

/-- All positions are drawn by one word or two each, by induction on their number. -/
theorem exists_taken_drawPositions (count last : Nat) (stream : Stream)
    : ∃ taken,
        count ≤ taken
        ∧ taken ≤ 2 * count
        ∧ (drawPositions count last stream).2 = { stream with used := stream.used + taken } := by
  induction count generalizing last stream with
  | zero => exact ⟨0, Nat.le_refl _, Nat.le_refl _, rfl⟩
  | succ count ih =>
      obtain ⟨first, least, most, begun⟩ := Stream.exists_taken_below (last + 1) stream
      obtain ⟨more, low, high, ends⟩ := ih (last + 1) (stream.below (last + 1)).2
      refine ⟨first + more, by omega, by omega, ?_⟩
      refine ends.trans ?_
      rw [begun, Nat.add_assoc]

/-- Each position is drawn up to its own place, by induction on how many are drawn. -/
theorem drawPositions_le {index : Nat} (count last : Nat) (stream : Stream)
    (found : (drawPositions count last stream).1[index]? = some position)
    : position ≤ last + index := by
  induction count generalizing last index stream with
  | zero => cases found
  | succ count ih =>
      simp only [drawPositions] at found
      cases index with
      | zero =>
          cases found
          exact Nat.le_of_lt_succ (stream.below_lt (Nat.succ_pos last))
      | succ index =>
          have later := ih (last + 1) _ found
          omega

theorem drawPositions_mem_draws (count : Nat) (stream : Stream)
    : (drawPositions count 0 stream).1 ∈ draws count := by
  refine ⟨length_drawPositions .., fun index position found => ?_⟩
  have bound := drawPositions_le count 0 stream found
  rwa [Nat.zero_add] at bound

-----------------------------------------------------------------------------------------
-- Taking the numbers out again
-----------------------------------------------------------------------------------------

/-- Takes the newest number out: the number at the end goes back to where the newest one is. The
position of the newest number is what was drawn for it.
-/
def unplace (numbers : List Nat) : List Nat × Nat :=
  let newest := numbers.length - 1
  let position := numbers.idxOf newest
  (numbers.dropLast.set position (numbers.getD newest newest), position)

/-- The positions that lead to an order, taken off it one by one. -/
def retrace : Nat → List Nat → List Nat
  | 0, _ => []
  | count + 1, numbers => retrace count (unplace numbers).1 ++ [(unplace numbers).2]

theorem arrange_concat (positions : List Nat) (position : Nat)
    : arrange (positions ++ [position]) = place (arrange positions) position := by
  simp [arrange]

theorem length_place (numbers : List Nat) (position : Nat)
    : (place numbers position).length = numbers.length + 1 := by
  simp [place]

/-- The newest number is where it was put, as it was not there before. -/
theorem idxOf_place (fresh : numbers.length ∉ numbers) (inside : position ≤ numbers.length)
    : (place numbers position).idxOf numbers.length = position := by
  rcases Nat.lt_or_eq_of_le inside with before | rfl
  · have split : place numbers position
        = numbers.take position ++ numbers.length :: (numbers.drop (position + 1)
          ++ [numbers.getD position numbers.length]) := by
      rw [place, List.set_eq_take_append_cons_drop, if_pos before, List.append_assoc,
        List.cons_append]
    have absent : numbers.length ∉ numbers.take position :=
      fun member => fresh (List.mem_of_mem_take member)
    rw [split, List.idxOf_append_of_notMem absent, List.idxOf_cons_self, List.length_take,
      Nat.min_eq_left inside, Nat.add_zero]
  · have same : place numbers numbers.length = numbers ++ [numbers.length] := by
      simp [place, List.set_eq_of_length_le]
    rw [same, List.idxOf_append_of_notMem fresh, List.idxOf_cons_self, Nat.add_zero]

/-- A number that was placed can be taken out again. -/
theorem unplace_place (fresh : numbers.length ∉ numbers) (inside : position ≤ numbers.length)
    : unplace (place numbers position) = (numbers, position) := by
  have found := idxOf_place fresh inside
  have moved
      : (place numbers position).getD numbers.length numbers.length
        = numbers.getD position numbers.length := by
    simp [place, List.getD_eq_getElem?_getD]
  simp only [unplace, length_place, Nat.add_sub_cancel, found, moved, Prod.mk.injEq, and_true]
  rw [place, List.dropLast_concat, List.set_set]
  rcases Nat.lt_or_eq_of_le inside with before | rfl
  · have same : numbers.getD position numbers.length = numbers[position] := by
      simp [List.getD_eq_getElem?_getD, before]
    rw [same, List.set_getElem_self]
  · rw [List.set_eq_of_length_le (Nat.le_refl _)]

/-- A number that was taken out can be placed again. -/
theorem place_unplace (member : numbers ∈ orders (count + 1))
    : place (unplace numbers).1 (unplace numbers).2 = numbers := by
  have length := length_of_mem_orders member
  have newest : count ∈ numbers := (List.Perm.mem_iff member).mpr List.self_mem_range_succ
  rcases List.eq_nil_or_concat numbers with rfl | ⟨front, last, rfl⟩
  · cases newest
  · rw [List.concat_eq_append] at length newest ⊢
    obtain rfl : front.length = count := by simpa using length
    have found := List.getElem?_idxOf newest
    have taken : unplace (front ++ [last])
        = (front.set ((front ++ [last]).idxOf front.length) last,
            (front ++ [last]).idxOf front.length) := by
      simp [unplace, List.getD_eq_getElem?_getD]
    rw [taken]
    generalize (front ++ [last]).idxOf front.length = position at found ⊢
    rw [place, List.set_set, List.length_set, List.getD_eq_getElem?_getD]
    rcases Nat.lt_trichotomy position front.length with before | rfl | beyond
    · rw [List.getElem?_append_left before] at found
      rw [List.getElem?_set_self before]
      have same : front[position] = front.length := by simpa [before] using found
      rw [← same, List.set_getElem_self]
      rfl
    · rw [List.getElem?_concat_length] at found
      simp [Option.some.inj found, List.set_eq_of_length_le]
    · rw [List.getElem?_eq_none (by simpa using beyond)] at found
      cases found

/-- What is left when the newest number is taken out is an order of the others. -/
theorem unplace_mem (member : numbers ∈ orders (count + 1))
    : (unplace numbers).1 ∈ orders count ∧ (unplace numbers).2 ≤ count := by
  have length := length_of_mem_orders member
  have shorter : (unplace numbers).1.length = count := by simp [unplace, length]
  constructor
  · have grown := place_perm (unplace numbers).1 (unplace numbers).2
    rw [place_unplace member, shorter] at grown
    have whole : (count :: List.range count).Perm (List.range (count + 1)) := by
      rw [List.range_succ]
      exact (List.perm_append_singleton _ _).symm
    exact ((grown.symm.trans member).trans whole.symm).cons_inv
  · have newest : count ∈ numbers := (List.Perm.mem_iff member).mpr List.self_mem_range_succ
    have inside := List.idxOf_lt_length_iff.mpr newest
    rw [length] at inside
    simpa [unplace, length] using Nat.le_of_lt_succ inside

/-- What is traced back from an order can be drawn, by induction on the number of its numbers. -/
theorem retrace_mem_draws (member : numbers ∈ orders count)
    : retrace count numbers ∈ draws count := by
  induction count generalizing numbers with
  | zero => exact ⟨rfl, nofun⟩
  | succ count ih =>
      obtain ⟨rest, inside⟩ := unplace_mem member
      exact mem_draws_concat.mpr ⟨ih rest, inside⟩

/-- An order is arranged by what is traced back from it, by induction on the number
of its numbers.
-/
theorem arrange_retrace (member : numbers ∈ orders count)
    : arrange (retrace count numbers) = numbers := by
  induction count generalizing numbers with
  | zero => exact (List.perm_nil.mp member).symm
  | succ count ih =>
      rw [retrace, arrange_concat, ih (unplace_mem member).1]
      exact place_unplace member

theorem arrange_mem_orders (member : positions ∈ draws count) : arrange positions ∈ orders count :=
  member.1 ▸ arrange_perm positions

/-- What was drawn is traced back from the order that it leads to, by induction on the
number of draws.
-/
theorem retrace_arrange (member : positions ∈ draws count)
    : retrace count (arrange positions) = positions := by
  induction count generalizing positions with
  | zero => exact (List.length_eq_zero_iff.mp member.1).symm
  | succ count ih =>
      obtain ⟨front, position, rfl, drawn, inside⟩ := exists_of_mem_draws member
      have order := arrange_mem_orders drawn
      have length := length_of_mem_orders order
      have fresh : (arrange front).length ∉ arrange front := by
        rw [length]
        exact fun among => Nat.lt_irrefl _ (List.mem_range.mp ((List.Perm.mem_iff order).mp among))
      rw [arrange_concat, retrace, unplace_place fresh (length ▸ inside), ih drawn]

/-- The orders and what can be drawn correspond one to one. -/
theorem bijOn_arrange (count : Nat) : Set.BijOn arrange (draws count) (orders count) :=
  Set.InvOn.bijOn ⟨fun _ => retrace_arrange, fun _ => arrange_retrace⟩ (fun _ => arrange_mem_orders)
    fun _ => retrace_mem_draws

-----------------------------------------------------------------------------------------
-- Even draws
-----------------------------------------------------------------------------------------

/-- The law of positions that are drawn evenly and independently, each up to its own place. -/
noncomputable def evenDraws : Nat → PMF (List Nat)
  | 0 => .pure []
  | count + 1 =>
      (evenDraws count).bind fun positions =>
        (PMF.uniformOfFinset (Finset.range (count + 1)) Finset.nonempty_range_add_one).map
          fun position => positions ++ [position]

/-- Only what can be drawn is drawn, by induction on the number of draws. -/
theorem mem_draws_of_support (drawn : positions ∈ (evenDraws count).support)
    : positions ∈ draws count := by
  induction count generalizing positions with
  | zero =>
      obtain rfl : positions = [] := by simpa [evenDraws] using drawn
      exact ⟨rfl, nofun⟩
  | succ count ih =>
      obtain ⟨front, before, last⟩ := (PMF.mem_support_bind_iff ..).mp drawn
      obtain ⟨position, inside, rfl⟩ := (PMF.mem_support_map_iff ..).mp last
      refine mem_draws_concat.mpr ⟨ih before, ?_⟩
      exact Nat.le_of_lt_succ
        (Finset.mem_range.mp ((PMF.mem_support_uniformOfFinset_iff ..).mp inside))

/-- One position more is drawn with an even probability after those that it is drawn after, and
never after others.
-/
theorem map_concat_apply (front positions : List Nat) (inside : position ≤ count)
    : ((PMF.uniformOfFinset (Finset.range (count + 1)) Finset.nonempty_range_add_one).map
        fun position => front ++ [position]) (positions ++ [position])
      = if front = positions then ((count : ENNReal) + 1)⁻¹ else 0 := by
  rw [PMF.map_apply, tsum_eq_single position]
  · simp [PMF.uniformOfFinset_apply, Nat.lt_succ_of_le inside, eq_comm]
  · intro other different
    refine if_neg fun same => different ?_
    simpa using (List.append_inj' same rfl).2.symm

/-- All that can be drawn is drawn with the same probability, by induction on the
number of draws.
-/
theorem evenDraws_apply (member : positions ∈ draws count)
    : evenDraws count positions = (count.factorial : ENNReal)⁻¹ := by
  induction count generalizing positions with
  | zero =>
      obtain rfl : positions = [] := List.length_eq_zero_iff.mp member.1
      simp [evenDraws]
  | succ count ih =>
      obtain ⟨front, position, rfl, before, inside⟩ := exists_of_mem_draws member
      rw [evenDraws, PMF.bind_apply, tsum_eq_single front]
      · rw [map_concat_apply front front inside, if_pos rfl, ih before, Nat.factorial_succ,
          Nat.cast_mul, mul_comm, ENNReal.mul_inv (.inl (by simp)) (.inl (by simp))]
        simp
      · intro other different
        rw [map_concat_apply other front inside, if_neg different, mul_zero]

/-- Every order is arranged with the same probability: by the one draw that is arranged as it. -/
theorem map_arrange_apply {numbers : List Nat} (order : numbers.Perm (List.range count))
    : (evenDraws count).map arrange numbers = (count.factorial : ENNReal)⁻¹ := by
  rw [PMF.map_apply, tsum_eq_single (retrace count numbers)]
  · rw [if_pos (arrange_retrace order).symm, evenDraws_apply (retrace_mem_draws order)]
  · intro positions different
    split
    · next arranged =>
        apply (PMF.apply_eq_zero_iff ..).mpr
        intro drawn
        apply different
        rw [arranged, retrace_arrange (mem_draws_of_support drawn)]
    · rfl

/-- Shuffles are fair. From any words, a shuffle arranges positions that can be drawn, takes between
one and two words for each, and holds every number below its count once; what can be drawn and the
orders of these numbers correspond one to one; and positions that are drawn evenly and independently
give every order with the same probability, and nothing else.
-/
theorem permutation_fair (count : Nat)
    : (∀ stream,
        (drawPositions count 0 stream).1 ∈ draws count
        ∧ (permutation count stream).1 = arrange (drawPositions count 0 stream).1
        ∧ (permutation count stream).1.Perm (List.range count)
        ∧ ∃ taken,
            count ≤ taken
            ∧ taken ≤ 2 * count
            ∧ (permutation count stream).2 = { stream with used := stream.used + taken })
      ∧ Set.BijOn arrange (draws count) {numbers | numbers.Perm (List.range count)}
      ∧ ∀ numbers,
          (evenDraws count).map arrange numbers
          = if numbers.Perm (List.range count) then (count.factorial : ENNReal)⁻¹ else 0 := by
  refine ⟨fun stream => ⟨drawPositions_mem_draws count stream, rfl, permutation_perm count stream,
    exists_taken_drawPositions count 0 stream⟩, bijOn_arrange count, fun numbers => ?_⟩
  by_cases order : numbers.Perm (List.range count)
  · rw [if_pos order, map_arrange_apply order]
  · rw [if_neg order, PMF.apply_eq_zero_iff]
    intro drawn
    obtain ⟨positions, among, rfl⟩ := (PMF.mem_support_map_iff ..).mp drawn
    exact order (arrange_mem_orders (mem_draws_of_support among))

end KernelConformance.Randomness
