import KernelConformance.Randomness.Shuffle

/-! A number that is drawn is below its bound, whatever the words are, and a shuffle holds each
number once, whatever positions are drawn for it.
-/

namespace KernelConformance.Randomness

/-- A product whose low half is within `range` of its end cannot have a high half that is the last
one below `range`, so that the carry stays below it.
-/
theorem Stream.below_lt {range : Nat} (positive : 0 < range) (stream : Stream)
    : (stream.below range).1 < range := by
  have word : stream.next.1 < wordCount := UInt32.toNat_lt _
  simp only [below]
  generalize stream.next = drawn at word ⊢
  have product : drawn.1 * range + range ≤ wordCount * range := by
    rw [← Nat.succ_mul]
    exact Nat.mul_le_mul_right range word
  have halves := Nat.div_add_mod (drawn.1 * range) wordCount
  have high : drawn.1 * range / wordCount < range :=
    Nat.div_lt_of_lt_mul (by omega)
  split
  · next carries =>
      have next : drawn.1 * range / wordCount + 1 < range := by
        refine Nat.lt_of_mul_lt_mul_left (a := wordCount) ?_
        rw [Nat.mul_succ]
        omega
      dsimp only
      split
      · exact next
      · exact high
  · exact high

/-- The next number is added, and the number that stood in its place moves to the
end, if any did.
-/
theorem place_perm (numbers : List Nat) (position : Nat)
    : (place numbers position).Perm (numbers.length :: numbers) := by
  rcases Nat.lt_or_ge position numbers.length with inside | outside
  · have whole
        : numbers = numbers.take position ++ numbers[position] :: numbers.drop (position + 1) := by
      rw [List.getElem_cons_drop, List.take_append_drop]
    have moved : numbers.getD position numbers.length = numbers[position] := by
      simp [List.getD, inside]
    rw [place, List.set_eq_take_append_cons_drop, if_pos inside, moved]
    refine (List.perm_append_singleton _ _).trans ?_
    refine ((List.perm_middle).cons _).trans ((List.Perm.swap _ _ _).trans (.cons _ ?_))
    exact (List.perm_middle.symm).trans (.of_eq whole.symm)
  · have none : numbers.getD position numbers.length = numbers.length := by
      simp [List.getD, outside]
    rw [place, List.set_eq_of_length_le outside, none]
    exact List.perm_append_singleton _ _

/-- Numbers that are placed in turn are those below their count, by induction on the positions. -/
theorem foldl_place_perm (positions : List Nat) {numbers : List Nat}
    (first : numbers.Perm (List.range numbers.length))
    : (positions.foldl place numbers).Perm (List.range (numbers.length + positions.length)) := by
  induction positions generalizing numbers with
  | nil => exact first
  | cons position rest ih =>
      have grown : (place numbers position).length = numbers.length + 1 := by simp [place]
      have next : (place numbers position).Perm (List.range (place numbers position).length) := by
        rw [grown, List.range_succ]
        refine (place_perm numbers position).trans ?_
        exact ((List.Perm.cons _ first).trans (List.perm_append_singleton _ _).symm)
      have all := ih next
      rw [grown, Nat.add_assoc, Nat.add_comm 1] at all
      exact all

theorem arrange_perm (positions : List Nat)
    : (arrange positions).Perm (List.range positions.length) := by
  have all := @foldl_place_perm positions [] .nil
  rwa [List.length_nil, Nat.zero_add] at all

theorem length_drawPositions (count last : Nat) (stream : Stream)
    : (drawPositions count last stream).1.length = count := by
  induction count generalizing last stream with
  | zero => rfl
  | succ count ih => exact congrArg (· + 1) (ih ..)

/-- A random permutation holds each number below its count once. -/
theorem permutation_perm (count : Nat) (stream : Stream)
    : (permutation count stream).1.Perm (List.range count) := by
  have all := arrange_perm (drawPositions count 0 stream).1
  rwa [length_drawPositions] at all

end KernelConformance.Randomness
