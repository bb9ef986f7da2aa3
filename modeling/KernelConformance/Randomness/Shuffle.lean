import KernelConformance.Randomness.Stream

/-! Random permutations by the inside-out shuffle: each number goes to a drawn position, and what
stood there moves to the end.
-/

namespace KernelConformance.Randomness

/-- Puts the next number, which is the length of the list, at `position`; the number that stood
there moves to the end. The end itself is a position too.
-/
def place (numbers : List Nat) (position : Nat) : List Nat :=
  numbers.set position numbers.length ++ [numbers.getD position numbers.length]

/-- Puts the numbers from 0 on at the given positions, one after the other. -/
def arrange (positions : List Nat) : List Nat := positions.foldl place []

/-- Draws positions, the first of them up to `last` and each of the others up to one more. -/
def drawPositions : Nat → Nat → Stream → List Nat × Stream
  | 0, _, stream => ([], stream)
  | count + 1, last, stream =>
      let (position, stream) := stream.below (last + 1)
      let (positions, stream) := drawPositions count (last + 1) stream
      (position :: positions, stream)

/-- A random permutation of the numbers below `count`. -/
def permutation (count : Nat) (stream : Stream) : List Nat × Stream :=
  let (positions, stream) := drawPositions count 0 stream
  (arrange positions, stream)

/-- Random permutations of several sizes, one after the other from one stream. -/
def permutations : List Nat → Stream → List (List Nat) × Stream
  | [], stream => ([], stream)
  | count :: rest, stream =>
      let (numbers, stream) := permutation count stream
      let (more, stream) := permutations rest stream
      (numbers :: more, stream)

end KernelConformance.Randomness
