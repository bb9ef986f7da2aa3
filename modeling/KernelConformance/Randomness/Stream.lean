/-! Random numbers from a stream of 32-bit words. A stream is a function on positions together with
the position of its next word, so what has been taken can be read off.
-/

namespace KernelConformance.Randomness

/-- The number of different words. -/
def wordCount : Nat := 4294967296

/-- An endless sequence of words, of which the first `used` have been taken. -/
structure Stream where
  word : Nat → UInt32
  used : Nat

namespace Stream

/-- A stream of which nothing has been taken. -/
def ofFunction (word : Nat → UInt32) : Stream := ⟨word, 0⟩

/-- The given words, over and over. -/
def cycle (words : List UInt32) : Stream := .ofFunction fun i => words.getD (i % words.length) 0

/-- Takes the next word. -/
def next (stream : Stream) : Nat × Stream :=
  ((stream.word stream.used).toNat, { stream with used := stream.used + 1 })

/-- Draws a number below `range`: the high half of a word times `range`. A low half within `range`
of its end may carry into it, which a second word decides.
-/
def below (range : Nat) (stream : Stream) : Nat × Stream :=
  let (word, stream) := stream.next
  let high := word * range / wordCount
  let low := word * range % wordCount
  if wordCount - range < low then
    let (correction, stream) := stream.next
    (if wordCount ≤ low + correction * range / wordCount then high + 1 else high, stream)
  else (high, stream)

end Stream

end KernelConformance.Randomness
