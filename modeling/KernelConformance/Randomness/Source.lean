import KernelConformance.Randomness.Stream

/-! Where random words come from. The words of a seed are the ChaCha key stream with
twelve rounds, under a key that a linear congruential generator makes of the seed.
-/

namespace KernelConformance.Randomness.ChaCha

/-- The sixteen words of a block. -/
abbrev Block := Vector UInt32 16

/-- Rotates a word to the left. -/
def rotateLeft (word amount : UInt32) : UInt32 := word <<< amount ||| word >>> (32 - amount)

/-- Rotates a word to the right. -/
def rotateRight (word amount : UInt32) : UInt32 := word >>> amount ||| word <<< (32 - amount)

/-- Half a quarter round: adds word `b` to word `a`, then mixes the sum into word `d`. -/
def mix (a b d : Fin 16) (amount : UInt32) (block : Block) : Block :=
  let block := block.set a (block[a] + block[b])
  block.set d (rotateLeft (block[d] ^^^ block[a]) amount)

/-- Mixes four words of a block. -/
def quarterRound (a b c d : Fin 16) (block : Block) : Block :=
  mix c d b 7 (mix a b d 8 (mix c d b 12 (mix a b d 16 block)))

/-- Mixes the columns of a block and then its diagonals. -/
def doubleRound (block : Block) : Block :=
  let block := quarterRound 3 7 11 15 <| quarterRound 2 6 10 14 <|
    quarterRound 1 5 9 13 <| quarterRound 0 4 8 12 block
  quarterRound 3 4 9 14 <| quarterRound 2 7 8 13 <|
    quarterRound 1 6 11 12 <| quarterRound 0 5 10 15 block

/-- A key: eight words. -/
abbrev Key := Vector UInt32 8

/-- The block that is mixed into the block `index` of the key stream: four constants, the key, the
index in two words, and two words of zero.
-/
def initialBlock (key : Key) (index : Nat) : Block :=
  let constants : Vector UInt32 4 := #v[0x61707865, 0x3320646e, 0x79622d32, 0x6b206574]
  let counter : Vector UInt32 4 := #v[UInt32.ofNat index, UInt32.ofNat (index / wordCount), 0, 0]
  constants ++ key ++ counter

/-- The block `index` of the key stream: six double rounds, added to where they began. -/
def block (key : Key) (index : Nat) : Block :=
  let start := initialBlock key index
  Vector.zipWith (· + ·) start
    (doubleRound (doubleRound (doubleRound (doubleRound (doubleRound (doubleRound start))))))

/-- A step of the generator that spreads a seed over a key. -/
def spread (state : UInt64) : UInt64 := state * 6364136223846793005 + 11634580027462260723

/-- The word of a key that a state of that generator gives. -/
def keyWord (state : UInt64) : UInt32 :=
  rotateRight ((state >>> 18 ^^^ state) >>> 27).toUInt32 (state >>> 59).toUInt32

/-- The states that follow `state`. -/
def states : Nat → UInt64 → List UInt64
  | 0, _ => []
  | count + 1, state => spread state :: states count (spread state)

/-- The key of a seed. -/
def key (seed : UInt64) : Key :=
  let words := (states 8 seed).map keyWord
  Vector.ofFn fun i => words.getD i 0

end ChaCha

/-- The stream of a seed, sixteen words from each block. -/
def Stream.ofSeed (seed : Nat) : Stream :=
  let key := ChaCha.key (UInt64.ofNat seed)
  .ofFunction fun i => (ChaCha.block key (i / 16)).get (Fin.ofNat 16 i)

/-- Where the words of a stream come from. -/
inductive Source where
  | seed (seed : Nat)
  | words (words : List UInt32)
  deriving DecidableEq

/-- The stream of a source. -/
def Source.stream : Source → Stream
  | .seed number => .ofSeed number
  | .words given => .cycle given

/-- How much of a stream was taken, where its words were given one by one. -/
def Source.used? (source : Source) (stream : Stream) : Option Nat :=
  match source with
  | .seed _ => none
  | .words _ => some stream.used

end KernelConformance.Randomness
