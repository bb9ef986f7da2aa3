/-! UTF-8 read byte by byte. A reader is between characters or inside one; each byte moves it on and
may complete a piece of text, which is a character or a run of bytes that belongs to none.
-/

namespace KernelConformance.Utf8

/-- Bytes in the order of a file or a stream. -/
abbrev Bytes := List UInt8

/-- A character that has begun: the bytes taken, the value of their payload bits, the number of
bytes owed, and the bounds of the next of them.
-/
structure Begun where
  taken : Nat
  payload : Nat
  owed : Nat
  low : Nat
  high : Nat
  deriving DecidableEq

/-- A part of a text. A broken piece is a longest beginning of a character, or one byte that
begins none, that is followed by a byte which cannot continue it; a cut piece is one at which
the text ends.
-/
inductive Piece where
  | char (c : Char) (length : Nat)
  | broken (length : Nat)
  | cut (length : Nat)
  deriving DecidableEq

/-- The number of bytes of a piece. -/
def Piece.length : Piece → Nat
  | .char _ length | .broken length | .cut length => length

/-- Takes the first byte of a character. -/
def first (byte : UInt8) : List Piece × Option Begun :=
  let b := byte.toNat
  if b ≤ 0x7f then ([.char (Char.ofNat b) 1], none)
  else if 0xc2 ≤ b ∧ b ≤ 0xdf then ([], some ⟨1, b % 0x20, 1, 0x80, 0xbf⟩)
  else if b = 0xe0 then ([], some ⟨1, b % 0x10, 2, 0xa0, 0xbf⟩)
  else if b = 0xed then ([], some ⟨1, b % 0x10, 2, 0x80, 0x9f⟩)
  else if 0xe1 ≤ b ∧ b ≤ 0xef then ([], some ⟨1, b % 0x10, 2, 0x80, 0xbf⟩)
  else if b = 0xf0 then ([], some ⟨1, b % 0x08, 3, 0x90, 0xbf⟩)
  else if b = 0xf4 then ([], some ⟨1, b % 0x08, 3, 0x80, 0x8f⟩)
  else if 0xf1 ≤ b ∧ b ≤ 0xf3 then ([], some ⟨1, b % 0x08, 3, 0x80, 0xbf⟩)
  else ([.broken 1], none)

/-- Takes one byte. A byte that does not continue the character begun starts the next one. -/
def step : Option Begun → UInt8 → List Piece × Option Begun
  | none, byte => first byte
  | some begun, byte =>
      if begun.low ≤ byte.toNat ∧ byte.toNat ≤ begun.high then
        let payload := begun.payload * 0x40 + byte.toNat % 0x40
        if begun.owed ≤ 1 then ([.char (Char.ofNat payload) (begun.taken + 1)], none)
        else ([], some ⟨begun.taken + 1, payload, begun.owed - 1, 0x80, 0xbf⟩)
      else
        let (pieces, state) := first byte
        (.broken begun.taken :: pieces, state)

/-- Where a reader is: the pieces so far, the newest first, and the character that has begun. -/
structure Reader where
  pieces : List Piece
  begun : Option Begun
  deriving DecidableEq

namespace Reader

/-- A reader in front of a text. -/
def start : Reader := ⟨[], none⟩

/-- Takes one byte. -/
def take (reader : Reader) (byte : UInt8) : Reader :=
  let (pieces, begun) := step reader.begun byte
  ⟨pieces.reverse ++ reader.pieces, begun⟩

/-- Takes bytes in order. -/
def takeAll (reader : Reader) (bytes : Bytes) : Reader := bytes.foldl take reader

/-- All pieces in order, if the text ends here. -/
def finish (reader : Reader) : List Piece :=
  match reader.begun with
  | none => reader.pieces.reverse
  | some begun => (.cut begun.taken :: reader.pieces).reverse

/-- Reading on is reading the whole, by the fold over an append. -/
theorem takeAll_append (reader : Reader) (front back : Bytes)
    : reader.takeAll (front ++ back) = (reader.takeAll front).takeAll back :=
  List.foldl_append

end Reader

/-- The pieces of a whole text. -/
def pieces (bytes : Bytes) : List Piece := (Reader.start.takeAll bytes).finish

/-- Where and how bytes fail to be a text: at `index`, by `length` bytes that no character has, or
by the end of the text inside a character.
-/
inductive DecodeError where
  | invalid (length index : Nat)
  | incomplete (index : Nat)
  deriving DecidableEq

/-- The wording of a failure. -/
def DecodeError.message : DecodeError → String
  | .invalid length index => s!"invalid utf-8 sequence of {length} bytes from index {index}"
  | .incomplete index => s!"incomplete utf-8 byte sequence from index {index}"

/-- The characters of pieces of which the first begins at `index`, or the first failure. -/
def characters : Nat → List Piece → Except DecodeError (List Char)
  | _, [] => .ok []
  | index, .char c length :: rest => (c :: ·) <$> characters (index + length) rest
  | index, .broken length :: _ => .error (.invalid length index)
  | index, .cut _ :: _ => .error (.incomplete index)

/-- Reads bytes as a text, all of whose characters must be whole. -/
def decode (bytes : Bytes) : Except DecodeError (List Char) := characters 0 (pieces bytes)

/-- The character that stands for a piece: U+FFFD for one that is not a character. -/
def Piece.shown : Piece → Char
  | .char c _ => c
  | .broken _ | .cut _ => Char.ofNat 0xfffd

/-- Reads bytes as a text with U+FFFD for each piece that is not a character. -/
def decodeLossy (bytes : Bytes) : String := String.ofList ((pieces bytes).map Piece.shown)

/-- The bytes of a text. -/
def encode (text : String) : Bytes := text.toList.flatMap String.utf8EncodeChar

end KernelConformance.Utf8
