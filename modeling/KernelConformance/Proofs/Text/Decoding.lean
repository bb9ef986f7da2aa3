import Mathlib.Algebra.Group.Nat.Defs
import Mathlib.Data.List.Forall2
import KernelConformance.Text.Utf8

/-! Bytes are read as a text exactly if they are the UTF-8 form of it. A reader inside a character
knows which numbers its next bytes can still make, and each of them is that of a character.
-/

namespace KernelConformance.Utf8

-----------------------------------------------------------------------------------------
-- The bytes of a character behind its first one
-----------------------------------------------------------------------------------------

/-- The last bytes of a character with this number: six bits of it in each. -/
def tail : Nat → Nat → Bytes
  | 0, _ => []
  | owed + 1, number => UInt8.ofNat (number / 64 ^ owed % 64 + 0x80) :: tail owed number

theorem toNat_continuation (number : Nat)
    : (UInt8.ofNat (number % 64 + 0x80)).toNat = number % 64 + 0x80 := by
  rw [UInt8.toNat_ofNat']
  omega

/-- What the first byte of a character adds to its bits of the number, by how many bytes follow. -/
def mark : Nat → Nat
  | 0 => 0
  | 1 => 0xc0
  | 2 => 0xe0
  | _ => 0xf0

/-- The numbers of the characters that have this many bytes behind the first one. -/
def Spans : Nat → Nat → Prop
  | 0, number => number ≤ 0x7f
  | 1, number => 0x80 ≤ number ∧ number ≤ 0x7ff
  | 2, number => 0x800 ≤ number ∧ number ≤ 0xffff
  | 3, number => 0x10000 ≤ number ∧ number ≤ 0x10ffff
  | _, _ => False

theorem toNat_lead {owed number : Nat} (spans : Spans owed number)
    : (UInt8.ofNat (number / 64 ^ owed + mark owed)).toNat = number / 64 ^ owed + mark owed := by
  rw [UInt8.toNat_ofNat']
  apply Nat.mod_eq_of_lt
  match owed, spans with
  | 0, spans | 1, spans | 2, spans | 3, spans =>
      simp only [Spans, mark] at spans ⊢
      omega

theorem exists_spans (c : Char) : ∃ owed, Spans owed c.toNat := by
  have bound : c.toNat ≤ 0x10ffff := by
    rcases c.valid with small | ⟨-, small⟩
    · exact Nat.le_trans (Nat.le_of_lt small) (by decide)
    · exact Nat.le_of_lt_succ small
  rcases Nat.lt_or_ge c.toNat 0x80 with one | two
  · exact ⟨0, Nat.le_of_lt_succ one⟩
  rcases Nat.lt_or_ge c.toNat 0x800 with below | three
  · exact ⟨1, two, Nat.le_of_lt_succ below⟩
  rcases Nat.lt_or_ge c.toNat 0x10000 with below | four
  · exact ⟨2, three, Nat.le_of_lt_succ below⟩
  · exact ⟨3, four, bound⟩

/-- The bytes of a character, by how many there are. -/
theorem utf8EncodeChar_eq {c : Char} {owed : Nat} (spans : Spans owed c.toNat)
    : String.utf8EncodeChar c
      = UInt8.ofNat (c.toNat / 64 ^ owed + mark owed) :: tail owed c.toNat := by
  match owed, spans with
  | 0, small =>
      simp [String.utf8EncodeChar, tail, mark, show c.toNat ≤ 127 from small]
  | 1, ⟨low, high⟩ =>
      have front : c.toNat / 64 % 0x20 = c.toNat / 64 := Nat.mod_eq_of_lt (by omega)
      simp [String.utf8EncodeChar, tail, mark, front, show ¬ c.toNat ≤ 127 by omega,
        show c.toNat ≤ 2047 by omega]
  | 2, ⟨low, high⟩ =>
      have front : c.toNat / 4096 % 0x10 = c.toNat / 4096 := Nat.mod_eq_of_lt (by omega)
      simp [String.utf8EncodeChar, tail, mark, front, show ¬ c.toNat ≤ 127 by omega,
        show ¬ c.toNat ≤ 2047 by omega, show c.toNat ≤ 65535 by omega]
  | 3, ⟨low, high⟩ =>
      have front : c.toNat / 262144 % 0x08 = c.toNat / 262144 := Nat.mod_eq_of_lt (by omega)
      simp [String.utf8EncodeChar, tail, mark, front, show ¬ c.toNat ≤ 127 by omega,
        show ¬ c.toNat ≤ 2047 by omega, show ¬ c.toNat ≤ 65535 by omega]

-----------------------------------------------------------------------------------------
-- Inside a character
-----------------------------------------------------------------------------------------

/-- Whether the bytes owed can still make this number. -/
def Begun.Allows (begun : Begun) (number : Nat) : Prop :=
  number / 64 ^ begun.owed = begun.payload
  ∧ begun.low ≤ number / 64 ^ (begun.owed - 1) % 64 + 0x80
  ∧ number / 64 ^ (begun.owed - 1) % 64 + 0x80 ≤ begun.high

/-- A character that has begun with these bytes: whatever number the bytes owed make, it is that of
a character with these bytes in front.
-/
structure Begun.With (begun : Begun) (bytes : Bytes) : Prop where
  taken : bytes.length = begun.taken
  owed : 0 < begun.owed
  low : 0x80 ≤ begun.low
  high : begun.high ≤ 0xbf
  whole
    : ∀ number,
        begun.Allows number
        → ∃ c : Char,
            c.toNat = number ∧ String.utf8EncodeChar c = bytes ++ tail begun.owed number

theorem toNat_ofNat {number : Nat} (valid : number.isValidChar)
    : (Char.ofNat number).toNat = number := by
  rw [Char.ofNat, dif_pos valid]
  rfl

/-- A first byte, if its bits and the bounds on the second byte leave open only numbers of
characters of this length.
-/
theorem Begun.With.ofLead {byte : UInt8} {payload owed low high : Nat}
    (lead : byte.toNat = payload + mark owed) (owing : 0 < owed)
    (bounds : 0x80 ≤ low ∧ high ≤ 0xbf)
    (scalar
      : ∀ number,
          Begun.Allows ⟨1, payload, owed, low, high⟩ number
          → Spans owed number ∧ (number < 0xd800 ∨ 0xdfff < number ∧ number < 0x110000))
    : Begun.With ⟨1, payload, owed, low, high⟩ [byte] := by
  refine ⟨rfl, owing, bounds.1, bounds.2, ?_⟩
  intro number allowed
  obtain ⟨spans, valid⟩ := scalar number allowed
  have same := toNat_ofNat valid
  have front : number / 64 ^ owed + mark owed = byte.toNat := by
    rw [lead]
    exact congrArg (· + mark owed) allowed.1
  refine ⟨Char.ofNat number, same, ?_⟩
  rw [utf8EncodeChar_eq (same.symm ▸ spans), same, front, UInt8.ofNat_toNat]
  rfl

/-- What a byte is taken as between characters. One that a character of several begins with leaves
open only numbers of characters, since the bounds on the second byte exclude those that are too
small, too large or surrogates.
-/
theorem first_cases (byte : UInt8)
    : (byte.toNat ≤ 0x7f ∧ first byte = ([.char (Char.ofNat byte.toNat) 1], none))
      ∨ (∃ begun, begun.With [byte] ∧ first byte = ([], some begun))
      ∨ first byte = ([.broken 1], none) := by
  generalize taken : first byte = result
  simp only [first] at taken
  repeat' split at taken
  all_goals subst taken
  · next ascii => exact .inl ⟨ascii, rfl⟩
  -- the last case is a byte that no character begins with, and the others differ only in numbers
  on_goal 8 => exact .inr (.inr rfl)
  all_goals
    refine .inr (.inl ⟨_, ?_, rfl⟩)
    refine .ofLead (by simp only [mark]; omega) (by decide) (by decide) fun number allowed => ?_
    simp only [Begun.Allows, Nat.reduceSub, Nat.reducePow, Nat.div_one] at allowed
    simp only [Spans]
    omega

/-- The first byte of a character of several leaves its number open, by cases on how many follow and
on the bytes for which the second one is bounded.
-/
theorem first_lead {c : Char} {owed : Nat} (owing : 0 < owed) (spans : Spans owed c.toNat)
    {byte : UInt8} (lead : byte.toNat = c.toNat / 64 ^ owed + mark owed)
    : ∃ payload low high,
        first byte = ([], some ⟨1, payload, owed, low, high⟩)
        ∧ Begun.Allows ⟨1, payload, owed, low, high⟩ c.toNat := by
  have scalar : c.toNat < 0xd800 ∨ 0xdfff < c.toNat ∧ c.toNat < 0x110000 := c.valid
  simp only [Begun.Allows]
  match owed, spans with
  | 1, ⟨low, high⟩ =>
      simp only [mark, Nat.reducePow, Nat.reduceSub, Nat.div_one] at lead ⊢
      refine ⟨byte.toNat % 0x20, 0x80, 0xbf, ?_, by omega⟩
      rw [first, if_neg (by omega), if_pos (by omega)]
  | 2, ⟨low, high⟩ =>
      simp only [mark, Nat.reducePow, Nat.reduceSub] at lead ⊢
      by_cases smallest : byte.toNat = 0xe0
      · refine ⟨byte.toNat % 0x10, 0xa0, 0xbf, ?_, by omega⟩
        rw [first, if_neg (by omega), if_neg (by omega), if_pos smallest]
      by_cases surrogate : byte.toNat = 0xed
      · refine ⟨byte.toNat % 0x10, 0x80, 0x9f, ?_, by omega⟩
        rw [first, if_neg (by omega), if_neg (by omega), if_neg smallest, if_pos surrogate]
      · refine ⟨byte.toNat % 0x10, 0x80, 0xbf, ?_, by omega⟩
        rw [first, if_neg (by omega), if_neg (by omega), if_neg smallest, if_neg surrogate,
          if_pos (by omega)]
  | 3, ⟨low, high⟩ =>
      simp only [mark, Nat.reducePow, Nat.reduceSub] at lead ⊢
      by_cases smallest : byte.toNat = 0xf0
      · refine ⟨byte.toNat % 0x08, 0x90, 0xbf, ?_, by omega⟩
        rw [first, if_neg (by omega), if_neg (by omega), if_neg (by omega), if_neg (by omega),
          if_neg (by omega), if_pos smallest]
      by_cases largest : byte.toNat = 0xf4
      · refine ⟨byte.toNat % 0x08, 0x80, 0x8f, ?_, by omega⟩
        rw [first, if_neg (by omega), if_neg (by omega), if_neg (by omega), if_neg (by omega),
          if_neg (by omega), if_neg smallest, if_pos largest]
      · refine ⟨byte.toNat % 0x08, 0x80, 0xbf, ?_, by omega⟩
        rw [first, if_neg (by omega), if_neg (by omega), if_neg (by omega), if_neg (by omega),
          if_neg (by omega), if_neg smallest, if_neg largest, if_pos (by omega)]

-----------------------------------------------------------------------------------------
-- The bytes of a text are read as it
-----------------------------------------------------------------------------------------

/-- A byte that the number allowed is made of leaves it open, or completes it. -/
theorem step_allowed {taken payload owed low high number : Nat}
    (allowed : Begun.Allows ⟨taken, payload, owed + 1, low, high⟩ number)
    : step (some ⟨taken, payload, owed + 1, low, high⟩)
        (UInt8.ofNat (number / 64 ^ owed % 64 + 0x80))
      = if owed = 0 then ([.char (Char.ofNat number) (taken + 1)], none)
        else ([], some ⟨taken + 1, number / 64 ^ owed, owed, 0x80, 0xbf⟩) := by
  have front : number / 64 ^ (owed + 1) = payload := allowed.1
  have bounds
      : low ≤ number / 64 ^ owed % 64 + 0x80 ∧ number / 64 ^ owed % 64 + 0x80 ≤ high :=
    allowed.2
  have onward : payload * 0x40 + (number / 64 ^ owed % 64 + 0x80) % 0x40 = number / 64 ^ owed := by
    have shorter : number / 64 ^ owed / 64 = payload := by
      rw [Nat.div_div_eq_div_mul, ← Nat.pow_succ]
      exact front
    omega
  simp only [step, toNat_continuation, onward, if_pos bounds]
  cases owed <;> simp

/-- The bytes owed complete a character that has begun, by induction on how many they are. -/
theorem takeAll_tail (pieces : List Piece) {taken payload owed low high number : Nat}
    (owing : 0 < owed) (allowed : Begun.Allows ⟨taken, payload, owed, low, high⟩ number)
    : Reader.takeAll ⟨pieces, some ⟨taken, payload, owed, low, high⟩⟩ (tail owed number)
      = ⟨.char (Char.ofNat number) (taken + owed) :: pieces, none⟩ := by
  induction owed generalizing taken payload low high with
  | zero => cases owing
  | succ owed ih =>
      have moved := step_allowed allowed
      simp only [tail, Reader.takeAll, List.foldl_cons, Reader.take, moved]
      rcases Nat.eq_zero_or_pos owed with rfl | more
      · rfl
      · have stays : Begun.Allows ⟨taken + 1, number / 64 ^ owed, owed, 0x80, 0xbf⟩ number := by
          refine ⟨rfl, ?_⟩
          dsimp only
          omega
        have onward := ih more stays
        simp only [if_neg (Nat.ne_of_gt more), List.reverse_nil, List.nil_append]
        rw [Reader.takeAll] at onward
        rw [onward, Nat.add_assoc, Nat.add_comm 1]

/-- A reader between characters takes a whole character. -/
theorem takeAll_utf8EncodeChar (pieces : List Piece) (c : Char)
    : ∃ length,
        Reader.takeAll ⟨pieces, none⟩ (String.utf8EncodeChar c)
        = ⟨.char c length :: pieces, none⟩ := by
  obtain ⟨owed, spans⟩ := exists_spans c
  rw [utf8EncodeChar_eq spans]
  have lead := toNat_lead spans
  rcases Nat.eq_zero_or_pos owed with rfl | owing
  · refine ⟨1, ?_⟩
    simp only [Nat.pow_zero, Nat.div_one, mark, Nat.add_zero] at lead
    have ascii : c.toNat ≤ 0x7f := spans
    simp [Reader.takeAll, Reader.take, step, first, mark, tail, lead, ascii]
  · obtain ⟨payload, low, high, begun, allowed⟩ := first_lead owing spans lead
    refine ⟨1 + owed, ?_⟩
    have onward := takeAll_tail pieces owing allowed
    rw [Char.ofNat_toNat] at onward
    rw [← onward]
    simp only [Reader.takeAll, List.foldl_cons, Reader.take, step, begun, List.reverse_nil,
      List.nil_append]

/-- A reader between characters takes a text character by character, by induction on them. -/
theorem takeAll_flatMap (pieces : List Piece) (chars : List Char)
    : ∃ read : List Piece,
        Reader.takeAll ⟨pieces, none⟩ (chars.flatMap String.utf8EncodeChar)
          = ⟨read.reverse ++ pieces, none⟩
        ∧ ∀ index, characters index read = .ok chars := by
  induction chars generalizing pieces with
  | nil => exact ⟨[], rfl, fun _ => rfl⟩
  | cons c rest ih =>
      obtain ⟨length, whole⟩ := takeAll_utf8EncodeChar pieces c
      obtain ⟨read, onward, same⟩ := ih (.char c length :: pieces)
      refine ⟨.char c length :: read, ?_, ?_⟩
      · rw [List.flatMap_cons, Reader.takeAll_append, whole, onward]
        simp
      · intro index
        rw [characters, same]
        rfl

/-- The bytes of a text are read as the text. -/
theorem decode_flatMap (chars : List Char)
    : decode (chars.flatMap String.utf8EncodeChar) = .ok chars := by
  obtain ⟨read, taken, same⟩ := takeAll_flatMap [] chars
  rw [decode, pieces, Reader.start, taken]
  simpa [Reader.finish] using same 0

-----------------------------------------------------------------------------------------
-- Whatever is read as a text is the bytes of it
-----------------------------------------------------------------------------------------

/-- Whether a piece is what these bytes are read as. -/
def Piece.Of : Piece → Bytes → Prop
  | .char c length, bytes => bytes = String.utf8EncodeChar c ∧ bytes.length = length
  | .broken length, bytes | .cut length, bytes => bytes.length = length

/-- The bytes of the character that a reader is inside of, or none between characters. -/
inductive Pending : Option Begun → Bytes → Prop
  | between : Pending none []
  | inside {begun bytes} (started : begun.With bytes) : Pending (some begun) bytes

/-- Whether these pieces and the character that has begun behind them are what bytes are read as. -/
def Reads (pieces : List Piece) (state : Option Begun) (bytes : Bytes) : Prop :=
  ∃ (chunks : List Bytes) (rest : Bytes),
    List.Forall₂ Piece.Of pieces chunks ∧ Pending state rest ∧ chunks.flatten ++ rest = bytes

/-- One byte between characters, by cases on what it is taken as. -/
theorem reads_first (byte : UInt8) : Reads (first byte).1 (first byte).2 [byte] := by
  rcases first_cases byte with ⟨ascii, taken⟩ | ⟨begun, started, taken⟩ | taken
  · have same : (Char.ofNat byte.toNat).toNat = byte.toNat := toNat_ofNat (.inl (by omega))
    have whole : String.utf8EncodeChar (Char.ofNat byte.toNat) = [byte] := by
      rw [utf8EncodeChar_eq (show Spans 0 _ by rw [same]; exact ascii), same]
      simp [mark, tail]
    rw [taken]
    exact ⟨[[byte]], [], .cons ⟨whole.symm, rfl⟩ .nil, .between, rfl⟩
  · rw [taken]
    exact ⟨[], [byte], .nil, .inside started, rfl⟩
  · rw [taken]
    exact ⟨[[byte]], [], .cons rfl .nil, .between, rfl⟩

/-- The numbers that a byte leaves open are among those that were open before it. -/
theorem Begun.With.continued {taken payload owed low high number : Nat} {bytes : Bytes}
    {byte : UInt8} (started : Begun.With ⟨taken, payload, owed + 1, low, high⟩ bytes)
    (inside : low ≤ byte.toNat ∧ byte.toNat ≤ high)
    (onward : number / 64 ^ owed = payload * 0x40 + byte.toNat % 0x40)
    : ∃ c : Char,
        c.toNat = number ∧ String.utf8EncodeChar c = bytes ++ [byte] ++ tail owed number := by
  have lowest : 0x80 ≤ low := started.low
  have highest : high ≤ 0xbf := started.high
  have bits : number / 64 ^ owed % 64 + 0x80 = byte.toNat := by omega
  have allowed : Begun.Allows ⟨taken, payload, owed + 1, low, high⟩ number := by
    have front : number / 64 ^ (owed + 1) = payload := by
      rw [Nat.pow_succ, ← Nat.div_div_eq_div_mul]
      omega
    refine ⟨front, ?_⟩
    simpa [bits] using inside
  obtain ⟨c, same, coded⟩ := started.whole number allowed
  refine ⟨c, same, ?_⟩
  rw [coded, tail, bits, UInt8.ofNat_toNat, List.append_assoc]
  rfl

/-- A byte that continues a character completes it or leaves it open. -/
theorem reads_continued {begun : Begun} {bytes : Bytes} (started : begun.With bytes) {byte : UInt8}
    (inside : begun.low ≤ byte.toNat ∧ byte.toNat ≤ begun.high)
    : Reads (step (some begun) byte).1 (step (some begun) byte).2 (bytes ++ [byte]) := by
  have length := started.taken
  have owing := started.owed
  obtain ⟨taken, payload, owed, low, high⟩ := begun
  rw [step, if_pos inside]
  match owed with
  | 1 =>
      obtain ⟨c, same, coded⟩ := started.continued inside (Nat.div_one _)
      refine ⟨[bytes ++ [byte]], [], .cons ⟨?_, by simp [length]⟩ .nil, .between, by simp⟩
      rw [← same, Char.ofNat_toNat, coded]
      simp [tail]
  | owed + 2 =>
      refine ⟨[], bytes ++ [byte], .nil, .inside ?_, rfl⟩
      refine ⟨by simp [length], by simp, by simp, by simp, ?_⟩
      intro number allowed
      exact started.continued inside allowed.1

/-- A byte leads to the pieces and the open character that the bytes pending and it are read as. -/
theorem reads_step {state : Option Begun} {bytes : Bytes} (pending : Pending state bytes)
    (byte : UInt8)
    : Reads (step state byte).1 (step state byte).2 (bytes ++ [byte]) := by
  cases pending with
  | between => exact reads_first byte
  | @inside begun _ started =>
      by_cases inside : begun.low ≤ byte.toNat ∧ byte.toNat ≤ begun.high
      · exact reads_continued started inside
      · rw [step, if_neg inside]
        obtain ⟨chunks, rest, spelt, pending, whole⟩ := reads_first byte
        refine ⟨bytes :: chunks, rest, .cons started.taken spelt, pending, ?_⟩
        rw [List.flatten_cons, List.append_assoc, whole]

/-- Reading on, by induction on the bytes. -/
theorem reads_takeAll {reader : Reader} {front : Bytes}
    (reads : Reads reader.pieces.reverse reader.begun front) (back : Bytes)
    : Reads (reader.takeAll back).pieces.reverse (reader.takeAll back).begun (front ++ back) := by
  induction back generalizing reader front with
  | nil => simpa [Reader.takeAll] using reads
  | cons byte back ih =>
      obtain ⟨chunks, begun, spelt, pending, whole⟩ := reads
      obtain ⟨more, rest, spelled, left, same⟩ := reads_step pending byte
      have taken
          : Reads (reader.take byte).pieces.reverse (reader.take byte).begun (front ++ [byte]) := by
        refine ⟨chunks ++ more, rest, ?_, left, ?_⟩
        · simpa [Reader.take] using List.rel_append spelt spelled
        · rw [List.flatten_append, List.append_assoc, same, ← whole, List.append_assoc]
      have onward := ih taken
      rw [List.append_assoc] at onward
      exact onward

/-- Bytes are cut up into the bytes of their pieces. -/
theorem pieces_of (bytes : Bytes)
    : ∃ chunks : List Bytes,
        List.Forall₂ Piece.Of (pieces bytes) chunks ∧ chunks.flatten = bytes := by
  have start : Reads Reader.start.pieces.reverse Reader.start.begun [] :=
    ⟨[], [], .nil, .between, rfl⟩
  obtain ⟨chunks, rest, spelt, pending, whole⟩ := reads_takeAll start bytes
  rw [List.nil_append] at whole
  rw [pieces, Reader.finish]
  generalize (Reader.start.takeAll bytes).begun = state at pending
  cases pending with
  | between => exact ⟨chunks, spelt, by simpa using whole⟩
  | @inside begun _ started =>
      have last : Piece.Of (.cut begun.taken) rest := started.taken
      refine ⟨chunks ++ [rest], ?_, by simpa using whole⟩
      simpa using List.rel_append spelt (.cons last .nil)

/-- Pieces that are all characters have the bytes of these, by induction on the pieces. -/
theorem flatten_of_characters {pieces : List Piece} {chunks : List Bytes}
    (spelt : List.Forall₂ Piece.Of pieces chunks) {index : Nat} {chars : List Char}
    (read : characters index pieces = .ok chars)
    : chars.flatMap String.utf8EncodeChar = chunks.flatten := by
  induction spelt generalizing index chars with
  | nil =>
      cases read
      rfl
  | @cons piece chunk pieces chunks of _ ih =>
      match piece, of with
      | .char c length, ⟨same, _⟩ =>
          rw [characters] at read
          cases onward : characters (index + length) pieces with
          | error failure =>
              rw [onward] at read
              cases read
          | ok rest =>
              rw [onward] at read
              cases read
              rw [List.flatMap_cons, List.flatten_cons, ih onward, same]
      | .broken _, _ | .cut _, _ => cases read

/-- Bytes are read as a text exactly if they are the bytes of it. -/
theorem decode_eq_ok_iff {bytes : Bytes} {chars : List Char}
    : decode bytes = .ok chars ↔ chars.flatMap String.utf8EncodeChar = bytes := by
  constructor
  · intro read
    obtain ⟨chunks, spelt, whole⟩ := pieces_of bytes
    rw [flatten_of_characters spelt read, whole]
  · intro same
    rw [← same]
    exact decode_flatMap chars

/-- Bytes are read as some text exactly if they are valid. -/
theorem isValidUTF8_iff {bytes : Bytes}
    : bytes.toByteArray.IsValidUTF8 ↔ ∃ chars, decode bytes = .ok chars := by
  simp only [decode_eq_ok_iff]
  constructor
  · intro ⟨chars, same⟩
    exact ⟨chars, (List.toByteArray_inj.mp same).symm⟩
  · intro ⟨chars, same⟩
    exact ⟨chars, congrArg List.toByteArray same.symm⟩

end KernelConformance.Utf8
