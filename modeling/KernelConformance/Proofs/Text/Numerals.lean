import KernelConformance.Text.Decimal

/-! Reading back the decimal text of a number: it gives the number if it is of the wanted kind, and
else says that the number is too large or too small.
-/

namespace KernelConformance.Decimal

/-- A number with a sign in front. -/
def signed (negative : Bool) (n : Nat) : Int := if negative then -n else n

/-- Whether a number is on the right side of the bound that a reader checks for its sign. -/
def Kind.Fits (kind : Kind) (negative : Bool) (value : Int) : Prop :=
  if negative then kind.low ≤ value else value ≤ kind.high

instance (kind : Kind) (negative : Bool) (value : Int) : Decidable (kind.Fits negative value) :=
  inferInstanceAs (Decidable (if negative then _ else _))

/-- The error of a reader at its bound. -/
def outside (negative : Bool) : ReadError := if negative then .tooSmall else .tooLarge

theorem digit?_digitChar : ∀ n < 10, digit? (Nat.digitChar n) = some n := by
  decide

/-- One digit more, checked against the bound. -/
theorem readDigits_digitChar (kind : Kind) (negative : Bool) (value : Int) {digit : Nat}
    (small : digit < 10)
    : readDigits kind negative value [Nat.digitChar digit]
      = if kind.Fits negative (value * 10 + signed negative digit)
        then .ok (value * 10 + signed negative digit)
        else .error (outside negative) := by
  simp only [readDigits, digit?_digitChar digit small]
  cases negative with
  | true =>
      simp only [Kind.Fits, signed, outside, if_true, Int.sub_eq_add_neg]
      split <;> split <;> first | rfl | omega
  | false =>
      simp only [Kind.Fits, signed, outside, Bool.false_eq_true, if_false]
      split <;> split <;> first | rfl | omega

/-- Reading on from the value of the first digits, by induction on them. -/
theorem readDigits_append (kind : Kind) (negative : Bool) (value : Int) (front back : List Char)
    : readDigits kind negative value (front ++ back)
      = (readDigits kind negative value front).bind fun next =>
        readDigits kind negative next back := by
  induction front generalizing value with
  | nil => rfl
  | cons c front ih =>
      simp only [List.cons_append, readDigits]
      split
      · rfl
      · split <;> split <;> first | rfl | exact ih _

/-- The digits of a number read as the number, with the sign in front of it, as far as it fits. By
induction on the number without its last digit: if that does not fit, neither does the number.
-/
theorem readDigits_toDigits {kind : Kind} (low : kind.low ≤ 0) (high : 0 ≤ kind.high)
    (negative : Bool) (n : Nat)
    : readDigits kind negative 0 (Nat.toDigits 10 n)
      = if kind.Fits negative (signed negative n) then .ok (signed negative n)
        else .error (outside negative) := by
  induction n using Nat.strongRecOn with
  | ind n ih =>
      rcases Nat.lt_or_ge n 10 with small | large
      · rw [Nat.toDigits_of_lt_base small, readDigits_digitChar kind negative 0 small]
        simp
      · rw [Nat.toDigits_of_base_le (by decide) large, readDigits_append,
          ih (n / 10) (Nat.div_lt_self (by omega) (by decide))]
        have whole
            : signed negative (n / 10) * 10 + signed negative (n % 10) = signed negative n := by
          cases negative <;> simp [signed] <;> omega
        have smaller (fits : kind.Fits negative (signed negative n))
            : kind.Fits negative (signed negative (n / 10)) := by
          cases negative <;> simp [Kind.Fits, signed] at fits ⊢ <;> omega
        by_cases fits : kind.Fits negative (signed negative (n / 10))
        · rw [if_pos fits]
          change readDigits kind negative (signed negative (n / 10)) _ = _
          rw [readDigits_digitChar kind negative _ (Nat.mod_lt n (by decide)), whole]
        · rw [if_neg fits, if_neg fun all => fits (smaller all)]
          rfl

/-- A text without a sign is read as digits. -/
theorem readChars_unsigned (kind : Kind) {c : Char} {rest : List Char} (plus : c ≠ '+')
    (minus : c ≠ '-')
    : readChars kind (c :: rest) = readDigits kind false 0 (c :: rest) := by
  unfold readChars
  split <;> simp_all

theorem readChars_of_digit (kind : Kind) {c : Char} {rest : List Char} (digit : c.isDigit = true)
    : readChars kind (c :: rest) = readDigits kind false 0 (c :: rest) := by
  apply readChars_unsigned
  · intro plus
    rw [plus] at digit
    cases digit
  · intro minus
    rw [minus] at digit
    cases digit

/-- Reading the text of a natural number. -/
theorem read_toString {kind : Kind} (low : kind.low ≤ 0) (high : 0 ≤ kind.high) (n : Nat)
    : read kind (toString n) = if (n : Int) ≤ kind.high then .ok n else .error .tooLarge := by
  have digits := readDigits_toDigits low high false n
  rw [read, Nat.toString_eq_ofList_toDigits, String.toList_ofList]
  rcases cut : Nat.toDigits 10 n with _ | ⟨c, rest⟩
  · exact absurd cut Nat.toDigits_ne_nil
  · have first : c ∈ Nat.toDigits 10 n := cut ▸ List.mem_cons_self
    have digit := Nat.isDigit_of_mem_toDigits (by decide) (by decide) first
    rw [readChars_of_digit kind digit, ← cut, digits]
    rfl

theorem readNat64_toString (n : Nat)
    : readNat64 (toString n)
      = if n ≤ 18446744073709551615 then .ok n else .error .tooLarge := by
  have bound : (n : Int) ≤ unsigned64.high ↔ n ≤ 18446744073709551615 := by
    simp only [unsigned64]
    omega
  simp only [readNat64, @read_toString unsigned64 (by decide) (by decide), bound]
  split <;> rfl

theorem readInt32_toString (n : Nat)
    : readInt32 (toString n)
      = if n ≤ 2147483647 then .ok (Int32.ofNat n) else .error .tooLarge := by
  have bound : (n : Int) ≤ signed32.high ↔ n ≤ 2147483647 := by
    simp only [signed32]
    omega
  simp only [readInt32, @read_toString signed32 (by decide) (by decide), bound]
  split <;> rfl

/-- A text with a minus sign in front of digits is read as digits too, by cases on the digits. -/
theorem readChars_minus {kind : Kind} (low : kind.low < 0) {digits : List Char}
    (some : digits ≠ [])
    : readChars kind ('-' :: digits) = readDigits kind true 0 digits := by
  cases digits with
  | nil => exact absurd rfl some
  | cons c rest => exact if_pos low

theorem toList_toString_negSucc (n : Nat)
    : (toString (Int.negSucc n)).toList = '-' :: Nat.toDigits 10 (n + 1) := by
  simp [Int.toString_eq_repr, Int.repr, Nat.repr]

/-- What is written for a 32-bit integer: digits, after a minus sign if it is negative. -/
theorem toList_write (value : Int32)
    : (∃ n : Nat, value.toInt = n ∧ (write value).toList = Nat.toDigits 10 n)
      ∨ ∃ n : Nat, value.toInt = -n ∧ (write value).toList = '-' :: Nat.toDigits 10 n := by
  rw [write]
  cases value.toInt with
  | ofNat n => exact .inl ⟨n, rfl, String.toList_ofList⟩
  | negSucc n => exact .inr ⟨n + 1, rfl, toList_toString_negSucc n⟩

/-- What is written for a 32-bit integer reads as it, by cases on its sign. -/
theorem readChars_write (value : Int32)
    : readChars signed32 (write value).toList = .ok value.toInt := by
  have lower := value.le_toInt
  have upper := value.toInt_lt
  rcases toList_write value with ⟨n, whole, text⟩ | ⟨n, whole, text⟩
  · have bound : (n : Int) ≤ signed32.high := by
      simp only [signed32]
      omega
    have read := @read_toString signed32 (by decide) (by decide) n
    rw [if_pos bound, Decimal.read, Nat.toString_eq_ofList_toDigits, String.toList_ofList] at read
    rw [text, whole, read]
  · have bound : signed32.Fits true (signed true n) := by
      simp only [Kind.Fits, signed, signed32, if_true]
      omega
    rw [text, whole, readChars_minus (by decide) Nat.toDigits_ne_nil,
      readDigits_toDigits (by decide) (by decide), if_pos bound]
    rfl

/-- Different integers have different texts, as each text is read back. -/
theorem write_injective : Function.Injective write := by
  intro value other same
  have read := readChars_write value
  rw [same, readChars_write other] at read
  exact (Int32.toInt.inj (Except.ok.inj read)).symm

end KernelConformance.Decimal
