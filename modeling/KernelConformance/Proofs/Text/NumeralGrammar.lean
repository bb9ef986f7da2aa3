import KernelConformance.Proofs.Text.Numerals

/-! Which texts are read as numbers, and which of them are those that are written. Numerals are a
sign, if any, and digits; of the many that denote a number the one that is written is the shortest.
-/

namespace KernelConformance.Decimal

-----------------------------------------------------------------------------------------
-- Digits and their number
-----------------------------------------------------------------------------------------

/-- One or more digits. -/
def Digits (chars : List Char) : Prop := chars ≠ [] ∧ ∀ c ∈ chars, c.isDigit = true

/-- The number that digits stand for. -/
def worth (digits : List Char) : Nat := Nat.ofDigitChars 10 digits 0

theorem digit?_eq (c : Char)
    : digit? c = if c.isDigit = true then some (c.toNat - '0'.toNat) else none := by
  have same : ('0' ≤ c ∧ c ≤ '9') ↔ c.isDigit = true := by
    rw [Char.isDigit_iff_toNat]
    exact Iff.rfl
  simp only [digit?, same]

theorem digitChar_toNat {c : Char} (digit : c.isDigit = true)
    : c.toNat - '0'.toNat < 10 ∧ Nat.digitChar (c.toNat - '0'.toNat) = c := by
  have bounds : 48 ≤ c.toNat ∧ c.toNat ≤ 57 := Char.isDigit_iff_toNat.mp digit
  have small : c.toNat - 48 < 10 := by omega
  refine ⟨small, Char.toNat_inj.mp ?_⟩
  rw [show '0'.toNat = 48 from rfl, Nat.toNat_digitChar_of_lt_ten small]
  omega

/-- More digits make no smaller number. -/
theorem le_ofDigitChars (digits : List Char) (n : Nat) : n ≤ Nat.ofDigitChars 10 digits n := by
  rw [Nat.ofDigitChars_eq_ofDigitChars_zero]
  exact Nat.le_add_right_of_le (Nat.le_mul_of_pos_left n (Nat.pow_pos (by decide)))

-----------------------------------------------------------------------------------------
-- Reading digits
-----------------------------------------------------------------------------------------

/-- A number that fits leaves all smaller ones of its sign inside the bound. -/
theorem Kind.Fits.mono {kind : Kind} {negative : Bool} {n m : Nat} (smaller : n ≤ m)
    (fits : kind.Fits negative (signed negative m))
    : kind.Fits negative (signed negative n) := by
  cases negative <;> simp [Kind.Fits, signed] at fits ⊢ <;> omega

/-- One more character, checked against the bound if it is a digit. -/
theorem readDigits_cons (kind : Kind) (negative : Bool) (n : Nat) (c : Char) (rest : List Char)
    : readDigits kind negative (signed negative n) (c :: rest)
      = if c.isDigit = true then
          let next := 10 * n + (c.toNat - '0'.toNat)
          if kind.Fits negative (signed negative next)
          then readDigits kind negative (signed negative next) rest
          else .error (outside negative)
        else .error .invalidDigit := by
  rw [readDigits, digit?_eq]
  by_cases digit : c.isDigit = true
  · simp only [if_pos digit]
    generalize c.toNat - '0'.toNat = d
    cases negative with
    | true =>
        have next : -(n : Int) * 10 - d = -(10 * n + d : Nat) := by omega
        simp only [signed, Kind.Fits, outside, if_true, next]
        split <;> split <;> first | rfl | omega
    | false =>
        have next : (n : Int) * 10 + d = (10 * n + d : Nat) := by omega
        simp only [signed, Kind.Fits, outside, Bool.false_eq_true, if_false, next]
        split <;> split <;> first | rfl | omega
  · simp only [if_neg digit]

/-- Digits are read as the number they make together with those before them, if it is inside the
bound, by induction on them.
-/
theorem readDigits_eq_ok_iff {kind : Kind} {negative : Bool} {n : Nat} {chars : List Char}
    {value : Int} (fits : kind.Fits negative (signed negative n))
    : readDigits kind negative (signed negative n) chars = .ok value
      ↔ (∀ c ∈ chars, c.isDigit = true)
        ∧ value = signed negative (Nat.ofDigitChars 10 chars n)
        ∧ kind.Fits negative value := by
  induction chars generalizing n with
  | nil =>
      rw [readDigits, Except.ok.injEq, Nat.ofDigitChars_nil]
      constructor
      · intro same
        exact ⟨by simp, same.symm, same ▸ fits⟩
      · intro known
        exact known.2.1.symm
  | cons c rest ih =>
      rw [readDigits_cons, Nat.ofDigitChars_cons, List.forall_mem_cons]
      by_cases digit : c.isDigit = true
      · simp only [digit, if_true, true_and]
        by_cases inside : kind.Fits negative (signed negative (10 * n + (c.toNat - '0'.toNat)))
        · rw [if_pos inside]
          exact ih inside
        · rw [if_neg inside]
          constructor
          · intro impossible
            cases impossible
          · intro known
            obtain ⟨-, same, within⟩ := known
            rw [same] at within
            exact absurd (within.mono (le_ofDigitChars rest _)) inside
      · simp [digit]

-----------------------------------------------------------------------------------------
-- Numerals
-----------------------------------------------------------------------------------------

/-- A numeral is digits, with a sign in front or without one. -/
inductive Denotes : List Char → Int → Prop
  | unsigned {digits} (numeral : Digits digits) : Denotes digits (worth digits)
  | plus {digits} (numeral : Digits digits) : Denotes ('+' :: digits) (worth digits)
  | minus {digits} (numeral : Digits digits) : Denotes ('-' :: digits) (-worth digits)

theorem not_digits_cons {c : Char} {rest : List Char} (other : c.isDigit = false)
    : ¬ Digits (c :: rest) := by
  intro numeral
  rw [numeral.2 c List.mem_cons_self] at other
  cases other

theorem denotes_plus_iff {digits : List Char} {value : Int}
    : Denotes ('+' :: digits) value ↔ Digits digits ∧ value = worth digits := by
  constructor
  · intro denotes
    cases denotes with
    | unsigned numeral => exact absurd numeral (not_digits_cons rfl)
    | plus numeral => exact ⟨numeral, rfl⟩
  · intro ⟨numeral, same⟩
    exact same ▸ .plus numeral

theorem denotes_minus_iff {digits : List Char} {value : Int}
    : Denotes ('-' :: digits) value ↔ Digits digits ∧ value = -worth digits := by
  constructor
  · intro denotes
    cases denotes with
    | unsigned numeral => exact absurd numeral (not_digits_cons rfl)
    | minus numeral => exact ⟨numeral, rfl⟩
  · intro ⟨numeral, same⟩
    exact same ▸ .minus numeral

theorem denotes_unsigned_iff {chars : List Char} {value : Int}
    (plain : chars.head? ≠ some '+' ∧ chars.head? ≠ some '-')
    : Denotes chars value ↔ Digits chars ∧ value = worth chars := by
  constructor
  · intro denotes
    cases denotes with
    | unsigned numeral => exact ⟨numeral, rfl⟩
    | plus _ => exact absurd rfl plain.1
    | minus _ => exact absurd rfl plain.2
  · intro ⟨numeral, same⟩
    exact same ▸ .unsigned numeral

/-- A numeral has one number, by cases on its sign. -/
theorem Denotes.unique {chars : List Char} {value other : Int} (denotes : Denotes chars value)
    (again : Denotes chars other)
    : value = other := by
  cases denotes with
  | unsigned numeral =>
      cases again with
      | unsigned _ => rfl
      | plus _ => exact absurd numeral (not_digits_cons rfl)
      | minus _ => exact absurd numeral (not_digits_cons rfl)
  | plus _ => exact (denotes_plus_iff.mp again).2.symm
  | minus _ => exact (denotes_minus_iff.mp again).2.symm

/-- Digits behind a sign are read as the number with the sign, if it is inside the bound. -/
theorem readDigits_zero {kind : Kind} (low : kind.low ≤ 0) (high : 0 ≤ kind.high) {negative : Bool}
    {chars : List Char} (some : chars ≠ []) {value : Int}
    : readDigits kind negative 0 chars = .ok value
      ↔ (Digits chars ∧ value = signed negative (worth chars))
        ∧ kind.low ≤ value
        ∧ value ≤ kind.high := by
  have zero : signed negative 0 = 0 := by cases negative <;> rfl
  have fits : kind.Fits negative (signed negative 0) := by
    cases negative <;> simpa [Kind.Fits, signed]
  have read := @readDigits_eq_ok_iff kind negative 0 chars value fits
  rw [zero] at read
  rw [read]
  constructor
  · intro known
    obtain ⟨digits, same, within⟩ := known
    refine ⟨⟨⟨some, digits⟩, same⟩, ?_⟩
    cases negative <;> simp [Kind.Fits, signed] at same within <;> omega
  · intro known
    obtain ⟨⟨numeral, same⟩, lower, upper⟩ := known
    refine ⟨numeral.2, same, ?_⟩
    cases negative <;> simpa [Kind.Fits]

/-- The texts that are read as a number are its numerals, if it is of the wanted kind. Where no
number is negative, no text with a minus sign is read, not even for zero.
-/
theorem readChars_eq_ok_iff {kind : Kind} (low : kind.low ≤ 0) (high : 0 ≤ kind.high)
    {chars : List Char} {value : Int}
    : readChars kind chars = .ok value
      ↔ Denotes chars value
        ∧ (kind.low ≤ value ∧ value ≤ kind.high)
        ∧ (chars.head? = some '-' → kind.low < 0) := by
  have signless : ¬ Digits [] := fun numeral => numeral.1 rfl
  cases chars with
  | nil =>
      have nothing : ¬ Denotes [] value := by
        rw [denotes_unsigned_iff (by simp)]
        exact fun numeral => signless numeral.1
      simp [readChars, nothing]
  | cons c rest =>
      by_cases plus : c = '+'
      · subst plus
        rw [denotes_plus_iff]
        cases rest with
        | nil => simp [readChars, signless]
        | cons d rest =>
            rw [readChars, readDigits_zero low high (by simp)]
            · simp [signed]
            · simp
      by_cases minus : c = '-'
      · subst minus
        rw [denotes_minus_iff]
        cases rest with
        | nil => simp [readChars, signless]
        | cons d rest =>
            by_cases below : kind.low < 0
            · rw [readChars_minus below (by simp), readDigits_zero low high (by simp)]
              simp [signed, below]
            · simp [readChars, below]
      · rw [denotes_unsigned_iff (by simp [plus, minus]), readChars_unsigned kind plus minus,
          readDigits_zero low high (by simp)]
        simp [signed, minus]

-----------------------------------------------------------------------------------------
-- The numerals that are written
-----------------------------------------------------------------------------------------

/-- Digits without a zero in front that could be left out. -/
def Shortest (digits : List Char) : Prop :=
  Digits digits ∧ (digits.head? = some '0' → digits = ['0'])

/-- A numeral with the fewest characters: the shortest digits, after a minus sign if the number is
negative, and without a sign if it is not.
-/
inductive Canonical : List Char → Int → Prop
  | natural {digits} (shortest : Shortest digits) : Canonical digits (worth digits)
  | negative {digits} (shortest : Shortest digits) (nonzero : digits ≠ ['0'])
    : Canonical ('-' :: digits) (-worth digits)

/-- Digits behind those of a positive number are the last ones of a longer number, by induction on
them.
-/
theorem toDigits_append {n : Nat} (positive : 0 < n) {digits : List Char}
    (all : ∀ c ∈ digits, c.isDigit = true)
    : Nat.toDigits 10 n ++ digits = Nat.toDigits 10 (Nat.ofDigitChars 10 digits n) := by
  induction digits generalizing n with
  | nil => simp
  | cons c rest ih =>
      obtain ⟨digit, others⟩ := List.forall_mem_cons.mp all
      obtain ⟨small, same⟩ := digitChar_toNat digit
      have longer := Nat.toDigits_append_toDigits (by decide : 1 < 10) positive small
      rw [Nat.toDigits_of_lt_base small, same] at longer
      rw [Nat.ofDigitChars_cons, ← ih (by omega) others, ← longer, List.append_assoc]
      rfl

/-- The digits of a positive number do not begin with a zero, by induction on the number without its
last digit.
-/
theorem head?_toDigits {n : Nat} (positive : 0 < n) : (Nat.toDigits 10 n).head? ≠ some '0' := by
  induction n using Nat.strongRecOn with
  | ind n ih =>
      rcases Nat.lt_or_ge n 10 with small | large
      · rw [Nat.toDigits_of_lt_base small, List.head?_cons]
        intro zero
        have nothing := Nat.digitChar_eq_zero.mp (Option.some.inj zero)
        omega
      · have shorter := ih (n / 10) (Nat.div_lt_self positive (by decide)) (by omega)
        rw [Nat.toDigits_of_base_le (by decide) large]
        cases front : Nat.toDigits 10 (n / 10) with
        | nil => exact absurd front Nat.toDigits_ne_nil
        | cons c rest =>
            rw [front] at shorter
            exact shorter

/-- The shortest digits are those that a number is written with. -/
theorem shortest_iff {digits : List Char}
    : Shortest digits ↔ digits = Nat.toDigits 10 (worth digits) := by
  constructor
  · intro ⟨⟨any, all⟩, least⟩
    cases digits with
    | nil => exact absurd rfl any
    | cons c rest =>
        by_cases zero : c = '0'
        · rw [least (by rw [zero]; rfl)]
          rfl
        · obtain ⟨digit, others⟩ := List.forall_mem_cons.mp all
          obtain ⟨small, same⟩ := digitChar_toNat digit
          have positive : 0 < c.toNat - '0'.toNat := by
            apply Nat.pos_of_ne_zero
            intro nothing
            rw [nothing] at same
            exact zero same.symm
          have longer := toDigits_append positive others
          rw [Nat.toDigits_of_lt_base small, same] at longer
          rw [worth, Nat.ofDigitChars_cons, Nat.mul_zero, Nat.zero_add, ← longer]
          rfl
  · intro same
    refine ⟨⟨same ▸ Nat.toDigits_ne_nil, ?_⟩, ?_⟩
    · intro c member
      rw [same] at member
      exact Nat.isDigit_of_mem_toDigits (by decide) (by decide) member
    · intro zero
      rcases Nat.eq_zero_or_pos (worth digits) with nothing | positive
      · rw [same, nothing, Nat.toDigits_zero]
      · rw [same] at zero
        exact absurd zero (head?_toDigits positive)

theorem shortest_toDigits (n : Nat) : Shortest (Nat.toDigits 10 n) := by
  rw [shortest_iff, worth, Nat.ofDigitChars_ten_toDigits]

/-- A numeral is canonical exactly if it is the one that is written for its number. -/
theorem canonical_iff {chars : List Char} {value : Int}
    : Canonical chars value ↔ chars = (toString value).toList := by
  constructor
  · intro canonical
    cases canonical with
    | natural shortest =>
        rw [shortest_iff] at shortest
        exact shortest.trans String.toList_ofList.symm
    | @negative digits shortest nonzero =>
        rw [shortest_iff] at shortest
        cases number : worth digits with
        | zero =>
            rw [number, Nat.toDigits_zero] at shortest
            exact absurd shortest nonzero
        | succ n =>
            rw [number] at shortest
            exact (congrArg ('-' :: ·) shortest).trans (toList_toString_negSucc n).symm
  · intro same
    subst same
    have written (n : Nat) : worth (Nat.toDigits 10 n) = n := Nat.ofDigitChars_ten_toDigits
    cases value with
    | ofNat n =>
        have natural := Canonical.natural (shortest_toDigits n)
        rw [written] at natural
        exact String.toList_ofList.symm ▸ natural
    | negSucc n =>
        have nonzero : Nat.toDigits 10 (n + 1) ≠ ['0'] := by
          intro zero
          exact head?_toDigits (Nat.succ_pos n) (zero ▸ rfl)
        have negative := Canonical.negative (shortest_toDigits (n + 1)) nonzero
        rw [written, ← toList_toString_negSucc] at negative
        exact negative

end KernelConformance.Decimal
