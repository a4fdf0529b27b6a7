/-!
# Decimal numerals

Whole numbers in decimal digits.  Reading takes an optional sign and at least
one digit, and leading zeros are allowed; writing gives the one form without a
plus sign and without leading zeros.  What is written reads back.
-/

namespace VersionedColumns.Text

/-- Take a sign off the front; the flag tells whether it was a minus. -/
def takeSign : List Char → Bool × List Char
  | '-' :: rest => (true, rest)
  | '+' :: rest => (false, rest)
  | text => (false, text)

/-- The number that a run of digits denotes. -/
def ofDigits (digits : List Char) : Nat :=
  Nat.ofDigitChars 10 digits 0

/-- Read a whole number: an optional sign, then digits only. -/
def readInteger? (text : List Char) : Option Int :=
  match takeSign text with
  | (_, []) => none
  | (negative, digits) =>
    if digits.all Char.isDigit then
      some (if negative then -(ofDigits digits : Int) else ofDigits digits)
    else none

/-- The digits of a natural number, most significant first. -/
def naturalDigits (number : Nat) : List Char :=
  Nat.toDigits 10 number

/-- A whole number in decimal digits, with a minus sign when it is negative. -/
def writeInteger (number : Int) : List Char :=
  if number < 0 then '-' :: naturalDigits number.natAbs
  else naturalDigits number.natAbs

@[simp]
theorem ofDigits_naturalDigits (number : Nat) :
    ofDigits (naturalDigits number) = number :=
  Nat.ofDigitChars_toDigits (by decide) (by decide)

theorem isDigit_of_mem_naturalDigits {number : Nat} {digit : Char}
    (member : digit ∈ naturalDigits number) : digit.isDigit = true :=
  Nat.isDigit_of_mem_toDigits (by decide) (by decide) member

theorem naturalDigits_ne_nil (number : Nat) : naturalDigits number ≠ [] := by
  rw [naturalDigits, Nat.toDigits_eq_if (by decide)]
  split <;> simp

/-- Digits carry no sign. -/
theorem takeSign_of_digits {text : List Char}
    (digits : ∀ character ∈ text, character.isDigit = true) :
    takeSign text = (false, text) := by
  cases text with
  | nil => rfl
  | cons first rest =>
    have isDigit := digits first (by simp)
    unfold takeSign
    split
    · rename_i same; injection same with same; subst same
      exact absurd isDigit (by decide)
    · rename_i same; injection same with same; subst same
      exact absurd isDigit (by decide)
    · rfl

/-- A written number reads back. -/
theorem readInteger?_writeInteger (number : Int) :
    readInteger? (writeInteger number) = some number := by
  have digits : ∀ character ∈ naturalDigits number.natAbs,
      character.isDigit = true :=
    fun _ member => isDigit_of_mem_naturalDigits member
  have nonempty := naturalDigits_ne_nil number.natAbs
  have sign :
      takeSign (writeInteger number) =
        (decide (number < 0), naturalDigits number.natAbs) := by
    by_cases negative : number < 0
    · simp [writeInteger, negative, takeSign]
    · simp [writeInteger, negative, takeSign_of_digits digits]
  unfold readInteger?
  rw [sign]
  split
  · rename_i shape; injection shape; contradiction
  · rename_i shape
    injection shape with flag same
    subst flag same
    rw [if_pos (List.all_eq_true.2 digits), ofDigits_naturalDigits]
    by_cases negative : number < 0
    · have size : -(number.natAbs : Int) = number := by omega
      rw [if_pos (decide_eq_true negative), size]
    · have size : (number.natAbs : Int) = number := by omega
      rw [if_neg (by simpa using negative), size]

end VersionedColumns.Text
