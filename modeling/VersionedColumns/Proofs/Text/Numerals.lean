import Mathlib.Data.List.Induction
import Mathlib.Data.List.TakeWhile
import Mathlib.Data.Nat.Digits.Defs
import VersionedColumns.Text.Blank
import VersionedColumns.Text.Numeral

/-!
# Numerals and the numbers they denote

A numeral is an optional sign and one or more decimal digits.  It denotes the
number that its digits have by their places, and leading zeros are allowed.
The reader takes numerals and nothing else, with any blanks around them.

Of all the numerals of a number one is canonical: it has no plus sign and no
leading zeros, and a minus sign only if the number is negative.  That is the
numeral which the writer gives.
-/

namespace VersionedColumns.Text

/-! ## Numerals -/

/-- One or more of the digits from `0` to `9`, and nothing else. -/
structure IsDigitRun (text : List Char) : Prop where
  ne_nil : text ≠ []
  digits : ∀ character ∈ text, '0' ≤ character ∧ character ≤ '9'

/-- The number of a run of digits, each with the weight of its place. -/
def placeValue (digits : List Char) : Nat :=
  Nat.ofDigits 10 (digits.reverse.map fun digit => digit.toNat - '0'.toNat)

/-- A numeral and its number. -/
inductive Denotes : List Char → Int → Prop
  | unsigned {digits : List Char} (run : IsDigitRun digits) :
      Denotes digits (placeValue digits)
  | plus {digits : List Char} (run : IsDigitRun digits) :
      Denotes ('+' :: digits) (placeValue digits)
  | minus {digits : List Char} (run : IsDigitRun digits) :
      Denotes ('-' :: digits) (-placeValue digits)

theorem isDigit_iff {character : Char} :
    character.isDigit = true ↔ '0' ≤ character ∧ character ≤ '9' := by
  simp [Char.isDigit, Char.le_def]

theorem isDigitRun_iff {text : List Char} :
    IsDigitRun text ↔ text ≠ [] ∧ text.all Char.isDigit = true := by
  rw [List.all_eq_true]
  constructor
  · rintro ⟨nonempty, digits⟩
    exact ⟨nonempty, fun character member => isDigit_iff.2 (digits _ member)⟩
  · rintro ⟨nonempty, digits⟩
    exact ⟨nonempty, fun character member => isDigit_iff.1 (digits _ member)⟩

/-- To read digits from the left gives each the weight of its place. -/
theorem ofDigits_eq_placeValue (digits : List Char) :
    ofDigits digits = placeValue digits := by
  induction digits using List.reverseRecOn with
  | nil => rfl
  | append_singleton digits last induction =>
      have step : ofDigits (digits ++ [last]) =
          10 * ofDigits digits + (last.toNat - '0'.toNat) := by
        rw [ofDigits, Nat.ofDigitChars_append]
        rfl
      rw [step, induction, placeValue, placeValue, List.reverse_append,
        List.reverse_singleton, List.singleton_append, List.map_cons,
        Nat.ofDigits_cons, Nat.add_comm]

/-- Behind its sign a run of digits is read. -/
theorem readInteger?_of_takeSign {text digits : List Char} {negative : Bool}
    (signed : takeSign text = (negative, digits)) (run : IsDigitRun digits) :
    readInteger? text =
      some (if negative then -(placeValue digits : Int)
        else placeValue digits) := by
  have all := (isDigitRun_iff.1 run).2
  rw [readInteger?, signed]
  split
  · rename_i empty
    cases empty
    exact absurd rfl run.ne_nil
  · rename_i same
    cases same
    rw [if_pos all, ofDigits_eq_placeValue]

/-- The reader takes exactly the numerals, as the numbers they denote. -/
theorem readInteger?_eq_some_iff {text : List Char} {number : Int} :
    readInteger? text = some number ↔ Denotes text number := by
  constructor
  · intro read
    rw [readInteger?] at read
    split at read
    · cases read
    · rename_i negative digits filled signed
      split at read
      · rename_i all
        have run : IsDigitRun digits := isDigitRun_iff.2 ⟨filled, all⟩
        rw [ofDigits_eq_placeValue] at read
        rw [takeSign.eq_def] at signed
        split at signed <;> (cases signed; cases read)
        · exact .minus run
        · exact .plus run
        · exact .unsigned run
      · cases read
  · rintro (run | run | run)
    · have digits := fun character member =>
        isDigit_iff.2 (run.digits character member)
      exact readInteger?_of_takeSign (takeSign_of_digits digits) run
    · exact readInteger?_of_takeSign rfl run
    · exact readInteger?_of_takeSign rfl run

/-- A numeral denotes one number. -/
theorem Denotes.unique {text : List Char} {first second : Int}
    (one : Denotes text first) (other : Denotes text second) :
    first = second := by
  rw [← readInteger?_eq_some_iff] at one other
  exact Option.some.inj (one.symm.trans other)

/-! ## Blanks around a numeral -/

/-- The text has the core between blanks. -/
def Pads (core text : List Char) : Prop :=
  ∃ before after, text = before ++ core ++ after ∧
    (∀ character ∈ before, isBlank character = true) ∧
      ∀ character ∈ after, isBlank character = true

/-- The text has a numeral of the number between blanks. -/
def Reads (text : List Char) (number : Int) : Prop :=
  ∃ numeral, Pads numeral text ∧ Denotes numeral number

theorem Pads.refl (text : List Char) : Pads text text :=
  ⟨[], [], (List.append_nil text).symm, List.forall_mem_nil _,
    List.forall_mem_nil _⟩

/-- What is trimmed away are blanks. -/
theorem pads_trim (text : List Char) : Pads (trim text) text := by
  have front (text : List Char) :
      text.takeWhile isBlank ++ text.dropWhile isBlank = text :=
    List.takeWhile_append_dropWhile
  have back : trim text ++
      ((text.dropWhile isBlank).reverse.takeWhile isBlank).reverse =
        text.dropWhile isBlank := by
    rw [trim, trimEnd, ← List.reverse_append, front, List.reverse_reverse]
  refine
    ⟨text.takeWhile isBlank,
      ((text.dropWhile isBlank).reverse.takeWhile isBlank).reverse, ?_, ?_, ?_⟩
  · rw [List.append_assoc, back, front]
  · exact fun _ member => List.mem_takeWhile_imp member
  · exact fun _ member => List.mem_takeWhile_imp (List.mem_reverse.1 member)

theorem dropWhile_isBlank_of_solid {text : List Char}
    (solid : ∀ character ∈ text, isBlank character = false) :
    text.dropWhile isBlank = text := by
  cases text with
  | nil => rfl
  | cons first rest =>
      rw [List.dropWhile_cons, solid first List.mem_cons_self,
        if_neg Bool.false_ne_true]

/-- A core without blanks is what is left of a text that pads it. -/
theorem Pads.trim_eq {core text : List Char} (pads : Pads core text)
    (solid : ∀ character ∈ core, isBlank character = false) :
    trim text = core := by
  rcases pads with ⟨before, after, rfl, blankBefore, blankAfter⟩
  have ended : trimEnd (core ++ after) = core := by
    have reversed : ∀ character ∈ core.reverse, isBlank character = false :=
      fun character member => solid character (List.mem_reverse.1 member)
    have blankReversed : ∀ character ∈ after.reverse,
        isBlank character = true :=
      fun character member => blankAfter character (List.mem_reverse.1 member)
    rw [trimEnd, List.reverse_append,
      List.dropWhile_append_of_pos blankReversed,
      dropWhile_isBlank_of_solid reversed, List.reverse_reverse]
  rw [trim, List.append_assoc, List.dropWhile_append_of_pos blankBefore]
  cases core with
  | nil =>
      rw [List.nil_append, List.dropWhile_eq_nil_iff.2 blankAfter]
      rfl
  | cons first rest =>
      rw [List.cons_append, List.dropWhile_cons, solid first List.mem_cons_self,
        if_neg Bool.false_ne_true]
      exact ended

/-- The characters of a numeral lie apart from the blanks. -/
theorem Denotes.solid {text : List Char} {number : Int}
    (denotes : Denotes text number) :
    ∀ character ∈ text, isBlank character = false := by
  have apart {character : Char} (least : 43 ≤ character.toNat)
      (most : character.toNat ≤ 57) : isBlank character = false :=
    inRanges_eq_false_of_outside (by decide) least most
  have digit {character : Char} (inside : '0' ≤ character ∧ character ≤ '9') :
      isBlank character = false :=
    apart (Nat.le_trans (by decide) inside.1) inside.2
  cases denotes with
  | unsigned run => exact fun character member => digit (run.digits _ member)
  | plus run | minus run =>
      intro character member
      rcases List.mem_cons.1 member with rfl | other
      · decide
      · exact digit (run.digits _ other)

/-- After trimming, the reader takes numerals with blanks around them. -/
theorem readInteger?_trim_eq_some_iff {text : List Char} {number : Int} :
    readInteger? (trim text) = some number ↔ Reads text number := by
  rw [readInteger?_eq_some_iff]
  constructor
  · intro denotes
    exact ⟨_, pads_trim text, denotes⟩
  · rintro ⟨numeral, pads, denotes⟩
    rw [pads.trim_eq denotes.solid]
    exact denotes

theorem Denotes.reads {text : List Char} {number : Int}
    (denotes : Denotes text number) : Reads text number :=
  ⟨text, Pads.refl text, denotes⟩

/-! ## The canonical numeral -/

/-- No plus sign, no leading zeros, and no minus sign before a zero. -/
inductive Canonical : List Char → Prop
  | zero : Canonical ['0']
  | positive {first : Char} {rest : List Char}
      (run : IsDigitRun (first :: rest)) (leading : first ≠ '0') :
      Canonical (first :: rest)
  | negative {first : Char} {rest : List Char}
      (run : IsDigitRun (first :: rest)) (leading : first ≠ '0') :
      Canonical ('-' :: first :: rest)

theorem isDigitRun_naturalDigits (number : Nat) :
    IsDigitRun (naturalDigits number) where
  ne_nil := naturalDigits_ne_nil number
  digits := fun _ member => isDigit_iff.1 (isDigit_of_mem_naturalDigits member)

/-- The digits of a positive number do not start with a zero. -/
theorem head?_naturalDigits_ne {number : Nat} (positive : 0 < number) :
    (naturalDigits number).head? ≠ some '0' := by
  induction number using Nat.strong_induction_on with
  | _ number induction =>
      rw [naturalDigits, Nat.toDigits_eq_if (by decide)]
      split
      · rename_i small
        intro same
        have code := congrArg Char.toNat (Option.some.inj same)
        rw [Nat.toNat_digitChar_of_lt_ten small] at code
        change 48 + number = 48 at code
        omega
      · have fewer : number / 10 < number := by omega
        have left : 0 < number / 10 := by omega
        have leading := induction (number / 10) fewer left
        rw [naturalDigits] at leading
        cases split : Nat.toDigits 10 (number / 10) with
        | nil => exact absurd split (naturalDigits_ne_nil (number / 10))
        | cons first rest =>
            rw [split] at leading
            exact leading

/-- What is written is canonical. -/
theorem canonical_writeInteger (number : Int) :
    Canonical (writeInteger number) := by
  rw [writeInteger]
  by_cases zero : number.natAbs = 0
  · have same : number = 0 := Int.natAbs_eq_zero.1 zero
    subst same
    exact .zero
  · have run := isDigitRun_naturalDigits number.natAbs
    have leading := head?_naturalDigits_ne (Nat.pos_of_ne_zero zero)
    cases split : naturalDigits number.natAbs with
    | nil => exact absurd split run.ne_nil
    | cons first rest =>
        rw [split] at run leading
        have nonzero : first ≠ '0' := fun same => leading (congrArg some same)
        split
        · exact .negative run nonzero
        · exact .positive run nonzero

/-- What is written denotes the number. -/
theorem denotes_writeInteger (number : Int) :
    Denotes (writeInteger number) number :=
  readInteger?_eq_some_iff.1 (readInteger?_writeInteger number)

theorem weight_lt_ten {digit : Char} (inside : '0' ≤ digit ∧ digit ≤ '9') :
    digit.toNat - '0'.toNat < 10 := by
  have most : digit.toNat ≤ 57 := inside.2
  change digit.toNat - 48 < 10
  omega

/-- A digit is written as itself. -/
theorem naturalDigits_of_digit {digit : Char}
    (inside : '0' ≤ digit ∧ digit ≤ '9') :
    naturalDigits (digit.toNat - '0'.toNat) = [digit] := by
  have least : 48 ≤ digit.toNat := inside.1
  rw [naturalDigits, Nat.toDigits_of_lt_base (weight_lt_ten inside),
    List.singleton_inj, ← Char.toNat_inj,
    Nat.toNat_digitChar_of_lt_ten (weight_lt_ten inside)]
  change 48 + (digit.toNat - 48) = digit.toNat
  omega

/-- More digits behind those of a positive number are written there again. -/
theorem naturalDigits_ofDigitChars {number : Nat} (positive : 0 < number)
    {rest : List Char}
    (digits : ∀ character ∈ rest, '0' ≤ character ∧ character ≤ '9') :
    naturalDigits (Nat.ofDigitChars 10 rest number) =
      naturalDigits number ++ rest := by
  induction rest generalizing number with
  | nil => simp [Nat.ofDigitChars_nil]
  | cons digit rest induction =>
      have inside := digits digit List.mem_cons_self
      have written :
          naturalDigits (10 * number + (digit.toNat - '0'.toNat)) =
            naturalDigits number ++ [digit] := by
        rw [← naturalDigits_of_digit inside]
        exact (Nat.toDigits_append_toDigits (by decide) positive
          (weight_lt_ten inside)).symm
      rw [Nat.ofDigitChars_cons,
        induction (by omega) fun _ member =>
          digits _ (List.mem_cons_of_mem digit member),
        written, List.append_assoc, List.singleton_append]

/-- Digits without a leading zero are those that their number is written in. -/
theorem naturalDigits_placeValue {first : Char} {rest : List Char}
    (run : IsDigitRun (first :: rest)) (leading : first ≠ '0') :
    naturalDigits (placeValue (first :: rest)) = first :: rest := by
  have inside := run.digits first List.mem_cons_self
  have least : 48 ≤ first.toNat := inside.1
  have positive : 0 < first.toNat - '0'.toNat := by
    have other : first.toNat ≠ 48 := fun same =>
      leading (Char.toNat_inj.1 same)
    change 0 < first.toNat - 48
    omega
  rw [← ofDigits_eq_placeValue, ofDigits, Nat.ofDigitChars_cons,
    Nat.mul_zero, Nat.zero_add,
    naturalDigits_ofDigitChars positive fun _ member =>
      run.digits _ (List.mem_cons_of_mem first member),
    naturalDigits_of_digit inside, List.singleton_append]

/-- Of the numerals of a number the canonical one is what is written. -/
theorem Canonical.eq_writeInteger {text : List Char} {number : Int}
    (canonical : Canonical text) (denotes : Denotes text number) :
    text = writeInteger number := by
  cases canonical with
  | zero =>
      have same : number = 0 :=
        denotes.unique (readInteger?_eq_some_iff.1 rfl)
      rw [same]
      rfl
  | @positive first rest run leading =>
      have same : number = placeValue (first :: rest) :=
        denotes.unique (.unsigned run)
      have sign : ¬ ((placeValue (first :: rest) : Int) < 0) := by omega
      rw [same, writeInteger, if_neg sign, Int.natAbs_natCast,
        naturalDigits_placeValue run leading]
  | @negative first rest run leading =>
      have same : number = -placeValue (first :: rest) :=
        denotes.unique (.minus run)
      have digits := naturalDigits_placeValue run leading
      have nonzero : placeValue (first :: rest) ≠ 0 := by
        intro zero
        rw [zero] at digits
        exact leading (List.cons.inj digits).1.symm
      have sign : -(placeValue (first :: rest) : Int) < 0 := by omega
      rw [same, writeInteger, if_pos sign, Int.natAbs_neg, Int.natAbs_natCast,
        digits]

end VersionedColumns.Text
