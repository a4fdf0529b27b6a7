import VersionedColumns.Proofs.Text.Numerals
import VersionedColumns.Value.Conversion

/-!
# Numbers across column types

An integer has its number, and a text has the number of the numeral that stands
in it between blanks.  A conversion to a type of integers succeeds exactly when
the value has a number in the range of the type, and it keeps the number.

An integer turns into the canonical numeral of its number.  What it turns into
depends on the number and the type alone, so that no way through integers and
texts leads to anything but the direct conversion, and a numeral leads back to
its integer whatever blanks are put around it.
-/

namespace VersionedColumns

open Text

/-- The types of integers. -/
def ColumnType.integers : List ColumnType :=
  [.int, .bigInt]

/-- The types of values that may have a number. -/
def ColumnType.numeric : List ColumnType :=
  integers ++ [.varchar]

/-- The range of 32 or 64 bits with a sign, for a type of integers. -/
def ColumnType.InRange : ColumnType → Int → Prop
  | .int, number => -2 ^ 31 ≤ number ∧ number < 2 ^ 31
  | .bigInt, number => -2 ^ 63 ≤ number ∧ number < 2 ^ 63
  | .boolean, _ | .double, _ | .varchar, _ => False

namespace Value

/-! ## The number of a value -/

/-- An integer has its number, a text that of the numeral between blanks. -/
inductive HasNumber : Value → Int → Prop
  | int (integer : Int32) : HasNumber (.int integer) integer.toInt
  | bigInt (integer : Int64) : HasNumber (.bigInt integer) integer.toInt
  | varchar {text : String} {number : Int} (reads : Reads text.toList number) :
      HasNumber (.varchar text) number

section Numeric

variable {value converted : Value} {type target : ColumnType} {number : Int}

/-- The number of a value is the one that is read from it. -/
theorem toInteger?_eq_some_iff
    (typed : value.type? = some type) (numeric : type ∈ ColumnType.numeric) :
    value.toInteger? = some number ↔ value.HasNumber number := by
  cases value with
  | null => cases typed
  | boolean | double =>
      cases typed
      exact absurd numeric (by decide)
  | int integer =>
      constructor
      · rintro ⟨⟩
        exact .int integer
      · rintro ⟨⟩
        rfl
  | bigInt integer =>
      constructor
      · rintro ⟨⟩
        exact .bigInt integer
      · rintro ⟨⟩
        rfl
  | varchar text =>
      constructor
      · intro read
        exact .varchar (readInteger?_trim_eq_some_iff.1 read)
      · rintro ⟨⟩
        rename_i reads
        exact readInteger?_trim_eq_some_iff.2 reads

theorem HasNumber.numeric (has : value.HasNumber number) :
    ∃ type ∈ ColumnType.numeric, value.type? = some type := by
  cases has with
  | int => exact ⟨.int, by decide, rfl⟩
  | bigInt => exact ⟨.bigInt, by decide, rfl⟩
  | varchar => exact ⟨.varchar, by decide, rfl⟩

/-- No value has two numbers. -/
theorem HasNumber.unique {first second : Int}
    (one : value.HasNumber first) (other : value.HasNumber second) :
    first = second := by
  obtain ⟨type, numeric, typed⟩ := one.numeric
  rw [← toInteger?_eq_some_iff typed numeric] at one other
  exact Option.some.inj (one.symm.trans other)

/-! ## The value of a number -/

/-- The value of a type with a number; a text has the canonical numeral. -/
def ofNumber? (number : Int) : ColumnType → Option Value
  | .int => ofInt32? number
  | .bigInt => ofInt64? number
  | .varchar => some (varchar (String.ofList (writeInteger number)))
  | .boolean | .double => none

theorem ofInt32?_toInt (integer : Int32) :
    ofInt32? integer.toInt = some (int integer) := by
  have range : Int32.minValue.toInt ≤ integer.toInt ∧
      integer.toInt ≤ Int32.maxValue.toInt :=
    ⟨Int32.le_toInt integer, Int.le_of_lt_add_one (Int32.toInt_lt integer)⟩
  rw [ofInt32?, if_pos range, Int32.ofInt_toInt]

theorem ofInt32?_eq_some_iff :
    ofInt32? number = some value ↔
      ∃ integer, value = int integer ∧ integer.toInt = number := by
  constructor
  · intro found
    rw [ofInt32?] at found
    split at found
    · rename_i range
      cases found
      have below : number < Int32.maxValue.toInt + 1 :=
        Int.lt_add_one_of_le range.2
      exact ⟨_, rfl, Int32.toInt_ofInt_of_le range.1 below⟩
    · cases found
  · rintro ⟨integer, rfl, rfl⟩
    exact ofInt32?_toInt integer

theorem ofInt64?_toInt (integer : Int64) :
    ofInt64? integer.toInt = some (bigInt integer) := by
  have range : Int64.minValue.toInt ≤ integer.toInt ∧
      integer.toInt ≤ Int64.maxValue.toInt :=
    ⟨Int64.le_toInt integer, Int.le_of_lt_add_one (Int64.toInt_lt integer)⟩
  rw [ofInt64?, if_pos range, Int64.ofInt_toInt]

theorem ofInt64?_eq_some_iff :
    ofInt64? number = some value ↔
      ∃ integer, value = bigInt integer ∧ integer.toInt = number := by
  constructor
  · intro found
    rw [ofInt64?] at found
    split at found
    · rename_i range
      cases found
      have below : number < Int64.maxValue.toInt + 1 :=
        Int.lt_add_one_of_le range.2
      exact ⟨_, rfl, Int64.toInt_ofInt_of_le range.1 below⟩
    · cases found
  · rintro ⟨integer, rfl, rfl⟩
    exact ofInt64?_toInt integer

/-- The value of a number is of the type, and it has and shows the number. -/
theorem of_ofNumber? (found : ofNumber? number type = some value) :
    type ∈ ColumnType.numeric ∧ value.type? = some type ∧
      value.HasNumber number ∧
        value.display = String.ofList (writeInteger number) := by
  cases type with
  | boolean | double => cases found
  | int =>
      obtain ⟨integer, rfl, rfl⟩ := ofInt32?_eq_some_iff.1 found
      exact ⟨by decide, rfl, .int integer, rfl⟩
  | bigInt =>
      obtain ⟨integer, rfl, rfl⟩ := ofInt64?_eq_some_iff.1 found
      exact ⟨by decide, rfl, .bigInt integer, rfl⟩
  | varchar =>
      cases found
      have reads : Reads (String.ofList (writeInteger number)).toList number := by
        rw [String.toList_ofList]
        exact (denotes_writeInteger number).reads
      exact ⟨by decide, rfl, .varchar reads, rfl⟩

/-- The integer with a number is the one value of its type that has it. -/
theorem ofNumber?_eq_some_iff (integers : target ∈ ColumnType.integers) :
    ofNumber? number target = some value ↔
      value.type? = some target ∧ value.HasNumber number := by
  constructor
  · intro found
    obtain ⟨-, typed, has, -⟩ := of_ofNumber? found
    exact ⟨typed, has⟩
  · rintro ⟨typed, has⟩
    cases has with
    | int integer =>
        cases typed
        exact ofInt32?_toInt integer
    | bigInt integer =>
        cases typed
        exact ofInt64?_toInt integer
    | varchar =>
        cases typed
        exact absurd integers (by decide)

/-- A type of integers has the numbers in its range. -/
theorem exists_ofNumber?_iff (integers : target ∈ ColumnType.integers) :
    (∃ value, ofNumber? number target = some value) ↔
      target.InRange number := by
  rw [← Option.isSome_iff_exists]
  cases target with
  | boolean | double | varchar => exact absurd integers (by decide)
  | int =>
      rw [ofNumber?, ofInt32?, ColumnType.InRange, Option.isSome_ite,
        ← Int.le_sub_one_iff]
      rfl
  | bigInt =>
      rw [ofNumber?, ofInt64?, ColumnType.InRange, Option.isSome_ite,
        ← Int.le_sub_one_iff]
      rfl

/-! ## Counterparts -/

/-- The counterpart among the integers is the one with the number. -/
theorem counterpart?_of_integers (integers : target ∈ ColumnType.integers) :
    value.counterpart? target =
      value.toInteger?.bind fun number => ofNumber? number target := by
  cases target with
  | boolean | double | varchar => exact absurd integers (by decide)
  | int | bigInt => rfl

/-- A value that may have a number is its own counterpart in its type. -/
theorem counterpart?_self
    (typed : value.type? = some type) (numeric : type ∈ ColumnType.numeric) :
    value.counterpart? type = some value := by
  cases value with
  | null => cases typed
  | boolean | double =>
      cases typed
      exact absurd numeric (by decide)
  | int integer =>
      cases typed
      exact ofInt32?_toInt integer
  | bigInt integer =>
      cases typed
      exact ofInt64?_toInt integer
  | varchar text =>
      cases typed
      rfl

/-- Where a value may have a number, to convert it is to take a counterpart. -/
theorem convertTo_eq_ok_iff
    (typed : value.type? = some type) (numeric : type ∈ ColumnType.numeric) :
    value.convertTo target = .ok converted ↔
      value.counterpart? target = some converted := by
  by_cases fitting : value.fits target = true
  · have same : type = target := by
      rcases fits_iff.1 fitting with rfl | there
      · cases typed
      · exact Option.some.inj (typed.symm.trans there)
    rw [convertTo_of_fits fitting, ← same, counterpart?_self typed numeric,
      Except.ok.injEq, Option.some.injEq]
  · rw [convertTo, if_neg fitting]
    cases value.counterpart? target with
    | none => simp
    | some other => simp

/-- Only the number decides what integer a value turns into. -/
theorem convertTo_eq_ok_iff_of_integers
    (typed : value.type? = some type) (numeric : type ∈ ColumnType.numeric)
    (integers : target ∈ ColumnType.integers) :
    value.convertTo target = .ok converted ↔
      ∃ number, value.HasNumber number ∧
        ofNumber? number target = some converted := by
  rw [convertTo_eq_ok_iff typed numeric, counterpart?_of_integers integers,
    Option.bind_eq_some_iff]
  constructor
  · rintro ⟨number, read, found⟩
    exact ⟨number, (toInteger?_eq_some_iff typed numeric).1 read, found⟩
  · rintro ⟨number, has, found⟩
    exact ⟨number, (toInteger?_eq_some_iff typed numeric).2 has, found⟩

/-- What the value of a number turns into is a value of that number again. -/
theorem convertTo_of_ofNumber? (found : ofNumber? number type = some value)
    (numeric : target ∈ ColumnType.numeric) :
    value.convertTo target = .ok converted ↔
      ofNumber? number target = some converted := by
  obtain ⟨inside, typed, has, shown⟩ := of_ofNumber? found
  have read : value.toInteger? = some number :=
    (toInteger?_eq_some_iff typed inside).2 has
  have counterpart : value.counterpart? target = ofNumber? number target := by
    cases target with
    | boolean | double => exact absurd numeric (by decide)
    | int | bigInt =>
        rw [counterpart?_of_integers (by decide), read]
        rfl
    | varchar =>
        rw [counterpart?, shown]
        rfl
  rw [convertTo_eq_ok_iff typed inside, counterpart]

/-! ## Chains of conversions -/

/-- Convert to one type after the other. -/
def convertThrough (value : Value) (targets : List ColumnType) :
    Except Error Value :=
  targets.foldlM convertTo value

theorem convertThrough_cons {targets : List ColumnType} :
    value.convertThrough (target :: targets) = .ok converted ↔
      ∃ next, value.convertTo target = .ok next ∧
        next.convertThrough targets = .ok converted := by
  rw [convertThrough, List.foldlM_cons]
  cases value.convertTo target with
  | error error =>
      constructor
      · intro fails
        cases fails
      · rintro ⟨next, fails, -⟩
        cases fails
  | ok next =>
      constructor
      · intro through
        exact ⟨next, rfl, through⟩
      · rintro ⟨other, same, through⟩
        cases same
        exact through

/-- A chain of conversions from a value of a number ends with such a value. -/
theorem convertThrough_of_ofNumber? {targets : List ColumnType}
    (found : ofNumber? number type = some value)
    (numeric : ∀ target ∈ targets, target ∈ ColumnType.numeric)
    (last : target ∈ ColumnType.numeric)
    (through : value.convertThrough (targets ++ [target]) = .ok converted) :
    ofNumber? number target = some converted := by
  -- Every value on the way is one of the number, in the type it is brought to.
  induction targets generalizing value type with
  | nil =>
      obtain ⟨next, step, ended⟩ := convertThrough_cons.1 through
      cases ended
      exact (convertTo_of_ofNumber? found last).1 step
  | cons first rest induction =>
      obtain ⟨next, step, onward⟩ := convertThrough_cons.1 through
      have reached :=
        (convertTo_of_ofNumber? found (numeric first List.mem_cons_self)).1 step
      exact induction reached
        (fun target member =>
          numeric target (List.mem_cons_of_mem first member))
        onward

/-! ## Conversions of numbers -/

/-- How a value turns into an integer of a type. -/
structure KeepsNumber (value : Value) (target : ColumnType) : Prop where
  /-- It does exactly when it has a number in the range. -/
  succeeds_iff :
    (∃ converted, value.convertTo target = .ok converted) ↔
      ∃ number, value.HasNumber number ∧ target.InRange number
  /-- The integer has the type that was asked for and the same number. -/
  keeps : ∀ converted, value.convertTo target = .ok converted →
    converted.type? = some target ∧
      ∀ number, converted.HasNumber number ↔ value.HasNumber number
  /-- A failure tells the text of the value and the type. -/
  fails : ∀ error, value.convertTo target = .error error →
    error = .conversion value target ∧ error.kind = .typeConversion ∧
      error.detail = value.display ++ " to " ++ target.name

/-- How an integer of a type turns into a text and back. -/
structure WritesNumber (value : Value) (type : ColumnType) : Prop where
  /-- The text is a canonical numeral of the number. -/
  written : ∃ text number, value.convertTo .varchar = .ok (.varchar text) ∧
    Canonical text.toList ∧ Denotes text.toList number ∧
      value.HasNumber number ∧ (varchar text).HasNumber number
  /-- No other numeral of the number is canonical. -/
  only : ∀ text number, value.HasNumber number → Canonical text.toList →
    Denotes text.toList number →
      value.convertTo .varchar = .ok (.varchar text)
  /-- A chain of conversions leads where its last one leads alone. -/
  chain : ∀ targets last converted,
    (∀ target ∈ targets, target ∈ ColumnType.numeric) →
      last ∈ ColumnType.numeric →
        value.convertThrough (targets ++ [last]) = .ok converted →
          value.convertTo last = .ok converted
  /-- From the text, with any blanks around it, the integer comes back. -/
  padded : ∀ text padded, value.convertTo .varchar = .ok (.varchar text) →
    Pads text.toList padded.toList →
      (varchar padded).convertTo type = .ok value

theorem keepsNumber
    (typed : value.type? = some type) (numeric : type ∈ ColumnType.numeric)
    (integers : target ∈ ColumnType.integers) :
    value.KeepsNumber target where
  succeeds_iff := by
    constructor
    · rintro ⟨converted, converts⟩
      obtain ⟨number, has, found⟩ :=
        (convertTo_eq_ok_iff_of_integers typed numeric integers).1 converts
      exact ⟨number, has, (exists_ofNumber?_iff integers).1 ⟨_, found⟩⟩
    · rintro ⟨number, has, range⟩
      obtain ⟨converted, found⟩ := (exists_ofNumber?_iff integers).2 range
      exact ⟨converted,
        (convertTo_eq_ok_iff_of_integers typed numeric integers).2
          ⟨number, has, found⟩⟩
  keeps := by
    intro converted converts
    obtain ⟨number, has, found⟩ :=
      (convertTo_eq_ok_iff_of_integers typed numeric integers).1 converts
    obtain ⟨-, reached, kept, -⟩ := of_ofNumber? found
    refine ⟨reached, fun other => ⟨fun there => ?_, fun here => ?_⟩⟩
    · rw [there.unique kept]
      exact has
    · rw [here.unique has]
      exact kept
  fails := by
    intro error fails
    cases eq_conversion_of_convertTo fails
    exact ⟨rfl, rfl, rfl⟩

/-- A padded numeral of the number of an integer turns into the integer. -/
theorem convertTo_of_reads (has : value.HasNumber number)
    (typed : value.type? = some type) (integers : type ∈ ColumnType.integers)
    {text : String} (reads : Reads text.toList number) :
    (varchar text).convertTo type = .ok value :=
  (convertTo_eq_ok_iff_of_integers rfl (by decide) integers).2
    ⟨number, .varchar reads, (ofNumber?_eq_some_iff integers).2 ⟨typed, has⟩⟩

theorem writesNumber
    (typed : value.type? = some type) (integers : type ∈ ColumnType.integers) :
    value.WritesNumber type := by
  have numeric : type ∈ ColumnType.numeric :=
    List.mem_append_left _ integers
  -- An integer has a number, and it is the value of that number in its type.
  obtain ⟨number, has, found⟩ :=
    (convertTo_eq_ok_iff_of_integers typed numeric integers).1
      (convertTo_of_fits (fits_iff.2 (.inr typed)))
  have text_iff (text : String) :
      value.convertTo .varchar = .ok (.varchar text) ↔
        text = String.ofList (writeInteger number) := by
    rw [convertTo_of_ofNumber? found (by decide), ofNumber?, Option.some_inj,
      varchar.injEq, eq_comm]
  have denotes : Denotes (String.ofList (writeInteger number)).toList number := by
    rw [String.toList_ofList]
    exact denotes_writeInteger number
  refine ⟨?_, ?_, ?_, ?_⟩
  · refine ⟨_, number, (text_iff _).2 rfl, ?_, denotes, has, ?_⟩
    · rw [String.toList_ofList]
      exact canonical_writeInteger number
    · exact .varchar denotes.reads
  · intro text other alike canonical same
    rw [alike.unique has] at same
    rw [text_iff, ← canonical.eq_writeInteger same, String.ofList_toList]
  · intro targets last converted through numericLast converts
    exact (convertTo_of_ofNumber? found numericLast).2
      (convertThrough_of_ofNumber? found through numericLast converts)
  · intro text padded written pads
    cases (text_iff text).1 written
    exact convertTo_of_reads has typed integers ⟨_, pads, denotes⟩

/--
Conversions to integers keep the number of a value, and fail only where it has
none in the range.  Integers are written canonically, and neither a chain of
conversions nor blanks around the text make a difference.
-/
theorem conversions_keep_numbers
    (typed : value.type? = some type) (numeric : type ∈ ColumnType.numeric) :
    (∀ first second, value.HasNumber first → value.HasNumber second →
        first = second) ∧
      (∀ target ∈ ColumnType.integers, value.KeepsNumber target) ∧
      (type ∈ ColumnType.integers → value.WritesNumber type) :=
  ⟨fun _ _ => HasNumber.unique,
    fun _ => keepsNumber typed numeric,
    writesNumber typed⟩

end Numeric

/-- The first number beyond 32 bits, with a sign, a zero and blanks. -/
def paddedText : String := "\u00a0+02147483648\t"

/-- The text turns into 64 bits and not into 32, whose least one is written. -/
theorem conversions_keep_padded_number :
    (∀ converted, (varchar paddedText).convertTo .int ≠ .ok converted) ∧
      (∃ converted, (varchar paddedText).convertTo .bigInt = .ok converted ∧
        converted.HasNumber 2147483648) ∧
      (int Int32.minValue).WritesNumber .int := by
  obtain ⟨unique, keeps, -⟩ :=
    @conversions_keep_numbers (varchar paddedText) .varchar rfl (by decide)
  obtain ⟨-, -, writes⟩ :=
    @conversions_keep_numbers (int Int32.minValue) .int rfl (by decide)
  have has : (varchar paddedText).HasNumber 2147483648 :=
    (toInteger?_eq_some_iff rfl (by decide)).1 (by decide +kernel)
  refine ⟨?_, ?_, writes (by decide)⟩
  · intro converted converts
    obtain ⟨number, other, range⟩ :=
      (keeps .int (by decide)).succeeds_iff.1 ⟨converted, converts⟩
    rw [unique number _ other has] at range
    exact absurd range.2 (by decide)
  · obtain ⟨converted, converts⟩ :=
      (keeps .bigInt (by decide)).succeeds_iff.2
        ⟨_, has, by decide, by decide⟩
    exact ⟨converted, converts,
      (((keeps .bigInt (by decide)).keeps converted converts).2 _).2 has⟩

end Value

end VersionedColumns
