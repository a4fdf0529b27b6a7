/-!
# Letters without case

Names of columns and tables are compared without regard to the case of the
letters `A` to `Z`; every other character counts as it stands.
-/

namespace VersionedColumns.Text

/-- The characters of a text with `A` to `Z` made small. -/
def smallLetters (text : List Char) : List Char :=
  text.map Char.toLower

/-- A text with `a` to `z` made capital. -/
def capitals (text : String) : String :=
  String.ofList (text.toList.map Char.toUpper)

/-- Whether two texts differ in nothing but the case of `A` to `Z`. -/
def sameLetters (left right : String) : Bool :=
  smallLetters left.toList == smallLetters right.toList

theorem sameLetters_iff {left right : String} :
    sameLetters left right = true ↔
      smallLetters left.toList = smallLetters right.toList := by
  simp [sameLetters]

end VersionedColumns.Text
