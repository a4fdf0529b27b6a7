import VersionedColumns.Text.Unprintable

/-!
# Quoted text

A text between double quotes, on one line and free of characters that cannot
be seen: quotes and backslashes carry a backslash, the common controls have a
letter, and every other unprintable character is written by its code.
-/

namespace VersionedColumns.Text

/-- The code of a character in lower-case hexadecimal digits, in braces. -/
def codeEscape (character : Char) : List Char :=
  "\\u\x7b".toList ++ Nat.toDigits 16 character.toNat ++ ['\x7d']

/-- What stands for one character inside the quotes. -/
def escape (character : Char) : List Char :=
  match character with
  | '"' => ['\\', '"']
  | '\\' => ['\\', '\\']
  | '\n' => ['\\', 'n']
  | '\r' => ['\\', 'r']
  | '\t' => ['\\', 't']
  | '\x00' => ['\\', '0']
  | other => if isUnprintable other then codeEscape other else [other]

/-- A text between double quotes. -/
def quote (text : String) : String :=
  String.ofList ('"' :: text.toList.flatMap escape ++ ['"'])

end VersionedColumns.Text
