import SqlText.Error
import SqlText.Text.Blank

/-!
# Declared types

A description says of each value under which type it is written. The types have names
for descriptions, which are exact, and tags for callers, which may be in letters of
either case with blanks around them.
-/

namespace SqlText

/-- The type that a description declares for a value. -/
inductive DeclaredType where
  /-- A whole number. -/
  | integer
  /-- A number with fixed decimals. -/
  | float
  /-- A text. -/
  | string
  /-- Binary data, written like a text. -/
  | binary
  deriving DecidableEq, Repr

namespace DeclaredType

/-- The word for a declared type. -/
def text : DeclaredType → String
  | .integer => "integer"
  | .float => "float"
  | .string => "string"
  | .binary => "binary"

/-- The declared type of a word; integers and floats have other names too. -/
def ofText? : String → Option DeclaredType
  | "integer" | "int" => some .integer
  | "float" | "double" | "decimal" => some .float
  | "string" => some .string
  | "binary" => some .binary
  | _ => none

/-- The declared type of a tag, in letters of either case and with blanks around. -/
def ofTag (tag : String) : Except Error DeclaredType :=
  let word := String.ofList ((Text.trimmed tag.toList).map Char.toLower)
  match ofText? word with
  | some type => .ok type
  | none => .error (.unknownType tag)

end DeclaredType

end SqlText
