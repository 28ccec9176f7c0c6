import SqlText.Error

/-!
# Escapers

An escaper makes outside text safe between the quotes that a statement puts around
it: single quotes around a string, backticks around an identifier. It may fail.
The standard one follows MySQL and never does.
-/

namespace SqlText

/-- The rules for the inside of a quoted string and of a quoted identifier. -/
structure Escaper where
  /-- The body of a string in single quotes. -/
  string : String → Except Error String
  /-- The body of an identifier in backticks. -/
  identifier : String → Except Error String

namespace Escaper

/-- One character inside a MySQL string. -/
def stringChar (c : Char) : List Char :=
  match c with
  | '\x00' => ['\\', '0']
  | '\n' => ['\\', 'n']
  | '\r' => ['\\', 'r']
  | '\\' => ['\\', '\\']
  | '\'' => ['\\', '\'']
  | '"' => ['\\', '"']
  | '\x1a' => ['\\', 'Z']
  | c => [c]

/-- One character inside a quoted identifier: a backtick is written twice. -/
def identifierChar (c : Char) : List Char :=
  if c = '\x60' then ['\x60', '\x60'] else [c]

/-- The body of a MySQL string. -/
def stringBody (s : String) : String := String.ofList (s.toList.flatMap stringChar)

/-- The body of a quoted identifier. -/
def identifierBody (s : String) : String := String.ofList (s.toList.flatMap identifierChar)

/-- The rules of MySQL. -/
def mysql : Escaper where
  string s := .ok (stringBody s)
  identifier s := .ok (identifierBody s)

end Escaper

end SqlText
