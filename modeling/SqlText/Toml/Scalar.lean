import SqlText.Toml.Moment
import SqlText.Toml.Number
import SqlText.Toml.Text

/-!
# TOML scalars

The words of a document that are no strings: truth values, numbers, dates and times.
A word ends before a sign of punctuation, a comment or a line end, so what stands in it
is looked at as a whole.
-/

namespace SqlText.Toml

/-- A character of a word. -/
def isWordChar (c : Char) : Bool :=
  !(['=', ',', '[', ']', '\x7b', '\x7d', ' ', '\t', '#', '\r', '\n'].contains c)

/-- A character with which a word may go on after spaces. -/
def resumesWord (c : Char) : Bool :=
  isWordChar c && !(['.', '"', '\''].contains c)

/-- The word at the front and the text after it. Spaces belong to the word if it goes on
after them, as that of a date with a time does. -/
def word : List Char → List Char × List Char
  | [] => ([], [])
  | c :: rest =>
    if isWordChar c || (isSpace c && (skipSpace rest).head?.any resumesWord) then
      let (w, rest) := word rest
      (c :: w, rest)
    else ([], c :: rest)

/-- The item of a word. -/
def scalar? (cs : List Char) : Option Item :=
  if cs = ['t', 'r', 'u', 'e'] then some (.bool true)
  else if cs = ['f', 'a', 'l', 's', 'e'] then some (.bool false)
  else if isMoment cs then some .moment
  else number? cs

end SqlText.Toml
