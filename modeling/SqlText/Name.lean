import SqlText.Text.Blank

/-!
# Names

A name of a table or a column is written as `users`, as `db.users`, or with more
text after it, as in `users u` or `name AS n`. Its first word is the identifier,
dots between its parts; what follows the word, blanks included, is kept as it is.
-/

namespace SqlText

/-- A possibly qualified identifier and what is written after it. -/
structure Name where
  /-- The parts of the identifier, which dots separate. -/
  parts : List String
  /-- The rest, from the first blank on. -/
  suffix : String
  deriving DecidableEq, Repr

namespace Name

/-- Reads a name; a text of blanks alone is none. -/
def parse? (s : String) : Option Name :=
  let cs := Text.trimmed s.toList
  if cs.isEmpty then none
  else
    let word := cs.takeWhile (!Text.isBlank ·)
    some ⟨(word.splitOn '.').map String.ofList, String.ofList (cs.dropWhile (!Text.isBlank ·))⟩

end Name

end SqlText
