/-!
# Cutting a text at marks

A mark is recognized where it begins. A text is cut at the leftmost marks, each search
going on after the mark before: what remains is the text before the first mark, and
every mark with the text up to the next one.
-/

namespace SqlText.Text

/-- A kind of mark. -/
structure Mark (α : Type) where
  /-- Recognizes a mark at the front of a text; gives its meaning and the rest. -/
  read? : List Char → Option (α × List Char)
  /-- A mark is not empty. -/
  shorter : ∀ {cs rest : List Char} {a : α}, read? cs = some (a, rest) →
    rest.length < cs.length

/-- Cuts a text at the marks of one kind. -/
def Mark.cut {α : Type} (m : Mark α) (cs : List Char) :
    List Char × List (α × List Char) :=
  match cs with
  | [] => ([], [])
  | c :: cs =>
    match h : m.read? (c :: cs) with
    | some (a, rest) =>
      have : rest.length < (c :: cs).length := m.shorter h
      let (text, later) := m.cut rest
      ([], (a, text) :: later)
    | none =>
      let (text, later) := m.cut cs
      (c :: text, later)
termination_by cs.length
decreasing_by
  · assumption
  · exact Nat.lt_succ_self cs.length

end SqlText.Text
