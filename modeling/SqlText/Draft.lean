import SqlText.Error
import SqlText.Name

/-!
# Drafts

A draft is the text of a call before anything has been escaped: pieces in the order
of the output, and between them the problems that were found, each where it was
found. Only what is done with a draft depends on the escaper.
-/

namespace SqlText

/-- A piece of a draft. -/
inductive Piece where
  /-- Text that is copied. -/
  | fixed (text : String)
  /-- A string to be escaped and put in single quotes. -/
  | quoted (raw : String)
  /-- An identifier to be escaped and put in backticks. -/
  | identifier (raw : String)
  /-- A problem: a strict builder stops here, a lenient one goes on. -/
  | problem (error : Error) (sql : Option String)
  deriving DecidableEq, Repr

/-- The pieces of a text in order. -/
abbrev Draft := List Piece

/-- The piece is part of the text. -/
def Piece.isText : Piece → Bool
  | .problem .. => false
  | _ => true

namespace Draft

/-- Some piece of the draft is part of the text. -/
def hasText (d : Draft) : Bool := d.any Piece.isText

/-- Drafts one after another, a separator between any two that have text. The flag
says whether a text went before. -/
def separated (sep : String) : Bool → List Draft → Draft
  | _, [] => []
  | before, d :: ds =>
    (if before && d.hasText then [.fixed sep] else []) ++ d ++
      separated sep (before || d.hasText) ds

/-- Drafts with a separator between any two that have text. -/
def join (sep : String) (ds : List Draft) : Draft := separated sep false ds

/-- A keyword before a draft that has text. -/
def headed (keyword : String) (d : Draft) : Draft :=
  if d.hasText then .fixed keyword :: d else d

end Draft

/-- The draft of a name: each part an identifier, dots between them, then the rest
as it is. -/
def Name.draft (n : Name) : Draft :=
  [Piece.fixed "."].intercalate (n.parts.map fun part => [.identifier part]) ++
    [.fixed n.suffix]

end SqlText
