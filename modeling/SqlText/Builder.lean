import SqlText.Draft
import SqlText.Escaper
import SqlText.Literal
import SqlText.Outcome

/-!
# Builders

A builder carries out drafts: it escapes what has to be escaped, in the order of the
text, and reports every problem it comes to. A strict builder fails at the first
problem. A lenient one fails only where the escaper does.
-/

namespace SqlText

/-- An escaper, and whether doubtful input is refused. -/
structure Builder where
  /-- What makes outside text safe. -/
  escaper : Escaper
  /-- Refuse doubtful values; otherwise go on with a neutral text. -/
  strict : Bool

namespace Builder

/-- A text between two quotes. -/
def enclosed (quote : Char) (body : String) : String :=
  String.singleton quote ++ body ++ String.singleton quote

/-- The texts of the pieces, in order. A failed connection stops a lenient builder too, but it
is never a problem of a draft: only the escaper can come to one here, and its errors always
stop. -/
def carryOut (b : Builder) : Draft → Outcome (List String)
  | [] => ⟨[], .ok []⟩
  | .fixed text :: rest => (b.carryOut rest).before text
  | .quoted raw :: rest =>
    match b.escaper.string raw with
    | .ok body => (b.carryOut rest).before (enclosed '\'' body)
    | .error e => .failReported e none
  | .identifier raw :: rest =>
    match b.escaper.identifier raw with
    | .ok body => (b.carryOut rest).before (enclosed '\x60' body)
    | .error e => .failReported e none
  | .problem e sql :: rest =>
    if b.strict then .failReported e sql
    else (b.carryOut rest).after (Outcome.noticeOf e sql)

/-- The text of a draft. -/
def perform (b : Builder) (d : Draft) : Outcome String :=
  (b.carryOut d).andThen fun texts => pure (String.join texts)

/-- The text of a draft, with notice of the stage it has reached. -/
def finish (b : Builder) (stage : Stage) (d : Draft) : Outcome String := do
  let sql ← b.perform d
  Outcome.reached stage sql
  pure sql

/-- An integer literal. -/
def integer (b : Builder) (v : Value) : Outcome String :=
  b.perform (Literal.integer b.strict v)

/-- A literal with fixed decimals. -/
def float (b : Builder) (precision : UInt32) (v : Value) : Outcome String :=
  b.perform (Literal.float b.strict precision v)

/-- A quoted string literal. -/
def string (b : Builder) (v : Value) : Outcome String :=
  b.perform (Literal.string v)

/-- A quoted name. -/
def name (b : Builder) (s : String) : Outcome String :=
  b.perform (Literal.name s)

/-- A parenthesized list of strings. -/
def set (b : Builder) (v : Value) : Outcome String :=
  b.perform (Literal.set b.strict v)

/-- Assignments of strings to columns. -/
def fields (b : Builder) (v : Value) : Outcome String :=
  b.perform (Literal.fields b.strict v)

/-- The bare text of a value. -/
def raw (b : Builder) (v : Value) : Outcome String :=
  b.perform (Literal.raw v)

/-- A value of a declared type. -/
def typed (b : Builder) (type : DeclaredType) (precision : UInt32) (v : Value) :
    Outcome String :=
  b.perform (Literal.typed b.strict type precision v)

/-- A value whose declared type is given as a tag. -/
def tagged (b : Builder) (tag : String) (precision : UInt32) (v : Value) : Outcome String :=
  b.perform (Literal.tagged b.strict tag precision v)

end Builder

end SqlText
