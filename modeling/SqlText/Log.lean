import SqlText.Outcome

/-!
# Log lines

Notices can be written to a log. A finished text has a fixed level and is written in
full. A problem is written at the level of the settings, and its statement is cut at
the end of a character if it is too long.
-/

namespace SqlText.Log

/-- How much a line matters. -/
inductive Level where
  /-- A failure. -/
  | error
  /-- A danger. -/
  | warn
  /-- An event of interest. -/
  | info
  /-- An aid to find faults. -/
  | debug
  /-- Every step. -/
  | trace
  deriving DecidableEq, Repr

/-- How problems are written. -/
structure Settings where
  /-- The level of a problem. -/
  level : Level := .warn
  /-- The most bytes of a statement that are written; no limit if there is none. -/
  maxBytes : Option Nat := some 200
  deriving DecidableEq, Repr

/-- A line of a log. -/
structure Line where
  /-- How much it matters. -/
  level : Level
  /-- Its text. -/
  message : String
  /-- The kind of a problem. -/
  kind : Option ReportKind
  /-- The statement concerned. -/
  sql : Option String
  deriving DecidableEq, Repr

/-- The end of the last whole character among the first bytes of a text. The search goes
back byte by byte from their number. -/
def boundaryWithin (sql : String) : Nat → Nat
  | 0 => 0
  | bytes + 1 =>
    if String.Pos.Raw.IsValid sql ⟨bytes + 1⟩ then bytes + 1 else boundaryWithin sql bytes

/-- Wherever the search begins, it ends between two characters or at an end of the text. -/
theorem isValid_boundaryWithin (sql : String) (bytes : Nat) :
    String.Pos.Raw.IsValid sql ⟨boundaryWithin sql bytes⟩ := by
  induction bytes with
  | zero => exact String.Pos.Raw.isValid_zero
  | succ bytes ih =>
    rw [boundaryWithin]
    split
    · assumption
    · exact ih

/-- As much from the front of a text as fits into a number of bytes. -/
def fitting (sql : String) (bytes : Nat) : String :=
  if sql.utf8ByteSize ≤ bytes then sql
  else
    let stop := sql.pos ⟨boundaryWithin sql bytes⟩ (isValid_boundaryWithin sql bytes)
    (sql.sliceTo stop).copy

/-- A statement within a limit of bytes; three dots stand for what is cut off. -/
def shortened (maxBytes : Option Nat) (sql : String) : String :=
  match maxBytes with
  | some limit => if limit < sql.utf8ByteSize then fitting sql limit ++ "..." else sql
  | none => sql

/-- The level and the text of a line about a stage. -/
def stageLine : Stage → Level × String
  | .substituted => (.trace, "substituted template")
  | .insert => (.trace, "assembled insert")
  | .update => (.trace, "assembled update")
  | .delete => (.trace, "assembled delete")
  | .select => (.trace, "assembled select")
  | .query => (.debug, "query")
  | .execute => (.debug, "execute")

/-- The line of a notice. -/
def line (s : Settings) : Notice → Line
  | .problem report =>
    ⟨s.level, report.message, some report.kind, report.sql.map (shortened s.maxBytes)⟩
  | .reached stage sql =>
    let (level, message) := stageLine stage
    ⟨level, message, none, some sql⟩

end SqlText.Log
