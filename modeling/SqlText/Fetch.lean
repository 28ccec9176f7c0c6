import SqlText.Template.Substitution

/-!
# Fetching

A template is substituted first, so that a problem with it never reaches the
database; the finished statement is then handed over once. What the database answers
is shaped: all rows, one row, one value, a column, or rows under the values of an
index column. A failure of the database is reported with the statement and returned as
it is.
-/

namespace SqlText

/-- What a database answers to one statement. -/
inductive Answer where
  /-- It fails. -/
  | failure (e : Error)
  /-- It has rows for a query and a count for anything else. -/
  | data (rows : List Row) (affected : Nat)

/-- The rows of an answer. -/
def Answer.rows : Answer → Except Error (List Row)
  | .failure e => .error e
  | .data rows _ => .ok rows

/-- The count of an answer. -/
def Answer.affected : Answer → Except Error Nat
  | .failure e => .error e
  | .data _ affected => .ok affected

/-- A database: the answers it will give and the statements it has received. -/
structure Database where
  /-- The answers to come. -/
  answers : List Answer
  /-- The statements received, the earliest first. -/
  received : List String := []

namespace Database

/-- Hands over a statement; when no answers are left, the answer is empty. -/
def run (db : Database) (sql : String) : Answer × Database :=
  (db.answers.head?.getD (.data [] 0), ⟨db.answers.tail, db.received ++ [sql]⟩)

end Database

namespace Builder

/-- Substitutes a template and hands the statement over. `read` is the part of the
answer that is asked for. -/
def fetch {α : Type} (b : Builder) (stage : Stage) (read : Answer → Except Error α)
    (db : Database) (template : String) (args : List Value) : Outcome α × Database :=
  let text := b.substitute template args
  match text.result with
  | .error e => (⟨text.notices, .error e⟩, db)
  | .ok sql =>
    let (answer, db) := db.run sql
    let result := read answer
    let problem := match result with
      | .error e => [Notice.problem ⟨.connection, e.message, some sql⟩]
      | .ok _ => []
    (⟨text.notices ++ [.reached stage sql] ++ problem, result⟩, db)

/-- The number of rows that a statement changes. -/
def execute (b : Builder) : Database → String → List Value → Outcome Nat × Database :=
  b.fetch .execute Answer.affected

/-- All rows of a query. -/
def fetchRows (b : Builder) : Database → String → List Value → Outcome (List Row) × Database :=
  b.fetch .query Answer.rows

end Builder

namespace Row

/-- The value of the first column, if there is one. -/
def first? (r : Row) : Option Value := r.head?.map Prod.snd

/-- The value of the first column whose name is not this one. -/
def firstBut? (r : Row) (column : String) : Option Value :=
  (r.find? fun (name, _) => name != column).map Prod.snd

/-- The text of a column, which must be there. -/
def key (r : Row) (column : String) : Except Error String :=
  match r.lookup column with
  | some v => .ok v.toText
  | none => .error (.notFound s!"index column \x60{column}\x60 not in row")

end Row

namespace Rows

/-- The first value of every row; null for a row without columns. -/
def column (rows : List Row) : List Value :=
  rows.map fun r => (Row.first? r).getD .null

/-- What is kept of every row, under the text of its index column. Of two rows with the
same text the later one is kept, in the place of the earlier one. -/
def indexed {α : Type} (keep : Row → α) (column : String) (rows : List Row) :
    Except Error (Keyed α) :=
  rows.foldlM (fun m r => (Row.key r column).map fun key => Keyed.insert m key (keep r)) []

end Rows

namespace Builder

/-- The rows of a query, shaped. A shape that fails makes no report. -/
def fetchShaped {α : Type} (b : Builder) (shape : List Row → Except Error α)
    (db : Database) (template : String) (args : List Value) : Outcome α × Database :=
  let (o, db) := b.fetchRows db template args
  (⟨o.notices, o.result.bind shape⟩, db)

/-- The first row of a query. -/
def fetchRow (b : Builder) : Database → String → List Value → Outcome (Option Row) × Database :=
  b.fetchShaped fun rows => .ok rows.head?

/-- The first value of the first row of a query. -/
def fetchOne (b : Builder) :
    Database → String → List Value → Outcome (Option Value) × Database :=
  b.fetchShaped fun rows => .ok (rows.head?.bind Row.first?)

/-- The first value of every row of a query. -/
def fetchColumn (b : Builder) :
    Database → String → List Value → Outcome (List Value) × Database :=
  b.fetchShaped fun rows => .ok (Rows.column rows)

/-- The rows of a query under the texts of an index column. -/
def fetchIndexed (b : Builder) (column : String) :
    Database → String → List Value → Outcome (Keyed Row) × Database :=
  b.fetchShaped (Rows.indexed id column)

/-- The first other value of every row of a query, under the texts of an index column. -/
def fetchIndexedValues (b : Builder) (column : String) :
    Database → String → List Value → Outcome (Keyed Value) × Database :=
  b.fetchShaped (Rows.indexed (fun r => (Row.firstBut? r column).getD .null) column)

end Builder

end SqlText
