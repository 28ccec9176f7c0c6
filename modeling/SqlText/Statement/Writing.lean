import SqlText.Statement.Basic

/-!
# Descriptions as values

A description is written as JSON by way of a value: every member under its name, in
the order of declaration, those with their default included. A statement begins with
the word for what it does.
-/

namespace SqlText

/-- A list of texts as a value. -/
def textsValue (texts : List String) : Value := .list (texts.map .str)

/-- The members that fields and conditions share. -/
def Field.entries (f : Field) : List (String × Value) :=
  [("name", .str f.name), ("type", .str f.type.text), ("value", f.value),
    ("decimals", .int (Int64.ofInt f.decimals.toNat))]

/-- A field as a value. -/
def Field.toValue (f : Field) : Value := .map f.entries

/-- A condition as a value. -/
def Condition.toValue (c : Condition) : Value :=
  .map (c.entries ++ [("connector", .str c.connector.keyword)])

/-- An entry as a value: a pair is a list of two. -/
def Entry.toValue : Entry → Value
  | .typed c => c.toValue
  | .pair column value => .list [.str column, value]

/-- A filter as a value: a text or a list. -/
def DeleteFilter.toValue : DeleteFilter → Value
  | .raw sql => .str sql
  | .all conditions => .list (conditions.map Field.toValue)

/-- The word for a kind of join. -/
def JoinKind.word : JoinKind → String
  | .left => "left"
  | .right => "right"
  | .inner => "inner"

/-- A join as a value. -/
def Join.toValue (j : Join) : Value :=
  .map [("kind", .str j.kind.word), ("table", .str j.table), ("on", .str j.on)]

/-- An order term as a value. -/
def OrderTerm.toValue (t : OrderTerm) : Value :=
  .map [("column", .str t.column), ("direction", .str t.direction.keyword)]

/-- The members of a query. -/
def Query.entries (q : Query) : List (String × Value) :=
  [("fields", textsValue q.fields), ("from", .str q.source),
    ("joins", .list (q.joins.map Join.toValue)),
    ("where", .list (q.conditions.map Entry.toValue)),
    ("group_by", textsValue q.groupBy),
    ("having", .list (q.having.map Entry.toValue)),
    ("order_by", .list (q.orderBy.map OrderTerm.toValue))]

/-- A query as a value. -/
def Query.toValue (q : Query) : Value := .map q.entries

namespace Statement

/-- The word for what a statement does. -/
def word : Statement → String
  | .insert .. => "insert"
  | .update .. => "update"
  | .delete .. => "delete"
  | .select _ => "select"

/-- The members of a statement besides its word. -/
def entries : Statement → List (String × Value)
  | .insert table fields =>
    [("table", .str table), ("fields", .list (fields.map Field.toValue))]
  | .update table fields conditions =>
    [("table", .str table), ("fields", .list (fields.map Field.toValue)),
      ("conditions", .list (conditions.map Field.toValue))]
  | .delete table conditions => [("table", .str table), ("conditions", conditions.toValue)]
  | .select query => query.entries

/-- A statement as a value. -/
def toValue (s : Statement) : Value :=
  .map (("statement", .str s.word) :: s.entries)

end Statement

end SqlText
