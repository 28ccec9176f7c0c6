import SqlText.Builder
import SqlText.Statement.Basic

/-!
# Statements

The text of a described statement. Every name and every value goes through its
draft; only the condition of a join and the raw filter of a DELETE are copied as they
are. A SELECT leaves out a column without a name after its problem, and a clause in
which nothing is left.
-/

namespace SqlText

/-- A column, an equals sign and a value. -/
def Field.draft (strict : Bool) (f : Field) : Draft :=
  Literal.name f.name ++ [.fixed " = "] ++ Literal.typed strict f.type f.decimals f.value

/-- The terms of a list with a separator between them. -/
def termsDraft (strict : Bool) (sep : String) (fields : List Field) : Draft :=
  [Piece.fixed sep].intercalate (fields.map (Field.draft strict))

/-- The draft of an entry, its connector left out. -/
def Entry.draft (strict : Bool) (e : Entry) : Draft :=
  e.condition.toField.draft strict

/-- The entries of a condition list; every one but the first after its connector. -/
def entriesDraft (strict : Bool) : List Entry → Draft
  | [] => []
  | first :: rest =>
    first.draft strict ++ rest.flatMap fun e =>
      .fixed s!" {e.condition.connector.keyword} " :: e.draft strict

/-- A keyword and conditions that must all hold; nothing without conditions. -/
def whereAll (strict : Bool) (conditions : List Field) : Draft :=
  if conditions.isEmpty then [] else .fixed " WHERE " :: termsDraft strict " AND " conditions

/-- The draft of an INSERT. -/
def insertDraft (strict : Bool) (table : String) (fields : List Field) : Draft :=
  .fixed "INSERT INTO " :: Literal.name table ++ [.fixed " SET "] ++
    termsDraft strict ", " fields

/-- The draft of an UPDATE. -/
def updateDraft (strict : Bool) (table : String) (fields conditions : List Field) : Draft :=
  .fixed "UPDATE " :: Literal.name table ++ [.fixed " SET "] ++ termsDraft strict ", " fields ++
    whereAll strict conditions

/-- The filter of a DELETE. -/
def DeleteFilter.draft (strict : Bool) (f : DeleteFilter) : Draft :=
  if f.isEmpty then []
  else match f with
    | .raw sql => [.fixed " WHERE ", .fixed sql]
    | .all conditions => whereAll strict conditions

/-- The draft of a DELETE. -/
def deleteDraft (strict : Bool) (table : String) (conditions : DeleteFilter) : Draft :=
  .fixed "DELETE FROM " :: Literal.name table ++ conditions.draft strict

namespace Query

/-- Columns after a keyword. -/
def columnsDraft (keyword : String) (columns : List String) : Draft :=
  .headed keyword (.join ", " (columns.map Literal.name))

/-- The table after its keyword; a blank one is not looked at. -/
def sourceDraft (source : String) : Draft :=
  if Text.isBlankText source then [] else .fixed "FROM " :: Literal.name source

end Query

/-- A joined table between its keywords and its condition. -/
def Join.draft (j : Join) : Draft :=
  let table := Literal.name j.table
  if table.hasText then
    .fixed s!"{j.kind.keyword} " :: table ++ [.fixed s!" ON ({j.on})"]
  else table

/-- A column with its sort direction. -/
def OrderTerm.draft (t : OrderTerm) : Draft :=
  let column := Literal.name t.column
  if column.hasText then column ++ [.fixed s!" {t.direction.keyword}"] else column

/-- The clauses of a query, in order. -/
def Query.clauses (strict : Bool) (q : Query) : List Draft :=
  [columnsDraft "SELECT " q.fields, sourceDraft q.source] ++ q.joins.map Join.draft ++
    [.headed "WHERE " (entriesDraft strict q.conditions), columnsDraft "GROUP BY " q.groupBy,
      .headed "HAVING " (entriesDraft strict q.having),
      .headed "ORDER BY " (.join ", " (q.orderBy.map OrderTerm.draft))]

/-- The draft of a SELECT: the clauses that have text, with spaces between them. -/
def Query.draft (strict : Bool) (q : Query) : Draft :=
  .join " " (q.clauses strict)

namespace Builder

/-- The text of an INSERT. There must be a field to set. -/
def insert (b : Builder) (table : String) (fields : List Field) : Outcome String :=
  if fields.isEmpty then .fail (.validation "INSERT requires at least one field")
  else b.finish .insert (insertDraft b.strict table fields)

/-- The text of an UPDATE. There must be a field to set. -/
def update (b : Builder) (table : String) (fields conditions : List Field) : Outcome String :=
  if fields.isEmpty then .fail (.validation "UPDATE requires at least one SET field")
  else b.finish .update (updateDraft b.strict table fields conditions)

/-- The text of a DELETE. -/
def delete (b : Builder) (table : String) (conditions : DeleteFilter) : Outcome String :=
  b.finish .delete (deleteDraft b.strict table conditions)

/-- The text of a SELECT. -/
def select (b : Builder) (q : Query) : Outcome String :=
  b.finish .select (q.draft b.strict)

/-- The text of any described statement. -/
def build (b : Builder) : Statement → Outcome String
  | .insert table fields => b.insert table fields
  | .update table fields conditions => b.update table fields conditions
  | .delete table conditions => b.delete table conditions
  | .select query => b.select query

end Builder

end SqlText
