import SqlText.Literal

/-!
# Statement descriptions

What a statement is made from: tables and columns by name, values with declared
types, conditions with their connectors. A description is data; the statement's text
is drafted from it elsewhere.
-/

namespace SqlText

/-- A column and the value it is set to or compared with. -/
structure Field where
  /-- The column. -/
  name : String
  /-- The type under which the value is written. -/
  type : DeclaredType
  /-- The value. -/
  value : Value
  /-- The decimals of a float. -/
  decimals : UInt32 := 0

/-- The word between two conditions. -/
inductive Connector where
  /-- Both conditions. -/
  | and
  /-- Either condition. -/
  | or
  deriving DecidableEq, Repr

/-- The keyword of a connector. -/
def Connector.keyword : Connector → String
  | .and => "AND"
  | .or => "OR"

/-- A typed condition. The connector joins it to the condition before it. -/
structure Condition extends Field where
  /-- The word before the condition; the first condition of a list has none. -/
  connector : Connector := .and

/-- An entry of a condition list. -/
inductive Entry where
  /-- A typed condition. -/
  | typed (condition : Condition)
  /-- A column and a string. -/
  | pair (column : String) (value : Value)

namespace Entry

/-- The condition that an entry stands for: a pair is a string, joined by `AND`. -/
def condition : Entry → Condition
  | .typed c => c
  | .pair column value => { name := column, type := .string, value := value }

end Entry

/-- Which rows a DELETE takes. -/
inductive DeleteFilter where
  /-- Hand-written SQL. -/
  | raw (sql : String)
  /-- Conditions that must all hold. -/
  | all (conditions : List Field)

/-- There is nothing to filter by, and all rows go. -/
def DeleteFilter.isEmpty : DeleteFilter → Bool
  | .raw sql => Text.isBlankText sql
  | .all conditions => conditions.isEmpty

/-- Which rows without a partner a join keeps. -/
inductive JoinKind where
  /-- Those of the left table. -/
  | left
  /-- Those of the right table. -/
  | right
  /-- None. -/
  | inner
  deriving DecidableEq, Repr

/-- The keywords of a join. -/
def JoinKind.keyword : JoinKind → String
  | .left => "LEFT JOIN"
  | .right => "RIGHT JOIN"
  | .inner => "INNER JOIN"

/-- A table that is joined on a hand-written condition. -/
structure Join where
  /-- Which rows are kept. -/
  kind : JoinKind
  /-- The joined table. -/
  table : String
  /-- The condition, as SQL. -/
  on : String
  deriving DecidableEq, Repr

/-- A sort direction. -/
inductive Direction where
  /-- Upwards. -/
  | ascending
  /-- Downwards. -/
  | descending
  deriving DecidableEq, Repr

/-- The keyword of a direction. -/
def Direction.keyword : Direction → String
  | .ascending => "ASC"
  | .descending => "DESC"

/-- A column to sort by. -/
structure OrderTerm where
  /-- The column. -/
  column : String
  /-- The direction. -/
  direction : Direction := .ascending
  deriving DecidableEq, Repr

/-- A SELECT. Clauses are written in the order of the members, and an empty clause is
left out. -/
structure Query where
  /-- The selected columns. -/
  fields : List String := []
  /-- The table; a blank one is left out. -/
  source : String := ""
  /-- The joined tables. -/
  joins : List Join := []
  /-- The conditions on rows. -/
  conditions : List Entry := []
  /-- The columns to group by. -/
  groupBy : List String := []
  /-- The conditions on groups. -/
  having : List Entry := []
  /-- The columns to sort by. -/
  orderBy : List OrderTerm := []

/-- A description of one statement. -/
inductive Statement where
  /-- New values for a table. -/
  | insert (table : String) (fields : List Field)
  /-- Changed values for the rows that meet all conditions. -/
  | update (table : String) (fields conditions : List Field)
  /-- The end of the rows that pass a filter. -/
  | delete (table : String) (conditions : DeleteFilter)
  /-- A query. -/
  | select (query : Query)

namespace Query

/-- One more condition on rows, with a connector. -/
def filter (q : Query) (connector : Connector) (c : Condition) : Query :=
  { q with conditions := q.conditions ++ [.typed { c with connector }] }

/-- One more condition on groups, with a connector. -/
def filterGroups (q : Query) (connector : Connector) (c : Condition) : Query :=
  { q with having := q.having ++ [.typed { c with connector }] }

/-- One more entry among the conditions on rows, as it is. -/
def addEntry (q : Query) (e : Entry) : Query :=
  { q with conditions := q.conditions ++ [e] }

/-- More selected columns. -/
def addFields (q : Query) (columns : List String) : Query :=
  { q with fields := q.fields ++ columns }

/-- One more joined table. -/
def addJoin (q : Query) (kind : JoinKind) (table on : String) : Query :=
  { q with joins := q.joins ++ [⟨kind, table, on⟩] }

/-- More columns to group by. -/
def addGroups (q : Query) (columns : List String) : Query :=
  { q with groupBy := q.groupBy ++ columns }

/-- One more column to sort by. -/
def addOrder (q : Query) (direction : Direction) (column : String) : Query :=
  { q with orderBy := q.orderBy ++ [⟨column, direction⟩] }

end Query

end SqlText
