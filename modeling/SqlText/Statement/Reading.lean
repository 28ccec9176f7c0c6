import SqlText.Json.Plain
import SqlText.Json.Reader
import SqlText.Statement.Basic

/-!
# Reading descriptions

Descriptions are read from JSON trees. Members with a default may be missing. An
entry of a condition list is a typed condition if it can be read as one and a pair
otherwise. Entries, filters and statements have more than one form and are therefore
read only from trees in which everything can be read, ignored members included.
-/

namespace SqlText

open Json

/-- How a tree is read. -/
structure ReadingMode where
  /-- How deep the tree may nest. -/
  room : Nat := Json.deepest
  /-- An empty object counts as no value beside a word. -/
  emptyIsNull : Bool := false

namespace ReadingMode

/-- The mode for the members of an object or the items of an array. -/
def inside (m : ReadingMode) : ReadingMode := { m with room := m.room - 1 }

/-- The mode for a part that has more than one form. -/
def anyForm (m : ReadingMode) : ReadingMode := { m with emptyIsNull := false }

/-- Reads a value, its keys in the order in which they first come. -/
def value? (m : ReadingMode) (j : Json) : Option Value :=
  j.value? Keyed.ofPairs m.room

end ReadingMode

/-- Reads a declared type. -/
def DeclaredType.ofJson? (m : ReadingMode) (j : Json) : Option DeclaredType :=
  (j.word? m.emptyIsNull).bind ofText?

/-- Reads a connector, in capitals or in small letters. -/
def Connector.ofJson? (m : ReadingMode) (j : Json) : Option Connector :=
  (j.word? m.emptyIsNull).bind fun
    | "AND" | "and" => some .and
    | "OR" | "or" => some .or
    | _ => none

/-- Reads a kind of join, in small letters or in capitals. -/
def JoinKind.ofJson? (m : ReadingMode) (j : Json) : Option JoinKind :=
  (j.word? m.emptyIsNull).bind fun
    | "left" | "LEFT" => some .left
    | "right" | "RIGHT" => some .right
    | "inner" | "INNER" => some .inner
    | _ => none

/-- Reads a sort direction, in capitals or in small letters. -/
def Direction.ofJson? (m : ReadingMode) (j : Json) : Option Direction :=
  (j.word? m.emptyIsNull).bind fun
    | "ASC" | "asc" => some .ascending
    | "DESC" | "desc" => some .descending
    | _ => none

/-- Reads the members that fields and conditions share. -/
def Field.ofMembers? (m : ReadingMode) (name type value decimals : Option Json) :
    Option Field := do
  let name ← name.bind string?
  let type ← type.bind (DeclaredType.ofJson? m)
  let value ← value.bind m.value?
  let decimals ← memberOr 0 uint32? decimals
  pure { name, type, value, decimals }

/-- Reads a field. -/
def Field.ofJson? (m : ReadingMode) (j : Json) : Option Field := do
  let [name, type, value, decimals] ← j.record? ["name", "type", "value", "decimals"] | none
  Field.ofMembers? m.inside name type value decimals

/-- Reads a condition. -/
def Condition.ofJson? (m : ReadingMode) (j : Json) : Option Condition := do
  let [name, type, value, decimals, connector] ←
    j.record? ["name", "type", "value", "decimals", "connector"] | none
  let field ← Field.ofMembers? m.inside name type value decimals
  let connector ← memberOr .and (Connector.ofJson? m.inside) connector
  pure { field with connector }

/-- Reads a column and its value from a list of two. -/
def Entry.pairOfJson? (m : ReadingMode) : Json → Option Entry
  | .array [column, value] => do
    let column ← column.string?
    let value ← m.inside.value? value
    pure (.pair column value)
  | _ => none

/-- Reads an entry of a condition list. -/
def Entry.ofJson? (m : ReadingMode) (j : Json) : Option Entry :=
  if j.isReadable m.room then
    ((Condition.ofJson? m.anyForm j).map .typed).or (pairOfJson? m j)
  else none

/-- Reads a filter: a text, or a list of fields. -/
def DeleteFilter.ofJson? (m : ReadingMode) (j : Json) : Option DeleteFilter :=
  if j.isReadable m.room then
    match j with
    | .string sql => some (.raw sql)
    | j => (j.list? (Field.ofJson? m.anyForm.inside)).map .all
  else none

/-- Reads a join. -/
def Join.ofJson? (m : ReadingMode) (j : Json) : Option Join := do
  let [kind, table, on] ← j.record? ["kind", "table", "on"] | none
  let kind ← kind.bind (JoinKind.ofJson? m.inside)
  let table ← table.bind string?
  let on ← on.bind string?
  pure ⟨kind, table, on⟩

/-- Reads an order term. -/
def OrderTerm.ofJson? (m : ReadingMode) (j : Json) : Option OrderTerm := do
  let [column, direction] ← j.record? ["column", "direction"] | none
  let column ← column.bind string?
  let direction ← memberOr .ascending (Direction.ofJson? m.inside) direction
  pure ⟨column, direction⟩

/-- Reads a list, with the mode of what is inside it. A missing list is empty. -/
def listMember? {α : Type} (m : ReadingMode) (read : ReadingMode → Json → Option α)
    (member : Option Json) : Option (List α) :=
  memberOr [] (list? (read m.inside)) member

/-- Reads a query. Every member may be missing. -/
def Query.ofJson? (m : ReadingMode) (j : Json) : Option Query := do
  let [fields, source, joins, conditions, groupBy, having, orderBy] ←
    j.record? ["fields", "from", "joins", "where", "group_by", "having", "order_by"] | none
  let m := m.inside
  let fields ← memberOr [] (list? string?) fields
  let source ← memberOr "" string? source
  let joins ← listMember? m Join.ofJson? joins
  let conditions ← listMember? m Entry.ofJson? conditions
  let groupBy ← memberOr [] (list? string?) groupBy
  let having ← listMember? m Entry.ofJson? having
  let orderBy ← listMember? m OrderTerm.ofJson? orderBy
  pure { fields, source, joins, conditions, groupBy, having, orderBy }

namespace Statement

/-- The word of a statement and its other members: the member `statement` of an object,
or the first item of an array. -/
def cut? : Json → Option (String × Json)
  | .array (word :: items) => word.string?.map (·, .array items)
  | .object members => do
    let word ← (← member? members "statement").bind string?
    pure (word, .object (members.filter (·.1 != some "statement")))
  | _ => none

/-- Reads the members of a statement with this word. -/
def ofMembers? (m : ReadingMode) (word : String) (j : Json) : Option Statement :=
  match word with
  | "insert" => do
    let [table, fields] ← j.record? ["table", "fields"] | none
    let table ← table.bind string?
    let fields ← fields.bind (list? (Field.ofJson? m.inside.inside))
    pure (.insert table fields)
  | "update" => do
    let [table, fields, conditions] ← j.record? ["table", "fields", "conditions"] | none
    let table ← table.bind string?
    let fields ← fields.bind (list? (Field.ofJson? m.inside.inside))
    let conditions ← listMember? m.inside Field.ofJson? conditions
    pure (.update table fields conditions)
  | "delete" => do
    let [table, conditions] ← j.record? ["table", "conditions"] | none
    let table ← table.bind string?
    let conditions ← memberOr (.all []) (DeleteFilter.ofJson? m.inside) conditions
    pure (.delete table conditions)
  | "select" => (Query.ofJson? m j).map .select
  | _ => none

/-- Reads a statement. -/
def ofJson? (j : Json) : Option Statement := do
  if j.isReadable Json.deepest then
    let (word, members) ← cut? j
    ofMembers? { emptyIsNull := true } word members
  else none

end Statement

/-- Reads a list of arguments. -/
def argumentsOfJson? (j : Json) : Option (List Value) :=
  j.list? ({} : ReadingMode).inside.value?

/-- Reads a value by way of a plain tree, whose objects keep their keys sorted. -/
def Value.ofSortedJson? (j : Json) : Option Value :=
  (j.plain? Json.deepest).map Value.ofPlain

end SqlText
