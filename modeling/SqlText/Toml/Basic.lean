import SqlText.Number.Binary64

/-!
# TOML documents

The items of a TOML document. A table remembers how it came about, because that
decides what may still be written into it. A number may lack a value: it is out of
range, or its digits are no digits of its base. Such a document stands as long as
nobody asks for that number.
-/

namespace SqlText.Toml

open SqlText.Number

/-- How a table came about. -/
inductive Origin where
  /-- Its own header. -/
  | header
  /-- The header of a table inside it. -/
  | implied
  /-- A dotted key. -/
  | dotted
  /-- Braces around its entries; nothing can be added. -/
  | closed
  deriving DecidableEq, Repr

/-- An item of a document. -/
inductive Item where
  /-- A truth value. -/
  | bool (b : Bool)
  /-- A text. -/
  | string (s : String)
  /-- An integer and its value. -/
  | integer (value : Option Int)
  /-- A floating-point number and its value. -/
  | float (value : Option Binary64)
  /-- A date, a time, or both. -/
  | moment
  /-- Items in brackets. -/
  | array (items : List Item)
  /-- A table with its entries in order. -/
  | table (origin : Origin) (entries : List (String × Item))
  /-- Tables with a header each, in order. -/
  | tables (rows : List (List (String × Item)))

/-- The entries of a table, in order. -/
abbrev Entries := List (String × Item)

mutual

/-- Whether every number in an item has a value. -/
def Item.isValued : Item → Bool
  | .bool _ | .string _ | .moment => true
  | .integer value => value.isSome
  | .float value => value.isSome
  | .array items => areValued items
  | .table _ entries => entriesValued entries
  | .tables rows => rowsValued rows

/-- Whether every number in the items of an array has a value. -/
def areValued : List Item → Bool
  | [] => true
  | i :: is => i.isValued && areValued is

/-- Whether every number in the entries of a table has a value. -/
def entriesValued : List (String × Item) → Bool
  | [] => true
  | (_, i) :: es => i.isValued && entriesValued es

/-- Whether every number in tables under one key has a value. -/
def rowsValued : List (List (String × Item)) → Bool
  | [] => true
  | row :: rows => entriesValued row && rowsValued rows

end

/-- The item under a key, if there is one. Every number in the other entries must have
a value. -/
def member? (key : String) (es : Entries) : Option (Option Item) :=
  if entriesValued (es.filter fun (k, _) => k != key) then some (es.lookup key) else none

/-- Puts an item under a key in place of the one that is there. -/
def replace (key : String) (item : Item) (es : Entries) : Entries :=
  es.map fun (k, i) => if k = key then (k, item) else (k, i)

/-- Writes an item under a dotted key. The last part must be new. The table that it goes
into is made here, or dotted keys have made it; the tables on the way to that one may
also come from the headers of tables inside them, or be the last of several. -/
def put (item : Item) : List String → Entries → Option Entries
  | [], _ => none
  | [key], es =>
    match es.lookup key with
    | none => some (es ++ [(key, item)])
    | some _ => none
  | key :: path, es =>
    match es.lookup key with
    | none => (put item path []).map fun sub => es ++ [(key, .table .dotted sub)]
    | some (.table origin sub) =>
      if origin = .dotted ∨ (origin = .implied ∧ 1 < path.length) then
        (put item path sub).map fun sub => replace key (.table origin sub) es
      else none
    | some (.tables rows) => do
      let last ← rows.getLast?
      if path.length ≤ 1 then none
      else (put item path last).map fun last =>
        replace key (.tables (rows.dropLast ++ [last])) es
    | some _ => none

/-- Changes the entries of the table that a header's path leads to. Tables on the way are
made if they are missing; of several tables under one key the last one is meant. -/
def within (change : Entries → Option Entries) : List String → Entries → Option Entries
  | [], es => change es
  | key :: path, es =>
    match es.lookup key with
    | none => (within change path []).map fun sub => es ++ [(key, .table .implied sub)]
    | some (.table origin sub) =>
      if origin = .closed then none
      else (within change path sub).map fun sub => replace key (.table origin sub) es
    | some (.tables rows) => do
      let last ← rows.getLast?
      let last ← within change path last
      pure (replace key (.tables (rows.dropLast ++ [last])) es)
    | some _ => none

/-- Gives a table its header. It must not have been written to before. -/
def openTable (key : String) (es : Entries) : Option Entries :=
  match es.lookup key with
  | none => some (es ++ [(key, .table .header [])])
  | some (.table .implied sub) => some (replace key (.table .header sub) es)
  | some _ => none

/-- Adds a table to those under a key. -/
def openNext (key : String) (es : Entries) : Option Entries :=
  match es.lookup key with
  | none => some (es ++ [(key, .tables [[]])])
  | some (.tables rows) => some (replace key (.tables (rows ++ [[]])) es)
  | some _ => none

end SqlText.Toml
