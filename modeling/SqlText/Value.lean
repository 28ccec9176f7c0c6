import SqlText.Json.Quoted
import SqlText.Keyed
import SqlText.Number.Shortest

/-!
# Values

What a placeholder or a field is given. Values follow the data model of JSON, with
integers and floating-point numbers kept apart and the keys of a map in order.
-/

namespace SqlText

open Number (Binary64)

/-- A value of an argument, a field or a column. -/
inductive Value where
  /-- No value. -/
  | null
  /-- A truth value. -/
  | bool (b : Bool)
  /-- A signed 64-bit integer. -/
  | int (n : Int64)
  /-- A floating-point number. -/
  | float (x : Binary64)
  /-- A text. -/
  | str (s : String)
  /-- Values in order. -/
  | list (items : List Value)
  /-- Values under keys, the keys in order. -/
  | map (entries : List (String × Value))

instance : Inhabited Value := ⟨.null⟩

/-- A row of a result: column names in order, each with its value. -/
abbrev Row := Keyed Value

/-- An integer in decimal digits, with a sign if it is negative. -/
def intText (n : Int64) : String := toString n.toInt

namespace Value

/-- The word for a value's type. -/
def typeName : Value → String
  | .null => "null"
  | .bool _ => "bool"
  | .int _ => "integer"
  | .float _ => "float"
  | .str _ => "string"
  | .list _ => "list"
  | .map _ => "map"

/-- No value. -/
def isNull : Value → Bool
  | .null => true
  | _ => false

/-- A list or a map. -/
def isComposite : Value → Bool
  | .list _ | .map _ => true
  | _ => false

/-- The text of a string value. -/
def asString? : Value → Option String
  | .str s => some s
  | _ => none

/-- The number of an integer value. -/
def asInt? : Value → Option Int64
  | .int n => some n
  | _ => none

/-- A number as a floating-point number, an integer rounded to the nearest one. -/
def asFloat? : Value → Option Binary64
  | .float x => some x
  | .int n => some (.ofInt n.toInt)
  | _ => none

mutual

/-- The value as compact JSON. -/
def json : Value → List Char
  | .null => "null".toList
  | .bool b => (if b then "true" else "false").toList
  | .int n => (intText n).toList
  | .float x => x.jsonText.toList
  | .str s => Json.quoted s
  | .list items => '[' :: [','].intercalate (jsonItems items) ++ [']']
  | .map entries => '\x7b' :: [','].intercalate (jsonEntries entries) ++ ['\x7d']

/-- Every item of a list as JSON. -/
def jsonItems : List Value → List (List Char)
  | [] => []
  | item :: items => item.json :: jsonItems items

/-- Every entry of a map as JSON: the key, a colon and the value. -/
def jsonEntries : List (String × Value) → List (List Char)
  | [] => []
  | (key, value) :: entries => (Json.quoted key ++ ':' :: value.json) :: jsonEntries entries

end

/-- The value as compact JSON text. -/
def jsonText (v : Value) : String := String.ofList v.json

/-- The bare text of a value that has no parts. -/
def scalarText? : Value → Option String
  | .null => some ""
  | .bool b => some (if b then "1" else "0")
  | .int n => some (intText n)
  | .float x => some x.plainText
  | .str s => some s
  | .list _ | .map _ => none

/-- The bare text of a value; a list or a map as JSON. -/
def toText (v : Value) : String :=
  v.scalarText?.getD v.jsonText

end Value

end SqlText
