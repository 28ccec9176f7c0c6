import SqlText.DeclaredType
import SqlText.Draft
import SqlText.Literal.Coercion
import SqlText.Template.Placeholder

/-!
# Literals

How a value is written for each kind of placeholder and each declared type. A value
of the wrong type is a problem; what follows the problem in the draft is the
neutral text with which a lenient builder goes on. Null is written as the keyword.
-/

namespace SqlText

open Number (Binary64)

namespace Literal

/-- The keyword for no value. -/
def null : Draft := [.fixed "NULL"]

/-- A value whose type is not the expected one. -/
def mismatch (expected : String) (v : Value) : Piece :=
  .problem (.typeMismatch expected v.typeName) none

/-- An integer. A value that does not count as one is a problem, and zero. -/
def integer (strict : Bool) (v : Value) : Draft :=
  if v.isNull then null
  else match if strict then strictInt? v else lenientInt? v with
    | some n => [.fixed (intText n)]
    | none => [mismatch "integer" v, .fixed "0"]

/-- Zero with a number of decimals. -/
def zeroText (precision : UInt32) : String :=
  (Binary64.zero false).fixedPoint precision.toNat

/-- A number with fixed decimals. A value that does not count as a number is a problem,
and zero. -/
def float (strict : Bool) (precision : UInt32) (v : Value) : Draft :=
  if v.isNull then null
  else match if strict then strictFloat? v else lenientFloat? v with
    | some x => [.fixed (x.fixedPoint precision.toNat)]
    | none => [mismatch "float" v, .fixed (zeroText precision)]

/-- A quoted string. A list or a map is a problem, and quoted as JSON. -/
def string (v : Value) : Draft :=
  if v.isNull then null
  else match v.scalarText? with
    | some text => [.quoted text]
    | none => [mismatch "string" v, .quoted v.jsonText]

/-- A name. A blank one is a problem, and nothing. -/
def name (s : String) : Draft :=
  match Name.parse? s with
  | some n => n.draft
  | none => [.problem (.typeMismatch "identifier" "empty name") none]

/-- A name given as a value: a text or a number. Anything else is a problem, and
nothing. -/
def nameOf (v : Value) : Draft :=
  match v with
  | .str s => name s
  | .int _ | .float _ => name v.toText
  | _ => [mismatch "identifier" v]

/-- Strings in parentheses. -/
def setOf (items : List Value) : Draft :=
  .fixed "(" :: [Piece.fixed ", "].intercalate (items.map string) ++ [.fixed ")"]

/-- The items of a set. A strict builder takes a list alone; a lenient one takes the
values of a map, and a single value as a list of one. -/
def setItems (strict : Bool) (v : Value) : Option (List Value) :=
  match v with
  | .list items => some items
  | v =>
    if strict then none
    else match v with
      | .map entries => some (entries.map Prod.snd)
      | v => some [v]

/-- A parenthesized list of strings. A value without items is a problem, and the empty
list. -/
def set (strict : Bool) (v : Value) : Draft :=
  match setItems strict v with
  | some items => setOf items
  | none => [mismatch "list" v, .fixed "()"]

/-- A column, an equals sign and a string. The key is one identifier, dots and
blanks included. -/
def assignment (entry : String × Value) : Draft :=
  [.identifier entry.1, .fixed " = "] ++ string entry.2

/-- The assignments of a field map. A strict builder takes a map alone; a lenient one
takes the items of a list under their positions, and a single value under zero. -/
def fieldEntries (strict : Bool) (v : Value) : Option (List (String × Value)) :=
  match v with
  | .map entries => some entries
  | v =>
    if strict then none
    else match v with
      | .list items => some (items.zipIdx.map fun (item, i) => (toString i, item))
      | v => some [("0", v)]

/-- Assignments of strings to columns. A value without entries is a problem, and
nothing. -/
def fields (strict : Bool) (v : Value) : Draft :=
  match fieldEntries strict v with
  | some entries => [Piece.fixed ", "].intercalate (entries.map assignment)
  | none => [mismatch "map" v]

/-- The bare text of a value. A list or a map is a problem, and written as JSON. -/
def raw (v : Value) : Draft :=
  match v.scalarText? with
  | some text => [.fixed text]
  | none => [mismatch "raw text" v, .fixed v.jsonText]

/-- A value of a declared type. -/
def typed (strict : Bool) (type : DeclaredType) (precision : UInt32) (v : Value) : Draft :=
  match type with
  | .integer => integer strict v
  | .float => float strict precision v
  | .string | .binary => string v

/-- A value whose declared type is given as a tag. An unknown tag is a problem, and
nothing. -/
def tagged (strict : Bool) (tag : String) (precision : UInt32) (v : Value) : Draft :=
  match DeclaredType.ofTag tag with
  | .ok type => typed strict type precision v
  | .error e => [.problem e none]

/-- The argument of a marker. -/
def argument (strict : Bool) (kind : Placeholder) (v : Value) : Draft :=
  match kind with
  | .name => nameOf v
  | .string => string v
  | .integer => integer strict v
  | .float precision => float strict precision v
  | .set => set strict v
  | .fields => fields strict v
  | .raw => raw v

/-- What a lenient builder writes for a marker without an argument. -/
def neutral : Placeholder → Draft
  | .integer => [.fixed "0"]
  | .float precision => [.fixed (zeroText precision)]
  | .string => [.fixed "''"]
  | .set => [.fixed "()"]
  | .name | .fields | .raw => []

end Literal

end SqlText
