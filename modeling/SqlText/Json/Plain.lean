import SqlText.Json.Record

/-!
# Plain trees

A reader that knows nothing of records keeps the whole of a text: its numbers as they were
read, and its objects with their keys in increasing order. A value is made of such a tree
afterwards, by looking whether each number is an integer of 64 bits with sign.
-/

namespace SqlText

namespace Json

/-- The integer that a number is, if it fits 64 bits with sign. -/
def Number.int? : Number → Option Int64
  | .int n => some n
  | .large _ | .float _ => none

/-- A number as a floating-point number, an integer rounded to the nearest one. -/
def Number.toFloat : Number → SqlText.Number.Binary64
  | .int n => .ofInt n.toInt
  | .large n => .ofInt n.toNat
  | .float x => x

/-- A tree in which everything has a value, the keys of every object in increasing order. -/
inductive Plain where
  /-- The word `null`. -/
  | null
  /-- A truth value. -/
  | bool (b : Bool)
  /-- A number. -/
  | number (n : Number)
  /-- A string. -/
  | string (s : String)
  /-- Items in order. -/
  | array (items : List Plain)
  /-- Values under keys, the keys in increasing order. -/
  | object (members : List (String × Plain))

mutual

/-- The plain tree of a text. -/
def plain? (room : Nat) : Json → Option Plain
  | .null => some .null
  | .bool b => some (.bool b)
  | .number n => some (.number n)
  | .string s => some (.string s)
  | .tooLarge | .halfPair => none
  | .array items => if room = 0 then none else (plains? (room - 1) items).map .array
  | .object members =>
    if room = 0 then none
    else (plainMembers? (room - 1) members).map fun members =>
      .object (Keyed.sortedOfPairs members)

/-- The plain trees of an array's items. -/
def plains? (room : Nat) : List Json → Option (List Plain)
  | [] => some []
  | item :: items => do
    let p ← plain? room item
    let ps ← plains? room items
    pure (p :: ps)

/-- The keys of an object, each with the plain tree of its member. -/
def plainMembers? (room : Nat) : List (Option String × Json) → Option (List (String × Plain))
  | [] => some []
  | (key, member) :: members => do
    let k ← key
    let p ← plain? room member
    let rest ← plainMembers? room members
    pure ((k, p) :: rest)

end

end Json

namespace Value

mutual

/-- The value of a plain tree. -/
def ofPlain : Json.Plain → Value
  | .null => .null
  | .bool b => .bool b
  | .number n =>
    match n.int? with
    | some i => .int i
    | none => .float n.toFloat
  | .string s => .str s
  | .array items => .list (ofPlains items)
  | .object members => .map (Keyed.ofPairs (ofPlainMembers members))

/-- The values of an array's items. -/
def ofPlains : List Json.Plain → List Value
  | [] => []
  | item :: items => ofPlain item :: ofPlains items

/-- The values of an object's members, each under its key. -/
def ofPlainMembers : List (String × Json.Plain) → List (String × Value)
  | [] => []
  | (key, member) :: members => (key, ofPlain member) :: ofPlainMembers members

end

end Value

end SqlText
