import SqlText.Json.Number

/-!
# JSON trees

A JSON text as it was written: members in order and repeated keys kept. A number
that is too large and a string with half of a surrogate pair have the form of a leaf
but no value; they matter only to a reader that looks at them.
-/

namespace SqlText

/-- A JSON text as a tree. -/
inductive Json where
  /-- The word `null`. -/
  | null
  /-- A truth value. -/
  | bool (b : Bool)
  /-- A number. -/
  | number (n : Json.Number)
  /-- A string. -/
  | string (s : String)
  /-- A number that is too large. -/
  | tooLarge
  /-- A string with half of a surrogate pair. -/
  | halfPair
  /-- Items in order. -/
  | array (items : List Json)
  /-- Members in order; a key without a value is missing. -/
  | object (members : List (Option String × Json))

namespace Json

mutual

/-- Every leaf and every key has a value, and arrays and objects nest at most as deep
as there is room. -/
def isReadable (room : Nat) : Json → Bool
  | .tooLarge | .halfPair => false
  | .array items => 0 < room && areReadable (room - 1) items
  | .object members => 0 < room && membersReadable (room - 1) members
  | _ => true

/-- The items of an array can be read. -/
def areReadable (room : Nat) : List Json → Bool
  | [] => true
  | item :: items => item.isReadable room && areReadable room items

/-- The keys and values of an object can be read. -/
def membersReadable (room : Nat) : List (Option String × Json) → Bool
  | [] => true
  | (key, value) :: members =>
    key.isSome && value.isReadable room && membersReadable room members

end

/-- How deep arrays and objects may nest in a text. -/
def deepest : Nat := 127

end Json

end SqlText
