import SqlText.Json.Basic
import SqlText.Keyed
import SqlText.Value

/-!
# Reading values and records

A value is read from any tree whose leaves and keys have values and that does not
nest too deep. An integer beyond 64 bits with sign becomes the floating-point number
nearest to it. A record is an object with known keys, or an array of its members in
order. Keys that are not known are ignored with what belongs to them, however odd
that is; a known key must not come twice.
-/

namespace SqlText

namespace Json

mutual

/-- The value of a tree. `collect` makes a map of the members of an object, given in
the order of the text. -/
def value? (collect : List (String × Value) → Keyed Value) (room : Nat) :
    Json → Option Value
  | .null => some .null
  | .bool b => some (.bool b)
  | .number (.int n) => some (.int n)
  | .number (.large n) => some (.float (.ofInt n.toNat))
  | .number (.float x) => some (.float x)
  | .string s => some (.str s)
  | .tooLarge | .halfPair => none
  | .array items =>
    if room = 0 then none else (values? collect (room - 1) items).map .list
  | .object members =>
    if room = 0 then none
    else (entries? collect (room - 1) members).map fun entries => .map (collect entries)

/-- The values of an array's items. -/
def values? (collect : List (String × Value) → Keyed Value) (room : Nat) :
    List Json → Option (List Value)
  | [] => some []
  | item :: items => do
    let v ← value? collect room item
    let vs ← values? collect room items
    pure (v :: vs)

/-- The keys of an object, each with the value of its member. -/
def entries? (collect : List (String × Value) → Keyed Value) (room : Nat) :
    List (Option String × Json) → Option (List (String × Value))
  | [] => some []
  | (key, member) :: members => do
    let k ← key
    let v ← value? collect room member
    let rest ← entries? collect room members
    pure ((k, v) :: rest)

end

/-- The string of a tree. -/
def string? : Json → Option String
  | .string s => some s
  | _ => none

/-- The truth value of a tree. -/
def bool? : Json → Option Bool
  | .bool b => some b
  | _ => none

/-- The integer of a tree, if it is a natural number of 32 bits. -/
def uint32? : Json → Option UInt32
  | .number (.int n) =>
    if 0 ≤ n.toInt ∧ n.toInt < Int.pow 2 32 then some n.toInt.toNat.toUInt32 else none
  | _ => none

/-- The items of an array, each read in the same way. -/
def list? {α : Type} (read : Json → Option α) : Json → Option (List α)
  | .array items => items.mapM read
  | _ => none

/-- The word of an enumeration: a string, or an object with the word as its one key and
no value. With `emptyIsNull` an empty object counts as no value too. -/
def word? (emptyIsNull : Bool) : Json → Option String
  | .string s => some s
  | .object [(some key, .null)] => some key
  | .object [(some key, .object [])] => if emptyIsNull then some key else none
  | _ => none

/-- The member of an object under a key: `some none` if there is none, and nothing at
all if the key comes twice. -/
def member? (members : List (Option String × Json)) (name : String) : Option (Option Json) :=
  match members.filter (·.1 == some name) with
  | [] => some none
  | [(_, j)] => some (some j)
  | _ => none

/-- The members of a record, in the order of their names; the last ones of an array may
be missing. -/
def record? (names : List String) : Json → Option (List (Option Json))
  | .array items =>
    if items.length ≤ names.length then
      some (items.map some ++ List.replicate (names.length - items.length) none)
    else none
  | .object members =>
    if members.any (·.1.isNone) then none else names.mapM (member? members)
  | _ => none

/-- A member that may be missing and then has a default. -/
def memberOr {α : Type} (default : α) (read : Json → Option α) : Option Json → Option α
  | none => some default
  | some j => read j

end Json

end SqlText
