import SqlText.Json.Token

/-!
# Reading JSON

Tokens are read from left to right against the arrays and objects that are still
open, the innermost first. Each token says what may come next; a text is whole when
one value has been read and nothing is open.
-/

namespace SqlText.Json

/-- An array or object that is still open, with what has been read of it, the latest
first. -/
inductive Container where
  /-- An open array. -/
  | array (items : List Json)
  /-- An open object and the key whose value comes next. -/
  | object (members : List (Option String × Json)) (key : Option String)

/-- What may come next. -/
inductive Awaiting where
  /-- A value. -/
  | value
  /-- The first item of an array, or its end. -/
  | itemOrEnd
  /-- A key of an object with these members. -/
  | key (members : List (Option String × Json))
  /-- The first key of an object, or its end. -/
  | keyOrEnd
  /-- The colon after a key. -/
  | colon (members : List (Option String × Json)) (key : Option String)
  /-- A comma or the end of the innermost array or object. -/
  | more
  /-- Nothing: this value is the whole text. -/
  | done (j : Json)

/-- How far a text has been read. -/
structure Progress where
  /-- What is open, the innermost first. -/
  opened : List Container
  /-- What may come next. -/
  awaiting : Awaiting

namespace Progress

/-- Nothing has been read. -/
def start : Progress := ⟨[], .value⟩

/-- A value has been read: it belongs to the innermost open array or object. -/
def receive (j : Json) : List Container → Progress
  | [] => ⟨[], .done j⟩
  | .array items :: outer => ⟨.array (j :: items) :: outer, .more⟩
  | .object members key :: outer => ⟨.object ((key, j) :: members) none :: outer, .more⟩

/-- The key that a leaf is, if it is a string. -/
def keyOf? : Json → Option (Option String)
  | .string s => some (some s)
  | .halfPair => some none
  | _ => none

/-- Reads a token where a value may stand. -/
def readValue (opened : List Container) : Token → Option Progress
  | .leaf j => some (receive j opened)
  | .openArray => some ⟨.array [] :: opened, .itemOrEnd⟩
  | .openObject => some ⟨opened, .keyOrEnd⟩
  | _ => none

/-- Reads one token. -/
def step (p : Progress) (t : Token) : Option Progress :=
  match p.awaiting with
  | .value => readValue p.opened t
  | .itemOrEnd =>
    match t, p.opened with
    | .closeArray, .array _ :: outer => some (receive (.array []) outer)
    | t, opened => readValue opened t
  | .keyOrEnd =>
    match t with
    | .closeObject => some (receive (.object []) p.opened)
    | .leaf j => (keyOf? j).map fun key => ⟨p.opened, .colon [] key⟩
    | _ => none
  | .key members =>
    match t with
    | .leaf j => (keyOf? j).map fun key => ⟨p.opened, .colon members key⟩
    | _ => none
  | .colon members key =>
    match t with
    | .colon => some ⟨.object members key :: p.opened, .value⟩
    | _ => none
  | .more =>
    match t, p.opened with
    | .comma, .array items :: outer => some ⟨.array items :: outer, .value⟩
    | .comma, .object members _ :: outer => some ⟨outer, .key members⟩
    | .closeArray, .array items :: outer => some (receive (.array items.reverse) outer)
    | .closeObject, .object members _ :: outer =>
      some (receive (.object members.reverse) outer)
    | _, _ => none
  | .done _ => none

end Progress

/-- The tree of a JSON text. -/
def ofText? (text : String) : Option Json := do
  let tokens ← tokens? text.toList
  let progress ← tokens.foldlM Progress.step Progress.start
  match progress.awaiting with
  | .done j => some j
  | _ => none

end SqlText.Json
