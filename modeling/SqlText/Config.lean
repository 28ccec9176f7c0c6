import SqlText.Json.Record
import SqlText.Statement.Reading
import SqlText.Toml.Reader

/-!
# Settings

A builder has one setting: whether it is strict. It can be read from the table
`safesql` of a TOML document or from JSON; without the table or the key it is off. A
table may also be given as an array of what it holds.
-/

namespace SqlText

/-- The settings of a builder. -/
structure Config where
  /-- Refuse values of the wrong type. -/
  strictTypes : Bool := false
  deriving DecidableEq, Repr

namespace Config

/-- The settings of a table's entries; keys that are not known are ignored, but their
numbers must have values. -/
def ofEntries? (entries : Toml.Entries) : Option Config := do
  match ← Toml.member? "strict_types" entries with
  | none => some {}
  | some (.bool b) => some { strictTypes := b }
  | some _ => none

/-- The settings of an item: a table, or an array whose first item is the setting and
whose other items nobody asks for. A date or a time leaves the settings as they are. -/
def ofItem? : Toml.Item → Option Config
  | .table _ entries => ofEntries? entries
  | .array [] | .moment => some {}
  | .array (.bool b :: _) => some { strictTypes := b }
  | _ => none

/-- The settings of a TOML document. -/
def ofToml (text : String) : Except Error Config :=
  let config : Option Config := do
    let entries ← Toml.ofText? text
    match ← Toml.member? "safesql" entries with
    | none => some {}
    | some item => ofItem? item
  match config with
  | some config => .ok config
  | none => .error (.config "failed to parse config")

/-- The settings of a JSON tree. -/
def ofJson? (j : Json) : Option Config := do
  let [strictTypes] ← j.record? ["strict_types"] | none
  let strictTypes ← Json.memberOr false Json.bool? strictTypes
  pure { strictTypes }

/-- The settings as a value. -/
def toValue (c : Config) : Value := .map [("strict_types", .bool c.strictTypes)]

/-- A line that shows the settings of a builder. -/
def describe (c : Config) : String :=
  "SafeSql \x7b config: BuilderConfig \x7b strict_types: " ++
    (if c.strictTypes then "true" else "false") ++ " \x7d, .. \x7d"

end Config

end SqlText
