import SqlText.Toml.Scalar

/-!
# Reading TOML

A document is a list of lines. A line with a key writes an item into the table of the
last header; a line with a header opens a table, or one more table under a key. Line
ends and comments may stand between any two parts of what is in brackets or braces, but
not inside a key.
-/

namespace SqlText.Toml

/-- How deep brackets and braces may nest, and how many parts a key may have. -/
def depthLimit : Nat := 80

/-- A character of a bare key. -/
def isKeyChar (c : Char) : Bool := c.isAlphanum || c = '_' || c = '-'

/-- One part of a key. -/
def keyPart? (cs : List Char) : Option (String × List Char) :=
  match cs with
  | '"' :: _ | '\'' :: _ => shortString? cs
  | cs =>
    let bare := cs.takeWhile isKeyChar
    if bare.isEmpty then none else some (String.ofList bare, cs.dropWhile isKeyChar)

/-- A key of limited length: parts with dots between them, spaces around each. The text
after it begins with no space. -/
def key? : Nat → List Char → Option (List String × List Char)
  | 0, _ => none
  | limit + 1, cs => do
    let (part, rest) ← keyPart? (skipSpace cs)
    match skipSpace rest with
    | '.' :: rest => do
      let (parts, rest) ← key? limit rest
      pure (part :: parts, rest)
    | rest => pure ([part], rest)

/-- A key, an equals sign, and the text after it. What may stand on either side of the
equals sign is skipped. -/
def assignment? (skip : List Char → List Char) (cs : List Char) :
    Option (List String × List Char) := do
  let (key, rest) ← key? depthLimit cs
  match skip rest with
  | '=' :: rest => pure (key, skip rest)
  | _ => none

mutual

/-- An item and the text after it. Brackets and braces may nest to a depth. -/
def item? : Nat → Nat → List Char → Option (Item × List Char)
  | 0, _, _ => none
  | fuel + 1, depth, cs =>
    match cs, depth with
    | '"' :: _, _ | '\'' :: _, _ => (string? cs).map fun (s, rest) => (.string s, rest)
    | '[' :: _, 0 | '\x7b' :: _, 0 => none
    | '[' :: rest, depth + 1 =>
      (items? fuel depth [] (skipGap rest)).map fun (is, rest) => (.array is, rest)
    | '\x7b' :: rest, depth + 1 =>
      (entries? fuel depth [] (skipGap rest)).map fun (es, rest) =>
        (.table .closed es, rest)
    | cs, _ =>
      let (w, rest) := word cs
      (scalar? w).map (·, rest)

/-- The rest of an array, after the items that have been read. -/
def items? : Nat → Nat → List Item → List Char → Option (List Item × List Char)
  | 0, _, _, _ => none
  | fuel + 1, depth, done, cs =>
    match cs with
    | ']' :: rest => some (done.reverse, rest)
    | cs =>
      match item? fuel depth cs with
      | none => none
      | some (i, rest) =>
        match skipGap rest with
        | ',' :: rest => items? fuel depth (i :: done) (skipGap rest)
        | ']' :: rest => some ((i :: done).reverse, rest)
        | _ => none

/-- The rest of a table in braces, after the entries that have been read. -/
def entries? : Nat → Nat → Entries → List Char → Option (Entries × List Char)
  | 0, _, _, _ => none
  | fuel + 1, depth, done, cs =>
    match cs with
    | '\x7d' :: rest => some (done, rest)
    | cs =>
      match assignment? skipGap cs with
      | none => none
      | some (key, rest) =>
        match item? fuel depth rest with
        | none => none
        | some (i, rest) =>
          match put i key done with
          | none => none
          | some done =>
            match skipGap rest with
            | ',' :: rest => entries? fuel depth done (skipGap rest)
            | '\x7d' :: rest => some (done, rest)
            | _ => none

end

/-- The document so far: its entries, and the path of the last header. -/
structure Document where
  /-- The entries of the whole document. -/
  entries : Entries
  /-- Where the next keys are written. -/
  current : List String

namespace Document

/-- Opens the table of a header. The last part of its path is opened in the table that
the others lead to. -/
def openHeader (d : Document) (openKey : String → Entries → Option Entries)
    (path : List String) : Option Document := do
  let key ← path.getLast?
  let entries ← within (openKey key) path.dropLast d.entries
  pure ⟨entries, path⟩

/-- Reads one line that is not blank, up to what may follow on it. -/
def line? (d : Document) (cs : List Char) : Option (Document × List Char) :=
  match cs with
  | '[' :: '[' :: rest => do
    let (path, rest) ← key? depthLimit rest
    match rest with
    | ']' :: ']' :: rest => do
      let d ← d.openHeader openNext path
      pure (d, rest)
    | _ => none
  | '[' :: rest => do
    let (path, rest) ← key? depthLimit rest
    match rest with
    | ']' :: rest => do
      let d ← d.openHeader openTable path
      pure (d, rest)
    | _ => none
  | cs => do
    let (key, rest) ← assignment? skipSpace cs
    let (i, rest) ← item? (rest.length + 1) depthLimit rest
    let entries ← within (put i key) d.current d.entries
    pure ({ d with entries }, rest)

/-- Reads the lines of a document. -/
def lines? : Nat → Document → List Char → Option Document
  | 0, _, _ => none
  | fuel + 1, d, cs =>
    match skipGap cs with
    | [] => some d
    | cs =>
      match d.line? cs with
      | none => none
      | some (d, rest) =>
        match skipComment rest with
        | [] => some d
        | rest =>
          match lineEnd? rest with
          | some rest => lines? fuel d rest
          | none => none

end Document

/-- The entries of a document. A byte order mark may stand before it. -/
def ofText? (text : String) : Option Entries :=
  let cs := match text.toList with
    | '\uFEFF' :: rest => rest
    | cs => cs
  (Document.lines? (cs.length + 1) ⟨[], []⟩ cs).map Document.entries

end SqlText.Toml
