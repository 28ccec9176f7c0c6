import SqlText.Json.Quoted

/-!
# TOML text

Characters, comments and strings. A basic string has escapes, a literal string has
none, and either may run over several lines between three quotes. Control characters
are refused everywhere, tabs and line ends apart.
-/

namespace SqlText.Toml

/-- A character that may stand in a line: no control character but a tab. -/
def isLineChar (c : Char) : Bool :=
  c = '\t' || (0x20 ≤ c.toNat && c.toNat != 0x7F)

/-- A space or a tab. -/
def isSpace (c : Char) : Bool := c = ' ' || c = '\t'

/-- The text after its spaces and tabs. -/
def skipSpace (cs : List Char) : List Char := cs.dropWhile isSpace

/-- The text after a line end. -/
def lineEnd? : List Char → Option (List Char)
  | '\n' :: rest => some rest
  | '\r' :: '\n' :: rest => some rest
  | _ => none

/-- The text after spaces and a comment, if one begins there. -/
def skipComment (cs : List Char) : List Char :=
  match skipSpace cs with
  | '#' :: rest => rest.dropWhile isLineChar
  | rest => rest

/-- The text after spaces, line ends and comments, in a comment or outside. -/
def skipLines (inComment : Bool) : List Char → List Char
  | [] => []
  | '\n' :: rest | '\r' :: '\n' :: rest => skipLines false rest
  | c :: rest =>
    if inComment then if isLineChar c then skipLines true rest else c :: rest
    else if c = '#' then skipLines true rest
    else if isSpace c then skipLines false rest
    else c :: rest

/-- The text after spaces, comments and line ends. -/
def skipGap (cs : List Char) : List Char := skipLines false cs

/-- The text after spaces and line ends. -/
def skipBlank : List Char → List Char
  | [] => []
  | '\r' :: '\n' :: rest => skipBlank rest
  | c :: rest => if isSpace c || c = '\n' then skipBlank rest else c :: rest

/-- The character of hexadecimal digits, if it is one and there are enough digits. -/
def hexChar? (count : Nat) (cs : List Char) : Option (Char × List Char) := do
  let digits ← (cs.take count).mapM Json.hexDigit?
  let n := digits.foldl (fun n d => 16 * n + d) 0
  if digits.length = count ∧ n.isValidChar then some (Char.ofNat n, cs.drop count) else none

/-- The character of an escape whose backslash has been read. -/
def escape? : List Char → Option (Char × List Char)
  | '"' :: rest => some ('"', rest)
  | '\\' :: rest => some ('\\', rest)
  | 'b' :: rest => some ('\x08', rest)
  | 'e' :: rest => some ('\x1b', rest)
  | 'f' :: rest => some ('\x0c', rest)
  | 'n' :: rest => some ('\n', rest)
  | 'r' :: rest => some ('\r', rest)
  | 't' :: rest => some ('\t', rest)
  | 'x' :: rest => hexChar? 2 rest
  | 'u' :: rest => hexChar? 4 rest
  | 'U' :: rest => hexChar? 8 rest
  | _ => none

/-- The rest of a string in single lines, after what has been read of it. -/
def lineString? (quote : Char) : Nat → List Char → List Char → Option (String × List Char)
  | 0, _, _ => none
  | _, _, [] => none
  | fuel + 1, done, c :: rest =>
    if c = quote then some (String.ofList done.reverse, rest)
    else if c = '\\' ∧ quote = '"' then
      match escape? rest with
      | some (e, rest) => lineString? quote fuel (e :: done) rest
      | none => none
    else if isLineChar c then lineString? quote fuel (c :: done) rest
    else none

/-- The rest of a string in three quotes, after what has been read of it. At most two
quotes may stand right before the three at its end. A backslash at the end of a line
joins the next line that is not blank. -/
def blockString? (quote : Char) : Nat → List Char → List Char → Option (String × List Char)
  | 0, _, _ => none
  | _, _, [] => none
  | fuel + 1, done, c :: rest =>
    if c = quote then
      let more := (rest.takeWhile (· = quote)).length
      if more < 2 then blockString? quote fuel (c :: done) rest
      else
        let inside := min 2 (more - 2)
        some (String.ofList (done.reverse ++ List.replicate inside quote),
          rest.drop (2 + inside))
    else if c = '\\' ∧ quote = '"' then
      match lineEnd? (skipSpace rest) with
      | some after => blockString? quote fuel done (skipBlank after)
      | none =>
        match escape? rest with
        | some (e, rest) => blockString? quote fuel (e :: done) rest
        | none => none
    else match lineEnd? (c :: rest) with
      | some rest => blockString? quote fuel ('\n' :: done) rest
      | none =>
        if isLineChar c then blockString? quote fuel (c :: done) rest else none

/-- A string in one line. -/
def shortString? : List Char → Option (String × List Char)
  | '"' :: rest => lineString? '"' (rest.length + 1) [] rest
  | '\'' :: rest => lineString? '\'' (rest.length + 1) [] rest
  | _ => none

/-- A string, in one line or in three quotes. A line end right after the three quotes
does not belong to it. -/
def string? (cs : List Char) : Option (String × List Char) :=
  let block (quote : Char) (rest : List Char) :=
    blockString? quote (rest.length + 1) [] ((lineEnd? rest).getD rest)
  match cs with
  | '"' :: '"' :: '"' :: rest => block '"' rest
  | '\'' :: '\'' :: '\'' :: rest => block '\'' rest
  | cs => shortString? cs

end SqlText.Toml
