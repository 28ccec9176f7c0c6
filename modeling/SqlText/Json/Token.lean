import SqlText.Json.Basic
import SqlText.Json.Quoted

/-!
# JSON tokens

The lexical form of JSON: spaces, words, numbers, strings and punctuation, by the
strict rules of the standard. Every token is at least one character, so that a text
has finitely many.
-/

namespace SqlText.Json

/-- A token of a JSON text. -/
inductive Token where
  /-- A word, a number or a string. -/
  | leaf (j : Json)
  /-- An opening bracket. -/
  | openArray
  /-- A closing bracket. -/
  | closeArray
  /-- An opening brace. -/
  | openObject
  /-- A closing brace. -/
  | closeObject
  /-- A comma. -/
  | comma
  /-- A colon. -/
  | colon

/-- The four characters that may stand between tokens. -/
def isSpace (c : Char) : Bool := c = ' ' || c = '\n' || c = '\t' || c = '\r'

/-- The value of a string's units. -/
def ofUnits (us : List Unit16) : Json :=
  match joinUnits? us with
  | some cs => .string (String.ofList cs)
  | none => .halfPair

/-- A number of the text as a leaf. -/
def ofNumberText (t : NumberText) : Json :=
  match t.value? with
  | some n => .number n
  | none => .tooLarge

/-- The token that begins with a character, and the text after it. -/
def token? (c : Char) (rest : List Char) : Option (Token × List Char) :=
  match c with
  | '[' => some (.openArray, rest)
  | ']' => some (.closeArray, rest)
  | '\x7b' => some (.openObject, rest)
  | '\x7d' => some (.closeObject, rest)
  | ',' => some (.comma, rest)
  | ':' => some (.colon, rest)
  | '"' => (stringUnits? [] rest).map fun (us, rest) => (.leaf (ofUnits us), rest)
  | 'n' =>
    match rest with
    | 'u' :: 'l' :: 'l' :: rest => some (.leaf .null, rest)
    | _ => none
  | 't' =>
    match rest with
    | 'r' :: 'u' :: 'e' :: rest => some (.leaf (.bool true), rest)
    | _ => none
  | 'f' =>
    match rest with
    | 'a' :: 'l' :: 's' :: 'e' :: rest => some (.leaf (.bool false), rest)
    | _ => none
  | c => (number? (c :: rest)).map fun (t, rest) => (.leaf (ofNumberText t), rest)

theorem token?_length {c : Char} {rest rest' : List Char} {t : Token}
    (h : token? c rest = some (t, rest')) : rest'.length ≤ rest.length := by
  unfold token? at h
  split at h
  case h_7 =>
    simp only [Option.map_eq_some_iff, Prod.exists, Prod.mk.injEq] at h
    obtain ⟨us, after, hu, -, rfl⟩ := h
    exact Nat.le_of_lt (stringUnits?_length hu)
  case h_11 =>
    simp only [Option.map_eq_some_iff, Prod.exists, Prod.mk.injEq] at h
    obtain ⟨n, after, hn, -, rfl⟩ := h
    exact Nat.le_of_lt_succ (number?_length hn)
  all_goals
    first
    | (simp only [Option.some.injEq, Prod.mk.injEq] at h
       simp [h.2])
    | (split at h
       · simp only [Option.some.injEq, Prod.mk.injEq] at h
         simp only [← h.2, List.length_cons]
         omega
       · simp at h)

/-- The tokens of a text. -/
def tokens? (cs : List Char) : Option (List Token) :=
  match h : cs.dropWhile isSpace with
  | [] => some []
  | c :: rest =>
    match ht : token? c rest with
    | none => none
    | some (t, after) =>
      have : after.length < cs.length := by
        have h1 := token?_length ht
        have h2 := (List.dropWhile_sublist isSpace (l := cs)).length_le
        rw [h] at h2
        simp only [List.length_cons] at h2
        omega
      (tokens? after).map (t :: ·)
termination_by cs.length

end SqlText.Json
