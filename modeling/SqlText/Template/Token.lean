import SqlText.Template.Placeholder
import SqlText.Text.Cut

/-!
# Templates as tokens

A template is cut in two passes. The first cuts at the letter markers from left
to right; the second cuts every piece of text between them at its fixed-point
markers. A question mark that starts neither kind of marker is plain text, and so
is a marker whose number of decimals needs more than 32 bits.
-/

namespace SqlText

/-- A stretch of plain text, or a marker. -/
inductive Token where
  /-- Text that is copied. -/
  | literal (text : String)
  /-- A place for an argument. -/
  | marker (kind : Placeholder)
  deriving DecidableEq, Repr

namespace Token

/-- The token is a marker. -/
def isMarker : Token → Bool
  | .literal _ => false
  | .marker _ => true

/-- Plain text as tokens: no text is no token. -/
def ofText (cs : List Char) : List Token :=
  if cs.isEmpty then [] else [.literal (String.ofList cs)]

end Token

namespace Template

/-- The number of decimals that the digits of a marker write: none is zero, and
32 bits are the limit. -/
def precision? (digits : List Char) : Option UInt32 :=
  let n := Nat.ofDigitChars 10 digits 0
  if n < Nat.pow 2 32 then some n.toUInt32 else none

/-- A marker with a letter at the front of a text. -/
def letterMarker? : List Char → Option (Placeholder × List Char)
  | '?' :: letter :: rest => (Placeholder.ofLetter? letter).map (·, rest)
  | _ => none

/-- A fixed-point marker at the front of a text: a question mark, digits, and an `f`. -/
def floatMarker? : List Char → Option (UInt32 × List Char)
  | '?' :: cs =>
    match cs.dropWhile Char.isDigit with
    | 'f' :: rest => (precision? (cs.takeWhile Char.isDigit)).map (·, rest)
    | _ => none
  | _ => none

theorem letterMarker?_length {cs rest : List Char} {kind : Placeholder}
    (h : letterMarker? cs = some (kind, rest)) : rest.length < cs.length := by
  unfold letterMarker? at h
  split at h
  · simp only [Option.map_eq_some_iff, Prod.mk.injEq] at h
    obtain ⟨_, _, _, rfl⟩ := h
    simp only [List.length_cons]
    omega
  · simp at h

theorem floatMarker?_length {cs rest : List Char} {precision : UInt32}
    (h : floatMarker? cs = some (precision, rest)) : rest.length < cs.length := by
  unfold floatMarker? at h
  split at h
  · rename_i cs
    split at h
    · rename_i tail htail
      have hle := (List.dropWhile_sublist Char.isDigit (l := cs)).length_le
      rw [htail] at hle
      simp only [Option.map_eq_some_iff, Prod.mk.injEq] at h
      obtain ⟨_, _, _, rfl⟩ := h
      simp only [List.length_cons] at hle ⊢
      omega
    · simp at h
  · simp at h

/-- The markers with a letter. -/
def letterMark : Text.Mark Placeholder := ⟨letterMarker?, letterMarker?_length⟩

/-- The fixed-point markers. -/
def floatMark : Text.Mark UInt32 := ⟨floatMarker?, floatMarker?_length⟩

/-- The tokens of a text without letter markers. -/
def floatTokens (cs : List Char) : List Token :=
  let (text, later) := floatMark.cut cs
  Token.ofText text ++
    later.flatMap fun (precision, text) => .marker (.float precision) :: Token.ofText text

/-- The tokens of a template, given as characters. -/
def tokensOf (cs : List Char) : List Token :=
  let (text, later) := letterMark.cut cs
  floatTokens text ++ later.flatMap fun (kind, text) => .marker kind :: floatTokens text

/-- The tokens of a template. -/
def tokens (template : String) : List Token :=
  tokensOf template.toList

/-- The number of arguments that a template asks for. -/
def placeholderCount (template : String) : Nat :=
  (tokens template).countP Token.isMarker

end Template

end SqlText
