import SqlText.Proofs.Grammar.Reader
import SqlText.Proofs.NameText
import SqlText.Proofs.NumeralText

/-!
# Names and literals of a statement

A name is a row of identifiers in backticks with dots between them; a literal is the
keyword for no value, a signed decimal numeral or a string in single quotes. The
readers below take them from a statement as a server does, and give back the parts of
the name and the text that the string stands for.
-/

namespace SqlText.Grammar

/-- The parts of a name whose first backtick has been read. Two backticks stand for one;
a dot between two backticks ends a part and begins the next. -/
def parts? : Reader (List Char × List (List Char))
  | '\x60' :: '\x60' :: cs =>
    (parts? cs).map fun ((part, later), rest) => (('\x60' :: part, later), rest)
  | '\x60' :: '.' :: '\x60' :: cs =>
    (parts? cs).map fun ((part, later), rest) => (([], part :: later), rest)
  | '\x60' :: cs => some (([], []), cs)
  | c :: cs => (parts? cs).map fun ((part, later), rest) => ((c :: part, later), rest)
  | [] => none

/-- A name, as its parts. -/
def name? : Reader (List String)
  | '\x60' :: cs =>
    (parts? cs).map fun ((part, later), rest) => ((part :: later).map String.ofList, rest)
  | _ => none

/-- The character that stands after a backslash. -/
def unescaped : Char → Char
  | '0' => '\x00'
  | 'n' => '\n'
  | 'r' => '\r'
  | 'Z' => '\x1a'
  | c => c

/-- The content of a string whose first quote has been read. Two quotes stand for one. -/
def content? : Reader (List Char)
  | '\\' :: c :: cs => (content? cs).map fun (content, rest) => (unescaped c :: content, rest)
  | '\'' :: '\'' :: cs => (content? cs).map fun (content, rest) => ('\'' :: content, rest)
  | '\'' :: cs => some ([], cs)
  | c :: cs => (content? cs).map fun (content, rest) => (c :: content, rest)
  | [] => none

/-- A numeral without a sign: digits, and more digits if a point follows. -/
def unsigned? (cs : List Char) : Option (List Char × List Char) :=
  let whole := cs.takeWhile Char.isDigit
  if whole.isEmpty then none
  else
    match cs.dropWhile Char.isDigit with
    | '.' :: cs =>
      let fraction := cs.takeWhile Char.isDigit
      if fraction.isEmpty then none
      else some (whole ++ '.' :: fraction, cs.dropWhile Char.isDigit)
    | cs => some (whole, cs)

/-- A signed decimal numeral. -/
def numeral? : Reader (List Char)
  | '-' :: cs => (unsigned? cs).map fun (digits, rest) => ('-' :: digits, rest)
  | cs => unsigned? cs

/-- What a literal stands for. -/
inductive Meaning where
  /-- No value. -/
  | null
  /-- The number that these characters write. -/
  | numeral (text : String)
  /-- A text. -/
  | string (content : String)
  deriving DecidableEq, Repr

/-- A literal as it is written, and what it stands for. -/
structure Literal where
  /-- The characters of the literal. -/
  spelling : String
  /-- What it stands for. -/
  meaning : Meaning
  deriving DecidableEq, Repr

/-- What the literal at the front of a text stands for. -/
def meaning? : Reader Meaning
  | 'N' :: 'U' :: 'L' :: 'L' :: cs => some (.null, cs)
  | '\'' :: cs => (content? cs).map fun (content, rest) => (.string (.ofList content), rest)
  | cs => (numeral? cs).map fun (text, rest) => (.numeral (.ofList text), rest)

/-- A literal. -/
def literal? : Reader Literal := fun cs =>
  (meaning? cs).map fun (meaning, rest) =>
    (⟨String.ofList (cs.take (cs.length - rest.length)), meaning⟩, rest)

section Names

/-- An escaped character of an identifier is read as that character. -/
theorem parts?_identifierChar (c : Char) (cs : List Char) :
    parts? (Escaper.identifierChar c ++ cs) =
      (parts? cs).map fun ((part, later), rest) => ((c :: part, later), rest) := by
  unfold Escaper.identifierChar
  split
  · rename_i hc
    subst hc
    rfl
  · rename_i hc
    rw [List.singleton_append, parts?]
    all_goals simp_all

/-- The body of an identifier is read as its characters, before whatever follows. -/
theorem parts?_identifierBody (raw cs : List Char) :
    parts? (raw.flatMap Escaper.identifierChar ++ cs) =
      (parts? cs).map fun ((part, later), rest) => ((raw ++ part, later), rest) := by
  induction raw with
  | nil => simp
  | cons c raw ih =>
    rw [List.flatMap_cons, List.append_assoc, parts?_identifierChar, ih]
    simp [Function.comp_def]

/-- The text is over, or goes on with neither a backtick nor a dot. -/
def EndsName (rest : List Char) : Prop := ∀ c ∈ rest.head?, c ≠ '\x60' ∧ c ≠ '.'

/-- An end of any kind is the end of a name. -/
theorem Ends.endsName {rest : List Char} (h : Ends rest) : EndsName rest := by
  intro c hc
  rcases h c hc with rfl | rfl <;> decide

/-- The end of a name is read where neither a backtick nor another part follows. -/
theorem parts?_close {rest : List Char} (h : EndsName rest) :
    parts? ('\x60' :: rest) = some (([], []), rest) := by
  cases rest with
  | nil => rfl
  | cons c rest =>
    obtain ⟨hbacktick, hdot⟩ := h c (by simp)
    rw [parts?]
    · exact fun _ hrest => hbacktick (List.cons.inj hrest).1
    · exact fun _ hrest => hdot (List.cons.inj hrest).1

/-- The text of a name with these parts. -/
def nameText (parts : List String) : String :=
  ".".intercalate (parts.map fun part => Builder.enclosed '\x60' (Escaper.identifierBody part))

/-- After its first backtick the text of a name is read part by part. -/
theorem parts?_nameText {rest : List Char} (hends : EndsName rest) (part : String)
    (later : List String) :
    ∃ cs, (nameText (part :: later)).toList = '\x60' :: cs ∧
      parts? (cs ++ rest) = some ((part.toList, later.map String.toList), rest) := by
  induction later generalizing part with
  | nil =>
    refine ⟨(Escaper.identifierBody part).toList ++ ['\x60'], ?_, ?_⟩
    · simp [nameText, Builder.enclosed]
    · rw [Escaper.identifierBody, String.toList_ofList, List.append_assoc,
        parts?_identifierBody, List.singleton_append, parts?_close hends]
      simp
  | cons next later ih =>
    obtain ⟨cs, htext, hread⟩ := ih next
    refine ⟨(Escaper.identifierBody part).toList ++ '\x60' :: '.' :: '\x60' :: cs, ?_, ?_⟩
    · rw [nameText, List.map_cons, List.map_cons, String.intercalate_cons_cons,
        ← List.map_cons (f := fun part => Builder.enclosed '\x60' (Escaper.identifierBody part)),
        String.toList_append, ← nameText, htext]
      simp [Builder.enclosed]
    · rw [Escaper.identifierBody, String.toList_ofList, List.append_assoc,
        parts?_identifierBody]
      simp [parts?, hread]

/-- The text of a name is read as its parts, up to where the name ends. -/
theorem name?_nameText {parts : List String} (hne : parts ≠ []) {rest : List Char}
    (hends : EndsName rest) : name? ((nameText parts).toList ++ rest) = some (parts, rest) := by
  cases parts with
  | nil => exact absurd rfl hne
  | cons part later =>
    obtain ⟨cs, htext, hread⟩ := parts?_nameText hends part later
    rw [htext, List.cons_append, name?, hread]
    simp [Function.comp_def]

/-- The text of a name is read as its parts. -/
theorem reads_name {parts : List String} (hne : parts ≠ []) :
    Reads name? (nameText parts) parts :=
  fun _ hends => name?_nameText hne hends.endsName

end Names

section Literals

/-- The keyword for no value is read. -/
theorem reads_null : Reads meaning? "NULL" .null := fun _ _ => rfl

/-- An escaped character of a string is read as that character. -/
theorem content?_stringChar (c : Char) (cs : List Char) :
    content? (Escaper.stringChar c ++ cs) =
      (content? cs).map fun (content, rest) => (c :: content, rest) := by
  unfold Escaper.stringChar
  split
  case h_8 _ _ _ _ hbackslash hquote _ _ =>
    rw [List.singleton_append, content?]
    · exact fun _ _ h _ => hbackslash h
    · exact fun _ h _ => hquote h
    · exact hquote
  all_goals rfl

/-- The body of a string is read as its characters. -/
theorem content?_stringBody (raw cs : List Char) :
    content? (raw.flatMap Escaper.stringChar ++ cs) =
      (content? cs).map fun (content, rest) => (raw ++ content, rest) := by
  induction raw with
  | nil => simp
  | cons c raw ih =>
    rw [List.flatMap_cons, List.append_assoc, content?_stringChar, ih]
    simp [Function.comp_def]

/-- A string ends at a single quote that no other quote follows. -/
theorem content?_close {rest : List Char} (h : rest.head? ≠ some '\'') :
    content? ('\'' :: rest) = some ([], rest) := by
  cases rest with
  | nil => rfl
  | cons c rest =>
    have hc : c ≠ '\'' := by simpa using h
    rw [content?]
    · exact fun _ hrest => hc (List.cons.inj hrest).1

/-- A quoted string is read as the text that was quoted. -/
theorem reads_string (raw : String) :
    Reads meaning? (Builder.enclosed '\'' (Escaper.stringBody raw)) (.string raw) := by
  intro rest hends
  have hquote : rest.head? ≠ some '\'' := by
    intro h
    rcases hends '\'' h with h | h <;> cases h
  have hcontent := content?_stringBody raw.toList ('\'' :: rest)
  simp [Builder.enclosed, Escaper.stringBody, meaning?, hcontent, content?_close hquote]

/-- An end does not begin with a digit. -/
theorem Ends.not_digit {rest : List Char} (h : Ends rest) :
    ∀ c ∈ rest.head?, c.isDigit = false := by
  intro c hc
  rcases h c hc with rfl | rfl <;> rfl

/-- Digits are read as a whole number. -/
theorem unsigned?_whole {whole rest : List Char} (h : Number.IsDigits whole)
    (hends : Ends rest) : unsigned? (whole ++ rest) = some (whole, rest) := by
  obtain ⟨htake, hdrop⟩ := Number.span_digits h.2 hends.not_digit
  have hwhole : whole.isEmpty = false := by simpa using h.1
  rw [unsigned?, htake, hdrop, hwhole]
  cases rest with
  | nil => rfl
  | cons c rest =>
    have hc : c = ' ' ∨ c = ',' := hends c (by simp)
    rcases hc with rfl | rfl <;> rfl

/-- Digits on both sides of a point are read as one number. -/
theorem unsigned?_fraction {whole fraction rest : List Char} (h : Number.IsDigits whole)
    (hfraction : Number.IsDigits fraction) (hends : Ends rest) :
    unsigned? (whole ++ '.' :: fraction ++ rest) = some (whole ++ '.' :: fraction, rest) := by
  have hpoint : ∀ c ∈ ('.' :: (fraction ++ rest)).head?, c.isDigit = false := by simp
  obtain ⟨htake, hdrop⟩ := Number.span_digits h.2 hpoint
  obtain ⟨htake', hdrop'⟩ := Number.span_digits hfraction.2 hends.not_digit
  have hwhole : whole.isEmpty = false := by simpa using h.1
  have hempty : fraction.isEmpty = false := by simpa using hfraction.1
  rw [List.append_assoc, List.cons_append, unsigned?, htake, hdrop, hwhole]
  simp only [htake', hdrop', hempty, Bool.false_eq_true, if_false]

/-- What begins with a digit or a minus sign is neither the keyword nor a string. -/
theorem meaning?_eq_numeral? {c : Char} {cs : List Char} (hc : c = '-' ∨ c.isDigit = true) :
    meaning? (c :: cs) =
      (numeral? (c :: cs)).map fun (text, rest) => (.numeral (.ofList text), rest) := by
  have hkeyword : c ≠ 'N' := by rintro rfl; simp at hc
  have hquote : c ≠ '\'' := by rintro rfl; simp at hc
  rw [meaning?]
  · exact fun _ h => hkeyword (List.cons.inj h).1
  · exact fun _ h => hquote (List.cons.inj h).1

/-- Digits that are read as a number are read after a sign too. -/
theorem meaning?_signed (negative : Bool) {digits rest : List Char} (hne : digits ≠ [])
    (hhead : ∀ c ∈ digits.head?, c.isDigit = true)
    (hdigits : unsigned? (digits ++ rest) = some (digits, rest)) :
    meaning? (Number.minus negative ++ digits ++ rest) =
      some (.numeral (.ofList (Number.minus negative ++ digits)), rest) := by
  cases digits with
  | nil => exact absurd rfl hne
  | cons d digits =>
    have hd : d.isDigit = true := hhead d (by simp)
    cases negative with
    | true =>
      change meaning? ('-' :: (d :: digits ++ rest)) = _
      rw [meaning?_eq_numeral? (.inl rfl), numeral?, hdigits]
      rfl
    | false =>
      have hminus : d ≠ '-' := by rintro rfl; simp at hd
      change meaning? (d :: (digits ++ rest)) = _
      rw [meaning?_eq_numeral? (.inr hd), numeral?]
      · rw [← List.cons_append, hdigits]
        rfl
      · exact fun _ h => hminus (List.cons.inj h).1

/-- Digits begin with a digit, whatever is written after them. -/
theorem head?_digits {whole : List Char} (h : Number.IsDigits whole) (more : List Char) :
    ∀ c ∈ (whole ++ more).head?, c.isDigit = true := by
  obtain ⟨hne, hdigits⟩ := h
  cases whole with
  | nil => exact absurd rfl hne
  | cons d whole => simpa using hdigits d (by simp)

/-- A numeral is read as itself. -/
theorem reads_numeral {text : String} (h : Number.IsNumeral text.toList) :
    Reads meaning? text (.numeral text) := by
  intro rest hends
  rw [← String.ofList_toList (s := text), String.toList_ofList]
  generalize text.toList = cs at h
  cases h with
  | @integer negative whole hwhole =>
    refine meaning?_signed negative hwhole.1 ?_ (unsigned?_whole hwhole hends)
    simpa using head?_digits hwhole []
  | decimal negative hwhole hfraction =>
    refine meaning?_signed negative (by simp) (head?_digits hwhole _) ?_
    exact unsigned?_fraction hwhole hfraction hends

/-- A literal is read with the characters that write it. -/
theorem Reads.literal {text : String} {meaning : Meaning} (h : Reads meaning? text meaning) :
    Reads literal? text ⟨text, meaning⟩ := by
  intro rest hends
  rw [literal?, h rest hends]
  simp

end Literals

end SqlText.Grammar
