import SqlText.Proofs.Carrying

/-!
# What a draft takes from outside

Strings and identifiers come from outside, and what stands for them in a text is what the
escaper makes of them, in quotes. All else in a draft is fixed before anything is escaped. A
lenient builder passes over the problems, so it writes the parts of the text one after another
and fails only where its escaper does.
-/

namespace SqlText

/-- Something from outside that has to be escaped. -/
inductive Outside where
  /-- A string. -/
  | string (raw : String)
  /-- An identifier. -/
  | identifier (raw : String)
  deriving DecidableEq, Repr

/-- A part of a text. -/
inductive Part where
  /-- Text that is copied. -/
  | fixed (text : String)
  /-- Text from outside. -/
  | outside (raw : Outside)
  deriving DecidableEq, Repr

/-- What stands for a string or an identifier: the escaper's answer, in single quotes or in
backticks. -/
def Outside.text (e : Escaper) : Outside → Except Error String
  | .string raw => (e.string raw).map fun body => "'" ++ body ++ "'"
  | .identifier raw => (e.identifier raw).map fun body => "\x60" ++ body ++ "\x60"

namespace Part

/-- The text of a part. -/
def text (e : Escaper) : Part → Except Error String
  | .fixed text => .ok text
  | .outside raw => raw.text e

/-- With the rules of MySQL every part has a text. -/
theorem exists_text_mysql (p : Part) : ∃ t, p.text .mysql = .ok t := by
  cases p with
  | fixed text => exact ⟨text, rfl⟩
  | outside raw => cases raw <;> exact ⟨_, rfl⟩

end Part

/-- The part of a text that a piece of a draft becomes. -/
def Piece.part? : Piece → Option Part
  | .fixed text => some (.fixed text)
  | .quoted raw => some (.outside (.string raw))
  | .identifier raw => some (.outside (.identifier raw))
  | .problem .. => none

namespace Draft

/-- The parts of the text of a draft; problems are left out. -/
def parts (d : Draft) : List Part := d.filterMap Piece.part?

/-- A draft has text exactly if it has parts. -/
theorem hasText_eq (d : Draft) : d.hasText = !d.parts.isEmpty := by
  induction d with
  | nil => rfl
  | cons piece d ih =>
    cases piece with
    | problem error sql => exact ih
    | fixed | quoted | identifier => rfl

end Draft

namespace Builder

/-- A string is put in single quotes. -/
theorem enclosed_single (body : String) : enclosed '\'' body = "'" ++ body ++ "'" := rfl

/-- An identifier is put in backticks. -/
theorem enclosed_backtick (body : String) : enclosed '\x60' body = "\x60" ++ body ++ "\x60" := rfl

variable (b : Builder) {piece : Piece} {raw : Outside}

/-- At something from outside the builder puts the escaped text in front, or it stops. -/
theorem carryOut_outside (hpart : piece.part? = some (.outside raw)) (d : Draft) :
    (∀ text, raw.text b.escaper = .ok text →
      b.carryOut (piece :: d) = (b.carryOut d).before text) ∧
    ∀ e, raw.text b.escaper = .error e → b.carryOut (piece :: d) = .failReported e none := by
  cases piece with
  | quoted raw =>
    cases hpart
    rw [carryOut, Outside.text]
    cases b.escaper.string raw <;> simp [Except.map, enclosed_single]
  | identifier raw =>
    cases hpart
    rw [carryOut, Outside.text]
    cases b.escaper.identifier raw <;> simp [Except.map, enclosed_backtick]
  | fixed | problem => cases hpart

/-- A part of the text comes first: it has its text, or the builder stops. -/
theorem result_carryOut_cons {p : Part} (hpart : piece.part? = some p) (d : Draft) :
    (b.carryOut (piece :: d)).result =
      (p.text b.escaper).bind fun text => (b.carryOut d).result.map (text :: ·) := by
  cases p with
  | fixed text =>
    cases piece with
    | fixed text =>
      cases hpart
      rfl
    | quoted | identifier | problem => cases hpart
  | outside raw =>
    obtain ⟨hok, herror⟩ := b.carryOut_outside hpart d
    rw [Part.text]
    cases htext : raw.text b.escaper with
    | ok text =>
      rw [hok text htext]
      rfl
    | error e =>
      rw [herror e htext]
      rfl

/-- A lenient builder goes through the parts of a draft, up to the first that has no text. -/
theorem result_carryOut_lenient (e : Escaper) (d : Draft) :
    ((⟨e, false⟩ : Builder).carryOut d).result = d.parts.mapM (Part.text e) := by
  induction d with
  | nil => rfl
  | cons piece d ih =>
    cases hpart : piece.part? with
    | none =>
      cases piece with
      | problem error sql => exact ih
      | fixed | quoted | identifier => cases hpart
    | some p =>
      have hparts : Draft.parts (piece :: d) = p :: Draft.parts d := List.filterMap_cons_some hpart
      rw [result_carryOut_cons _ hpart, ih, hparts, List.mapM_cons]
      rfl

/-- The text of a lenient builder is that of the parts, one after another. -/
theorem result_perform_lenient (e : Escaper) (d : Draft) :
    ((⟨e, false⟩ : Builder).perform d).result =
      (d.parts.mapM (Part.text e)).map String.join := by
  unfold perform
  rw [← result_carryOut_lenient]
  obtain ⟨notices, result⟩ := (⟨e, false⟩ : Builder).carryOut d
  cases result <;> rfl

end Builder

/-- With the rules of MySQL parts always have a text. -/
theorem Part.exists_texts_mysql (parts : List Part) :
    ∃ texts, parts.mapM (Part.text .mysql) = .ok texts := by
  induction parts with
  | nil => exact ⟨[], rfl⟩
  | cons p parts ih =>
    obtain ⟨text, htext⟩ := p.exists_text_mysql
    obtain ⟨texts, htexts⟩ := ih
    exact ⟨text :: texts, by rw [List.mapM_cons, htext, htexts]; rfl⟩

/-- With the rules of MySQL a lenient builder writes every draft. -/
theorem Builder.exists_writes_lenient (d : Draft) :
    ∃ sql, (⟨.mysql, false⟩ : Builder).Writes d sql := by
  obtain ⟨texts, htexts⟩ := Part.exists_texts_mysql d.parts
  exact ⟨String.join texts, by rw [Writes, result_perform_lenient, htexts]; rfl⟩

end SqlText
