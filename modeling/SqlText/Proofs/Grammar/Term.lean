import SqlText.Proofs.Grammar.Leaf
import SqlText.Statement.Assembly

/-!
# Terms of a statement

A term is a name, an equals sign and a literal. With the rules of MySQL the text of a
described column and value is read as exactly that column and that value: the parts of
the name, the characters of the literal, and the text that a string stands for.
-/

namespace SqlText.Grammar

/-- A column and the literal after its equals sign. -/
structure Term where
  /-- The parts of the column's name. -/
  column : List String
  /-- The literal. -/
  literal : Literal
  deriving DecidableEq, Repr

/-- A term. -/
def term? : Reader Term := fun cs => do
  let (column, cs) ← name? cs
  let cs ← skip? " = ".toList cs
  let (literal, cs) ← literal? cs
  pure (⟨column, literal⟩, cs)

/-- What a value of a declared type stands for when it is written like this. -/
def meaningOf (type : DeclaredType) (v : Value) (spelling : String) : Meaning :=
  if v.isNull then .null
  else match type with
    | .integer | .float => .numeral spelling
    | .string | .binary => .string v.toText

/-- The term says what the field says: the same column, and the literal that the builder
writes for the value. -/
structure Renders (b : Builder) (f : Field) (t : Term) : Prop where
  /-- The column has the parts of the field's name. -/
  column : t.column = Name.dotted f.name
  /-- The literal is written as the builder writes the value. -/
  spelling : (b.typed f.type f.decimals f.value).result = .ok t.literal.spelling
  /-- The literal stands for the value. -/
  meaning : t.literal.meaning = meaningOf f.type f.value t.literal.spelling

/-- A name, an equals sign and a literal are read as a term. -/
theorem Reads.term {name literal : String} {column : List String} {l : Literal}
    (hname : Reads name? name column) (hliteral : Reads literal? literal l) :
    Reads term? (name ++ " = " ++ literal) ⟨column, l⟩ := by
  intro rest hends
  have hequals : (" = " : String).toList = [' ', '=', ' '] := rfl
  have hread := hname (' ' :: '=' :: ' ' :: (literal.toList ++ rest)) (ends_blank _)
  simp [term?, hequals, hread, skip?, hliteral rest hends]

section Mysql

variable {b : Builder} {s : String}

/-- With the rules of MySQL a name is written as its parts and then its rest. -/
theorem writes_draft (hb : b.escaper = .mysql) {n : Name} :
    b.Writes n.draft s ↔ s = nameText n.parts ++ n.suffix := by
  have hparts (texts : List String) :
      List.Forall₂ b.Writes (n.parts.map fun part => [.identifier part]) texts ↔
        n.parts.map (fun part => Builder.enclosed '\x60' (Escaper.identifierBody part)) = texts := by
    simp only [List.forall₂_map_left_iff, Builder.writes_identifier_mysql hb]
    rw [← List.forall₂_eq_eq_eq, List.forall₂_map_left_iff]
    simp only [eq_comm]
  simp [Name.draft, nameText, Builder.writes_append, Builder.writes_intercalate, hparts]

/-- With the rules of MySQL a plain name is written as its parts. -/
theorem eq_nameText_of_writes (hb : b.escaper = .mysql) {name : String} (hname : Name.IsPlain name)
    (h : b.Writes (SqlText.Literal.name name) s) : s = nameText (Name.dotted name) := by
  rw [SqlText.Literal.name, hname.parse?, writes_draft hb] at h
  exact h.trans (String.append_empty ..)

/-- With the rules of MySQL a string is written as its text between quotes. -/
theorem eq_enclosed_of_writes_string (hb : b.escaper = .mysql) {v : Value}
    (hnull : v.isNull = false) (h : b.Writes (SqlText.Literal.string v) s) :
    s = Builder.enclosed '\'' (Escaper.stringBody v.toText) := by
  unfold SqlText.Literal.string at h
  rw [hnull] at h
  unfold Value.toText
  cases htext : v.scalarText? with
  | some text =>
    simp only [htext, Bool.false_eq_true, if_false] at h
    exact (Builder.writes_quoted_mysql hb).mp h
  | none =>
    simp only [htext, Bool.false_eq_true, if_false] at h
    obtain ⟨t, u, ht, hu, rfl⟩ := Builder.writes_cons.mp h
    rw [(Builder.writes_problem.mp ht).2, String.empty_append]
    exact (Builder.writes_quoted_mysql hb).mp hu

/-- The keyword for null, or else a numeral, is read as what it stands for. -/
theorem reads_number {v : Value}
    (h : if v.isNull then s = "NULL" else Number.IsNumeral s.toList) :
    Reads meaning? s (if v.isNull then .null else .numeral s) := by
  split at h
  · rename_i hnull
    rw [h, if_pos hnull]
    exact reads_null
  · rename_i hnull
    rw [if_neg hnull]
    exact reads_numeral h

/-- A value that is written as a string is read as its text, null as no value. -/
theorem reads_text (hb : b.escaper = .mysql) {v : Value}
    (h : b.Writes (SqlText.Literal.string v) s) :
    Reads meaning? s (if v.isNull then .null else .string v.toText) := by
  cases hnull : v.isNull with
  | true =>
    rw [SqlText.Literal.string, hnull, if_pos rfl] at h
    rw [Builder.writes_fixed.mp h]
    exact reads_null
  | false =>
    rw [eq_enclosed_of_writes_string hb hnull h]
    exact reads_string v.toText

/-- A value of a declared type is read as what it stands for. -/
theorem reads_typed (hb : b.escaper = .mysql) {strict : Bool} {type : DeclaredType}
    {precision : UInt32} {v : Value}
    (h : b.Writes (SqlText.Literal.typed strict type precision v) s) :
    Reads meaning? s (meaningOf type v s) := by
  unfold meaningOf
  cases type with
  | integer => exact reads_number (SqlText.Literal.numeral_of_writes_integer h)
  | float => exact reads_number (SqlText.Literal.numeral_of_writes_float h)
  | string | binary => exact reads_text hb h

/-- The text of a field is read as a term that says what the field says. -/
theorem reads_field (hb : b.escaper = .mysql) {f : Field} (hname : Name.IsPlain f.name)
    (h : b.Writes (f.draft b.strict) s) : ∃ t, Reads term? s t ∧ Renders b f t := by
  obtain ⟨t, literal, ht, hliteral, rfl⟩ := Builder.writes_append.mp h
  obtain ⟨name, equals, hname', hequals, rfl⟩ := Builder.writes_append.mp ht
  have hcolumn : Reads name? name (Name.dotted f.name) := by
    rw [eq_nameText_of_writes hb hname hname']
    exact reads_name (Name.dotted_ne_nil f.name)
  rw [Builder.writes_fixed.mp hequals]
  exact ⟨_, hcolumn.term (reads_typed hb hliteral).literal, rfl, hliteral, rfl⟩

/-- The texts of several fields are read as terms that say what the fields say. -/
theorem reads_fields (hb : b.escaper = .mysql) {fields : List Field}
    (hnames : ∀ f ∈ fields, Name.IsPlain f.name) {texts : List String}
    (h : List.Forall₂ b.Writes (fields.map (Field.draft b.strict)) texts) :
    ∃ terms, List.Forall₂ (Reads term?) texts terms ∧
      List.Forall₂ (Renders b) fields terms := by
  induction fields generalizing texts with
  | nil =>
    rw [List.forall₂_nil_left_iff.mp h]
    exact ⟨[], .nil, .nil⟩
  | cons f fields ih =>
    obtain ⟨hname, hnames⟩ := List.forall_mem_cons.mp hnames
    obtain ⟨text, texts, hf, hfields, rfl⟩ := List.forall₂_cons_left_iff.mp h
    obtain ⟨t, hread, hrenders⟩ := reads_field hb hname hf
    obtain ⟨terms, hreads, hall⟩ := ih hnames hfields
    exact ⟨t :: terms, .cons hread hreads, .cons hrenders hall⟩

/-- The terms of a list with a separator are read to the end of the list. -/
theorem list?_terms (hb : b.escaper = .mysql) {sep : String}
    (hsep : ∀ rest, Ends (sep.toList ++ rest)) {fields : List Field} (hne : fields ≠ [])
    (hnames : ∀ f ∈ fields, Name.IsPlain f.name)
    (h : b.Writes (termsDraft b.strict sep fields) s) {rest : List Char} (hends : Ends rest)
    (hrest : skip? sep.toList rest = none) :
    ∃ terms, list? term? sep (s.toList ++ rest) = some (terms, rest) ∧
      List.Forall₂ (Renders b) fields terms := by
  obtain ⟨texts, htexts, rfl⟩ := Builder.writes_intercalate.mp h
  obtain ⟨terms, hreads, hrenders⟩ := reads_fields hb hnames htexts
  have htexts_ne : texts ≠ [] := by
    rintro rfl
    exact hne (List.map_eq_nil_iff.mp (List.forall₂_nil_right_iff.mp htexts))
  exact ⟨terms, list?_intercalate hsep hreads htexts_ne hends hrest, hrenders⟩

end Mysql

end SqlText.Grammar
