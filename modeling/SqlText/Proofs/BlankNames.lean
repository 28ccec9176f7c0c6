import SqlText.Proofs.Call
import SqlText.Proofs.Grammar.Clause
import SqlText.Proofs.Grammar.NameSpelling

/-!
# Blank names

For a blank name a lenient builder writes nothing and goes on. What becomes of the statement
depends on the place of the name. A SELECT leaves out the blank names among its columns and
tables, and a clause in which no name is left. The target of an INSERT, an UPDATE or a DELETE
and the column of a term are not left out, so a blank name makes a hole there. These are the
only holes: without them every name in the text is an identifier in backticks.
-/

namespace SqlText

section LenientText

/-- The text of a piece with the rules of MySQL. A problem has none. -/
def Piece.lenientText : Piece → String
  | .fixed text => text
  | .quoted raw => Builder.enclosed '\'' (Escaper.stringBody raw)
  | .identifier raw => Builder.enclosed '\x60' (Escaper.identifierBody raw)
  | .problem .. => ""

/-- The text of a draft with the rules of MySQL, problems left out. -/
def Draft.lenientText (d : Draft) : String := String.join (d.map Piece.lenientText)

namespace Draft

variable {d e : Draft}

@[simp] theorem lenientText_nil : lenientText [] = "" := rfl

@[simp] theorem lenientText_cons (piece : Piece) :
    lenientText (piece :: d) = piece.lenientText ++ d.lenientText := by
  simp [lenientText]

@[simp] theorem lenientText_append : lenientText (d ++ e) = d.lenientText ++ e.lenientText := by
  simp [lenientText]

/-- Without a piece that is text there is no text. -/
theorem lenientText_of_hasText_eq_false (h : d.hasText = false) : d.lenientText = "" := by
  induction d with
  | nil => rfl
  | cons piece d ih =>
    rw [hasText, List.any_cons, Bool.or_eq_false_iff] at h
    rw [lenientText_cons, ih h.2]
    cases piece with
    | problem error sql => rfl
    | fixed | quoted | identifier => cases h.1

/-- The separator stands between the texts. -/
theorem lenientText_intercalate (sep : String) (ds : List Draft) :
    lenientText ([Piece.fixed sep].intercalate ds) = sep.intercalate (ds.map lenientText) := by
  induction ds with
  | nil => rfl
  | cons d ds ih =>
    cases ds with
    | nil => simp
    | cons d' ds =>
      rw [List.intercalate_cons_cons, lenientText_append, lenientText_append, ih]
      simp [Piece.lenientText]

/-- Drafts that have text are written with the separator between them, the others left out. -/
theorem lenientText_join (sep : String) (ds : List Draft) :
    (join sep ds).lenientText = sep.intercalate ((ds.filter hasText).map lenientText) := by
  have hseparated (before : Bool) : (separated sep before ds).lenientText =
      if before then String.join ((ds.filter hasText).map fun d => sep ++ d.lenientText)
      else sep.intercalate ((ds.filter hasText).map lenientText) := by
    induction ds generalizing before with
    | nil => cases before <;> rfl
    | cons d ds ih =>
      rw [separated, lenientText_append, lenientText_append, ih]
      cases htext : d.hasText with
      | false => simp [htext, lenientText_of_hasText_eq_false htext]
      | true =>
        cases before <;>
          simp [htext, intercalate_cons, Piece.lenientText, Function.comp_def]
  exact hseparated false

end Draft

/-- A lenient builder with the rules of MySQL writes every draft as its text. -/
theorem Builder.result_perform_mysql (d : Draft) :
    ((⟨.mysql, false⟩ : Builder).perform d).result = .ok d.lenientText := by
  change (⟨.mysql, false⟩ : Builder).Writes d d.lenientText
  induction d with
  | nil => exact writes_nil.mpr rfl
  | cons piece d ih =>
    refine writes_cons.mpr ⟨_, _, ?_, ih, Draft.lenientText_cons piece⟩
    cases piece with
    | fixed text => exact writes_fixed.mpr rfl
    | quoted raw => exact (writes_quoted_mysql rfl).mpr rfl
    | identifier raw => exact (writes_identifier_mysql rfl).mpr rfl
    | problem error sql => exact writes_problem.mpr ⟨rfl, rfl⟩

end LenientText

section Places

/-- What is written for a name with the rules of MySQL; nothing for a blank one. -/
def Name.spelling (s : String) : String :=
  match Name.parse? s with
  | some n => Grammar.nameText n.parts ++ n.suffix
  | none => ""

/-- The place of a name in a statement. -/
structure Place where
  /-- The name. -/
  name : String
  /-- What is written before it: a separator, if another place comes before. -/
  before : String := ""
  /-- What is written after it. -/
  after : String := ""

/-- A keyword and the places after it. -/
structure Clause where
  /-- The keyword, and whatever has no place for a name. -/
  keyword : String
  /-- The places. -/
  places : List Place

namespace Place

/-- The text of a place. -/
def text (p : Place) : String := p.before ++ Name.spelling p.name ++ p.after

/-- A reader finds an identifier in backticks in the place. -/
def isFilled (p : Place) : Bool := (Grammar.name? (Name.spelling p.name).toList).isSome

/-- The place of a name with nothing around it. -/
def ofName (name : String) : Place := { name }

/-- The place after a separator. -/
def led (word : String) (p : Place) : Place := { p with before := word ++ p.before }

/-- Places with a separator between any two. -/
def spaced (sep : String) : List Place → List Place
  | [] => []
  | first :: rest => first :: rest.map (led sep)

/-- The places whose name is not blank, with a comma between any two. -/
def listed (places : List Place) : List Place :=
  spaced ", " (places.filter (!Text.isBlankText ·.name))

end Place

/-- The text of a clause. -/
def Clause.text (c : Clause) : String := c.keyword ++ String.join (c.places.map Place.text)

/-- The literal that a lenient builder writes for a field with the rules of MySQL. -/
def Field.literal (f : Field) : String :=
  match ((⟨.mysql, false⟩ : Builder).typed f.type f.decimals f.value).result with
  | .ok literal => literal
  | .error _ => ""

/-- The place of a field's column: an equals sign and the literal come after it. -/
def Field.place (f : Field) : Place := { name := f.name, after := " = " ++ f.literal }

/-- The places of the columns in a condition list, the connectors between them. -/
def entryPlaces : List Entry → List Place
  | [] => []
  | first :: rest => first.condition.toField.place :: rest.map fun e =>
      e.condition.toField.place.led s!" {e.condition.connector.keyword} "

/-- The clause of conditions that must all hold, if there are any. -/
def conditionClauses (conditions : List Field) : List Clause :=
  if conditions.isEmpty then []
  else [⟨"WHERE ", Place.spaced " AND " (conditions.map Field.place)⟩]

/-- The clause of a filter, if it has one. Hand-written SQL has no place for a name. -/
def DeleteFilter.outline : DeleteFilter → List Clause
  | .raw sql => if Text.isBlankText sql then [] else [⟨"WHERE " ++ sql, []⟩]
  | .all conditions => conditionClauses conditions

/-- The clause of names after a keyword. -/
def columnClause (keyword : String) (columns : List String) : Clause :=
  ⟨keyword, Place.listed (columns.map Place.ofName)⟩

/-- The clause of a joined table. -/
def Join.clause (j : Join) : Clause :=
  ⟨s!"{j.kind.keyword} ", Place.listed [{ name := j.table, after := s!" ON ({j.on})" }]⟩

/-- The place of a column to sort by. -/
def OrderTerm.place (t : OrderTerm) : Place :=
  { name := t.column, after := s!" {t.direction.keyword}" }

/-- The clauses of a query, those without a place included. -/
def Query.fullOutline (q : Query) : List Clause :=
  [columnClause "SELECT " q.fields, columnClause "FROM " [q.source]] ++ q.joins.map Join.clause ++
    [⟨"WHERE ", entryPlaces q.conditions⟩, columnClause "GROUP BY " q.groupBy,
      ⟨"HAVING ", entryPlaces q.having⟩,
      ⟨"ORDER BY ", Place.listed (q.orderBy.map OrderTerm.place)⟩]

namespace Statement

/-- The clauses of a statement, in order. -/
def outline : Statement → List Clause
  | .insert table fields =>
    [⟨"INSERT INTO ", [.ofName table]⟩, ⟨"SET ", Place.spaced ", " (fields.map Field.place)⟩]
  | .update table fields conditions =>
    ⟨"UPDATE ", [.ofName table]⟩ :: ⟨"SET ", Place.spaced ", " (fields.map Field.place)⟩ ::
      conditionClauses conditions
  | .delete table filter => ⟨"DELETE FROM ", [.ofName table]⟩ :: filter.outline
  | .select q => q.fullOutline.filter (!·.places.isEmpty)

/-- The places of names in a statement, in order. -/
def places (s : Statement) : List Place := s.outline.flatMap Clause.places

/-- The names that a statement cannot do without: the target of a change, and the column of
every term. -/
def required : Statement → List String
  | .insert table fields => table :: fields.map Field.name
  | .update table fields conditions => table :: (fields ++ conditions).map Field.name
  | .delete table (.raw _) => [table]
  | .delete table (.all conditions) => table :: conditions.map Field.name
  | .select q => (q.conditions ++ q.having).map (·.condition.name)

end Statement

end Places

section Texts

namespace Place

theorem text_led (word : String) (p : Place) : (p.led word).text = word ++ p.text := by
  simp only [led, text, String.append_assoc]

/-- Spaced places are written with the separator between their texts. -/
theorem join_text_spaced (sep : String) (places : List Place) :
    String.join ((spaced sep places).map text) = sep.intercalate (places.map text) := by
  cases places with
  | nil => simp [spaced]
  | cons p places => simp [spaced, intercalate_cons, text_led, Function.comp_def]

/-- A separator is no place of its own. -/
theorem isEmpty_spaced (sep : String) (places : List Place) :
    (spaced sep places).isEmpty = places.isEmpty := by
  cases places <;> rfl

end Place

/-- A name is written as its parts and its rest, a blank one as nothing. -/
theorem Literal.lenientText_name (s : String) :
    (Literal.name s).lenientText = Name.spelling s := by
  unfold Literal.name Name.spelling
  cases Name.parse? s with
  | none => rfl
  | some n =>
    have hwrites := Builder.result_perform_mysql n.draft
    exact (Grammar.writes_draft (b := ⟨.mysql, false⟩) rfl).mp hwrites

/-- The literal of a field is the text of its value. -/
theorem Field.literal_eq (f : Field) :
    f.literal = (Literal.typed false f.type f.decimals f.value).lenientText := by
  rw [literal, Builder.typed, Builder.result_perform_mysql]

/-- A field is written as its place. -/
theorem Field.lenientText_draft (f : Field) : (f.draft false).lenientText = f.place.text := by
  simp [Field.draft, Field.place, Place.text, Field.literal_eq, Literal.lenientText_name,
    Piece.lenientText]

/-- Terms are written as their places with the separator between them. -/
theorem lenientText_terms (sep : String) (fields : List Field) :
    (termsDraft false sep fields).lenientText =
      String.join ((Place.spaced sep (fields.map Field.place)).map Place.text) := by
  rw [termsDraft, Draft.lenientText_intercalate, Place.join_text_spaced, List.map_map,
    List.map_map]
  exact congrArg _ (List.map_congr_left fun f _ => f.lenientText_draft)

/-- The keyword of a filter after a blank. -/
theorem where_append (t : String) : " WHERE " ++ t = " " ++ ("WHERE " ++ t) := by
  rw [← String.append_assoc]
  rfl

/-- Conditions that must all hold are written as their clause after a blank. -/
theorem lenientText_whereAll (conditions : List Field) :
    (whereAll false conditions).lenientText =
      String.join ((conditionClauses conditions).map fun c => " " ++ c.text) := by
  unfold whereAll conditionClauses
  split
  · rfl
  · simp [Piece.lenientText, lenientText_terms, Clause.text, where_append]

/-- A filter is written as its clause after a blank. -/
theorem DeleteFilter.lenientText_draft (f : DeleteFilter) :
    (f.draft false).lenientText = String.join (f.outline.map fun c => " " ++ c.text) := by
  cases f with
  | raw sql =>
    unfold DeleteFilter.draft outline
    rw [isEmpty]
    split
    · rename_i hblank
      simp [hblank]
    · rename_i hblank
      simp [hblank, Piece.lenientText, Clause.text, where_append]
  | all conditions =>
    rw [outline, ← lenientText_whereAll]
    cases conditions <;> rfl

/-- Entries are written as their places. -/
theorem lenientText_entries (entries : List Entry) :
    (entriesDraft false entries).lenientText =
      String.join ((entryPlaces entries).map Place.text) := by
  cases entries with
  | nil => rfl
  | cons first rest =>
    have hrest : Draft.lenientText (rest.flatMap fun e =>
        .fixed s!" {e.condition.connector.keyword} " :: e.draft false) =
        String.join (rest.map fun e =>
          (e.condition.toField.place.led s!" {e.condition.connector.keyword} ").text) := by
      induction rest with
      | nil => rfl
      | cons e rest ih =>
        rw [List.flatMap_cons, Draft.lenientText_append, ih, List.map_cons, String.join_cons,
          Place.text_led, Draft.lenientText_cons, Entry.draft, Field.lenientText_draft,
          Piece.lenientText]
    rw [entriesDraft, Draft.lenientText_append, hrest, entryPlaces, List.map_cons,
      String.join_cons, List.map_map, Entry.draft, Field.lenientText_draft]
    rfl

/-- The draft is written as the clause, and has no text if there is no place in the clause. -/
structure Clause.Outlines (c : Clause) (d : Draft) : Prop where
  /-- There is text if there is a place. -/
  hasText : d.hasText = !c.places.isEmpty
  /-- The text is that of the clause. -/
  text : d.hasText = true → d.lenientText = c.text

namespace Clause

/-- Clauses that outline drafts are their texts, where there are places. -/
theorem texts_of_outlines {cs : List Clause} {ds : List Draft} (h : List.Forall₂ Outlines cs ds) :
    (ds.filter Draft.hasText).map Draft.lenientText =
      (cs.filter (!·.places.isEmpty)).map text := by
  induction h with
  | nil => rfl
  | @cons c d cs ds hcd _ ih =>
    rw [List.filter_cons, List.filter_cons, ← hcd.hasText]
    split
    · rename_i htext
      rw [List.map_cons, List.map_cons, hcd.text htext, ih]
    · exact ih

/-- A place after a keyword outlines a draft that has text unless the name is blank. -/
theorem outlines_single {keyword : String} {p : Place} {d : Draft}
    (hhas : d.hasText = !Text.isBlankText p.name)
    (htext : d.hasText = true → d.lenientText = keyword ++ p.text) :
    Outlines ⟨keyword, Place.listed [p]⟩ d := by
  unfold Place.listed
  constructor
  · cases hblank : Text.isBlankText p.name <;> simp [hhas, hblank, Place.spaced]
  · intro h
    rw [hhas, Bool.not_eq_true'] at h
    rw [htext (by rw [hhas, h]; rfl), Clause.text, Place.join_text_spaced]
    simp [h]

/-- Places in a list outline drafts that have text unless the names are blank. -/
theorem outlines_listed {α : Type} {draft : α → Draft} {place : α → Place} (keyword : String)
    (hhas : ∀ a, (draft a).hasText = !Text.isBlankText (place a).name)
    (htext : ∀ a, (draft a).hasText = true → (draft a).lenientText = (place a).text)
    (as : List α) :
    Outlines ⟨keyword, Place.listed (as.map place)⟩
      (.headed keyword (.join ", " (as.map draft))) := by
  have hfilter : (as.map place).filter (!Text.isBlankText ·.name) =
      (as.filter fun a => (draft a).hasText).map place := by
    rw [List.filter_map]
    simp only [hhas, Function.comp_def]
  have hnames : (Draft.join ", " (as.map draft)).hasText =
      !(Place.listed (as.map place)).isEmpty := by
    rw [Draft.join, Grammar.hasText_separated, Place.listed, hfilter, Place.isEmpty_spaced,
      List.isEmpty_map, List.any_map, Bool.eq_iff_iff]
    simp
  constructor
  · rw [Grammar.hasText_headed, hnames]
  · intro h
    rw [Grammar.hasText_headed] at h
    rw [Draft.headed, if_pos h, Draft.lenientText_cons, Draft.lenientText_join, Clause.text,
      Place.listed, hfilter, Place.join_text_spaced, List.filter_map, List.map_map, List.map_map]
    refine congrArg _ (congrArg _ (List.map_congr_left fun a ha => ?_))
    exact htext a (List.mem_filter.mp ha).2

/-- Columns after a keyword. -/
theorem outlines_columns (keyword : String) (columns : List String) :
    (columnClause keyword columns).Outlines (Query.columnsDraft keyword columns) :=
  outlines_listed keyword Literal.hasText_name
    (fun name _ => by simp [Literal.lenientText_name, Place.ofName, Place.text]) columns

/-- The table of a query. -/
theorem outlines_source (source : String) :
    (columnClause "FROM " [source]).Outlines (Query.sourceDraft source) := by
  unfold Query.sourceDraft
  refine outlines_single (p := .ofName source) ?_ ?_
  · cases hblank : Text.isBlankText source <;>
      simp [Place.ofName, hblank, Draft.hasText, Piece.isText]
  · intro h
    split at h
    · cases h
    · rename_i hblank
      simp [hblank, Piece.lenientText, Literal.lenientText_name, Place.ofName, Place.text]

/-- A joined table. -/
theorem outlines_join (j : Join) : j.clause.Outlines j.draft := by
  have hname := Literal.hasText_name j.table
  unfold Join.draft
  dsimp only
  refine outlines_single ?_ ?_
  · split
    · rename_i htext
      rw [← hname, htext]
      simp [Draft.hasText, Piece.isText]
    · exact hname
  · intro h
    split at h
    · rename_i htext
      simp [htext, Piece.lenientText, Literal.lenientText_name, Place.text, String.append_assoc]
    · contradiction

/-- The entries of a condition list after a keyword. -/
theorem outlines_entries (keyword : String) (entries : List Entry) :
    Outlines ⟨keyword, entryPlaces entries⟩ (.headed keyword (entriesDraft false entries)) := by
  constructor
  · rw [Grammar.hasText_headed]
    cases entries with
    | nil => rfl
    | cons e entries =>
      simp [entriesDraft, entryPlaces, Entry.draft, Field.draft, Draft.hasText, Piece.isText]
  · intro h
    rw [Grammar.hasText_headed] at h
    rw [Draft.headed, if_pos h, Draft.lenientText_cons, lenientText_entries]
    rfl

/-- Columns to sort by. -/
theorem outlines_order (order : List OrderTerm) :
    Outlines ⟨"ORDER BY ", Place.listed (order.map OrderTerm.place)⟩
      (.headed "ORDER BY " (.join ", " (order.map OrderTerm.draft))) := by
  refine outlines_listed "ORDER BY " (fun t => ?_) (fun t h => ?_) order
  · have hname := Literal.hasText_name t.column
    unfold OrderTerm.draft
    dsimp only
    split
    · rename_i htext
      rw [OrderTerm.place, ← hname, htext]
      simp [Draft.hasText, Piece.isText]
    · exact hname
  · unfold OrderTerm.draft at h ⊢
    dsimp only at h ⊢
    split at h
    · rename_i htext
      simp [htext, OrderTerm.place, Piece.lenientText, Literal.lenientText_name, Place.text]
    · contradiction

/-- The draft of a query is outlined clause by clause. -/
theorem outlines_query (q : Query) : List.Forall₂ Outlines q.fullOutline (q.clauses false) := by
  have hjoins : List.Forall₂ Outlines (q.joins.map Join.clause) (q.joins.map Join.draft) := by
    rw [List.forall₂_map_left_iff, List.forall₂_map_right_iff]
    exact List.forall₂_same.mpr fun j _ => outlines_join j
  refine List.rel_append (List.rel_append ?_ hjoins) ?_
  · exact .cons (outlines_columns _ _) (.cons (outlines_source _) .nil)
  · exact .cons (outlines_entries _ _) (.cons (outlines_columns _ _)
      (.cons (outlines_entries _ _) (.cons (outlines_order _) .nil)))

end Clause

/-- A target after its keyword is a clause. -/
theorem lenientText_target (keyword table : String) :
    Draft.lenientText (.fixed keyword :: Literal.name table) =
      Clause.text ⟨keyword, [.ofName table]⟩ := by
  simp [Piece.lenientText, Literal.lenientText_name, Clause.text, Place.text, Place.ofName]

/-- A target and its assignments are two clauses. -/
theorem lenientText_assignments (keyword table : String) (fields : List Field) :
    Draft.lenientText (.fixed keyword :: Literal.name table ++ [.fixed " SET "] ++
      termsDraft false ", " fields) = Clause.text ⟨keyword, [.ofName table]⟩ ++
        (" " ++ Clause.text ⟨"SET ", Place.spaced ", " (fields.map Field.place)⟩) := by
  have hword (t : String) : " SET " ++ t = " " ++ ("SET " ++ t) := by
    rw [← String.append_assoc]
    rfl
  rw [Draft.lenientText_append, Draft.lenientText_append, lenientText_target, lenientText_terms,
    String.append_assoc]
  simp [Piece.lenientText, Clause.text, hword]

/-- A statement is written as its clauses with blanks between them. -/
theorem Statement.lenientText_draft (s : Statement) :
    (s.draft false).lenientText = " ".intercalate (s.outline.map Clause.text) := by
  cases s with
  | insert table fields =>
    rw [draft, insertDraft, lenientText_assignments, outline, List.map_cons, intercalate_cons]
    simp
  | update table fields conditions =>
    rw [draft, updateDraft, Draft.lenientText_append, lenientText_assignments,
      lenientText_whereAll, outline, List.map_cons, intercalate_cons]
    simp [String.append_assoc, Function.comp_def]
  | delete table filter =>
    rw [draft, deleteDraft, Draft.lenientText_append, lenientText_target,
      DeleteFilter.lenientText_draft, outline, List.map_cons, intercalate_cons, List.map_map]
    rfl
  | select q =>
    rw [draft, outline, Query.draft, Draft.lenientText_join,
      Clause.texts_of_outlines (Clause.outlines_query q)]

end Texts

section Holes

namespace Place

/-- Nothing but a blank name leaves its place empty. -/
theorem isFilled_eq (p : Place) : p.isFilled = !Text.isBlankText p.name := by
  rw [isFilled, Name.spelling, ← Name.isNone_parse?]
  cases hname : Name.parse? p.name with
  | none => rfl
  | some n =>
    dsimp only
    rw [Grammar.name?_of_splits (Name.splits_of_parse? hname)]
    rfl

/-- Separators do not change the names. -/
theorem names_spaced (sep : String) (places : List Place) :
    (spaced sep places).map name = places.map name := by
  cases places <;> simp [spaced, led, Function.comp_def]

/-- No name in a list is blank. -/
theorem blank_listed (places : List Place) :
    ((listed places).map name).filter Text.isBlankText = [] := by
  rw [listed, names_spaced, List.filter_eq_nil_iff]
  intro name hname
  obtain ⟨p, hp, rfl⟩ := List.mem_map.mp hname
  simpa using (List.mem_filter.mp hp).2

end Place

/-- The names of terms are the columns of their fields. -/
theorem names_fields (sep : String) (fields : List Field) :
    (Place.spaced sep (fields.map Field.place)).map Place.name = fields.map Field.name := by
  rw [Place.names_spaced, List.map_map]
  rfl

/-- The names of conditions that must all hold are their columns. -/
theorem names_conditions (conditions : List Field) :
    ((conditionClauses conditions).flatMap Clause.places).map Place.name =
      conditions.map Field.name := by
  unfold conditionClauses
  split
  · rename_i h
    rw [List.isEmpty_iff.mp h]
    rfl
  · rw [List.flatMap_singleton, names_fields]

/-- The names of entries are their columns. -/
theorem names_entries (entries : List Entry) :
    (entryPlaces entries).map Place.name = entries.map (·.condition.name) := by
  cases entries with
  | nil => rfl
  | cons e entries => simp [entryPlaces, Place.led, Field.place, Function.comp_def]

/-- A clause without a place has no names to lose. -/
theorem flatMap_places_filter (clauses : List Clause) :
    (clauses.filter (!·.places.isEmpty)).flatMap Clause.places =
      clauses.flatMap Clause.places := by
  induction clauses with
  | nil => rfl
  | cons c clauses ih =>
    rw [List.filter_cons, List.flatMap_cons, ← ih]
    cases hplaces : c.places <;> simp [hplaces]

/-- The blank names of a query are the columns of its conditions. -/
theorem Query.blank_places (q : Query) :
    ((q.fullOutline.flatMap Clause.places).map Place.name).filter Text.isBlankText =
      ((q.conditions ++ q.having).map (·.condition.name)).filter Text.isBlankText := by
  have hcolumns (keyword : String) (columns : List String) :
      ((columnClause keyword columns).places.map Place.name).filter Text.isBlankText = [] :=
    Place.blank_listed _
  have hjoins : (((q.joins.map Join.clause).flatMap Clause.places).map Place.name).filter
      Text.isBlankText = [] := by
    induction q.joins with
    | nil => rfl
    | cons j joins ih =>
      have hjoin : (j.clause.places.map Place.name).filter Text.isBlankText = [] :=
        Place.blank_listed _
      rw [List.map_cons, List.flatMap_cons, List.map_append, List.filter_append, hjoin, ih]
      rfl
  simp only [fullOutline, List.flatMap_append, List.flatMap_cons, List.flatMap_nil,
    List.map_append, List.filter_append, List.append_nil, hcolumns, hjoins, names_entries,
    Place.blank_listed, List.nil_append]

/-- The blank names in a text are those that the statement cannot do without. -/
theorem Statement.blank_places (s : Statement) :
    (s.places.map Place.name).filter Text.isBlankText = s.required.filter Text.isBlankText := by
  cases s with
  | insert table fields => simp [places, outline, required, names_fields, Place.ofName]
  | update table fields conditions =>
    simp [places, outline, required, names_fields, names_conditions, Place.ofName]
  | delete table filter =>
    cases filter with
    | raw sql =>
      by_cases hblank : Text.isBlankText sql = true <;>
        simp [places, outline, required, DeleteFilter.outline, Place.ofName, hblank]
    | all conditions =>
      simp [places, outline, required, DeleteFilter.outline, names_conditions, Place.ofName]
  | select q => rw [places, outline, flatMap_places_filter, Query.blank_places, required]

/-- A lenient builder with the rules of MySQL writes every statement that has something to set,
whatever names are blank. A blank name leaves a hole exactly where the statement cannot do
without a name: as the target of a change, or as the column of a term. Where none of these is
blank, every name in the text is an identifier in backticks. -/
theorem Builder.holes_are_blank_names (s : Statement) (hset : s.setsNothing = false) :
    ((⟨.mysql, false⟩ : Builder).build s).result =
        .ok (" ".intercalate (s.outline.map Clause.text)) ∧
      (s.places.filter (!·.isFilled)).map Place.name = s.required.filter Text.isBlankText ∧
      ((∀ p ∈ s.places, p.isFilled = true) ↔
        ∀ name ∈ s.required, Text.isBlankText name = false) := by
  have hholes : (s.places.filter (!·.isFilled)).map Place.name =
      s.required.filter Text.isBlankText := by
    rw [← s.blank_places, List.filter_map]
    simp only [Place.isFilled_eq, Bool.not_not, Function.comp_def]
  refine ⟨?_, hholes, ?_⟩
  · obtain ⟨stage, hbuild⟩ := build_performs ⟨.mysql, false⟩ hset
    rw [hbuild, result_finish, result_perform_mysql, s.lenientText_draft]
  · have hnone : s.places.filter (!·.isFilled) = [] ↔ s.required.filter Text.isBlankText = [] := by
      rw [← hholes, List.map_eq_nil_iff]
    simpa [List.filter_eq_nil_iff] using hnone

/-- The table and one of the columns are blank. -/
theorem Builder.holes_are_blank_names_update :
    let s : Statement := .update "	" [⟨"x", .integer, .int 1, 0⟩, ⟨" ", .string, .str "y", 0⟩]
      [⟨"db.id", .integer, .int 2, 0⟩]
    s.setsNothing = false ∧
      ((⟨.mysql, false⟩ : Builder).build s).result =
        .ok "UPDATE  SET `x` = 1,  = 'y' WHERE `db`.`id` = 2" ∧
      (s.places.filter (!·.isFilled)).map Place.name = ["	", " "] ∧
      ¬∀ p ∈ s.places, p.isFilled = true := by
  intro s
  have hset : s.setsNothing = false := rfl
  obtain ⟨htext, hholes, hfilled⟩ := holes_are_blank_names s hset
  refine ⟨hset, ?_, ?_, ?_⟩
  · rw [htext]
    decide +kernel
  · rw [hholes]
    decide +kernel
  · rw [hfilled]
    decide +kernel

/-- Where no table is named, none follows the keyword of the statement that is written. -/
theorem Builder.blank_target_leaves_hole :
    ∃ sql rest, ((⟨.mysql, false⟩ : Builder).update " " [⟨"x", .integer, .int 1, 0⟩] []).result =
        .ok sql ∧
      Grammar.skip? "UPDATE ".toList sql.toList = some rest ∧ Grammar.name? rest = none :=
  ⟨"UPDATE  SET `x` = 1", " SET `x` = 1".toList, by decide +kernel, by decide, by decide⟩

end Holes

end SqlText
