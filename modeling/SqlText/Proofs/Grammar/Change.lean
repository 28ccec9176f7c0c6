import SqlText.Proofs.Grammar.Term

/-!
# Reading INSERT, UPDATE and DELETE

The statements that change rows are read with nothing but their grammar in hand. Of a
finished statement the reader gives back the table, every assignment and every condition
of its description, and nothing else: no name and no value can be taken for a separator,
a keyword or the end of a literal.
-/

namespace SqlText

namespace Grammar

/-- A statement that changes rows. -/
inductive Change where
  /-- New values for a table. -/
  | insert (table : List String) (assignments : List Term)
  /-- Changed values, and the conditions if there is a WHERE. -/
  | update (table : List String) (assignments : List Term) (conditions : Option (List Term))
  /-- The end of rows, and the conditions if there is a WHERE. -/
  | delete (table : List String) (conditions : Option (List Term))
  deriving DecidableEq, Repr

/-- The conditions after a WHERE, if there is one. -/
def where? : Reader (Option (List Term)) := fun cs =>
  match skip? " WHERE ".toList cs with
  | none => some (none, cs)
  | some cs => (list? term? " AND " cs).map fun (terms, rest) => (some terms, rest)

/-- The table, the assignments after SET, and the rest. -/
def assignments? : Reader (List String × List Term) := fun cs => do
  let (table, cs) ← name? cs
  let cs ← skip? " SET ".toList cs
  let (terms, cs) ← list? term? ", " cs
  pure ((table, terms), cs)

/-- The keywords with which a change begins. -/
inductive ChangeKind where
  /-- `INSERT INTO`. -/
  | insert
  /-- `UPDATE`. -/
  | update
  /-- `DELETE FROM`. -/
  | delete

/-- A statement that changes rows. -/
def change? : Reader Change := fun cs => do
  match ← oneOf? [("INSERT INTO ", ChangeKind.insert), ("UPDATE ", .update),
      ("DELETE FROM ", .delete)] cs with
  | (.insert, cs) =>
    let ((table, terms), cs) ← assignments? cs
    pure (.insert table terms, cs)
  | (.update, cs) =>
    let ((table, terms), cs) ← assignments? cs
    let (conditions, cs) ← where? cs
    pure (.update table terms conditions, cs)
  | (.delete, cs) =>
    let (table, cs) ← name? cs
    let (conditions, cs) ← where? cs
    pure (.delete table conditions, cs)

/-- The conditions say what the fields say, and there is a WHERE exactly when there are
fields. -/
def RendersWhere (b : Builder) (fields : List Field) (conditions : Option (List Term)) : Prop :=
  (conditions = none ↔ fields = []) ∧
    ∀ terms, conditions = some terms → List.Forall₂ (Renders b) fields terms

variable {b : Builder} {s : String}

/-- Conditions that must all hold are read to the end of the statement. -/
theorem where?_whereAll (hb : b.escaper = .mysql) {fields : List Field}
    (hnames : ∀ f ∈ fields, Name.IsPlain f.name) (h : b.Writes (whereAll b.strict fields) s) :
    ∃ conditions, where? s.toList = some (conditions, []) ∧ RendersWhere b fields conditions ∧
      ∀ c ∈ s.toList.head?, c = ' ' := by
  unfold whereAll at h
  cases fields with
  | nil =>
    rw [Builder.writes_nil.mp h]
    exact ⟨none, rfl, by simp [RendersWhere], by simp⟩
  | cons f fields =>
    obtain ⟨t, u, ht, hu, rfl⟩ := Builder.writes_cons.mp h
    obtain ⟨terms, hread, hrenders⟩ := list?_terms hb (ends_append _ (by decide))
      (List.cons_ne_nil f fields) hnames hu ends_nil rfl
    rw [List.append_nil] at hread
    rw [Builder.writes_fixed.mp ht, String.toList_append]
    refine ⟨some terms, ?_, ⟨by simp, ?_⟩, by simp⟩
    · rw [where?, skip?_append]
      simp only [hread, Option.map_some]
    · rintro _ ⟨⟩
      exact hrenders

/-- A table and its assignments are read, up to a WHERE or the end. -/
theorem assignments?_terms (hb : b.escaper = .mysql) {table : String}
    (htable : Name.IsPlain table) {fields : List Field} (hne : fields ≠ [])
    (hnames : ∀ f ∈ fields, Name.IsPlain f.name) {t u : String}
    (ht : b.Writes (Literal.name table) t) (hu : b.Writes (termsDraft b.strict ", " fields) u)
    (rest : List Char) (hrest : ∀ c ∈ rest.head?, c = ' ') :
    ∃ terms, assignments? (t.toList ++ ((" SET " : String).toList ++ (u.toList ++ rest))) =
        some ((Name.dotted table, terms), rest) ∧ List.Forall₂ (Renders b) fields terms := by
  have hends : Ends rest := .of_blank hrest
  obtain ⟨terms, hread, hrenders⟩ := list?_terms hb (ends_append _ (by decide)) hne hnames hu
    hends (skip?_comma hrest)
  refine ⟨terms, ?_, hrenders⟩
  have hname := reads_name (Name.dotted_ne_nil table) _
    (ends_append " SET " (by decide) (u.toList ++ rest))
  rw [assignments?, eq_nameText_of_writes hb htable ht]
  simp only [Option.bind_eq_bind, hname, Option.bind_some, skip?_append, hread]
  rfl

/-- The parts of a text with a keyword, a name, SET and terms. -/
theorem writes_assignments {keyword table : String} {fields : List Field}
    (h : b.Writes (.fixed keyword :: Literal.name table ++ [.fixed " SET "] ++
      termsDraft b.strict ", " fields) s) :
    ∃ t u, b.Writes (Literal.name table) t ∧ b.Writes (termsDraft b.strict ", " fields) u ∧
      s.toList = keyword.toList ++ (t.toList ++ ((" SET " : String).toList ++ u.toList)) := by
  obtain ⟨start, u, hstart, hu, rfl⟩ := Builder.writes_append.mp h
  obtain ⟨front, set, hfront, hset, rfl⟩ := Builder.writes_append.mp hstart
  obtain ⟨word, t, hword, ht, rfl⟩ := Builder.writes_cons.mp hfront
  refine ⟨t, u, ht, hu, ?_⟩
  rw [Builder.writes_fixed.mp hword, Builder.writes_fixed.mp hset]
  simp only [String.toList_append, List.append_assoc]

/-- With the rules of MySQL an INSERT is read as the table and the fields. -/
theorem change?_insert (hb : b.escaper = .mysql) {table : String} (htable : Name.IsPlain table)
    {fields : List Field} (hne : fields ≠ []) (hfields : ∀ f ∈ fields, Name.IsPlain f.name)
    (h : b.Writes (insertDraft b.strict table fields) s) :
    ∃ terms, whole? (change? s.toList) = some (.insert (Name.dotted table) terms) ∧
      List.Forall₂ (Renders b) fields terms := by
  obtain ⟨t, u, ht, hu, hs⟩ := writes_assignments h
  obtain ⟨terms, hread, hrenders⟩ :=
    assignments?_terms hb htable hne hfields ht hu [] (by simp)
  refine ⟨terms, ?_, hrenders⟩
  rw [List.append_nil] at hread
  rw [hs, change?, oneOf?, skip?_append]
  simp only [Option.bind_eq_bind, Option.bind_some, hread]
  rfl

/-- With the rules of MySQL an UPDATE is read as the table, the fields and the
conditions. -/
theorem change?_update (hb : b.escaper = .mysql) {table : String} (htable : Name.IsPlain table)
    {fields conditions : List Field} (hne : fields ≠ [])
    (hfields : ∀ f ∈ fields, Name.IsPlain f.name)
    (hconditions : ∀ f ∈ conditions, Name.IsPlain f.name)
    (h : b.Writes (updateDraft b.strict table fields conditions) s) :
    ∃ terms filter, whole? (change? s.toList) = some (.update (Name.dotted table) terms filter) ∧
      List.Forall₂ (Renders b) fields terms ∧ RendersWhere b conditions filter := by
  obtain ⟨front, w, hfront, hw, rfl⟩ := Builder.writes_append.mp h
  obtain ⟨t, u, ht, hu, hs⟩ := writes_assignments hfront
  obtain ⟨filter, hfilter, hrendersWhere, hhead⟩ := where?_whereAll hb hconditions hw
  obtain ⟨terms, hread, hrenders⟩ :=
    assignments?_terms hb htable hne hfields ht hu w.toList hhead
  refine ⟨terms, filter, ?_, hrenders, hrendersWhere⟩
  have hinsert (rest : List Char) :
      skip? ("INSERT INTO " : String).toList (("UPDATE " : String).toList ++ rest) = none := rfl
  rw [String.toList_append, hs, List.append_assoc, List.append_assoc, List.append_assoc, change?,
    oneOf?, hinsert, oneOf?, skip?_append]
  simp only [Option.bind_eq_bind, Option.bind_some, hread, hfilter]
  rfl

/-- A filter of listed conditions is drafted like the conditions of an UPDATE. -/
theorem draft_all (strict : Bool) (conditions : List Field) :
    (DeleteFilter.all conditions).draft strict = whereAll strict conditions := by
  cases conditions <;> rfl

/-- With the rules of MySQL a DELETE is read as the table and the conditions. -/
theorem change?_delete (hb : b.escaper = .mysql) {table : String} (htable : Name.IsPlain table)
    {conditions : List Field} (hconditions : ∀ f ∈ conditions, Name.IsPlain f.name)
    (h : b.Writes (deleteDraft b.strict table (.all conditions)) s) :
    ∃ filter, whole? (change? s.toList) = some (.delete (Name.dotted table) filter) ∧
      RendersWhere b conditions filter := by
  obtain ⟨front, w, hfront, hw, rfl⟩ := Builder.writes_append.mp h
  obtain ⟨word, t, hword, ht, rfl⟩ := Builder.writes_cons.mp hfront
  rw [draft_all] at hw
  obtain ⟨filter, hfilter, hrendersWhere, hhead⟩ := where?_whereAll hb hconditions hw
  refine ⟨filter, ?_, hrendersWhere⟩
  have hinsert (rest : List Char) :
      skip? ("INSERT INTO " : String).toList (("DELETE FROM " : String).toList ++ rest) = none :=
    rfl
  have hupdate (rest : List Char) :
      skip? ("UPDATE " : String).toList (("DELETE FROM " : String).toList ++ rest) = none := rfl
  have hname := reads_name (Name.dotted_ne_nil table) w.toList (.of_blank hhead)
  rw [Builder.writes_fixed.mp hword, eq_nameText_of_writes hb htable ht, String.toList_append,
    String.toList_append, List.append_assoc, change?, oneOf?, hinsert, oneOf?, hupdate, oneOf?,
    skip?_append]
  simp only [Option.bind_eq_bind, Option.bind_some, hname, hfilter]
  rfl

/-- With the rules of MySQL, in either mode: whenever an INSERT, an UPDATE or a DELETE with
listed conditions is written, a reader that knows only the grammar reads it to its last
character as the table and, in order, exactly the given fields and conditions, each with
its own column and with the literal that is written for its own value. There is a WHERE
exactly when there are conditions. -/
theorem changes_read_back {strict : Bool} {table : String} (htable : Name.IsPlain table)
    {fields conditions : List Field} (hne : fields ≠ [])
    (hfields : ∀ f ∈ fields, Name.IsPlain f.name)
    (hconditions : ∀ f ∈ conditions, Name.IsPlain f.name) :
    (∀ sql, ((⟨.mysql, strict⟩ : Builder).insert table fields).result = .ok sql →
      ∃ terms, whole? (change? sql.toList) = some (.insert (Name.dotted table) terms) ∧
        List.Forall₂ (Renders ⟨.mysql, strict⟩) fields terms) ∧
    (∀ sql, ((⟨.mysql, strict⟩ : Builder).update table fields conditions).result = .ok sql →
      ∃ terms filter,
        whole? (change? sql.toList) = some (.update (Name.dotted table) terms filter) ∧
        List.Forall₂ (Renders ⟨.mysql, strict⟩) fields terms ∧
        RendersWhere ⟨.mysql, strict⟩ conditions filter) ∧
    (∀ sql, ((⟨.mysql, strict⟩ : Builder).delete table (.all conditions)).result = .ok sql →
      ∃ filter, whole? (change? sql.toList) = some (.delete (Name.dotted table) filter) ∧
        RendersWhere ⟨.mysql, strict⟩ conditions filter) := by
  have hset : ¬fields.isEmpty := by simpa using hne
  refine ⟨fun sql h => ?_, fun sql h => ?_, fun sql h => ?_⟩
  · rw [Builder.insert, if_neg hset, Builder.result_finish] at h
    exact change?_insert rfl htable hne hfields h
  · rw [Builder.update, if_neg hset, Builder.result_finish] at h
    exact change?_update rfl htable hne hfields hconditions h
  · rw [Builder.delete, Builder.result_finish] at h
    exact change?_delete rfl htable hconditions h

/-- Quotes, a separator and a WHERE in a value stay in its string. -/
theorem changes_read_back_quoted_separators :
    let fields : List Field :=
      [⟨"a", .string, .str "1', `b` = '2 WHERE ", 0⟩, ⟨" b ", .float, .str "x", 2⟩]
    let conditions : List Field := [⟨"c.d", .string, .str "' AND ", 0⟩, ⟨"e", .integer, .list [], 0⟩]
    ∃ terms filter,
      whole? (change? ("UPDATE `db`.`t``x` SET `a` = '1\\', `b` = \\'2 WHERE ', `b` = 0.00 " ++
        "WHERE `c`.`d` = '\\' AND ' AND `e` = 0").toList) =
          some (.update (Name.dotted "db.t`x") terms filter) ∧
        List.Forall₂ (Renders ⟨.mysql, false⟩) fields terms ∧
        RendersWhere ⟨.mysql, false⟩ conditions filter := by
  intro fields conditions
  have htable : Name.IsPlain "db.t`x" := by decide
  have hfields : ∀ f ∈ fields, Name.IsPlain f.name := by decide
  have hconditions : ∀ f ∈ conditions, Name.IsPlain f.name := by decide
  exact (changes_read_back htable (List.cons_ne_nil _ _) hfields hconditions).2.1 _
    (by decide +kernel)

end Grammar

end SqlText
