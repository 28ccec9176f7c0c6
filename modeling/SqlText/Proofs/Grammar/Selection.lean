import SqlText.Proofs.Grammar.Clause
import SqlText.Proofs.Grammar.Term

/-!
# Reading SELECT

A finished query is read with nothing but the grammar of its six clauses in hand. The
reader gives back every name, every condition and every direction of the description in
its place; only what has no name is missing. No name and no value can be taken for a
keyword, a connector or a separator, and no clause is without a body.
-/

namespace SqlText

namespace Grammar

/-- A query as it is read. A clause that is not there is none. -/
structure Selection where
  /-- The selected columns. -/
  fields : Option (List (List String))
  /-- The table. -/
  source : Option (List String)
  /-- The conditions on rows, each with the connector before it. -/
  conditions : Option (List (Option Connector × Term))
  /-- The columns to group by. -/
  groupBy : Option (List (List String))
  /-- The conditions on groups, each with the connector before it. -/
  having : Option (List (Option Connector × Term))
  /-- The columns to sort by. -/
  orderBy : Option (List (List String × Direction))
  deriving DecidableEq, Repr

/-- The words between conditions. -/
def connectors : List (String × Connector) := [(" AND ", .and), (" OR ", .or)]

/-- Conditions with connectors between them. -/
def entries? : Reader (List (Option Connector × Term)) := series? term? connectors none

/-- A column and its sort direction. -/
def orderTerm? : Reader (List String × Direction) := fun cs => do
  let (column, cs) ← name? cs
  let (direction, cs) ← oneOf? [(" ASC", Direction.ascending), (" DESC", .descending)] cs
  pure ((column, direction), cs)

/-- A query. -/
def selection? : Reader Selection := fun cs => do
  let ((fields, before), cs) ← clause? "SELECT " (list? name? ", ") false cs
  let ((source, before), cs) ← clause? "FROM " name? before cs
  let ((conditions, before), cs) ← clause? "WHERE " entries? before cs
  let ((groupBy, before), cs) ← clause? "GROUP BY " (list? name? ", ") before cs
  let ((having, before), cs) ← clause? "HAVING " entries? before cs
  let ((orderBy, _), cs) ← clause? "ORDER BY " (list? orderTerm? ", ") before cs
  pure (⟨fields, source, conditions, groupBy, having, orderBy⟩, cs)

/-- The parts of a name, unless it is blank. -/
def column? (name : String) : Option (List String) :=
  if Text.isBlankText name then none else some (Name.dotted name)

/-- The column of an order term and its direction, unless the column has no name. -/
def orderColumn? (t : OrderTerm) : Option (List String × Direction) :=
  (column? t.column).map fun column => (column, t.direction)

/-- The connectors of a condition list as they are written: none before the first. -/
def writtenConnectors : List Entry → List (Option Connector)
  | [] => []
  | _ :: rest => none :: rest.map fun e => some e.condition.connector

/-- The conditions say what the entries say, one for one, with the connectors of the
entries between them. -/
structure RendersEntries (b : Builder) (entries : List Entry)
    (items : List (Option Connector × Term)) : Prop where
  /-- The connectors are those of the entries. -/
  connectors : items.map Prod.fst = writtenConnectors entries
  /-- The terms say what the entries say. -/
  terms : List.Forall₂ (fun e t => Renders b e.condition.toField t) entries (items.map Prod.snd)

/-- The clause says what the entries say, and is there exactly when there are entries. -/
def RendersClause (b : Builder) (entries : List Entry)
    (clause : Option (List (Option Connector × Term))) : Prop :=
  (clause = none ↔ entries = []) ∧ ∀ items, clause = some items → RendersEntries b entries items

/-- What was read says what the query says. -/
structure RendersQuery (b : Builder) (q : Query) (r : Selection) : Prop where
  /-- The selected columns that have a name. -/
  fields : r.fields = clauseOf (q.fields.filterMap column?)
  /-- The table, if it has a name. -/
  source : r.source = column? q.source
  /-- The conditions on rows. -/
  conditions : RendersClause b q.conditions r.conditions
  /-- The columns to group by that have a name. -/
  groupBy : r.groupBy = clauseOf (q.groupBy.filterMap column?)
  /-- The conditions on groups. -/
  having : RendersClause b q.having r.having
  /-- The columns to sort by that have a name. -/
  orderBy : r.orderBy = clauseOf (q.orderBy.filterMap orderColumn?)

/-- A query without joins of which every name is one word. The columns of conditions are
not blank. -/
structure IsSingleTable (q : Query) : Prop where
  /-- There are no joins. -/
  joins : q.joins = []
  /-- The selected columns are words. -/
  fields : ∀ name ∈ q.fields, Name.IsWord name
  /-- The table is a word. -/
  source : Name.IsWord q.source
  /-- The columns of the conditions on rows are words and not blank. -/
  conditions : ∀ e ∈ q.conditions, Name.IsPlain e.condition.name
  /-- The columns to group by are words. -/
  groupBy : ∀ name ∈ q.groupBy, Name.IsWord name
  /-- The columns of the conditions on groups are words and not blank. -/
  having : ∀ e ∈ q.having, Name.IsPlain e.condition.name
  /-- The columns to sort by are words. -/
  orderBy : ∀ t ∈ q.orderBy, Name.IsWord t.column

section Mysql

variable {b : Builder} {s : String}

/-- A name that is one word is read as its parts; a blank one is left out. -/
theorem shown_name (hb : b.escaper = .mysql) {name : String} (hname : Name.IsWord name)
    (h : b.Writes (SqlText.Literal.name name) s) :
    Shown (Reads name?) (SqlText.Literal.name name).hasText s (column? name) := by
  cases hblank : Text.isBlankText name with
  | true =>
    rw [SqlText.Literal.name, Name.parse?_of_blank hblank] at h ⊢
    rw [column?, if_pos hblank, (Builder.writes_problem.mp h).2]
    exact .absent
  | false =>
    have hplain : Name.IsPlain name := ⟨hblank, hname⟩
    rw [SqlText.Literal.hasText_name, hblank, Bool.not_false, column?, hblank, if_neg Bool.false_ne_true, eq_nameText_of_writes hb hplain h]
    exact .present (reads_name (Name.dotted_ne_nil name))

/-- A name and a direction are read as an order term. -/
theorem Reads.orderTerm {name : String} {column : List String} (hname : Reads name? name column)
    (direction : Direction) :
    Reads orderTerm? (name ++ s!" {direction.keyword}") (column, direction) := by
  intro rest hends
  have hword : Ends ((s!" {direction.keyword}").toList ++ rest) := by
    cases direction <;> exact ends_append _ (by decide) rest
  have hdirection : oneOf? [(" ASC", Direction.ascending), (" DESC", .descending)]
      ((s!" {direction.keyword}").toList ++ rest) = some (direction, rest) := by
    cases direction <;> rfl
  rw [String.toList_append, List.append_assoc, orderTerm?]
  simp only [Option.bind_eq_bind, hname _ hword, Option.bind_some, hdirection]
  rfl

/-- The column of an order term is read with its direction; a blank one is left out. -/
theorem shown_orderTerm (hb : b.escaper = .mysql) {t : OrderTerm} (hname : Name.IsWord t.column)
    (h : b.Writes t.draft s) :
    Shown (Reads orderTerm?) t.draft.hasText s (orderColumn? t) := by
  unfold OrderTerm.draft orderColumn? at *
  cases htext : (SqlText.Literal.name t.column).hasText with
  | false =>
    simp only [htext, Bool.false_eq_true, if_false] at h ⊢
    have hshown := shown_name hb hname h
    rw [htext] at hshown
    generalize column? t.column = column at hshown ⊢
    cases hshown
    exact .absent
  | true =>
    simp only [htext, if_true] at h ⊢
    obtain ⟨name, direction, hcolumn, hdirection, rfl⟩ := Builder.writes_append.mp h
    have hshown := shown_name hb hname hcolumn
    have happend : Draft.hasText (SqlText.Literal.name t.column ++
        [.fixed s!" {t.direction.keyword}"]) = true := by
      simp [Draft.hasText, Piece.isText]
    rw [htext] at hshown
    rw [happend, Builder.writes_fixed.mp hdirection]
    generalize column? t.column = column at hshown ⊢
    cases hshown with
    | present hread => exact .present (hread.orderTerm t.direction)

/-- The table is read as its parts; a blank one is left out. -/
theorem shown_source (hb : b.escaper = .mysql) {source : String} (hsource : Name.IsWord source)
    (h : b.Writes (Query.sourceDraft source) s) :
    Shown (ReadsClause "FROM " name?) (Query.sourceDraft source).hasText s (column? source) := by
  unfold Query.sourceDraft column? at *
  cases hblank : Text.isBlankText source with
  | true =>
    rw [hblank, if_pos rfl] at h
    rw [if_pos rfl, if_pos rfl, Builder.writes_nil.mp h]
    exact .absent
  | false =>
    have hplain : Name.IsPlain source := ⟨hblank, hsource⟩
    rw [hblank, if_neg Bool.false_ne_true] at h
    obtain ⟨word, name, hword, hname, rfl⟩ := Builder.writes_cons.mp h
    rw [if_neg Bool.false_ne_true, if_neg Bool.false_ne_true, Builder.writes_fixed.mp hword]
    refine .present ⟨name, rfl, fun rest hrest => ?_⟩
    rw [eq_nameText_of_writes hb hplain hname]
    exact reads_name (Name.dotted_ne_nil source) rest hrest.ends

/-- Columns after a keyword are read in order, those without a name being left out. -/
theorem shown_columns (hb : b.escaper = .mysql) {keyword : String} {columns : List String}
    (hcolumns : ∀ name ∈ columns, Name.IsWord name)
    (h : b.Writes (Query.columnsDraft keyword columns) s) :
    Shown (ReadsClause keyword (list? name? ", ")) (Query.columnsDraft keyword columns).hasText s
      (clauseOf (columns.filterMap column?)) :=
  shown_headed (fun name hname _ ht => shown_name hb (hcolumns name hname) ht) h

/-- No connector comes where the text is over or goes on with a keyword. -/
theorem oneOf?_connectors {rest : List Char} (h : Follows true keywords rest) :
    oneOf? connectors rest = none := by
  rcases h with rfl | ⟨word, hword, more, rfl⟩
  · rfl
  · simp only [keywords, List.mem_cons, List.not_mem_nil, or_false] at hword
    rcases hword with rfl | rfl | rfl | rfl | rfl | rfl <;> rfl

/-- A connector between blanks is found. -/
theorem oneOf?_keyword (connector : Connector) (rest : List Char) :
    oneOf? connectors ((s!" {connector.keyword} ").toList ++ rest) = some (connector, rest) := by
  have hand : s!" {Connector.and.keyword} " = " AND " := by decide
  have hor : s!" {Connector.or.keyword} " = " OR " := by decide
  cases connector with
  | and => rw [hand, connectors, oneOf?, skip?_append]
  | or =>
    have hskip : skip? (" AND " : String).toList ((" OR " : String).toList ++ rest) = none := rfl
    rw [hor, connectors, oneOf?, hskip]
    simp only [oneOf?, skip?_append]

/-- A connector between blanks is an end. -/
theorem ends_keyword (connector : Connector) (rest : List Char) :
    Ends ((s!" {connector.keyword} ").toList ++ rest) := by
  cases connector <;> exact ends_append _ (by decide) rest

/-- Entries after their connectors are read in order, each with its connector. -/
theorem links_entries (hb : b.escaper = .mysql) {entries : List Entry}
    (hnames : ∀ e ∈ entries, Name.IsPlain e.condition.name)
    (h : b.Writes (entries.flatMap fun e =>
      .fixed s!" {e.condition.connector.keyword} " :: e.draft b.strict) s) :
    ∃ links : List (Link Term Connector), (∀ l ∈ links, l.IsRead term? connectors) ∧
      s.toList = links.flatMap Link.spelling ∧
      links.map Link.label = entries.map (fun e => e.condition.connector) ∧
      List.Forall₂ (fun e t => Renders b e.condition.toField t) entries
        (links.map Link.item) := by
  induction entries generalizing s with
  | nil =>
    rw [List.flatMap_nil] at h
    rw [Builder.writes_nil.mp h]
    exact ⟨[], by simp⟩
  | cons e entries ih =>
    obtain ⟨hname, hnames⟩ := List.forall_mem_cons.mp hnames
    rw [List.flatMap_cons] at h
    obtain ⟨front, u, hfront, hu, rfl⟩ := Builder.writes_append.mp h
    obtain ⟨word, text, hword, htext, rfl⟩ := Builder.writes_cons.mp hfront
    obtain ⟨t, hread, hrenders⟩ := reads_field hb hname htext
    obtain ⟨links, hlinks, hspelling, hlabels, hterms⟩ := ih hnames hu
    have hlink : Link.IsRead term? connectors ⟨word, e.condition.connector, text, t⟩ := by
      rw [Builder.writes_fixed.mp hword]
      exact ⟨oneOf?_keyword _, ends_keyword _, hread⟩
    refine ⟨⟨word, e.condition.connector, text, t⟩ :: links,
      List.forall_mem_cons.mpr ⟨hlink, hlinks⟩, ?_, ?_, .cons hrenders hterms⟩
    · simp [Link.spelling, hspelling]
    · simp [hlabels]

/-- Conditions after a keyword are read in order, each with the connector of its entry, and
without entries there is no clause. -/
theorem shown_entries (hb : b.escaper = .mysql) {keyword : String} {entries : List Entry}
    (hnames : ∀ e ∈ entries, Name.IsPlain e.condition.name)
    (h : b.Writes (.headed keyword (entriesDraft b.strict entries)) s) :
    ∃ clause, Shown (ReadsClause keyword entries?)
        (Draft.headed keyword (entriesDraft b.strict entries)).hasText s clause ∧
      RendersClause b entries clause := by
  obtain ⟨t, ht, rfl⟩ := writes_headed.mp h
  rw [hasText_headed]
  cases entries with
  | nil =>
    rw [entriesDraft] at ht
    rw [Builder.writes_nil.mp ht]
    exact ⟨none, .absent, by simp [RendersClause]⟩
  | cons e entries =>
    have htext : (entriesDraft b.strict (e :: entries)).hasText = true := by
      simp [entriesDraft, Entry.draft, Field.draft, Draft.hasText, Piece.isText]
    rw [htext, if_pos rfl]
    obtain ⟨hname, hnames⟩ := List.forall_mem_cons.mp hnames
    obtain ⟨text, more, hfirst, hmore, rfl⟩ := Builder.writes_append.mp ht
    obtain ⟨first, hread, hrenders⟩ := reads_field hb hname hfirst
    obtain ⟨links, hlinks, hspelling, hlabels, hterms⟩ := links_entries hb hnames hmore
    refine ⟨some ((none, first) :: links.map fun l => (some l.label, l.item)),
      .present ⟨_, rfl, fun rest hrest => ?_⟩, by simp, ?_⟩
    · rw [String.toList_append, hspelling, List.append_assoc]
      exact series?_spelling hread hlinks hrest.ends (oneOf?_connectors hrest)
    · rintro _ ⟨⟩
      constructor
      · have hlabels' := congrArg (List.map some) hlabels
        simpa [writtenConnectors, Function.comp_def] using hlabels'
      · refine .cons hrenders ?_
        simpa [Function.comp_def] using hterms

/-- Six clauses, each there or left out, are read as what they say. -/
theorem selection?_laidOut {c₁ c₂ c₃ c₄ c₅ c₆ : Bool} {t₁ t₂ t₃ t₄ t₅ t₆ : String}
    (r : Selection)
    (hfields : Shown (ReadsClause "SELECT " (list? name? ", ")) c₁ t₁ r.fields)
    (hsource : Shown (ReadsClause "FROM " name?) c₂ t₂ r.source)
    (hconditions : Shown (ReadsClause "WHERE " entries?) c₃ t₃ r.conditions)
    (hgroupBy : Shown (ReadsClause "GROUP BY " (list? name? ", ")) c₄ t₄ r.groupBy)
    (hhaving : Shown (ReadsClause "HAVING " entries?) c₅ t₅ r.having)
    (horderBy : Shown (ReadsClause "ORDER BY " (list? orderTerm? ", ")) c₆ t₆ r.orderBy) :
    selection? (Draft.laidOut " " false
      [(c₁, t₁), (c₂, t₂), (c₃, t₃), (c₄, t₄), (c₅, t₅), (c₆, t₆)]).toList = some (r, []) := by
  -- Every clause is read with the ones after it still to come.
  have hnone : List.Forall₂ Opens [] [] := .nil
  have hopens₆ := List.Forall₂.cons horderBy.opens hnone
  have hopens₅ := List.Forall₂.cons hhaving.opens hopens₆
  have hopens₄ := List.Forall₂.cons hgroupBy.opens hopens₅
  have hopens₃ := List.Forall₂.cons hconditions.opens hopens₄
  have hopens₂ := List.Forall₂.cons hsource.opens hopens₃
  have hread₁ := clause?_laidOut hfields hopens₂ (by decide) (by decide)
  have hread₂ := clause?_laidOut hsource hopens₃ (by decide) (by decide)
  have hread₃ := clause?_laidOut hconditions hopens₄ (by decide) (by decide)
  have hread₄ := clause?_laidOut hgroupBy hopens₅ (by decide) (by decide)
  have hread₅ := clause?_laidOut hhaving hopens₆ (by decide) (by decide)
  have hread₆ := clause?_laidOut horderBy hnone (by decide) (by decide)
  rw [selection?]
  simp only [Option.bind_eq_bind, Option.bind_some, hread₁, hread₂, hread₃, hread₄, hread₅, hread₆]
  rfl

/-- With the rules of MySQL the text of a query is read as the query. -/
theorem selection?_draft (hb : b.escaper = .mysql) {q : Query} (hq : IsSingleTable q)
    (h : b.Writes (q.draft b.strict) s) :
    ∃ r, whole? (selection? s.toList) = some r ∧ RendersQuery b q r := by
  obtain ⟨texts, htexts, rfl⟩ := Builder.writes_separated.mp h
  rw [Query.clauses, hq.joins] at htexts ⊢
  simp only [List.map_nil, List.append_nil, List.cons_append, List.nil_append] at htexts ⊢
  obtain ⟨t₁, _, h₁, hmore₁, rfl⟩ := List.forall₂_cons_left_iff.mp htexts
  obtain ⟨t₂, _, h₂, hmore₂, rfl⟩ := List.forall₂_cons_left_iff.mp hmore₁
  obtain ⟨t₃, _, h₃, hmore₃, rfl⟩ := List.forall₂_cons_left_iff.mp hmore₂
  obtain ⟨t₄, _, h₄, hmore₄, rfl⟩ := List.forall₂_cons_left_iff.mp hmore₃
  obtain ⟨t₅, _, h₅, hmore₅, rfl⟩ := List.forall₂_cons_left_iff.mp hmore₄
  obtain ⟨t₆, _, h₆, hmore₆, rfl⟩ := List.forall₂_cons_left_iff.mp hmore₅
  rw [List.forall₂_nil_left_iff.mp hmore₆]
  obtain ⟨conditions, hconditions, hwhere⟩ := shown_entries hb hq.conditions h₃
  obtain ⟨groups, hgroups, hhaving⟩ := shown_entries hb hq.having h₅
  have horderBy := shown_headed
    (fun t ht _ hwrites => shown_orderTerm hb (hq.orderBy t ht) hwrites) h₆
  have hread := selection?_laidOut ⟨_, _, conditions, _, groups, _⟩
    (shown_columns hb hq.fields h₁) (shown_source hb hq.source h₂) hconditions
    (shown_columns hb hq.groupBy h₄) hgroups horderBy
  refine ⟨⟨_, _, conditions, _, groups, _⟩, ?_, ⟨rfl, rfl, hwhere, rfl, hhaving, rfl⟩⟩
  simp only [List.map_cons, List.map_nil, List.zip_cons_cons, List.zip_nil_left, hread]
  rfl

end Mysql

end Grammar

end SqlText
