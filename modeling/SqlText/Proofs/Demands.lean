import SqlText.Proofs.Call
import SqlText.Proofs.Pairing

/-!
# What is asked of the values of a call

A call asks something of each of its values: of the argument of a marker what the marker
says, of a name that it is one, of the value of a field what the declared type says. These
demands stand in the order of the text, and between their drafts there is nothing but fixed
text. What can be read off a draft without its fixed text is therefore read off the demands,
one after another.
-/

namespace SqlText

/-- A value, and what is asked of it. -/
abbrev Demand := Placeholder × Value

namespace Demand

/-- The draft of a value for what is asked of it. -/
def draft (strict : Bool) (demand : Demand) : Draft :=
  Literal.argument strict demand.1 demand.2

/-- A text is to be a name. -/
def ofName (s : String) : Demand := (.name, .str s)

end Demand

/-- What a declared type asks of a value. -/
def DeclaredType.placeholder (type : DeclaredType) (decimals : UInt32) : Placeholder :=
  match type with
  | .integer => .integer
  | .float => .float decimals
  | .string | .binary => .string

/-- The name of a field, then its value. -/
def Field.demands (f : Field) : List Demand :=
  [.ofName f.name, (f.type.placeholder f.decimals, f.value)]

/-- The name of a condition, then its value. -/
def Entry.demands (e : Entry) : List Demand := e.condition.toField.demands

/-- The conditions of a filter; of hand-written SQL nothing is asked. -/
def DeleteFilter.demands : DeleteFilter → List Demand
  | .raw _ => []
  | .all conditions => conditions.flatMap Field.demands

/-- The names and the conditions of a query, clause by clause. The table may be blank, and of
the condition of a join nothing is asked. -/
def Query.demands (q : Query) : List Demand :=
  q.fields.map .ofName ++ (if Text.isBlankText q.source then [] else [.ofName q.source]) ++
    q.joins.map (fun j => .ofName j.table) ++ q.conditions.flatMap Entry.demands ++
    q.groupBy.map .ofName ++ q.having.flatMap Entry.demands ++
    q.orderBy.map fun t => .ofName t.column

/-- What a described statement asks of its names and values, in the order of its text. -/
def Statement.demands : Statement → List Demand
  | .insert table fields => .ofName table :: fields.flatMap Field.demands
  | .update table fields conditions =>
    .ofName table :: fields.flatMap Field.demands ++ conditions.flatMap Field.demands
  | .delete table conditions => .ofName table :: conditions.demands
  | .select query => query.demands

/-- What the markers of a template ask of the arguments, as far as there are both. -/
def Template.demands (template : String) (args : List Value) : List Demand :=
  (kinds (tokens template)).zip args

/-- Something that is read off the pieces of a draft, and nothing off fixed text. -/
structure Reading (α : Type) where
  /-- What is read off a piece. -/
  ofPiece : Piece → List α
  /-- Fixed text gives nothing. -/
  ofPiece_fixed : ∀ text, ofPiece (.fixed text) = []

namespace Reading

variable {α : Type} (r : Reading α) {strict : Bool} {d e : Draft}

/-- What is read off the pieces of a draft, in order. -/
def ofDraft (d : Draft) : List α := d.flatMap r.ofPiece

@[simp] theorem ofDraft_nil : r.ofDraft [] = [] := rfl

@[simp] theorem ofDraft_fixed (text : String) : r.ofDraft (.fixed text :: d) = r.ofDraft d := by
  rw [ofDraft, List.flatMap_cons, r.ofPiece_fixed, List.nil_append, ofDraft]

@[simp] theorem ofDraft_append : r.ofDraft (d ++ e) = r.ofDraft d ++ r.ofDraft e :=
  List.flatMap_append

/-- Drafts one after another. -/
theorem ofDraft_flatMap {β : Type} (f : β → Draft) (bs : List β) :
    r.ofDraft (bs.flatMap f) = bs.flatMap fun b => r.ofDraft (f b) :=
  List.flatMap_assoc

/-- Drafts with a fixed separator. -/
theorem ofDraft_intercalate (sep : String) (ds : List Draft) :
    r.ofDraft ([Piece.fixed sep].intercalate ds) = ds.flatMap r.ofDraft := by
  induction ds with
  | nil => rfl
  | cons d ds ih =>
    cases ds with
    | nil => simp
    | cons d' ds =>
      rw [List.intercalate_cons_cons, ofDraft_append, ofDraft_append, ih, ofDraft_fixed,
        ofDraft_nil, List.append_nil]
      rfl

/-- Drafts of which some have no text. -/
theorem ofDraft_separated (sep : String) (before : Bool) (ds : List Draft) :
    r.ofDraft (.separated sep before ds) = ds.flatMap r.ofDraft := by
  induction ds generalizing before with
  | nil => rfl
  | cons d ds ih =>
    have hsep : r.ofDraft (if before && d.hasText then [.fixed sep] else []) = [] := by
      split <;> simp
    rw [Draft.separated, ofDraft_append, ofDraft_append, hsep, ih, List.nil_append,
      List.flatMap_cons]

/-- A draft after a keyword. -/
@[simp] theorem ofDraft_headed (keyword : String) :
    r.ofDraft (.headed keyword d) = r.ofDraft d := by
  unfold Draft.headed
  split <;> simp

/-- What stands for a missing argument is fixed. -/
theorem ofDraft_neutral (kind : Placeholder) : r.ofDraft (Literal.neutral kind) = [] := by
  cases kind <;> simp [Literal.neutral]

/-- What is read off a demand. -/
def ofDemand (strict : Bool) (demand : Demand) : List α := r.ofDraft (demand.draft strict)

/-- A name. -/
theorem ofDraft_name (strict : Bool) (s : String) :
    r.ofDraft (Literal.name s) = r.ofDemand strict (.ofName s) := rfl

/-- A value of a declared type. -/
theorem ofDraft_typed (type : DeclaredType) (decimals : UInt32) (v : Value) :
    r.ofDraft (Literal.typed strict type decimals v) =
      r.ofDemand strict (type.placeholder decimals, v) := by
  cases type <;> rfl

/-- A term: its name, then its value. -/
theorem ofDraft_field (f : Field) :
    r.ofDraft (f.draft strict) = f.demands.flatMap (r.ofDemand strict) := by
  simp [Field.draft, Field.demands, ← ofDraft_typed, r.ofDraft_name strict]

/-- Terms with a separator between them. -/
theorem ofDraft_terms (sep : String) (fields : List Field) :
    r.ofDraft (termsDraft strict sep fields) =
      (fields.flatMap Field.demands).flatMap (r.ofDemand strict) := by
  rw [termsDraft, ofDraft_intercalate, List.flatMap_map, List.flatMap_assoc]
  simp only [ofDraft_field]

/-- Conditions that must all hold. -/
theorem ofDraft_whereAll (conditions : List Field) :
    r.ofDraft (whereAll strict conditions) =
      (conditions.flatMap Field.demands).flatMap (r.ofDemand strict) := by
  cases conditions with
  | nil => rfl
  | cons f conditions =>
    rw [whereAll, if_neg (by simp), ofDraft_fixed, ofDraft_terms]

/-- Entries with their connectors. -/
theorem ofDraft_entries (entries : List Entry) :
    r.ofDraft (entriesDraft strict entries) =
      (entries.flatMap Entry.demands).flatMap (r.ofDemand strict) := by
  have hentry (e : Entry) : r.ofDraft (e.draft strict) = e.demands.flatMap (r.ofDemand strict) :=
    r.ofDraft_field _
  cases entries with
  | nil => rfl
  | cons first rest =>
    rw [entriesDraft, ofDraft_append, ofDraft_flatMap, List.flatMap_assoc, List.flatMap_cons]
    simp only [ofDraft_fixed, hentry]

/-- The filter of a DELETE. -/
theorem ofDraft_filter (f : DeleteFilter) :
    r.ofDraft (f.draft strict) = f.demands.flatMap (r.ofDemand strict) := by
  cases f with
  | raw sql =>
    unfold DeleteFilter.draft
    split <;> simp [DeleteFilter.demands]
  | all conditions =>
    cases conditions with
    | nil => rfl
    | cons f conditions => exact r.ofDraft_whereAll (f :: conditions)

/-- Columns after a keyword. -/
theorem ofDraft_columns (strict : Bool) (keyword : String) (columns : List String) :
    r.ofDraft (Query.columnsDraft keyword columns) =
      (columns.map Demand.ofName).flatMap (r.ofDemand strict) := by
  rw [Query.columnsDraft, ofDraft_headed, Draft.join, ofDraft_separated, List.flatMap_map,
    List.flatMap_map]
  rfl

/-- The table after its keyword. -/
theorem ofDraft_source (strict : Bool) (source : String) :
    r.ofDraft (Query.sourceDraft source) =
      (if Text.isBlankText source then [] else [Demand.ofName source]).flatMap
        (r.ofDemand strict) := by
  unfold Query.sourceDraft
  split
  · rfl
  · rw [ofDraft_fixed, r.ofDraft_name strict, List.flatMap_singleton]

/-- A joined table. -/
theorem ofDraft_join (strict : Bool) (j : Join) :
    r.ofDraft j.draft = r.ofDemand strict (.ofName j.table) := by
  unfold Join.draft
  dsimp only
  split <;> simp [r.ofDraft_name strict]

/-- A column with its sort direction. -/
theorem ofDraft_orderTerm (strict : Bool) (t : OrderTerm) :
    r.ofDraft t.draft = r.ofDemand strict (.ofName t.column) := by
  unfold OrderTerm.draft
  dsimp only
  split <;> simp [r.ofDraft_name strict]

/-- A query, clause by clause. -/
theorem ofDraft_query (q : Query) :
    r.ofDraft (q.draft strict) = q.demands.flatMap (r.ofDemand strict) := by
  have hjoins : (q.joins.map Join.draft).flatMap r.ofDraft =
      (q.joins.map fun j => Demand.ofName j.table).flatMap (r.ofDemand strict) := by
    rw [List.flatMap_map, List.flatMap_map]
    simp only [r.ofDraft_join strict]
  have horder : r.ofDraft (.join ", " (q.orderBy.map OrderTerm.draft)) =
      (q.orderBy.map fun t => Demand.ofName t.column).flatMap (r.ofDemand strict) := by
    rw [Draft.join, ofDraft_separated, List.flatMap_map, List.flatMap_map]
    simp only [r.ofDraft_orderTerm strict]
  rw [Query.draft, Draft.join, ofDraft_separated]
  simp only [Query.clauses, Query.demands, List.flatMap_append, List.flatMap_cons,
    List.flatMap_nil, hjoins, horder, r.ofDraft_columns strict,
    r.ofDraft_source strict, ofDraft_headed, ofDraft_entries, List.append_nil,
    List.append_assoc]

/-- What is read off a described statement is read off its demands. -/
theorem ofDraft_statement (s : Statement) :
    r.ofDraft (s.draft strict) = s.demands.flatMap (r.ofDemand strict) := by
  cases s with
  | insert table fields =>
    simp [Statement.draft, insertDraft, Statement.demands, ofDraft_terms,
      r.ofDraft_name strict]
  | update table fields conditions =>
    simp [Statement.draft, updateDraft, Statement.demands, ofDraft_terms, ofDraft_whereAll,
      r.ofDraft_name strict]
  | delete table conditions =>
    simp [Statement.draft, deleteDraft, Statement.demands, ofDraft_filter,
      r.ofDraft_name strict]
  | select query => exact r.ofDraft_query query

/-- What is read off filled tokens is read off the pairs of markers and arguments, and then off
the draft for missing or for surplus arguments. -/
theorem ofDraft_fill (missing surplus : Draft) (ts : List Token) (args : List Value) :
    r.ofDraft (Template.fill strict missing surplus ts args) =
      ((Template.kinds ts).zip args).flatMap (r.ofDemand strict) ++
        if args.length < (Template.kinds ts).length then r.ofDraft missing
        else if (Template.kinds ts).length < args.length then r.ofDraft surplus else [] := by
  induction ts generalizing missing args with
  | nil => cases args <;> simp [Template.fill, Template.kinds]
  | cons token ts ih =>
    cases token with
    | literal text => rw [Template.fill, ofDraft_fixed, ih, Template.kinds_literal]
    | marker kind =>
      cases args with
      | nil =>
        have hrest := ih [] []
        rw [ofDraft_nil, List.zip_nil_right] at hrest
        simp only [Template.fill, ofDraft_append, ofDraft_neutral, hrest]
        simp
      | cons v args =>
        simp only [Template.fill, ofDraft_append, ih, Template.kinds_marker, List.zip_cons_cons,
          List.flatMap_cons, List.length_cons, Nat.add_lt_add_iff_right, List.append_assoc]
        rfl

end Reading

end SqlText
