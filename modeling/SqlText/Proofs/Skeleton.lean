import SqlText.Proofs.Grammar.FieldMap
import SqlText.Proofs.Grammar.NameSpelling
import SqlText.Proofs.TemplateQuotes

/-!
# Skeletons

The input of a call lays down the text that a lenient builder writes for it, stretch by stretch:
the words of the statement, numerals where numbers go, and the strings and the identifiers that
have to be escaped, each once. Nothing else of the input is copied but what is raw by its nature:
the plain text of a template, the argument of a raw marker, the rest of a name, the condition of
a join and the hand-written filter of a DELETE. The escaper gives what stands in the quotes, and
only there can the builder fail.
-/

namespace SqlText

/-- What the input lays down for a stretch of the text. -/
inductive Stretch where
  /-- These words. -/
  | fixed (text : String)
  /-- A numeral. -/
  | number
  /-- A string or an identifier, to be escaped. -/
  | outside (raw : Outside)
  /-- A name, its parts to be escaped. -/
  | name (s : String)
  deriving DecidableEq, Repr

/-- What the input lays down for a text. -/
abbrev Skeleton := List Stretch

/-- The parts are of the stretch. -/
inductive Stretch.Admits : Stretch → List Part → Prop where
  /-- The words are there. -/
  | fixed (text : String) : Admits (.fixed text) [.fixed text]
  /-- A numeral is fixed text, whatever the number is. -/
  | number {text : String} : Number.IsNumeral text.toList → Admits .number [.fixed text]
  /-- What comes from outside is there once. -/
  | outside (raw : Outside) : Admits (.outside raw) [.outside raw]
  /-- Every part of the name is an identifier, with dots between them; the rest is copied. -/
  | name {s : String} {n : Name} : n.Splits s →
      Admits (.name s) ([Part.fixed "."].intercalate
        (n.parts.map fun part => [.outside (.identifier part)]) ++ [.fixed n.suffix])

namespace Skeleton

/-- The parts are of the stretches, in order. -/
inductive Filled : Skeleton → List Part → Prop where
  /-- Nothing is laid down. -/
  | nil : Filled [] []
  /-- A stretch and those after it. -/
  | cons {stretch : Stretch} {sk : Skeleton} {parts later : List Part} :
      stretch.Admits parts → Filled sk later → Filled (stretch :: sk) (parts ++ later)

/-- One after another, with words between any two. -/
def spaced (sep : String) : List Skeleton → Skeleton
  | [] => []
  | first :: rest => first ++ rest.flatMap (.fixed sep :: ·)

/-- Those that are not empty, with words between any two. -/
def listed (sep : String) (sks : List Skeleton) : Skeleton :=
  spaced sep (sks.filter (!·.isEmpty))

/-- After words, unless there is nothing. -/
def headed (words : String) (sk : Skeleton) : Skeleton :=
  if sk.isEmpty then [] else .fixed words :: sk

end Skeleton

section Inputs

open Skeleton

/-- A value that is written as a string: a text as it is, any other value as its text. -/
def Value.stringSkeleton : Value → Skeleton
  | .null => [.fixed "NULL"]
  | .str s => [.outside (.string s)]
  | v => [.outside (.string v.toText)]

/-- A value that is written as a number. -/
def Value.numberSkeleton : Value → Skeleton
  | .null => [.fixed "NULL"]
  | _ => [.number]

/-- A value that is written as a set. -/
def Value.setSkeleton (v : Value) : Skeleton :=
  .fixed "(" :: spaced ", " (v.contents.map Value.stringSkeleton) ++ [.fixed ")"]

/-- A value that is written as assignments. A key is one identifier. -/
def Value.fieldSkeleton (v : Value) : Skeleton :=
  spaced ", " (v.pairs.map fun (key, item) =>
    .outside (.identifier key) :: .fixed " = " :: item.stringSkeleton)

/-- A value that is written as raw text. -/
def Value.rawSkeleton : Value → Skeleton
  | .str s => [.fixed s]
  | v => [.fixed v.toText]

/-- A name; nothing stands for a blank one. -/
def Name.skeleton (s : String) : Skeleton := if Text.isBlankText s then [] else [.name s]

/-- A value of a declared type. -/
def DeclaredType.skeleton (type : DeclaredType) (v : Value) : Skeleton :=
  match type with
  | .integer | .float => v.numberSkeleton
  | .string | .binary => v.stringSkeleton

/-- A value whose declared type is given as a tag; nothing for an unknown tag. -/
def Value.taggedSkeleton (tag : String) (v : Value) : Skeleton :=
  match DeclaredType.ofTag tag with
  | .ok type => type.skeleton v
  | .error _ => []

/-- The argument of a marker. -/
def Placeholder.skeleton (kind : Placeholder) (v : Value) : Skeleton :=
  match kind with
  | .name => (v.nameText?.map Name.skeleton).getD []
  | .string => v.stringSkeleton
  | .integer | .float _ => v.numberSkeleton
  | .set => v.setSkeleton
  | .fields => v.fieldSkeleton
  | .raw => v.rawSkeleton

/-- What stands for a missing argument. -/
def Placeholder.missingSkeleton : Placeholder → Skeleton
  | .integer | .float _ => [.number]
  | .string => [.fixed "''"]
  | .set => [.fixed "()"]
  | .name | .fields | .raw => []

/-- The tokens of a template, the markers with their arguments as far as there are any. -/
def Template.skeleton : List Token → List Value → Skeleton
  | [], _ => []
  | .literal text :: ts, args => .fixed text :: skeleton ts args
  | .marker kind :: ts, v :: args => kind.skeleton v ++ skeleton ts args
  | .marker kind :: ts, [] => kind.missingSkeleton ++ skeleton ts []

/-- A column with its value. -/
def Field.skeleton (f : Field) : Skeleton :=
  Name.skeleton f.name ++ .fixed " = " :: f.type.skeleton f.value

/-- The condition of an entry. -/
def Entry.skeleton (e : Entry) : Skeleton := e.condition.toField.skeleton

/-- Conditions with their connectors; the connector of the first is left out. -/
def entriesSkeleton : List Entry → Skeleton
  | [] => []
  | first :: rest => first.skeleton ++ rest.flatMap fun e =>
      .fixed (" " ++ e.condition.connector.keyword ++ " ") :: e.skeleton

/-- Conditions that must all hold, if there are any. -/
def whereSkeleton (conditions : List Field) : Skeleton :=
  if conditions.isEmpty then []
  else .fixed " WHERE " :: spaced " AND " (conditions.map Field.skeleton)

/-- The filter of a DELETE; hand-written SQL is copied unless it is blank. -/
def DeleteFilter.skeleton : DeleteFilter → Skeleton
  | .raw sql => if Text.isBlankText sql then [] else [.fixed " WHERE ", .fixed sql]
  | .all conditions => whereSkeleton conditions

/-- Columns after a keyword, blank ones left out. -/
def columnsSkeleton (keyword : String) (columns : List String) : Skeleton :=
  headed keyword (listed ", " (columns.map Name.skeleton))

/-- A joined table, unless it is blank. The condition is copied. -/
def Join.skeleton (j : Join) : Skeleton :=
  if Text.isBlankText j.table then []
  else [.fixed (j.kind.keyword ++ " "), .name j.table, .fixed (" ON (" ++ j.on ++ ")")]

/-- A column to sort by, unless it is blank. -/
def OrderTerm.skeleton (t : OrderTerm) : Skeleton :=
  if Text.isBlankText t.column then []
  else [.name t.column, .fixed (" " ++ t.direction.keyword)]

/-- The clauses of a query, those in which nothing is left included. -/
def Query.clauseSkeletons (q : Query) : List Skeleton :=
  [columnsSkeleton "SELECT " q.fields, headed "FROM " (Name.skeleton q.source)] ++
    q.joins.map Join.skeleton ++
    [headed "WHERE " (entriesSkeleton q.conditions), columnsSkeleton "GROUP BY " q.groupBy,
      headed "HAVING " (entriesSkeleton q.having),
      headed "ORDER BY " (listed ", " (q.orderBy.map OrderTerm.skeleton))]

/-- A described statement. -/
def Statement.skeleton : Statement → Skeleton
  | .insert table fields =>
    .fixed "INSERT INTO " :: Name.skeleton table ++ .fixed " SET " ::
      spaced ", " (fields.map Field.skeleton)
  | .update table fields conditions =>
    .fixed "UPDATE " :: Name.skeleton table ++ .fixed " SET " ::
      spaced ", " (fields.map Field.skeleton) ++ whereSkeleton conditions
  | .delete table filter => .fixed "DELETE FROM " :: Name.skeleton table ++ filter.skeleton
  | .select q => listed " " q.clauseSkeletons

/-- A call of a lenient builder. -/
def Call.skeleton : Call → Skeleton
  | .integer v | .float _ v => v.numberSkeleton
  | .string v => v.stringSkeleton
  | .set v => v.setSkeleton
  | .assignments v => v.fieldSkeleton
  | .raw v => v.rawSkeleton
  | .name s => Name.skeleton s
  | .typed type _ v => type.skeleton v
  | .tagged tag _ v => v.taggedSkeleton tag
  | .substitute template args => Template.skeleton (Template.tokens template) args
  | .insert table fields => (Statement.insert table fields).skeleton
  | .update table fields conditions => (Statement.update table fields conditions).skeleton
  | .delete table conditions => (Statement.delete table conditions).skeleton
  | .select query => (Statement.select query).skeleton
  | .build statement => statement.skeleton

end Inputs

namespace Skeleton

variable {sk tk : Skeleton} {parts more : List Part}

/-- Skeletons one after another are filled one after another. -/
theorem Filled.append (h : sk.Filled parts) (hmore : tk.Filled more) :
    Filled (sk ++ tk) (parts ++ more) := by
  induction h with
  | nil => exact hmore
  | cons hadmits _ ih =>
    rw [List.append_assoc]
    exact .cons hadmits ih

/-- There are parts exactly if there is a stretch. -/
theorem Filled.isEmpty (h : sk.Filled parts) : parts.isEmpty = sk.isEmpty := by
  cases h with
  | nil => rfl
  | cons hadmits _ => cases hadmits <;> simp

end Skeleton

namespace Draft

open Skeleton (spaced listed)

variable {d e : Draft} {sk tk : Skeleton}

/-- A draft has the skeleton: its parts are of the stretches. -/
def Fills (d : Draft) (sk : Skeleton) : Prop := sk.Filled d.parts

/-- Nothing. -/
theorem fills_nil : Fills [] [] := .nil

/-- Words come first. -/
theorem Fills.fixed (text : String) (h : d.Fills sk) :
    Fills (.fixed text :: d) (.fixed text :: sk) :=
  .cons (.fixed text) h

/-- A string comes first. -/
theorem Fills.quoted (raw : String) (h : d.Fills sk) :
    Fills (.quoted raw :: d) (.outside (.string raw) :: sk) :=
  .cons (.outside (.string raw)) h

/-- An identifier comes first. -/
theorem Fills.identifier (raw : String) (h : d.Fills sk) :
    Fills (.identifier raw :: d) (.outside (.identifier raw) :: sk) :=
  .cons (.outside (.identifier raw)) h

/-- A lenient builder passes over a problem. -/
theorem Fills.problem (error : Error) (sql : Option String) (h : d.Fills sk) :
    Fills (.problem error sql :: d) sk := h

/-- A numeral. -/
theorem fills_number {text : String} (h : Number.IsNumeral text.toList) :
    Fills [.fixed text] [.number] :=
  .cons (.number h) .nil

/-- Drafts one after another. -/
theorem Fills.append (hd : d.Fills sk) (he : e.Fills tk) : Fills (d ++ e) (sk ++ tk) := by
  unfold Fills parts at *
  rw [List.filterMap_append]
  exact Skeleton.Filled.append hd he

/-- A draft has text exactly if anything is laid down for it. -/
theorem Fills.hasText (h : d.Fills sk) : d.hasText = !sk.isEmpty := by
  rw [hasText_eq, Skeleton.Filled.isEmpty h]

section Lists

variable {α : Type} {draft : α → Draft} {skeleton : α → Skeleton}

/-- Drafts of a list of things, one by one. -/
theorem fills_map (h : ∀ a, (draft a).Fills (skeleton a)) (as : List α) :
    List.Forall₂ Fills (as.map draft) (as.map skeleton) := by
  rw [List.forall₂_map_left_iff, List.forall₂_map_right_iff]
  exact List.forall₂_same.mpr fun a _ => h a

/-- Drafts of a list of things, one after another. -/
theorem fills_flatMap (h : ∀ a, (draft a).Fills (skeleton a)) (as : List α) :
    Fills (as.flatMap draft) (as.flatMap skeleton) := by
  induction as with
  | nil => exact fills_nil
  | cons a as ih => exact (h a).append ih

/-- Drafts of a list of things with a fixed separator. -/
theorem fills_intercalate (sep : String) (h : ∀ a, (draft a).Fills (skeleton a)) (as : List α) :
    Fills ([Piece.fixed sep].intercalate (as.map draft)) (spaced sep (as.map skeleton)) := by
  induction as with
  | nil => exact fills_nil
  | cons a as ih =>
    cases as with
    | nil => simpa [spaced] using h a
    | cons a' as =>
      have hspaced : spaced sep ((a :: a' :: as).map skeleton) =
          skeleton a ++ .fixed sep :: spaced sep ((a' :: as).map skeleton) := by
        simp [spaced]
      rw [hspaced, List.map_cons, List.map_cons, List.intercalate_cons_cons, List.append_assoc]
      exact (h a).append (ih.fixed sep)

end Lists

/-- Drafts of which some have no text. -/
theorem fills_separated (sep : String) {ds : List Draft} {sks : List Skeleton}
    (h : List.Forall₂ Fills ds sks) (before : Bool) :
    Fills (separated sep before ds)
      (if before then (sks.filter (!·.isEmpty)).flatMap (.fixed sep :: ·)
        else listed sep sks) := by
  induction h generalizing before with
  | nil => cases before <;> exact fills_nil
  | @cons d sk ds sks hd _ ih =>
    rw [separated, hd.hasText]
    cases hempty : sk.isEmpty with
    | true =>
      -- Nothing is laid down for the first, so it takes no separator.
      obtain rfl := List.isEmpty_iff.mp hempty
      have hrest := hd.append (ih before)
      cases before <;> simpa [listed] using hrest
    | false =>
      have hrest := hd.append (ih true)
      cases before with
      | false => simpa [listed, spaced, hempty] using hrest
      | true => simpa [listed, hempty] using hrest.fixed sep

/-- Drafts with a separator between any two that have text. -/
theorem fills_join (sep : String) {ds : List Draft} {sks : List Skeleton}
    (h : List.Forall₂ Fills ds sks) : Fills (join sep ds) (listed sep sks) :=
  fills_separated sep h false

/-- A keyword before a draft that has text. -/
theorem Fills.headed (keyword : String) (h : d.Fills sk) :
    Fills (Draft.headed keyword d) (Skeleton.headed keyword sk) := by
  rw [Draft.headed, Skeleton.headed, h.hasText]
  cases hempty : sk.isEmpty with
  | true =>
    obtain rfl := List.isEmpty_iff.mp hempty
    exact h
  | false => exact h.fixed keyword

/-- The parts of a name are identifiers with dots between them, and the rest. -/
theorem parts_name (n : Name) : parts n.draft =
    [Part.fixed "."].intercalate (n.parts.map fun part => [.outside (.identifier part)]) ++
      [.fixed n.suffix] := by
  have hdotted (names : List String) :
      parts ([Piece.fixed "."].intercalate (names.map fun part => [.identifier part])) =
        [Part.fixed "."].intercalate (names.map fun part => [.outside (.identifier part)]) := by
    induction names with
    | nil => rfl
    | cons name names ih =>
      cases names with
      | nil => rfl
      | cons next names =>
        simp only [List.map_cons, List.intercalate_cons_cons, List.append_assoc] at ih ⊢
        exact congrArg (.outside (.identifier name) :: .fixed "." :: ·) ih
  rw [Name.draft, parts, List.filterMap_append, ← parts, hdotted]
  rfl

end Draft

namespace Literal

open Draft (Fills fills_nil fills_number fills_intercalate)

/-- A string. -/
theorem fills_string (v : Value) : (string v).Fills v.stringSkeleton := by
  cases v with
  | null => exact fills_nil.fixed "NULL"
  | list | map => exact (fills_nil.quoted _).problem _ _
  | _ => exact fills_nil.quoted _

/-- A number is the keyword for no value or a numeral, after its problem if it has one. -/
theorem fills_numeral {v : Value} {d : Draft} (hd : d.Fills [.number]) :
    Fills (if v.isNull then null else d) v.numberSkeleton := by
  cases v with
  | null => exact fills_nil.fixed "NULL"
  | _ => exact hd

/-- An integer. -/
theorem fills_integer (v : Value) : (integer false v).Fills v.numberSkeleton := by
  refine fills_numeral ?_
  split
  · exact fills_number (Number.isNumeral_intText _)
  · exact (fills_number (Number.isNumeral_intText 0)).problem _ _

/-- A number with fixed decimals. -/
theorem fills_float (precision : UInt32) (v : Value) :
    (float false precision v).Fills v.numberSkeleton := by
  refine fills_numeral ?_
  split
  · exact fills_number (Number.isNumeral_fixedPoint _ _)
  · exact (fills_number (Number.isNumeral_fixedPoint _ _)).problem _ _

/-- Raw text. -/
theorem fills_raw (v : Value) : (raw v).Fills v.rawSkeleton := by
  cases v with
  | list | map => exact (fills_nil.fixed _).problem _ _
  | _ => exact fills_nil.fixed _

/-- A name. -/
theorem fills_name (s : String) : (name s).Fills (Name.skeleton s) := by
  rw [Name.skeleton, ← Name.isNone_parse?, name]
  cases hname : Name.parse? s with
  | none => exact fills_nil.problem _ _
  | some n =>
    have hadmits := Stretch.Admits.name (Name.splits_of_parse? hname)
    rw [← Draft.parts_name] at hadmits
    simpa [Fills] using Skeleton.Filled.cons hadmits .nil

/-- Something with a name in it that is left out if the name is blank. -/
theorem fills_unless_blank {s : String} {d : Draft} {sk : Skeleton}
    (h : (name s).Fills [.name s] → d.Fills sk) :
    (if (name s).hasText then d else name s).Fills (if Text.isBlankText s then [] else sk) := by
  have hname := fills_name s
  rw [Name.skeleton] at hname
  rw [hasText_name]
  cases hblank : Text.isBlankText s with
  | true =>
    rw [hblank] at hname
    exact hname
  | false =>
    rw [hblank] at hname
    exact h hname

/-- A value that is used as a name. -/
theorem fills_nameOf (v : Value) :
    (nameOf v).Fills ((v.nameText?.map Name.skeleton).getD []) := by
  cases v with
  | str s => exact fills_name s
  | int n => exact fills_name _
  | float x => exact fills_name _
  | _ => exact fills_nil.problem _ _

/-- A set. -/
theorem fills_set (v : Value) : (set false v).Fills v.setSkeleton := by
  rw [set, setItems_lenient]
  exact ((fills_intercalate ", " fills_string v.contents).fixed "(").append (fills_nil.fixed ")")

/-- Assignments. -/
theorem fills_fields (v : Value) : (fields false v).Fills v.fieldSkeleton := by
  obtain ⟨entries, hentries, -⟩ := exists_fieldEntries_lenient v
  rw [fields, hentries, Value.fieldSkeleton, ← eq_pairs_of_fieldEntries hentries]
  refine fills_intercalate ", " (fun entry => ?_) entries
  exact ((fills_string entry.2).fixed " = ").identifier entry.1

/-- A value of a declared type. -/
theorem fills_typed (type : DeclaredType) (precision : UInt32) (v : Value) :
    (typed false type precision v).Fills (type.skeleton v) := by
  cases type with
  | integer => exact fills_integer v
  | float => exact fills_float precision v
  | string | binary => exact fills_string v

/-- A value whose declared type is given as a tag. -/
theorem fills_tagged (tag : String) (precision : UInt32) (v : Value) :
    (tagged false tag precision v).Fills (v.taggedSkeleton tag) := by
  unfold tagged Value.taggedSkeleton
  cases DeclaredType.ofTag tag with
  | ok type => exact fills_typed type precision v
  | error e => exact fills_nil.problem _ _

/-- The argument of a marker. -/
theorem fills_argument (kind : Placeholder) (v : Value) :
    (argument false kind v).Fills (kind.skeleton v) := by
  cases kind with
  | name => exact fills_nameOf v
  | string => exact fills_string v
  | integer => exact fills_integer v
  | float precision => exact fills_float precision v
  | set => exact fills_set v
  | fields => exact fills_fields v
  | raw => exact fills_raw v

/-- What stands for a missing argument. -/
theorem fills_neutral (kind : Placeholder) : (neutral kind).Fills kind.missingSkeleton := by
  cases kind with
  | integer => exact fills_number (Number.isNumeral_intText 0)
  | float precision => exact fills_number (Number.isNumeral_fixedPoint _ _)
  | string => exact fills_nil.fixed "''"
  | set => exact fills_nil.fixed "()"
  | name | fields | raw => exact fills_nil

end Literal

/-- Filled tokens; what comes before the first missing argument has no text. -/
theorem Template.fills_fill {missing : Draft} (hmissing : missing.Fills []) (ts : List Token)
    (args : List Value) :
    (fill false missing [] ts args).Fills (skeleton ts args) := by
  induction ts generalizing missing args with
  | nil => cases args <;> exact Draft.fills_nil
  | cons token ts ih =>
    cases token with
    | literal text => simpa [fill, skeleton] using (ih hmissing args).fixed text
    | marker kind =>
      cases args with
      | nil =>
        have hneutral := hmissing.append (Literal.fills_neutral kind)
        simpa [fill, skeleton] using hneutral.append (ih Draft.fills_nil [])
      | cons v args => exact (Literal.fills_argument kind v).append (ih hmissing args)

section Statements

open Draft (Fills fills_nil fills_flatMap fills_intercalate fills_join fills_map)

/-- A term. -/
theorem Field.fills (f : Field) : (f.draft false).Fills f.skeleton := by
  have hvalue := Literal.fills_typed f.type f.decimals f.value
  rw [draft, List.append_assoc]
  exact (Literal.fills_name f.name).append (hvalue.fixed " = ")

/-- Terms with a separator between them. -/
theorem fills_terms (sep : String) (fields : List Field) :
    (termsDraft false sep fields).Fills (Skeleton.spaced sep (fields.map Field.skeleton)) :=
  fills_intercalate sep Field.fills fields

/-- Conditions that must all hold. -/
theorem fills_whereAll (conditions : List Field) :
    (whereAll false conditions).Fills (whereSkeleton conditions) := by
  unfold whereAll whereSkeleton
  split
  · exact fills_nil
  · exact (fills_terms " AND " conditions).fixed " WHERE "

/-- The filter of a DELETE. -/
theorem DeleteFilter.fills (f : DeleteFilter) : (f.draft false).Fills f.skeleton := by
  cases f with
  | raw sql =>
    by_cases hblank : Text.isBlankText sql = true
    · simpa [draft, isEmpty, skeleton, hblank] using fills_nil
    · simpa [draft, isEmpty, skeleton, hblank] using (fills_nil.fixed sql).fixed " WHERE "
  | all conditions =>
    cases conditions with
    | nil => exact fills_nil
    | cons f conditions => exact fills_whereAll (f :: conditions)

/-- Entries with their connectors. -/
theorem fills_entries (entries : List Entry) :
    (entriesDraft false entries).Fills (entriesSkeleton entries) := by
  cases entries with
  | nil => exact fills_nil
  | cons first rest =>
    refine first.condition.toField.fills.append (fills_flatMap (fun e => ?_) rest)
    exact e.condition.toField.fills.fixed _

/-- Columns after a keyword. -/
theorem fills_columns (keyword : String) (columns : List String) :
    (Query.columnsDraft keyword columns).Fills (columnsSkeleton keyword columns) :=
  (fills_join ", " (fills_map Literal.fills_name columns)).headed keyword

/-- The table of a query. -/
theorem fills_source (source : String) :
    (Query.sourceDraft source).Fills (Skeleton.headed "FROM " (Name.skeleton source)) := by
  unfold Query.sourceDraft
  have hname := Literal.fills_name source
  split
  · rename_i hblank
    rw [Name.skeleton, if_pos hblank]
    exact fills_nil
  · rename_i hblank
    rw [Name.skeleton, if_neg hblank] at hname ⊢
    exact hname.fixed "FROM "

/-- A joined table. -/
theorem Join.fills (j : Join) : j.draft.Fills j.skeleton :=
  Literal.fills_unless_blank fun hname => (hname.fixed _).append (fills_nil.fixed _)

/-- A column to sort by. -/
theorem OrderTerm.fills (t : OrderTerm) : t.draft.Fills t.skeleton :=
  Literal.fills_unless_blank fun hname => hname.append (fills_nil.fixed _)

/-- The clauses of a query, one by one. -/
theorem Query.fills_clauses (q : Query) :
    List.Forall₂ Fills (q.clauses false) q.clauseSkeletons := by
  refine List.rel_append (List.rel_append ?_ (fills_map Join.fills q.joins)) ?_
  · exact .cons (fills_columns "SELECT " q.fields) (.cons (fills_source q.source) .nil)
  · have horder := fills_join ", " (fills_map OrderTerm.fills q.orderBy)
    exact .cons ((fills_entries q.conditions).headed "WHERE ")
      (.cons (fills_columns "GROUP BY " q.groupBy)
        (.cons ((fills_entries q.having).headed "HAVING ")
          (.cons (horder.headed "ORDER BY ") .nil)))

/-- A described statement. -/
theorem Statement.fills (s : Statement) : (s.draft false).Fills s.skeleton := by
  cases s with
  | insert table fields =>
    have hset := (fills_terms ", " fields).fixed " SET "
    simpa [draft, insertDraft, skeleton] using ((Literal.fills_name table).append hset).fixed _
  | update table fields conditions =>
    have hset := ((fills_terms ", " fields).append (fills_whereAll conditions)).fixed " SET "
    simpa [draft, updateDraft, skeleton] using ((Literal.fills_name table).append hset).fixed _
  | delete table filter => exact ((Literal.fills_name table).append filter.fills).fixed _
  | select q => exact fills_join " " q.fills_clauses

end Statements

/-- A call of a lenient builder drafts what its input lays down. -/
theorem Call.fills (c : Call) : (c.draft false).Fills c.skeleton := by
  cases c with
  | integer v => exact Literal.fills_integer v
  | float precision v => exact Literal.fills_float precision v
  | string v => exact Literal.fills_string v
  | set v => exact Literal.fills_set v
  | assignments v => exact Literal.fills_fields v
  | raw v => exact Literal.fills_raw v
  | name s => exact Literal.fills_name s
  | typed type precision v => exact Literal.fills_typed type precision v
  | tagged tag precision v => exact Literal.fills_tagged tag precision v
  | substitute template args =>
    exact Template.fills_fill (Draft.fills_nil.problem _ _) (Template.tokens template) args
  | insert table fields => exact (Statement.insert table fields).fills
  | update table fields conditions => exact (Statement.update table fields conditions).fills
  | delete table conditions => exact (Statement.delete table conditions).fills
  | select query => exact (Statement.select query).fills
  | build statement => exact statement.fills

/-- A key, a string with a quote, a null and a missing number. -/
example : (Call.substitute "?u /* ?s */ ?i" [.map [("a\x60b", .str "it's"), ("", .null)]]).skeleton =
    [.outside (.identifier "a\x60b"), .fixed " = ", .outside (.string "it's"), .fixed ", ",
      .outside (.identifier ""), .fixed " = ", .fixed "NULL", .fixed " /* ", .fixed "''",
      .fixed " */ ", .number] := by
  decide +kernel

end SqlText
