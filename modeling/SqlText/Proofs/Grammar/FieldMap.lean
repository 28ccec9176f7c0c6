import SqlText.Keyed
import SqlText.Proofs.Composition
import SqlText.Proofs.Grammar.StringLiteral
import SqlText.Proofs.Misfits
import SqlText.Proofs.Outside

/-!
# Reading sets and field maps

A set is a list of strings in parentheses, and a field map is a list of assignments of
strings to keys. Keys and strings are arbitrary texts, and still a reader that knows only
where an identifier and a string end finds every entry in its place: no separator in a key
or in a string splits an entry or joins two.
-/

namespace SqlText

/-- The values of a map under their keys, the items of a list under their positions, and any
other value alone under zero. -/
def Value.pairs : Value → List (String × Value)
  | .map entries => entries
  | .list items => items.mapIdx fun i item => (toString i, item)
  | v => [("0", v)]

namespace Literal

/-- What is assigned are the pairs of the value. -/
theorem eq_pairs_of_fieldEntries {strict : Bool} {v : Value} {entries : List (String × Value)}
    (h : fieldEntries strict v = some entries) : entries = v.pairs := by
  cases v with
  | map => exact (Option.some.inj h).symm
  | list items =>
    cases strict with
    | true => cases h
    | false =>
      rw [Value.pairs, List.mapIdx_eq_zipIdx_map]
      exact (Option.some.inj h).symm
  | _ =>
    cases strict with
    | true => cases h
    | false => exact (Option.some.inj h).symm

/-- What a set is made of are the contents of the value. -/
theorem eq_contents_of_setItems {strict : Bool} {v : Value} {items : List Value}
    (h : setItems strict v = some items) : items = v.contents := by
  cases strict with
  | false => exact Option.some.inj (h.symm.trans (setItems_lenient v))
  | true =>
    cases v with
    | list => exact (Option.some.inj h).symm
    | _ => cases h

end Literal

namespace Grammar

/-- A key is a name of one part. -/
def key? : Reader String := fun cs =>
  match name? cs with
  | some ([key], rest) => some (key, rest)
  | _ => none

/-- The keyword for no value, or a string. -/
def value? : Reader (Option String)
  | 'N' :: 'U' :: 'L' :: 'L' :: cs => some (none, cs)
  | cs => (string? cs).map fun (text, rest) => (some text, rest)

/-- A key, an equals sign and a value. -/
def assignment? : Reader (String × Option String) := fun cs => do
  let (key, cs) ← key? cs
  let cs ← skip? " = ".toList cs
  let (value, cs) ← value? cs
  pure ((key, value), cs)

/-- Items with commas between them, up to the end of the text; there may be none. -/
def all? {α : Type} (item : Reader α) (cs : List Char) : Option (List α) :=
  if cs.isEmpty then some [] else whole? (list? item ", " cs)

/-- What stands between a parenthesis at the front and one at the end of a text. -/
def inside? : List Char → Option (List Char)
  | '(' :: cs => if cs.getLast? = some ')' then some cs.dropLast else none
  | _ => none

/-- The assignments of a field map. -/
def fieldMap? (cs : List Char) : Option (List (String × Option String)) := all? assignment? cs

/-- The values of a set. -/
def set? (cs : List Char) : Option (List (Option String)) := (inside? cs).bind (all? value?)

/-- What can be read back of a value that is written as a string: its text, unless it is
null. -/
def readBack (v : Value) : Option String := if v.isNull then none else some v.toText

section Readers

/-- A key is read where its identifier ends. -/
theorem key?_enclosed (key : String) {rest : List Char} (hends : EndsName rest) :
    key? ((Builder.enclosed '\x60' (Escaper.identifierBody key)).toList ++ rest) =
      some (key, rest) := by
  have hname := name?_nameText (List.cons_ne_nil key []) hends
  have htext : nameText [key] = Builder.enclosed '\x60' (Escaper.identifierBody key) := by
    simp [nameText]
  rw [htext] at hname
  rw [key?, hname]

/-- A string is read as a value. -/
theorem value?_of_string? {cs rest : List Char} {text : String}
    (h : string? cs = some (text, rest)) : value? cs = some (some text, rest) := by
  unfold value?
  split
  · cases h
  · rw [h]
    rfl

/-- Items with commas between them are read to the end of the text. -/
theorem all?_intercalate {α : Type} {item : Reader α} (hitem : item [] = none)
    {texts : List String} {items : List α} (h : List.Forall₂ (Reads item) texts items) :
    all? item (", ".intercalate texts).toList = some items := by
  cases h with
  | nil => rfl
  | @cons text a texts items ha h =>
    -- An item is never read from nothing, so there is something to read.
    have htext : text.toList ≠ [] := by
      intro hnil
      have hread := ha [] ends_nil
      rw [hnil, List.nil_append, hitem] at hread
      cases hread
    have hsome : (", ".intercalate (text :: texts)).toList.isEmpty = false := by
      rw [intercalate_cons, String.toList_append]
      simp [htext]
    have hlist := list?_intercalate (ends_append ", " (by decide)) (.cons ha h)
      (List.cons_ne_nil _ _) ends_nil rfl
    rw [List.append_nil] at hlist
    rw [all?, hsome, if_neg Bool.false_ne_true, hlist]
    rfl

/-- What was put in parentheses is found between them. -/
theorem inside?_enclosed (cs : List Char) : inside? ('(' :: (cs ++ [')'])) = some cs := by
  simp [inside?]

end Readers

section Mysql

variable {b : Builder} {s : String}

/-- A value that is written as a string is read back. -/
theorem reads_value (hb : b.escaper = .mysql) {v : Value}
    (h : b.Writes (SqlText.Literal.string v) s) : Reads value? s (readBack v) := by
  intro rest hends
  unfold readBack
  cases hnull : v.isNull with
  | true =>
    rw [SqlText.Literal.string, hnull, if_pos rfl] at h
    rw [Builder.writes_fixed.mp h]
    rfl
  | false =>
    have hquote : rest.head? ≠ some '\'' := by
      intro hrest
      rcases hends '\'' hrest with hc | hc <;> cases hc
    rw [eq_enclosed_of_writes_string hb hnull h]
    exact value?_of_string? ((standsFor_enclosed v.toText).reads rest hquote)

/-- An assignment is read back as its key and its value. -/
theorem reads_assignment (hb : b.escaper = .mysql) {entry : String × Value}
    (h : b.Writes (SqlText.Literal.assignment entry) s) :
    Reads assignment? s (entry.1, readBack entry.2) := by
  intro rest hends
  obtain ⟨front, value, hfront, hvalue, rfl⟩ := Builder.writes_append.mp h
  obtain ⟨key, equals, hkey, hequals, rfl⟩ := Builder.writes_cons.mp hfront
  have hstop : EndsName ((" = " : String).toList ++ (value.toList ++ rest)) :=
    (ends_append " = " (by decide) _).endsName
  rw [(Builder.writes_identifier_mysql hb).mp hkey, Builder.writes_fixed.mp hequals,
    String.toList_append, String.toList_append, List.append_assoc, List.append_assoc, assignment?]
  simp only [Option.bind_eq_bind, key?_enclosed entry.1 hstop, Option.bind_some, skip?_append,
    reads_value hb hvalue rest hends]
  rfl

/-- Items that are read one by one are read as a list. -/
theorem all?_of_writes {α ξ : Type} {item : Reader α} (hitem : item [] = none)
    {draft : ξ → Draft} {meaning : ξ → α}
    (hreads : ∀ x t, b.Writes (draft x) t → Reads item t (meaning x)) {xs : List ξ}
    (h : b.Writes ([Piece.fixed ", "].intercalate (xs.map draft)) s) :
    all? item s.toList = some (xs.map meaning) := by
  obtain ⟨texts, htexts, rfl⟩ := Builder.writes_intercalate.mp h
  apply all?_intercalate hitem
  rw [List.forall₂_map_right_iff]
  rw [List.forall₂_map_left_iff] at htexts
  exact htexts.flip.imp fun t x => hreads x t

/-- The text of a field map is read back as the pairs of the value. -/
theorem fieldMap?_of_writes (hb : b.escaper = .mysql) {v : Value}
    (h : b.Writes (SqlText.Literal.fields b.strict v) s) :
    fieldMap? s.toList = some (v.pairs.map fun (key, item) => (key, readBack item)) := by
  unfold SqlText.Literal.fields at h
  split at h
  · rename_i entries hentries
    rw [← SqlText.Literal.eq_pairs_of_fieldEntries hentries]
    exact all?_of_writes rfl (fun _ _ => reads_assignment hb) h
  · rename_i hnone
    have hlenient := (Builder.writes_problem.mp h).1
    obtain ⟨entries, hentries, -⟩ := SqlText.Literal.exists_fieldEntries_lenient v
    rw [hlenient, hentries] at hnone
    cases hnone

/-- The text of a set is read back as the contents of the value. -/
theorem set?_of_writes (hb : b.escaper = .mysql) {v : Value}
    (h : b.Writes (SqlText.Literal.set b.strict v) s) :
    set? s.toList = some (v.contents.map readBack) := by
  unfold SqlText.Literal.set at h
  split at h
  · rename_i items hitems
    rw [← SqlText.Literal.eq_contents_of_setItems hitems]
    obtain ⟨front, close, hfront, hclose, rfl⟩ := Builder.writes_append.mp h
    obtain ⟨opening, inside, hopening, hinside, rfl⟩ := Builder.writes_cons.mp hfront
    have hchars : (opening ++ inside ++ close).toList = '(' :: (inside.toList ++ [')']) := by
      rw [Builder.writes_fixed.mp hopening, Builder.writes_fixed.mp hclose]
      simp
    rw [set?, hchars, inside?_enclosed, Option.bind_some]
    exact all?_of_writes rfl (fun _ _ => reads_value hb) hinside
  · rename_i hnone
    obtain ⟨problem, _, hproblem, _, _⟩ := Builder.writes_cons.mp h
    rw [(Builder.writes_problem.mp hproblem).1, SqlText.Literal.setItems_lenient] at hnone
    cases hnone

/-- The marker for assignments alone is written as its argument. -/
theorem result_substitute_fields (b : Builder) (v : Value) :
    (b.substitute "?u" [v]).result = (b.fields v).result := by
  have htokens : Template.tokens "?u" = [.marker .fields] := by decide +kernel
  have hcount : [v].length = Template.placeholderCount "?u" := by
    rw [Template.placeholderCount_eq, htokens]
    rfl
  rw [(Template.substitute_paired hcount).1, htokens, Builder.fields]
  simp only [Template.paired, List.append_nil, SqlText.Literal.argument]

/-- The keys of a filtered map are the allowed keys, in the order of the map. -/
theorem map_fst_filterKeys {α : Type} (m : Keyed α) (allowed : List String) :
    (m.filterKeys allowed).map Prod.fst = (m.map Prod.fst).filter (· ∈ allowed) := by
  rw [List.filter_map, Keyed.filterKeys]
  congr 1
  apply List.filter_congr
  intro entry _
  exact List.contains_eq_mem ..

/-- With the rules of MySQL a lenient builder writes every value as a field map and as a set.
Whenever a builder in either mode writes one, a reader that knows only the grammar reads the
text to its end. Of a field map it gets the pairs of the value, in order: every key as it is,
and with it the text of the item, or nothing for null. Of a set it gets the contents of the
value in the same way. The marker for assignments is written as the field map of its argument,
so that of a filtered map exactly the allowed keys are assigned, in the order of the map. -/
theorem collections_read_back :
    (∀ v, (∃ sql, ((⟨.mysql, false⟩ : Builder).fields v).result = .ok sql) ∧
      ∃ sql, ((⟨.mysql, false⟩ : Builder).set v).result = .ok sql) ∧
    (∀ strict v sql, ((⟨.mysql, strict⟩ : Builder).fields v).result = .ok sql →
      fieldMap? sql.toList = some (v.pairs.map fun (key, item) => (key, readBack item))) ∧
    (∀ strict v sql, ((⟨.mysql, strict⟩ : Builder).set v).result = .ok sql →
      set? sql.toList = some (v.contents.map readBack)) ∧
    (∀ strict v, ((⟨.mysql, strict⟩ : Builder).substitute "?u" [v]).result =
      ((⟨.mysql, strict⟩ : Builder).fields v).result) ∧
    ∀ strict (m : Keyed Value) allowed sql,
      ((⟨.mysql, strict⟩ : Builder).fields (.map (m.filterKeys allowed))).result = .ok sql →
      ∃ assignments, fieldMap? sql.toList = some assignments ∧
        assignments.map Prod.fst = (m.map Prod.fst).filter (· ∈ allowed) := by
  have hfields (strict : Bool) (v : Value) (sql : String)
      (h : ((⟨.mysql, strict⟩ : Builder).fields v).result = .ok sql) :
      fieldMap? sql.toList = some (v.pairs.map fun (key, item) => (key, readBack item)) :=
    fieldMap?_of_writes (b := ⟨.mysql, strict⟩) rfl h
  refine ⟨fun v => ⟨Builder.exists_writes_lenient _, Builder.exists_writes_lenient _⟩, hfields,
    fun strict v sql h => set?_of_writes (b := ⟨.mysql, strict⟩) rfl h,
    fun strict v => result_substitute_fields _ v, ?_⟩
  intro strict m allowed sql h
  refine ⟨_, hfields strict _ sql h, ?_⟩
  rw [List.map_map, ← map_fst_filterKeys]
  rfl

/-- Backticks, quotes and separators in keys and strings are read as they are. -/
example : fieldMap? "`a``, `` = ''` = 'x, `b` = ', `` = NULL".toList =
    some [("a`, ` = ''", some "x, `b` = "), ("", none)] := by
  decide +kernel

end Mysql

end Grammar

end SqlText
