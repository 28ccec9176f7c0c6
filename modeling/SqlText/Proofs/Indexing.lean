import SqlText.Proofs.KeyOrder
import SqlText.Proofs.Session
import Mathlib.Data.List.Induction

/-!
# Rows under an index column

Rows are put under the texts of a column one after another. The keys stand in the order in
which the texts first come, while under each of them is the last row with that text. One row
without the column is enough for a failure, wherever it stands.
-/

namespace SqlText

namespace Keyed

/-- A text that came before is left out, and a new one comes last. -/
theorem eraseDups_append_singleton (texts : List String) (text : String) :
    (texts ++ [text]).eraseDups =
      if text ∈ texts then texts.eraseDups else texts.eraseDups ++ [text] := by
  rw [List.eraseDups_append]
  by_cases hmem : text ∈ texts
  · simp [List.removeAll, hmem]
  · simp [List.removeAll, hmem, List.eraseDups_cons]

end Keyed

/-- The text under which a row is put, if it has the column. -/
def Row.text? (column : String) (r : Row) : Option String :=
  (r.lookup column).map Value.toText

/-- What is returned when a row lacks the index column. -/
def Row.columnNotFound (column : String) : Error :=
  .notFound s!"index column \x60{column}\x60 not in row"

/-- A row has a text when it has the column. -/
theorem Row.text?_eq_none_iff {column : String} {r : Row} :
    Row.text? column r = none ↔ column ∉ r.map Prod.fst := by
  rw [Row.text?, Option.map_eq_none_iff, List.lookup_eq_none_iff]
  constructor
  · intro h hmem
    obtain ⟨entry, hentry, rfl⟩ := List.mem_map.mp hmem
    simpa using h entry hentry
  · intro h entry hentry
    refine bne_iff_ne.mpr fun hcolumn => h ?_
    exact hcolumn ▸ List.mem_map_of_mem hentry

/-- The key of a row is its text. -/
theorem Row.key_eq (r : Row) (column : String) :
    Row.key r column =
      ((Row.text? column r).map .ok).getD (.error (Row.columnNotFound column)) := by
  rw [Row.key, Row.text?]
  cases r.lookup column <;> rfl

/-- An index of rows by the texts of a column. -/
structure IsIndex (column : String) (rows : List Row) (m : Keyed Row) : Prop where
  /-- The keys are the different texts, each where it first comes. -/
  keys : m.map Prod.fst = (rows.filterMap (Row.text? column)).eraseDups
  /-- Under a text is the last row that has it. -/
  last : ∀ text, m.lookup text = (rows.filter (Row.text? column · = some text)).getLast?

namespace IsIndex

variable {column text : String} {rows : List Row} {r : Row} {m : Keyed Row}

/-- No rows have an empty index. -/
theorem nil (column : String) : IsIndex column [] [] :=
  ⟨rfl, fun _ => rfl⟩

/-- One more row is written to its text. -/
theorem insert (h : IsIndex column rows m) (htext : Row.text? column r = some text) :
    IsIndex column (rows ++ [r]) (m.insert text r) where
  keys := by
    have htexts : (rows ++ [r]).filterMap (Row.text? column) =
        rows.filterMap (Row.text? column) ++ [text] := by
      rw [List.filterMap_append]
      simp [htext]
    rw [Keyed.keys_insert, h.keys, htexts, Keyed.eraseDups_append_singleton]
    simp only [List.mem_eraseDups]
  last sought := by
    rw [Keyed.lookup_insert, h.last, List.filter_append]
    by_cases hsought : sought = text
    · subst hsought
      simp [htext]
    · have hother : ¬ text = sought := Ne.symm hsought
      simp [htext, hsought, hother]

/-- A row is lost only to a later row with its text. -/
theorem mem {before after : List Row} (h : IsIndex column (before ++ r :: after) m)
    (htext : Row.text? column r = some text)
    (hlater : ∀ later ∈ after, Row.text? column later ≠ some text) : (text, r) ∈ m := by
  have hafter : after.filter (Row.text? column · = some text) = [] := by
    rw [List.filter_eq_nil_iff]
    intro later hmem
    simpa using hlater later hmem
  have hlast : m.lookup text = some r := by
    rw [h.last, List.filter_append, List.filter_cons, hafter]
    simp [htext]
  obtain ⟨_, _, rfl, _⟩ := List.lookup_eq_some_iff.mp hlast
  simp

end IsIndex

namespace Rows

variable {α : Type} (keep : Row → α) (column : String)

/-- The last row is written to the index of the rows before it. -/
theorem indexed_append_singleton (rows : List Row) (r : Row) :
    indexed keep column (rows ++ [r]) =
      (indexed keep column rows).bind fun m =>
        (Row.key r column).map fun key => Keyed.insert m key (keep r) := by
  rw [indexed, List.foldlM_append]
  simp only [List.foldlM_cons, List.foldlM_nil, bind_pure]
  rfl

/-- Keeping less of every row keeps less under every key. -/
theorem indexed_comp {β : Type} (f : α → β) (rows : List Row) :
    indexed (fun r => f (keep r)) column rows =
      (indexed keep column rows).map fun m => m.map fun entry => (entry.1, f entry.2) := by
  induction rows using List.reverseRecOn with
  | nil => rfl
  | append_singleton rows r ih =>
    rw [indexed_append_singleton, indexed_append_singleton, ih]
    cases indexed keep column rows with
    | error e => rfl
    | ok m =>
      cases Row.key r column with
      | error e => rfl
      | ok key => exact congrArg Except.ok (Keyed.map_insert f m key (keep r)).symm

/-- Rows that all have the column have an index. -/
theorem isIndex_indexed {rows : List Row} (h : ∀ r ∈ rows, column ∈ r.map Prod.fst) :
    ∃ m, indexed id column rows = .ok m ∧ IsIndex column rows m := by
  induction rows using List.reverseRecOn with
  | nil => exact ⟨[], rfl, .nil column⟩
  | append_singleton rows r ih =>
    obtain ⟨m, hm, hindex⟩ := ih fun r hr => h r (List.mem_append_left _ hr)
    cases htext : Row.text? column r with
    | none => exact absurd (h r (by simp)) (Row.text?_eq_none_iff.mp htext)
    | some text =>
      refine ⟨m.insert text r, ?_, hindex.insert htext⟩
      rw [indexed_append_singleton, hm, Row.key_eq, htext]
      rfl

/-- A row without the column is enough for a failure, wherever it stands. -/
theorem indexed_of_lacking {rows : List Row} (h : ∃ r ∈ rows, column ∉ r.map Prod.fst) :
    indexed id column rows = .error (Row.columnNotFound column) := by
  induction rows using List.reverseRecOn with
  | nil =>
    obtain ⟨r, hr, _⟩ := h
    cases hr
  | append_singleton rows r ih =>
    rw [indexed_append_singleton]
    by_cases hearlier : ∃ r ∈ rows, column ∉ r.map Prod.fst
    · rw [ih hearlier]
      rfl
    · -- The rows before have an index, so the failure is that of the last row.
      push Not at hearlier
      obtain ⟨m, hm, _⟩ := isIndex_indexed column hearlier
      obtain ⟨lacking, hmem, hlacks⟩ := h
      have hlast : lacking = r := by
        rcases List.mem_append.mp hmem with hmem | hmem
        · exact absurd (hearlier lacking hmem) hlacks
        · exact List.mem_singleton.mp hmem
      subst hlast
      rw [hm, Row.key_eq, Row.text?_eq_none_iff.mpr hlacks]
      rfl

/-- Rows cannot be put under a column exactly when one of them lacks it. -/
theorem indexed_eq_error_iff {rows : List Row} :
    indexed id column rows = .error (Row.columnNotFound column) ↔
      ∃ r ∈ rows, column ∉ r.map Prod.fst := by
  constructor
  · intro herror
    by_contra hall
    push Not at hall
    obtain ⟨m, hm, _⟩ := isIndex_indexed column hall
    cases herror.symm.trans hm
  · exact indexed_of_lacking column

end Rows

namespace Builder

/-- The rows of a query are shaped after the template is substituted and the statement
answered. -/
theorem result_fetchShaped {α : Type} (b : Builder) (shape : List Row → Except Error α)
    (db : Database) (template : String) (args : List Value) :
    (b.fetchShaped shape db template args).1.result =
      (b.substitute template args).result.bind fun _ => db.nextAnswer.rows.bind shape := by
  change (b.fetch .query Answer.rows db template args).1.result.bind shape = _
  cases hsql : (b.substitute template args).result with
  | error e =>
    rw [fetch_of_error _ _ db hsql]
    rfl
  | ok sql =>
    rw [(fetch_of_ok _ _ db hsql).1]
    rfl

/-- Rows under an index column. A template with a problem and a failure of the database are
passed on. Of the rows that the database answers, one without the column is enough for a
failure, and nothing else is: otherwise the keys are the different texts of the column in the
order in which they first come, each with the last row that has it, so that a row is lost only
to a later row with its text. The values under an index column are those rows with the first
other value in the place of each, null where there is none, and the same failures. -/
theorem fetchIndexed_keeps_last (b : Builder) (db : Database) (column template : String)
    (args : List Value) :
    let found := (b.fetchIndexed column db template args).1.result
    let values := (b.fetchIndexedValues column db template args).1.result
    (match (b.substitute template args).result, db.nextAnswer with
      | .error e, _ => found = .error e
      | .ok _, .failure e => found = .error e
      | .ok _, .data rows _ =>
        (found = .error (Row.columnNotFound column) ↔
          ∃ r ∈ rows, column ∉ r.map Prod.fst) ∧
        ((∀ r ∈ rows, column ∈ r.map Prod.fst) →
          ∃ m, found = .ok m ∧ IsIndex column rows m ∧
            ∀ before r after text, rows = before ++ r :: after →
              Row.text? column r = some text →
              (∀ later ∈ after, Row.text? column later ≠ some text) → (text, r) ∈ m)) ∧
      values = found.map fun m => m.map fun entry =>
        (entry.1, ((entry.2.find? fun cell => cell.1 != column).map Prod.snd).getD .null) := by
  intro found values
  have hfound : found = (b.substitute template args).result.bind fun _ =>
      db.nextAnswer.rows.bind (Rows.indexed id column) := result_fetchShaped ..
  have hvalues : values = (b.substitute template args).result.bind fun _ =>
      db.nextAnswer.rows.bind
        (Rows.indexed (fun r => (Row.firstBut? r column).getD .null) column) :=
    result_fetchShaped ..
  rw [hfound, hvalues]
  cases (b.substitute template args).result with
  | error e => exact ⟨rfl, rfl⟩
  | ok sql =>
    cases db.nextAnswer with
    | failure e => exact ⟨rfl, rfl⟩
    | data rows affected =>
      refine ⟨⟨Rows.indexed_eq_error_iff column, fun hall => ?_⟩, ?_⟩
      · obtain ⟨m, hm, hindex⟩ := Rows.isIndex_indexed column hall
        refine ⟨m, hm, hindex, ?_⟩
        rintro before r after text rfl htext hlater
        exact hindex.mem htext hlater
      · exact Rows.indexed_comp id column (fun r => (Row.firstBut? r column).getD .null) rows

/-- An integer and a truth value meet under one text, in the place of the first. -/
example : Rows.indexed id "id"
    [[("id", .int 1), ("name", .str "ann")], [("id", .str "x")],
      [("name", .str "bob"), ("id", .bool true)]] =
    .ok [("1", [("name", .str "bob"), ("id", .bool true)]), ("x", [("id", .str "x")])] := by
  rfl

end Builder

end SqlText
