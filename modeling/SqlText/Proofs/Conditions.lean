import SqlText.Proofs.Grammar.Clause
import SqlText.Statement.Assembly

/-!
# Conditions in statements

Conditions stand after the WHERE of an UPDATE, of a DELETE and of a SELECT, and after a
HAVING. They are written in two ways: as terms with `AND` between them, or as entries each
with its own connector. Both ways write a list of terms alike, and wherever the conditions
stand, the statement is what it is without them, with the conditions after their keyword in
the middle.
-/

namespace SqlText

namespace Outcome

variable {α β : Type}

/-- What a caller sees: the value or the error, and the reports. -/
def seen (o : Outcome α) : Except Error α × List Report := (o.result, o.reports)

/-- How to go on need only be said of the value that is there. -/
theorem andThen_congr {o : Outcome α} {f g : α → Outcome β}
    (h : ∀ a, o.result = .ok a → f a = g a) : o.andThen f = o.andThen g := by
  obtain ⟨notices, result⟩ := o
  cases result with
  | error e => rfl
  | ok a => simp only [andThen, h a rfl]

/-- What is seen of a chain depends on what is seen of its calls. -/
theorem seen_andThen {o o' : Outcome α} {f g : α → Outcome β} (ho : o.seen = o'.seen)
    (hf : ∀ a, (f a).seen = (g a).seen) : (o.andThen f).seen = (o'.andThen g).seen := by
  obtain ⟨hresult, hreports⟩ := Prod.mk.inj ho
  cases h : o.result with
  | error e =>
    have h' : o'.result = .error e := hresult.symm.trans h
    obtain ⟨hl, hlr⟩ := andThen_of_error h f
    obtain ⟨hr, hrr⟩ := andThen_of_error h' g
    rw [seen, seen, hl, hlr, hr, hrr, hreports]
  | ok a =>
    have h' : o'.result = .ok a := hresult.symm.trans h
    obtain ⟨hl, hlr⟩ := andThen_of_ok h f
    obtain ⟨hr, hrr⟩ := andThen_of_ok h' g
    obtain ⟨hfg, hfgr⟩ := Prod.mk.inj (hf a)
    rw [seen, seen, hl, hlr, hr, hrr, hreports, hfg, hfgr]

/-- A text, a keyword with a body, and another text, one after the other, with a blank between
any two; a text without characters is left out. -/
def clause (keyword : String) (before body after : Outcome String) : Outcome String :=
  before.andThen fun s => body.andThen fun t => after.andThen fun u =>
    pure (" ".intercalate ([s, keyword ++ t, u].filter (· ≠ "")))

/-- Where the body fails, nothing after it is written, and its reports come after those of the
text before it. -/
theorem seen_clause_of_error {keyword s : String} {before body after : Outcome String} {e : Error}
    (hbefore : before.result = .ok s) (hbody : body.result = .error e) :
    (clause keyword before body after).seen = (.error e, before.reports ++ body.reports) := by
  obtain ⟨hresult, hreports⟩ := andThen_of_ok hbefore fun s => body.andThen fun t =>
    after.andThen fun u => pure (" ".intercalate ([s, keyword ++ t, u].filter (· ≠ "")))
  obtain ⟨hfailed, hsame⟩ := andThen_of_error hbody fun t =>
    after.andThen fun u => pure (" ".intercalate ([s, keyword ++ t, u].filter (· ≠ "")))
  rw [seen, clause, hresult, hreports, hfailed, hsame]

/-- What is seen of a clause in its place depends on what is seen of the texts around it. -/
theorem seen_clause {keyword : String} {before before' body after after' : Outcome String}
    (hbefore : before.seen = before'.seen) (hafter : after.seen = after'.seen) :
    (clause keyword before body after).seen = (clause keyword before' body after').seen :=
  seen_andThen hbefore fun _ => seen_andThen rfl fun _ => seen_andThen hafter fun _ => rfl

end Outcome

namespace Draft

/-- The draft begins with a word, or has no text. -/
def Leads (d : Draft) : Prop :=
  d.hasText = true → ∃ word rest, word ≠ "" ∧ d = .fixed word :: rest

/-- A keyword leads. -/
theorem leads_fixed {word : String} (hword : word ≠ "") (d : Draft) :
    Leads (.fixed word :: d) := fun _ => ⟨word, d, hword, rfl⟩

/-- What has no text leads. -/
theorem leads_of_hasText_eq_false {d : Draft} (h : d.hasText = false) : d.Leads := by
  intro htext
  rw [h] at htext
  cases htext

/-- A draft after a keyword leads. -/
theorem leads_headed {keyword : String} (hkeyword : keyword ≠ "") (d : Draft) :
    (headed keyword d).Leads := by
  unfold headed
  split
  · exact leads_fixed hkeyword d
  · rename_i h
    exact leads_of_hasText_eq_false (Bool.not_eq_true _ ▸ h)

/-- Drafts with separators can be taken apart in the middle. -/
theorem separated_append (sep : String) (before : Bool) (ds es : List Draft) :
    separated sep before (ds ++ es) =
      separated sep before ds ++ separated sep (before || ds.any hasText) es := by
  induction ds generalizing before with
  | nil => simp [separated]
  | cons d ds ih =>
    rw [List.cons_append, separated, separated, ih, List.any_cons, Bool.or_assoc]
    simp only [List.append_assoc]

/-- Empty drafts at the end make no difference. -/
theorem join_append_nils (sep : String) (ds : List Draft) {es : List Draft}
    (hes : ∀ e ∈ es, e = []) : join sep (ds ++ es) = join sep ds := by
  have hnil (before : Bool) : separated sep before es = [] := by
    induction es generalizing before with
    | nil => rfl
    | cons e es ih =>
      obtain ⟨he, hmore⟩ := List.forall_mem_cons.mp hes
      simp [separated, hasText, he, ih hmore]
  rw [join, join, separated_append, hnil, List.append_nil]

end Draft

namespace Builder

variable {b : Builder} {d : Draft} {s : String}

/-- A draft without text is written as nothing, if at all. -/
theorem Writes.eq_empty (h : b.Writes d s) (htext : d.hasText = false) : s = "" := by
  induction d generalizing s with
  | nil => exact writes_nil.mp h
  | cons piece d ih =>
    obtain ⟨t, u, ht, hu, rfl⟩ := writes_cons.mp h
    obtain ⟨hpiece, hd⟩ : piece.isText = false ∧ Draft.hasText d = false := by
      simpa [Draft.hasText] using htext
    cases piece with
    | problem => rw [(writes_problem.mp ht).2, ih hu hd, String.append_empty]
    | fixed | quoted | identifier => cases hpiece

/-- A draft that begins with a word is written as something. -/
theorem Writes.ne_empty (h : b.Writes d s) (hleads : d.Leads) (htext : d.hasText = true) :
    s ≠ "" := by
  obtain ⟨word, rest, hword, rfl⟩ := hleads htext
  obtain ⟨t, u, ht, -, rfl⟩ := writes_cons.mp h
  rw [writes_fixed.mp ht]
  simp [hword]

/-- Drafts that begin with words are written as nothing exactly when none has text. -/
theorem Writes.separated_eq_empty_iff {sep : String} {before : Bool} {ds : List Draft}
    (hleads : ∀ d ∈ ds, d.Leads) (h : b.Writes (.separated sep before ds) s) :
    s = "" ↔ ds.any Draft.hasText = false := by
  constructor
  · intro hs
    induction ds generalizing before s with
    | nil => rfl
    | cons d ds ih =>
      obtain ⟨hd, hds⟩ := List.forall_mem_cons.mp hleads
      obtain ⟨front, u, hfront, hu, rfl⟩ := writes_append.mp h
      obtain ⟨_, t, _, ht, rfl⟩ := writes_append.mp hfront
      simp only [String.append_eq_empty_iff] at hs
      obtain ⟨⟨_, rfl⟩, rfl⟩ := hs
      rw [List.any_cons, ih hds hu rfl, Bool.or_false, ← Bool.not_eq_true]
      exact fun htext => ht.ne_empty hd htext rfl
  · intro hany
    exact h.eq_empty (by rw [Grammar.hasText_separated, hany])

/-- Where a text went before, drafts are written with one more separator, if any has text. -/
theorem perform_separated_true (b : Builder) (sep : String) (ds : List Draft) :
    b.perform (.separated sep true ds) = (b.perform (.join sep ds)).andThen fun u =>
      pure (if ds.any Draft.hasText then sep ++ u else u) := by
  unfold Draft.join
  induction ds with
  | nil => exact (Outcome.andThen_pure _).symm
  | cons d ds ih =>
    rw [Draft.separated, Draft.separated, List.any_cons]
    cases htext : d.hasText with
    | true =>
      simp only [Bool.and_self, Bool.or_true, Bool.false_and, Bool.true_or, if_true,
        Bool.false_eq_true, if_false, List.nil_append]
      rw [List.append_assoc, perform_append, perform_fixed, Outcome.pure_andThen]
    | false =>
      simp only [Bool.and_false, Bool.or_false, Bool.false_or, Bool.false_eq_true, if_false,
        List.nil_append]
      rw [perform_append, perform_append, ih, Outcome.andThen_assoc]
      refine Outcome.andThen_congr fun t ht => ?_
      have hnil : t = "" := Writes.eq_empty ht htext
      subst hnil
      simp only [Outcome.andThen_assoc, Outcome.pure_andThen, String.empty_append]

/-- Three texts, of which the outer ones may be missing, with the blanks between them. -/
theorem intercalate_three {s keyword t u : String} {before after : Bool} (hkeyword : keyword ≠ "")
    (hs : s = "" ↔ before = false) (hu : u = "" ↔ after = false) :
    " ".intercalate ([s, keyword ++ t, u].filter (· ≠ "")) =
      s ++ ((if before then " " else "") ++ (keyword ++ (t ++ if after then " " ++ u else u))) := by
  have hbody : keyword ++ t ≠ "" := by simp [hkeyword]
  cases before with
  | false =>
    obtain rfl : s = "" := hs.mpr rfl
    cases after with
    | false =>
      obtain rfl : u = "" := hu.mpr rfl
      simp [hbody]
    | true =>
      have hne : u ≠ "" := by simp [hu]
      simp [hbody, hne, String.append_assoc]
  | true =>
    have hne : s ≠ "" := by simp [hs]
    cases after with
    | false =>
      obtain rfl : u = "" := hu.mpr rfl
      simp [hbody, hne, String.append_assoc]
    | true =>
      have hne' : u ≠ "" := by simp [hu]
      simp [hbody, hne, hne', String.append_assoc]

/-- A clause among others is written after those before it and before those after it. -/
theorem perform_join_headed (b : Builder) {keyword : String} (hkeyword : keyword ≠ "")
    {ds es : List Draft} (hds : ∀ d ∈ ds, d.Leads) (hes : ∀ e ∈ es, e.Leads) {d : Draft}
    (hd : d.hasText = true) :
    b.perform (.join " " (ds ++ .headed keyword d :: es)) =
      Outcome.clause keyword (b.perform (.join " " ds)) (b.perform d)
        (b.perform (.join " " es)) := by
  have hlead (c : Bool) :
      b.perform (if c then [.fixed " "] else []) = pure (if c then " " else "") := by
    cases c with
    | true => exact b.perform_fixed " "
    | false => rfl
  have hjoin : Draft.join " " (ds ++ .headed keyword d :: es) = Draft.join " " ds ++
      ((if ds.any Draft.hasText then [.fixed " "] else []) ++
        ([.fixed keyword] ++ (d ++ .separated " " true es))) := by
    rw [Draft.join, Draft.separated_append, Draft.separated, Grammar.hasText_headed, hd,
      Draft.headed, if_pos hd, Bool.and_true, Bool.or_true, Bool.false_or, List.append_assoc]
    rfl
  rw [hjoin]
  simp only [perform_append, perform_fixed, hlead, perform_separated_true, Outcome.andThen_assoc,
    Outcome.pure_andThen, Outcome.clause]
  refine Outcome.andThen_congr fun s hs => ?_
  refine Outcome.andThen_congr fun t _ => ?_
  refine Outcome.andThen_congr fun u hu => ?_
  rw [intercalate_three hkeyword (Writes.separated_eq_empty_iff hds hs)
    (Writes.separated_eq_empty_iff hes hu)]

end Builder

namespace Query

variable (strict : Bool) (q : Query)

/-- The clauses before the conditions on rows. -/
def beforeConditions : Query := { fields := q.fields, source := q.source, joins := q.joins }

/-- The clauses after the conditions on rows. -/
def afterConditions : Query := { groupBy := q.groupBy, having := q.having, orderBy := q.orderBy }

/-- The clauses before the conditions on groups. -/
def beforeHaving : Query := { q with having := [], orderBy := [] }

/-- The clauses after the conditions on groups. -/
def afterHaving : Query := { orderBy := q.orderBy }

/-- Every clause of a query begins with its keyword. -/
theorem leads_clauses : ∀ d ∈ q.clauses strict, d.Leads := by
  intro d hd
  simp only [clauses, List.mem_append, List.mem_cons, List.not_mem_nil, or_false,
    List.mem_map] at hd
  rcases hd with ((rfl | rfl) | ⟨j, -, rfl⟩) | rfl | rfl | rfl | rfl
  · exact Draft.leads_headed (by decide) _
  · unfold sourceDraft
    split
    · exact Draft.leads_of_hasText_eq_false rfl
    · exact Draft.leads_fixed (by decide) _
  · unfold Join.draft
    dsimp only
    split
    · rw [List.cons_append]
      exact Draft.leads_fixed (by cases j.kind <;> decide) _
    · rename_i htext
      exact Draft.leads_of_hasText_eq_false (Bool.not_eq_true _ ▸ htext)
  all_goals exact Draft.leads_headed (by decide) _

end Query

section Bodies

variable (b : Builder)

/-- Conditions that must all hold, without a keyword. -/
def Builder.allOf (fields : List Field) : Outcome String :=
  b.perform (termsDraft b.strict " AND " fields)

/-- Conditions with their connectors, without a keyword. -/
def Builder.entries (entries : List Entry) : Outcome String :=
  b.perform (entriesDraft b.strict entries)

/-- Every term but the first comes after a separator. -/
theorem termsDraft_cons (strict : Bool) (sep : String) (f : Field) (fields : List Field) :
    termsDraft strict sep (f :: fields) =
      f.draft strict ++ fields.flatMap fun g => .fixed sep :: g.draft strict := by
  induction fields generalizing f with
  | nil => simp [termsDraft]
  | cons g fields ih =>
    have hstep : termsDraft strict sep (f :: g :: fields) =
        f.draft strict ++ [.fixed sep] ++ termsDraft strict sep (g :: fields) :=
      List.intercalate_cons_cons ..
    rw [hstep, ih, List.flatMap_cons, List.append_assoc]
    rfl

/-- Terms are entries that are joined by `AND`. -/
theorem entriesDraft_typed (strict : Bool) (fields : List Field) :
    entriesDraft strict (fields.map fun f => .typed { toField := f }) =
      termsDraft strict " AND " fields := by
  have hand : s!" {Connector.and.keyword} " = " AND " := by decide
  cases fields with
  | nil => rfl
  | cons f fields =>
    rw [termsDraft_cons, List.map_cons, entriesDraft, List.flatMap_map]
    simp only [Entry.draft, Entry.condition, hand]

/-- Entries have text exactly when there are any. -/
theorem hasText_entriesDraft (strict : Bool) {entries : List Entry} (hne : entries ≠ []) :
    (entriesDraft strict entries).hasText = true := by
  cases entries with
  | nil => exact absurd rfl hne
  | cons e entries => simp [entriesDraft, Entry.draft, Field.draft, Draft.hasText, Piece.isText]

/-- An entry is written like any other with the same condition. -/
theorem entriesDraft_congr (strict : Bool) {entries entries' : List Entry}
    (h : entries.map Entry.condition = entries'.map Entry.condition) :
    entriesDraft strict entries = entriesDraft strict entries' := by
  have htyped (entries : List Entry) : entriesDraft strict entries =
      entriesDraft strict ((entries.map Entry.condition).map .typed) := by
    cases entries with
    | nil => rfl
    | cons e entries =>
      rw [List.map_cons, List.map_cons, entriesDraft, entriesDraft, List.map_map,
        List.flatMap_map]
      rfl
  rw [htyped entries, htyped entries', h]

/-- Two lists of entries are written one after the other, with the connector of the second
between them. -/
theorem Builder.entries_append {xs : List Entry} (hne : xs ≠ []) (y : Entry) (ys : List Entry) :
    b.entries (xs ++ y :: ys) = (b.entries xs).andThen fun s =>
      (b.entries (y :: ys)).andThen fun t =>
        pure (s ++ " " ++ y.condition.connector.keyword ++ " " ++ t) := by
  cases xs with
  | nil => exact absurd rfl hne
  | cons x xs =>
    have hdraft : entriesDraft b.strict (x :: xs ++ y :: ys) = entriesDraft b.strict (x :: xs) ++
        ([.fixed s!" {y.condition.connector.keyword} "] ++ entriesDraft b.strict (y :: ys)) := by
      simp [entriesDraft]
    have hword : s!" {y.condition.connector.keyword} " =
        " " ++ y.condition.connector.keyword ++ " " := rfl
    rw [entries, hdraft, perform_append, perform_append, perform_fixed, Outcome.pure_andThen, hword]
    simp only [Outcome.andThen_assoc, Outcome.pure_andThen, String.append_assoc, entries]

end Bodies

section Statements

variable (b : Builder)

/-- What is seen of a finished draft is what is seen of the draft. -/
theorem Builder.seen_finish (stage : Stage) (d : Draft) :
    (b.finish stage d).seen = (b.perform d).seen := by
  rw [Outcome.seen, Outcome.seen, Builder.result_finish, Builder.reports_finish]

/-- Conditions that must all hold come after a WHERE. -/
theorem Builder.perform_whereAll {d : Draft} (hleads : d.Leads) (htext : d.hasText = true)
    {fields : List Field} (hne : fields ≠ []) :
    b.perform (d ++ whereAll b.strict fields) =
      Outcome.clause "WHERE " (b.perform d) (b.allOf fields) (pure "") := by
  have hwhere : (" WHERE " : String) = " " ++ "WHERE " := by decide
  rw [whereAll, if_neg (by simpa using hne), perform_append, ← List.singleton_append,
    perform_append, perform_fixed, Outcome.pure_andThen, Outcome.clause]
  refine Outcome.andThen_congr fun s hs => ?_
  have hne : s ≠ "" := Writes.ne_empty hs hleads htext
  simp only [Outcome.andThen_assoc, Outcome.pure_andThen, allOf]
  refine Outcome.andThen_congr fun t _ => ?_
  have hbody : "WHERE " ++ t ≠ "" := by simp
  have htexts : [s, "WHERE " ++ t, ""].filter (· ≠ "") = [s, "WHERE " ++ t] := by
    simp [hne, hbody]
  rw [htexts, hwhere, String.intercalate_cons_cons, String.intercalate_singleton]
  simp only [String.append_assoc]

/-- The conditions of an UPDATE come after what it is without them. -/
theorem Builder.seen_update (table : String) (sets : List Field) {fields : List Field}
    (hne : fields ≠ []) : (b.update table sets fields).seen =
      (Outcome.clause "WHERE " (b.update table sets []) (b.allOf fields) (pure "")).seen := by
  unfold update
  split
  · rfl
  · have hleads : Draft.Leads (updateDraft b.strict table sets []) :=
      Draft.leads_fixed (by decide) _
    have hdraft : updateDraft b.strict table sets fields =
        updateDraft b.strict table sets [] ++ whereAll b.strict fields := by
      simp [updateDraft, whereAll]
    rw [seen_finish, hdraft, b.perform_whereAll hleads rfl hne]
    exact Outcome.seen_clause (b.seen_finish ..).symm rfl

/-- The conditions of a DELETE come after what it is without them. -/
theorem Builder.seen_delete (table : String) {fields : List Field} (hne : fields ≠ []) :
    (b.delete table (.all fields)).seen =
      (Outcome.clause "WHERE " (b.delete table (.all [])) (b.allOf fields) (pure "")).seen := by
  have hleads : Draft.Leads (deleteDraft b.strict table (.all [])) :=
    Draft.leads_fixed (by decide) _
  have hdraft : deleteDraft b.strict table (.all fields) =
      deleteDraft b.strict table (.all []) ++ whereAll b.strict fields := by
    cases fields with
    | nil => exact absurd rfl hne
    | cons f fields => simp [deleteDraft, DeleteFilter.draft, DeleteFilter.isEmpty]
  rw [delete, seen_finish, hdraft, b.perform_whereAll hleads rfl hne]
  exact Outcome.seen_clause (b.seen_finish ..).symm rfl

/-- The conditions of a SELECT come after its clauses before them, and before the others. -/
theorem Builder.seen_select {q before after : Query} {keyword : String} (hkeyword : keyword ≠ "")
    {entries : List Entry} (hne : entries ≠ []) {ds es : List Draft}
    (hclauses : q.clauses b.strict =
      ds ++ .headed keyword (entriesDraft b.strict entries) :: es)
    (hbefore : before.draft b.strict = .join " " ds)
    (hafter : after.draft b.strict = .join " " es) :
    (b.select q).seen =
      (Outcome.clause keyword (b.select before) (b.entries entries) (b.select after)).seen := by
  have hleads := q.leads_clauses b.strict
  rw [hclauses] at hleads
  have hds : ∀ d ∈ ds, d.Leads := fun d hd => hleads d (List.mem_append_left _ hd)
  have hes : ∀ e ∈ es, e.Leads := fun e he =>
    hleads e (List.mem_append_right _ (List.mem_cons_of_mem _ he))
  rw [select, seen_finish, Query.draft, hclauses,
    b.perform_join_headed hkeyword hds hes (hasText_entriesDraft b.strict hne), ← hbefore, ← hafter]
  exact Outcome.seen_clause (b.seen_finish ..).symm (b.seen_finish ..).symm

/-- The conditions on rows come after the joins and before the grouping. -/
theorem Builder.seen_select_conditions (q : Query) {entries : List Entry} (hne : entries ≠ []) :
    (b.select { q with conditions := entries }).seen = (Outcome.clause "WHERE "
      (b.select q.beforeConditions) (b.entries entries) (b.select q.afterConditions)).seen := by
  refine b.seen_select (by decide) hne rfl (Draft.join_append_nils _ _ ?_) rfl
  intro d hd
  simp only [List.mem_cons, List.not_mem_nil, or_false] at hd
  rcases hd with rfl | rfl | rfl | rfl <;> rfl

/-- The conditions on groups come after the grouping and before the order. -/
theorem Builder.seen_select_having (q : Query) {entries : List Entry} (hne : entries ≠ []) :
    (b.select { q with having := entries }).seen = (Outcome.clause "HAVING "
      (b.select q.beforeHaving) (b.entries entries) (b.select q.afterHaving)).seen := by
  let front : List Draft := [Query.columnsDraft "SELECT " q.fields, Query.sourceDraft q.source] ++
    q.joins.map Join.draft ++ [.headed "WHERE " (entriesDraft b.strict q.conditions),
      Query.columnsDraft "GROUP BY " q.groupBy]
  have hclauses (having : List Entry) (orderBy : List OrderTerm) :
      ({ q with having, orderBy } : Query).clauses b.strict =
        front ++ [.headed "HAVING " (entriesDraft b.strict having),
          .headed "ORDER BY " (.join ", " (orderBy.map OrderTerm.draft))] := by
    simp [Query.clauses, front]
  have hbefore : q.beforeHaving.draft b.strict = .join " " front := by
    rw [Query.draft, Query.beforeHaving, hclauses]
    refine Draft.join_append_nils _ _ fun d hd => ?_
    simp only [List.mem_cons, List.not_mem_nil, or_false] at hd
    rcases hd with rfl | rfl <;> rfl
  exact b.seen_select (by decide) hne (hclauses entries q.orderBy) hbefore rfl

/-- Conditions added one by one stand after those that are there, joined by `AND`. -/
theorem Query.foldl_filter (q : Query) (fields : List Field) :
    fields.foldl (fun q f => q.filter .and { toField := f }) q =
      { q with conditions := q.conditions ++ fields.map fun f => .typed { toField := f } } := by
  induction fields generalizing q with
  | nil => simp
  | cons f fields ih =>
    rw [List.foldl_cons, ih]
    simp [filter]

/-- Conditions on groups added one by one stand after those that are there, joined by `AND`. -/
theorem Query.foldl_filterGroups (q : Query) (fields : List Field) :
    fields.foldl (fun q f => q.filterGroups .and { toField := f }) q =
      { q with having := q.having ++ fields.map fun f => .typed { toField := f } } := by
  induction fields generalizing q with
  | nil => simp
  | cons f fields ih =>
    rw [List.foldl_cons, ih]
    simp [filterGroups]

/-- Conditions that must all hold are one body, whichever builder writes them. In an UPDATE, in
a DELETE, and in a SELECT after its WHERE or its HAVING, it stands after the keyword between
what the statement is before and after it, and where the body fails, the statement fails with
its error and its reports. The same holds of entries with their own connectors. A pair is
written, fails and is reported as a string condition that is joined by `AND`; the connector of
the first entry makes no difference; and two lists of entries are one list with the first
connector of the second between them. -/
theorem conditions_agree :
    (∀ fields : List Field, fields ≠ [] →
      (∀ table sets, (b.update table sets fields).seen =
        (Outcome.clause "WHERE " (b.update table sets []) (b.allOf fields) (pure "")).seen) ∧
      (∀ table, (b.delete table (.all fields)).seen =
        (Outcome.clause "WHERE " (b.delete table (.all [])) (b.allOf fields) (pure "")).seen) ∧
      (∀ q : Query, (b.select (fields.foldl (fun q f => q.filter .and { toField := f })
          { q with conditions := [] })).seen = (Outcome.clause "WHERE "
            (b.select q.beforeConditions) (b.allOf fields) (b.select q.afterConditions)).seen) ∧
      (∀ q : Query, (b.select (fields.foldl (fun q f => q.filterGroups .and { toField := f })
          { q with having := [] })).seen = (Outcome.clause "HAVING "
            (b.select q.beforeHaving) (b.allOf fields) (b.select q.afterHaving)).seen) ∧
      ∀ keyword before after s e, before.result = .ok s → (b.allOf fields).result = .error e →
        (Outcome.clause keyword before (b.allOf fields) after).seen =
          (.error e, before.reports ++ (b.allOf fields).reports)) ∧
    (∀ entries : List Entry, entries ≠ [] → ∀ q : Query,
      (b.select { q with conditions := entries }).seen = (Outcome.clause "WHERE "
        (b.select q.beforeConditions) (b.entries entries) (b.select q.afterConditions)).seen ∧
      (b.select { q with having := entries }).seen = (Outcome.clause "HAVING "
        (b.select q.beforeHaving) (b.entries entries) (b.select q.afterHaving)).seen) ∧
    (∀ before after column value, b.entries (before ++ .pair column value :: after) =
      b.entries (before ++
        .typed { name := column, type := .string, value := value, decimals := 0,
                 connector := .and } :: after)) ∧
    (∀ (c : Condition) connector rest,
      b.entries (.typed { c with connector := connector } :: rest) =
        b.entries (.typed c :: rest)) ∧
    ∀ xs y ys, xs ≠ [] → b.entries (xs ++ y :: ys) = (b.entries xs).andThen fun s =>
      (b.entries (y :: ys)).andThen fun t =>
        pure (s ++ " " ++ y.condition.connector.keyword ++ " " ++ t) := by
  have hbody (fields : List Field) :
      b.entries (fields.map fun f => .typed { toField := f }) = b.allOf fields := by
    rw [Builder.entries, Builder.allOf, entriesDraft_typed]
  refine ⟨fun fields hne => ⟨?_, ?_, ?_, ?_, ?_⟩, fun entries hne q => ⟨?_, ?_⟩, ?_, ?_, ?_⟩
  · exact fun table sets => b.seen_update table sets hne
  · exact fun table => b.seen_delete table hne
  · intro q
    rw [Query.foldl_filter, ← hbody]
    exact b.seen_select_conditions q (by simpa using hne)
  · intro q
    rw [Query.foldl_filterGroups, ← hbody]
    exact b.seen_select_having q (by simpa using hne)
  · intro keyword before after s e hbefore hfailed
    exact Outcome.seen_clause_of_error hbefore hfailed
  · exact b.seen_select_conditions q hne
  · exact b.seen_select_having q hne
  · intro before after column value
    rw [Builder.entries, Builder.entries, entriesDraft_congr]
    simp [Entry.condition]
  · intro c connector rest
    rfl
  · exact fun xs y ys hne => b.entries_append hne y ys

end Statements

end SqlText
