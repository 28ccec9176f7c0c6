import SqlText.Proofs.Call

/-!
# Strict and lenient builders

What a strict builder accepts, a lenient one writes in the same way. A strict builder
gets through a draft only if no problem was found in it, and where no problem is
found the two modes draft the same pieces: the strict coercions are restrictions of
the lenient ones.
-/

namespace SqlText

namespace Draft

/-- No problem was found. -/
def Clean (d : Draft) : Prop := ∀ piece ∈ d, piece.isText = true

variable {d e : Draft}

/-- Two drafts one after the other are clean when both are. -/
@[simp] theorem clean_append : Clean (d ++ e) ↔ d.Clean ∧ e.Clean := by
  simp only [Clean, List.mem_append, or_imp, forall_and]

/-- A draft is clean when its first piece is text and the rest is clean. -/
@[simp] theorem clean_cons {piece : Piece} :
    Clean (piece :: d) ↔ piece.isText = true ∧ d.Clean := by
  simp only [Clean, List.mem_cons, forall_eq_or_imp]

/-- A problem is not text. -/
@[simp] theorem isText_problem (error : Error) (sql : Option String) :
    (Piece.problem error sql).isText = false := rfl

/-- Where the strict draft is clean, the lenient draft is the same. -/
def Refines (strict lenient : Draft) : Prop := strict.Clean → lenient = strict

/-- Drafts that do not depend on the mode. -/
theorem Refines.refl (d : Draft) : Refines d d := fun _ => rfl

/-- A problem followed by anything refines everything: it is not clean. -/
theorem refines_problem (error : Error) (sql : Option String) :
    Refines (.problem error sql :: d) e := fun h => by simp at h

/-- Drafts one after another. -/
theorem Refines.append {d' e' : Draft} (hd : Refines d d') (he : Refines e e') :
    Refines (d ++ e) (d' ++ e') := by
  intro h
  obtain ⟨hclean, hclean'⟩ := clean_append.mp h
  rw [hd hclean, he hclean']

/-- The same piece before a draft. -/
theorem Refines.cons (piece : Piece) (h : Refines d e) :
    Refines (piece :: d) (piece :: e) :=
  (Refines.refl [piece]).append h

/-- Drafts of the members of a list, with separators. -/
theorem Refines.intercalate {α : Type} {f g : α → Draft} (sep : Draft)
    (h : ∀ a, Refines (f a) (g a)) (as : List α) :
    Refines (sep.intercalate (as.map f)) (sep.intercalate (as.map g)) := by
  induction as with
  | nil => exact .refl []
  | cons a as ih =>
    cases as with
    | nil => simpa using h a
    | cons a' as =>
      simp only [List.map_cons, List.intercalate_cons_cons] at ih ⊢
      exact ((h a).append (.refl sep)).append ih

/-- Clauses that are left out when they have no text. -/
theorem Refines.separated {ds es : List Draft} (sep : String) (before : Bool)
    (h : List.Forall₂ Refines ds es) :
    Refines (separated sep before ds) (separated sep before es) := by
  induction h generalizing before with
  | nil => exact .refl []
  | cons hd _ ih =>
    intro hclean
    rw [Draft.separated, clean_append, clean_append] at hclean
    rw [Draft.separated, Draft.separated, hd hclean.1.2, ih _ hclean.2]

/-- A clause after its keyword. -/
theorem Refines.headed (keyword : String) (h : Refines d e) :
    Refines (headed keyword d) (headed keyword e) := by
  intro hclean
  have hd : d.Clean := by
    unfold Draft.headed at hclean
    split at hclean
    · exact (clean_cons.mp hclean).2
    · exact hclean
  rw [h hd]

end Draft

namespace Builder

variable {b : Builder} {d : Draft}

/-- A strict builder gets through clean drafts only. -/
theorem Writes.clean {s : String} (h : b.Writes d s) (hstrict : b.strict = true) : d.Clean := by
  induction d generalizing s with
  | nil => simp [Draft.Clean]
  | cons piece d ih =>
    obtain ⟨t, u, hpiece, hrest, _⟩ := writes_cons.mp h
    refine Draft.clean_cons.mpr ⟨?_, ih hrest⟩
    cases piece with
    | problem error sql =>
      have hlenient := (writes_problem.mp hpiece).1
      rw [hstrict] at hlenient
      cases hlenient
    | fixed | quoted | identifier => rfl

/-- The mode of a builder makes no difference to a clean draft. -/
theorem carryOut_clean {e : Escaper} (h : d.Clean) :
    (⟨e, true⟩ : Builder).carryOut d = (⟨e, false⟩ : Builder).carryOut d := by
  induction d with
  | nil => rfl
  | cons piece d ih =>
    obtain ⟨hpiece, hrest⟩ := Draft.clean_cons.mp h
    cases piece with
    | problem error sql => simp at hpiece
    | fixed | quoted | identifier => simp only [carryOut, ih hrest]

/-- Nothing is reported on the way through a clean draft that is written. -/
theorem notices_carryOut_clean (h : d.Clean) {texts : List String}
    (hok : (b.carryOut d).result = .ok texts) : (b.carryOut d).notices = [] := by
  induction d generalizing texts with
  | nil => rfl
  | cons piece d ih =>
    obtain ⟨hpiece, hrest⟩ := Draft.clean_cons.mp h
    have hbefore {text : String} (hok : ((b.carryOut d).before text).result = .ok texts) :
        ((b.carryOut d).before text).notices = [] := by
      cases hresult : (b.carryOut d).result with
      | error e => simp [Outcome.before, hresult, Except.map] at hok
      | ok more => exact ih hrest hresult
    cases piece with
    | fixed text => exact hbefore hok
    | quoted raw =>
      rw [carryOut] at hok ⊢
      split at hok
      · exact hbefore hok
      · simp [Outcome.failReported] at hok
    | identifier raw =>
      rw [carryOut] at hok ⊢
      split at hok
      · exact hbefore hok
      · simp [Outcome.failReported] at hok
    | problem error sql => simp at hpiece

/-- A clean draft is written without a report. -/
theorem Writes.reports_eq_nil {s : String} (h : b.Writes d s) (hclean : d.Clean) :
    (b.perform d).reports = [] := by
  obtain ⟨texts, hok, _⟩ := writes_iff.mp h
  have hnotices := notices_carryOut_clean hclean hok
  simp [Outcome.reports, perform, Outcome.andThen, hok, Outcome.after, hnotices, pure]

end Builder

namespace Literal

/-- A strict integer is the lenient integer. -/
theorem lenientInt?_of_strictInt? {v : Value} {n : Int64} (h : strictInt? v = some n) :
    lenientInt? v = some n := by
  cases v with
  | int m => exact h
  | str s =>
    have hs : intText? s = some n := h
    simp [lenientInt?, hs]
  | _ => simp [strictInt?] at h

/-- A strict number is the lenient number. -/
theorem lenientFloat?_of_strictFloat? {v : Value} {x : Number.Binary64}
    (h : strictFloat? v = some x) : lenientFloat? v = some x := by
  cases v with
  | int m => exact h
  | float y =>
    have hy : finite? y = some x := h
    simp [lenientFloat?, hy]
  | str s =>
    have hs : finiteText? s = some x := h
    simp [lenientFloat?, hs]
  | _ => simp [strictFloat?] at h

/-- Integer literals. -/
theorem integer_refines (v : Value) : Draft.Refines (integer true v) (integer false v) := by
  unfold integer
  split
  · exact .refl null
  · cases hint : strictInt? v with
    | none => simpa only [if_true, hint, mismatch] using Draft.refines_problem _ _
    | some n =>
      simpa [hint, lenientInt?_of_strictInt? hint] using Draft.Refines.refl _

/-- Literals with fixed decimals. -/
theorem float_refines (precision : UInt32) (v : Value) :
    Draft.Refines (float true precision v) (float false precision v) := by
  unfold float
  split
  · exact .refl null
  · cases hfloat : strictFloat? v with
    | none => simpa only [if_true, hfloat, mismatch] using Draft.refines_problem _ _
    | some x =>
      simpa [hfloat, lenientFloat?_of_strictFloat? hfloat] using Draft.Refines.refl _

/-- Sets: a strict builder takes a list, and a lenient one its items too. -/
theorem set_refines (v : Value) : Draft.Refines (set true v) (set false v) := by
  cases v with
  | list items => exact .refl _
  | _ => exact Draft.refines_problem _ _

/-- Field maps: a strict builder takes a map, and a lenient one its entries too. -/
theorem fields_refines (v : Value) : Draft.Refines (fields true v) (fields false v) := by
  cases v with
  | map entries => exact .refl _
  | _ => exact Draft.refines_problem _ _

/-- Literals of a declared type. -/
theorem typed_refines (type : DeclaredType) (precision : UInt32) (v : Value) :
    Draft.Refines (typed true type precision v) (typed false type precision v) := by
  cases type with
  | integer => exact integer_refines v
  | float => exact float_refines precision v
  | string | binary => exact .refl _

/-- Literals whose declared type is given as a tag. -/
theorem tagged_refines (tag : String) (precision : UInt32) (v : Value) :
    Draft.Refines (tagged true tag precision v) (tagged false tag precision v) := by
  unfold tagged
  split
  · exact typed_refines _ precision v
  · exact .refl _

/-- Arguments of a marker. -/
theorem argument_refines (kind : Placeholder) (v : Value) :
    Draft.Refines (argument true kind v) (argument false kind v) := by
  cases kind with
  | integer => exact integer_refines v
  | float precision => exact float_refines precision v
  | set => exact set_refines v
  | fields => exact fields_refines v
  | name | string | raw => exact .refl _

end Literal

namespace Template

/-- Filled tokens: arguments that are left over are a problem for a strict builder
only. -/
theorem fill_refines (error : Error) (sql : Option String) (missing : Draft)
    (tokens : List Token) (args : List Value) :
    Draft.Refines (fill true missing [.problem error sql] tokens args)
      (fill false missing [] tokens args) := by
  induction tokens generalizing missing args with
  | nil =>
    cases args with
    | nil => exact .refl []
    | cons v args => exact Draft.refines_problem _ _
  | cons token tokens ih =>
    cases token with
    | literal text => exact (ih missing args).cons (.fixed text)
    | marker kind =>
      cases args with
      | nil => exact (Draft.Refines.refl (missing ++ Literal.neutral kind)).append (ih [] [])
      | cons v args => exact (Literal.argument_refines kind v).append (ih missing args)

/-- Substituted templates. -/
theorem draft_refines (template : String) (args : List Value) :
    Draft.Refines (draft true template args) (draft false template args) :=
  fill_refines _ _ _ _ _

end Template

/-- Terms. -/
theorem Field.draft_refines (f : Field) : Draft.Refines (f.draft true) (f.draft false) :=
  (Draft.Refines.refl _).append (Literal.typed_refines f.type f.decimals f.value)

/-- Lists of terms. -/
theorem termsDraft_refines (sep : String) (fields : List Field) :
    Draft.Refines (termsDraft true sep fields) (termsDraft false sep fields) :=
  .intercalate [.fixed sep] Field.draft_refines fields

/-- Conditions that must all hold. -/
theorem whereAll_refines (conditions : List Field) :
    Draft.Refines (whereAll true conditions) (whereAll false conditions) := by
  unfold whereAll
  split
  · exact .refl []
  · exact (termsDraft_refines " AND " conditions).cons (.fixed " WHERE ")

/-- Entries of a condition list with their connectors. -/
theorem entriesDraft_refines (entries : List Entry) :
    Draft.Refines (entriesDraft true entries) (entriesDraft false entries) := by
  have hentry (e : Entry) : Draft.Refines (e.draft true) (e.draft false) :=
    Field.draft_refines e.condition.toField
  have hlater (entries : List Entry) : Draft.Refines
      (entries.flatMap fun e => .fixed s!" {e.condition.connector.keyword} " :: e.draft true)
      (entries.flatMap fun e => .fixed s!" {e.condition.connector.keyword} " :: e.draft false) := by
    induction entries with
    | nil => exact .refl []
    | cons e entries ih => exact ((hentry e).cons _).append ih
  cases entries with
  | nil => exact .refl []
  | cons first rest => exact (hentry first).append (hlater rest)

/-- Filters of a DELETE. -/
theorem DeleteFilter.draft_refines (f : DeleteFilter) :
    Draft.Refines (f.draft true) (f.draft false) := by
  unfold DeleteFilter.draft
  split
  · exact .refl []
  · cases f with
    | raw sql => exact .refl _
    | all conditions => exact whereAll_refines conditions

/-- Queries: only the conditions depend on the mode. -/
theorem Query.draft_refines (q : Query) : Draft.Refines (q.draft true) (q.draft false) := by
  refine .separated " " false ?_
  have hsame (ds : List Draft) : List.Forall₂ Draft.Refines ds ds :=
    List.forall₂_same.mpr fun d _ => .refl d
  unfold Query.clauses
  refine List.rel_append (hsame _) ?_
  refine .cons ((entriesDraft_refines q.conditions).headed "WHERE ") ?_
  refine .cons (.refl _) (.cons ((entriesDraft_refines q.having).headed "HAVING ") ?_)
  exact hsame _

/-- Described statements. -/
theorem Statement.draft_refines (s : Statement) :
    Draft.Refines (s.draft true) (s.draft false) := by
  cases s with
  | insert table fields => exact (Draft.Refines.refl _).append (termsDraft_refines ", " fields)
  | update table fields conditions =>
    refine Draft.Refines.append ?_ (whereAll_refines conditions)
    exact (Draft.Refines.refl _).append (termsDraft_refines ", " fields)
  | delete table conditions => exact (Draft.Refines.refl _).append conditions.draft_refines
  | select query => exact query.draft_refines

/-- Calls. -/
theorem Call.draft_refines (c : Call) : Draft.Refines (c.draft true) (c.draft false) := by
  cases c with
  | integer v => exact Literal.integer_refines v
  | float precision v => exact Literal.float_refines precision v
  | set v => exact Literal.set_refines v
  | assignments v => exact Literal.fields_refines v
  | typed type precision v => exact Literal.typed_refines type precision v
  | tagged tag precision v => exact Literal.tagged_refines tag precision v
  | substitute template args => exact Template.draft_refines template args
  | insert table fields => exact (Statement.insert table fields).draft_refines
  | update table fields conditions =>
    exact (Statement.update table fields conditions).draft_refines
  | delete table conditions => exact (Statement.delete table conditions).draft_refines
  | select query => exact query.draft_refines
  | build statement => exact statement.draft_refines
  | string | raw | name => exact .refl _

/-- What a strict builder answers without an error, a lenient builder with the same
escaper answers too, and neither makes a report. -/
theorem strict_refines_lenient {e : Escaper} {c : Call} {sql : String}
    (h : ((⟨e, true⟩ : Builder).answer c).result = .ok sql) :
    ((⟨e, false⟩ : Builder).answer c).result = .ok sql ∧
      ((⟨e, true⟩ : Builder).answer c).reports = [] ∧
      ((⟨e, false⟩ : Builder).answer c).reports = [] := by
  have hsets : c.setsNothing = false := by
    by_contra hnothing
    obtain ⟨message, hrefused⟩ :=
      Builder.answer_of_setsNothing ⟨e, true⟩ (Bool.not_eq_false _ ▸ hnothing)
    simp [hrefused, Outcome.fail] at h
  rw [Builder.result_answer hsets] at h
  have hstrict : (⟨e, true⟩ : Builder).Writes (c.draft true) sql := h
  have hclean := hstrict.clean rfl
  have hlenient : (⟨e, false⟩ : Builder).Writes (c.draft true) sql := by
    obtain ⟨texts, hok, hsql⟩ := Builder.writes_iff.mp hstrict
    exact Builder.writes_iff.mpr ⟨texts, by rw [← hok, Builder.carryOut_clean hclean], hsql⟩
  rw [Builder.result_answer hsets, Builder.reports_answer hsets, Builder.reports_answer hsets]
  simp only [c.draft_refines hclean]
  exact ⟨hlenient, hstrict.reports_eq_nil hclean, hlenient.reports_eq_nil hclean⟩

/-- A numeral given as a text, and a map with quotes in a key and in a value. -/
theorem strict_refines_lenient_substituted :
    let c : Call := .substitute "a = ?i AND ?u" [.str " 12 ", .map [("k`", .str "it's")]]
    ((⟨.mysql, false⟩ : Builder).answer c).result = .ok "a = 12 AND `k``` = 'it\\'s'" ∧
      ((⟨.mysql, true⟩ : Builder).answer c).reports = [] ∧
      ((⟨.mysql, false⟩ : Builder).answer c).reports = [] := by
  intro c
  exact strict_refines_lenient (by decide +kernel)

end SqlText
