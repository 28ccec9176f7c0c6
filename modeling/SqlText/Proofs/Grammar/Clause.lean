import SqlText.Proofs.Grammar.Reader

/-!
# Optional clauses

A query may leave clauses out, and single blanks stand between those that are there. A
clause begins with its keyword, and after it the text is over or goes on with a later
keyword. A reader can therefore tell from the keyword alone whether its clause is there.
-/

namespace SqlText

namespace Grammar

/-- The keywords of a query, in the order of its clauses. -/
def keywords : List String :=
  ["SELECT ", "FROM ", "WHERE ", "GROUP BY ", "HAVING ", "ORDER BY "]

/-- The blank after an earlier clause. -/
def lead (before : Bool) : String := if before then " " else ""

/-- A clause, if its keyword comes next. The flag says whether a clause went before; it
comes back for the clause after this one. -/
def clause? {α : Type} (keyword : String) (body : Reader α) (before : Bool) :
    Reader (Option α × Bool) := fun cs =>
  match skip? (lead before ++ keyword).toList cs with
  | none => some ((none, before), cs)
  | some cs => (body cs).map fun (a, rest) => ((some a, true), rest)

/-- The text is over, or goes on with one of these words, after a blank if a clause went
before. -/
def Follows (before : Bool) (words : List String) (rest : List Char) : Prop :=
  rest = [] ∨ ∃ word ∈ words, ∃ more, rest = (lead before ++ word).toList ++ more

/-- The keyword begins with another character than each of these words. -/
def Apart (keyword : String) (words : List String) : Prop :=
  keyword.toList ≠ [] ∧ ∀ word ∈ words,
    word.toList ≠ [] ∧ word.toList.head? ≠ keyword.toList.head?

instance (keyword : String) (words : List String) : Decidable (Apart keyword words) :=
  inferInstanceAs (Decidable (_ ∧ _))

namespace Follows

variable {before : Bool} {words : List String} {rest : List Char}

/-- What follows with some words follows with more. -/
theorem mono {words' : List String} (hwords : words ⊆ words') (h : Follows before words rest) :
    Follows before words' rest := by
  rcases h with h | ⟨word, hword, h⟩
  · exact .inl h
  · exact .inr ⟨word, hwords hword, h⟩

/-- After a clause the text is over or goes on with a blank. -/
theorem head?_eq (h : Follows true words rest) : ∀ c ∈ rest.head?, c = ' ' := by
  rcases h with rfl | ⟨word, -, more, rfl⟩
  · simp
  · simp [lead]

/-- After a clause comes an end. -/
theorem ends (h : Follows true words rest) : Ends rest := .of_blank h.head?_eq

/-- A keyword that is not among the words is not found. -/
theorem skip?_eq_none {keyword : String} (hapart : Apart keyword words)
    (h : Follows before words rest) : skip? (lead before ++ keyword).toList rest = none := by
  obtain ⟨hkeyword, hwords⟩ := hapart
  obtain ⟨c, cs, hc⟩ := List.exists_cons_of_ne_nil hkeyword
  rcases h with rfl | ⟨word, hword, more, rfl⟩
  · cases before <;> simp [lead, skip?, hc]
  · obtain ⟨hne, hhead⟩ := hwords word hword
    obtain ⟨d, ds, hd⟩ := List.exists_cons_of_ne_nil hne
    have hcd : c ≠ d := by
      rintro rfl
      simp [hc, hd] at hhead
    cases before <;> simp [lead, skip?, hc, hd, hcd]

end Follows

/-- A text that is there and has a meaning, or is left out. -/
inductive Shown {α : Type} (means : String → α → Prop) : Bool → String → Option α → Prop
  /-- There is no text. -/
  | absent : Shown means false "" none
  /-- There is a text. -/
  | present {text : String} {a : α} (h : means text a) : Shown means true text (some a)

/-- The text is the keyword and a body that is read up to a later keyword or the end. -/
def ReadsClause {α : Type} (keyword : String) (body : Reader α) (text : String) (a : α) : Prop :=
  ∃ t, text = keyword ++ t ∧
    ∀ rest, Follows true keywords rest → body (t.toList ++ rest) = some (a, rest)

/-- The text begins with the keyword, or is left out. -/
def Opens (keyword : String) (clause : Bool × String) : Prop :=
  (clause.1 = false ∧ clause.2 = "") ∨ (clause.1 = true ∧ ∃ t, clause.2 = keyword ++ t)

section Clauses

variable {α : Type} {keyword : String} {body : Reader α} {counts before : Bool} {text : String}
  {clause : Option α}

/-- A clause that is there begins with its keyword. -/
theorem Shown.opens (h : Shown (ReadsClause keyword body) counts text clause) :
    Opens keyword (counts, text) := by
  cases h with
  | absent => exact .inl ⟨rfl, rfl⟩
  | present h =>
    obtain ⟨t, ht, -⟩ := h
    exact .inr ⟨rfl, t, ht⟩

/-- Clauses with blanks between them begin with one of their keywords, unless none is
there. -/
theorem follows_laidOut {words : List String} {clauses : List (Bool × String)}
    (h : List.Forall₂ Opens words clauses) (before : Bool) :
    Follows before words (Draft.laidOut " " before clauses).toList := by
  induction h generalizing before with
  | nil => exact .inl rfl
  | @cons word clause words clauses hopens _ ih =>
    obtain ⟨counts, text⟩ := clause
    rcases hopens with ⟨hcounts, htext⟩ | ⟨hcounts, t, htext⟩
    · dsimp only at hcounts htext
      subst hcounts htext
      simpa [Draft.laidOut] using (ih before).mono (List.subset_cons_self word words)
    · dsimp only at hcounts htext
      subst hcounts htext
      refine .inr ⟨word, .head _, t.toList ++ (Draft.laidOut " " true clauses).toList, ?_⟩
      cases before <;> simp [Draft.laidOut, lead]

/-- A clause is read as what it says, or found missing, whatever clauses come later. -/
theorem clause?_laidOut (h : Shown (ReadsClause keyword body) counts text clause)
    {words : List String} {clauses : List (Bool × String)}
    (hopens : List.Forall₂ Opens words clauses) (hwords : words ⊆ keywords)
    (hapart : Apart keyword words) (before : Bool) :
    clause? keyword body before (Draft.laidOut " " before ((counts, text) :: clauses)).toList =
      some ((clause, before || counts),
        (Draft.laidOut " " (before || counts) clauses).toList) := by
  have hfollows := follows_laidOut hopens
  cases h with
  | absent =>
    have hskip := (hfollows before).skip?_eq_none hapart
    simp only [Draft.laidOut, Bool.and_false, Bool.or_false, Bool.false_eq_true, if_false,
      String.empty_append]
    rw [clause?, hskip]
  | present h =>
    obtain ⟨t, rfl, hbody⟩ := h
    have hrest : (Draft.laidOut " " before ((true, keyword ++ t) :: clauses)).toList =
        (lead before ++ keyword).toList ++
          (t.toList ++ (Draft.laidOut " " true clauses).toList) := by
      cases before <;> simp [Draft.laidOut, lead]
    have hread := hbody _ ((hfollows true).mono hwords)
    rw [hrest, clause?, skip?_append]
    simp only [hread, Bool.or_true, Option.map_some]

end Clauses

section Lists

variable {b : Builder} {s : String}

/-- A keyword stands before the text of a draft that has one. -/
theorem writes_headed {keyword : String} {d : Draft} : b.Writes (.headed keyword d) s ↔
    ∃ t, b.Writes d t ∧ s = if d.hasText then keyword ++ t else t := by
  unfold Draft.headed
  split
  · rw [Builder.writes_cons]
    simp
  · simp

/-- A keyword is no text of its own. -/
theorem hasText_headed (keyword : String) (d : Draft) :
    (Draft.headed keyword d).hasText = d.hasText := by
  unfold Draft.headed
  split
  · rename_i h
    rw [h]
    rfl
  · rfl

/-- A separator is no text of its own. -/
theorem hasText_separated (sep : String) (before : Bool) (ds : List Draft) :
    (Draft.separated sep before ds).hasText = ds.any Draft.hasText := by
  induction ds generalizing before with
  | nil => rfl
  | cons d ds ih =>
    have hsep : Draft.hasText (if before && d.hasText then [.fixed sep] else []) =
        (before && d.hasText) := by
      split
      · rename_i h
        rw [h]
        rfl
      · rename_i h
        rw [Bool.not_eq_true] at h
        rw [h]
        rfl
    have happend (d e : Draft) : (d ++ e).hasText = (d.hasText || e.hasText) :=
      List.any_append
    rw [Draft.separated, happend, happend, hsep, ih, List.any_cons]
    cases before <;> cases d.hasText <;> rfl

/-- What is left of a list, unless it is nothing. -/
def clauseOf {β : Type} (items : List β) : Option (List β) :=
  if items.isEmpty then none else some items

variable {α ξ : Type} {item : Reader α} {meaning : ξ → Option α}

/-- Texts of which some are left out are laid out like the others alone. -/
theorem laidOut_shown {xs : List ξ} {texts : List (Bool × String)}
    (h : List.Forall₂ (fun x t => Shown (Reads item) t.1 t.2 (meaning x)) xs texts)
    (sep : String) (before : Bool) :
    ∃ shown, List.Forall₂ (Reads item) shown (xs.filterMap meaning) ∧
      texts.any Prod.fst = !shown.isEmpty ∧
      Draft.laidOut sep before texts =
        if before then String.join (shown.map (sep ++ ·)) else sep.intercalate shown := by
  induction h generalizing before with
  | nil => exact ⟨[], by simp, rfl, by cases before <;> rfl⟩
  | @cons x t xs texts hx _ ih =>
    obtain ⟨counts, text⟩ := t
    generalize hm : meaning x = m at hx
    cases hx with
    | absent =>
      obtain ⟨shown, hreads, hany, hlaid⟩ := ih before
      refine ⟨shown, by simpa [hm] using hreads, by simpa using hany, ?_⟩
      simpa [Draft.laidOut] using hlaid
    | @present _ a hread =>
      obtain ⟨shown, hreads, -, hlaid⟩ := ih true
      refine ⟨text :: shown, ?_, by simp, ?_⟩
      · simpa [hm] using List.Forall₂.cons hread hreads
      · rw [Draft.laidOut, Bool.or_true, hlaid, if_pos rfl, intercalate_cons]
        cases before <;> simp [String.append_assoc]

/-- The texts of items, each with whether it counts, are there or left out as the items are. -/
theorem shown_items {draft : ξ → Draft} {xs : List ξ}
    (hitems : ∀ x ∈ xs, ∀ t, b.Writes (draft x) t →
      Shown (Reads item) (draft x).hasText t (meaning x))
    {texts : List String} (h : List.Forall₂ b.Writes (xs.map draft) texts) :
    List.Forall₂ (fun x t => Shown (Reads item) t.1 t.2 (meaning x)) xs
      (((xs.map draft).map Draft.hasText).zip texts) := by
  induction xs generalizing texts with
  | nil => simp
  | cons x xs ih =>
    obtain ⟨text, texts, hx, htexts, rfl⟩ := List.forall₂_cons_left_iff.mp h
    obtain ⟨hitem, hitems⟩ := List.forall_mem_cons.mp hitems
    exact .cons (hitem text hx) (ih hitems htexts)

/-- A clause with a list of which some items are left out is read as the others; it is left
out itself when none of them is there. -/
theorem shown_headed {draft : ξ → Draft} {xs : List ξ} {keyword : String}
    (hitems : ∀ x ∈ xs, ∀ t, b.Writes (draft x) t →
      Shown (Reads item) (draft x).hasText t (meaning x))
    (h : b.Writes (.headed keyword (.join ", " (xs.map draft))) s) :
    Shown (ReadsClause keyword (list? item ", "))
      (Draft.headed keyword (.join ", " (xs.map draft))).hasText s
      (clauseOf (xs.filterMap meaning)) := by
  obtain ⟨t, ht, rfl⟩ := writes_headed.mp h
  obtain ⟨texts, htexts, rfl⟩ := Builder.writes_separated.mp ht
  obtain ⟨shown, hreads, hany, hlaid⟩ := laidOut_shown (shown_items hitems htexts) ", " false
  have hfst : (((xs.map draft).map Draft.hasText).zip texts).map Prod.fst =
      (xs.map draft).map Draft.hasText := by
    apply List.map_fst_zip
    have hlength := htexts.length_eq
    simp only [List.length_map] at hlength ⊢
    omega
  have hcounts : (Draft.join ", " (xs.map draft)).hasText = !shown.isEmpty := by
    have hany' := congrArg (·.any id) hfst
    simp only [List.any_map, Function.id_comp] at hany'
    rw [Draft.join, hasText_separated, ← hany, hany', List.any_map]
  rw [hasText_headed, hcounts, hlaid, if_neg Bool.false_ne_true]
  cases shown with
  | nil =>
    rw [List.forall₂_nil_left_iff.mp hreads]
    exact .absent
  | cons text shown =>
    obtain ⟨a, items, ha, hall, hmeaning⟩ := List.forall₂_cons_left_iff.mp hreads
    rw [hmeaning]
    refine .present ⟨_, rfl, fun rest hrest => ?_⟩
    exact list?_intercalate (ends_append _ (by decide)) (.cons ha hall) (List.cons_ne_nil _ _)
      hrest.ends (skip?_comma hrest.head?_eq)

end Lists

end Grammar

end SqlText
