import SqlText.Builder
import Mathlib.Data.List.Forall2

/-!
# The text of a draft, piece by piece

A draft is carried out from left to right, so the text of two drafts one after the
other is the text of the first followed by the text of the second. Every statement
about a finished text is taken apart with this law, down to single pieces.
-/

namespace SqlText

/-- A separator between texts stands before every text but the first. -/
theorem intercalate_cons (sep text : String) (texts : List String) :
    sep.intercalate (text :: texts) = text ++ String.join (texts.map (sep ++ ·)) := by
  induction texts generalizing text with
  | nil => simp
  | cons next texts ih =>
    rw [String.intercalate_cons_cons, ih, List.map_cons, String.join_cons]
    simp only [String.append_assoc]

namespace Outcome

/-- A chain of two calls succeeds when both do. -/
theorem result_andThen_eq_ok {α β : Type} {o : Outcome α} {f : α → Outcome β} {b : β} :
    (o.andThen f).result = .ok b ↔ ∃ a, o.result = .ok a ∧ (f a).result = .ok b := by
  obtain ⟨notices, result⟩ := o
  cases result with
  | error e => simp [andThen]
  | ok a => simp [andThen, after]

/-- Going on with a value that is there already. -/
theorem pure_andThen {α β : Type} (a : α) (f : α → Outcome β) :
    (pure a : Outcome α).andThen f = f a := by
  simp [pure, andThen, after]

/-- Going on by giving the value back. -/
theorem andThen_pure {α : Type} (o : Outcome α) : o.andThen pure = o := by
  obtain ⟨notices, result⟩ := o
  cases result <;> simp [pure, andThen, after]

/-- Earlier notices stay before everything that follows. -/
theorem after_andThen {α β : Type} (earlier : List Notice) (o : Outcome α) (f : α → Outcome β) :
    (o.after earlier).andThen f = (o.andThen f).after earlier := by
  obtain ⟨notices, result⟩ := o
  cases result <;> simp [andThen, after]

/-- Chains of calls can be taken apart in the middle. -/
theorem andThen_assoc {α β γ : Type} (o : Outcome α) (f : α → Outcome β) (g : β → Outcome γ) :
    (o.andThen f).andThen g = o.andThen fun a => (f a).andThen g := by
  obtain ⟨notices, result⟩ := o
  cases result with
  | error e => rfl
  | ok a => exact after_andThen notices (f a) g

/-- After a failure nothing follows, and nothing more is reported. -/
theorem andThen_of_error {α β : Type} {o : Outcome α} {e : Error} (h : o.result = .error e)
    (f : α → Outcome β) : (o.andThen f).result = .error e ∧ (o.andThen f).reports = o.reports := by
  obtain ⟨notices, result⟩ := o
  obtain rfl : result = .error e := h
  exact ⟨rfl, rfl⟩

/-- After a success comes what follows, and its reports come later. -/
theorem andThen_of_ok {α β : Type} {o : Outcome α} {a : α} (h : o.result = .ok a)
    (f : α → Outcome β) : (o.andThen f).result = (f a).result ∧
      (o.andThen f).reports = o.reports ++ (f a).reports := by
  obtain ⟨notices, result⟩ := o
  obtain rfl : result = .ok a := h
  exact ⟨rfl, List.filterMap_append⟩

/-- A text put in front of the texts is there for whoever takes them. -/
theorem before_andThen {β : Type} (text : String) (o : Outcome (List String))
    (f : List String → Outcome β) :
    (o.before text).andThen f = o.andThen fun texts => f (text :: texts) := by
  obtain ⟨notices, result⟩ := o
  cases result <;> rfl

/-- A text is put in front of the texts of a whole chain. -/
theorem andThen_before {α : Type} (text : String) (o : Outcome α)
    (f : α → Outcome (List String)) :
    (o.andThen f).before text = o.andThen fun a => (f a).before text := by
  obtain ⟨notices, result⟩ := o
  cases result <;> rfl

end Outcome

/-- Texts one after another, each with whether it counts, a separator between any two that
count. The flag says whether one that counts went before. -/
def Draft.laidOut (sep : String) : Bool → List (Bool × String) → String
  | _, [] => ""
  | before, (counts, text) :: more =>
    (if before && counts then sep else "") ++ text ++ laidOut sep (before || counts) more

namespace Builder

/-- Carrying out two drafts one after the other: the second follows when the first
has succeeded, and its notices come later. -/
theorem carryOut_append (b : Builder) (d e : Draft) :
    b.carryOut (d ++ e) = (b.carryOut d).andThen fun texts =>
      (b.carryOut e).andThen fun more => pure (texts ++ more) := by
  have hfixed (text : String) (d : Draft)
      (ih : b.carryOut (d ++ e) = (b.carryOut d).andThen fun texts =>
        (b.carryOut e).andThen fun more => pure (texts ++ more)) :
      (b.carryOut (d ++ e)).before text = ((b.carryOut d).before text).andThen fun texts =>
        (b.carryOut e).andThen fun more => pure (texts ++ more) := by
    rw [ih, Outcome.before_andThen, Outcome.andThen_before]
    simp only [Outcome.andThen_before]
    rfl
  induction d with
  | nil =>
    change b.carryOut e = (pure [] : Outcome _).andThen _
    rw [Outcome.pure_andThen]
    exact (Outcome.andThen_pure _).symm
  | cons piece d ih =>
    cases piece with
    | fixed text => exact hfixed text d ih
    | quoted raw =>
      simp only [List.cons_append, carryOut]
      cases b.escaper.string raw with
      | ok body => exact hfixed _ d ih
      | error e => rfl
    | identifier raw =>
      simp only [List.cons_append, carryOut]
      cases b.escaper.identifier raw with
      | ok body => exact hfixed _ d ih
      | error e => rfl
    | problem e sql =>
      simp only [List.cons_append, carryOut]
      split
      · rfl
      · rw [ih, Outcome.after_andThen]

/-- The text of two drafts is the text of the first before the text of the second. The second
is looked at once the first is written, and its notices come later. -/
theorem perform_append (b : Builder) (d e : Draft) :
    b.perform (d ++ e) = (b.perform d).andThen fun s =>
      (b.perform e).andThen fun t => pure (s ++ t) := by
  simp only [perform, carryOut_append, Outcome.andThen_assoc, Outcome.pure_andThen,
    String.join_append]

/-- Fixed text is copied without a notice. -/
theorem perform_fixed (b : Builder) (text : String) : b.perform [.fixed text] = pure text := by
  simp [perform, carryOut, Outcome.before, Outcome.andThen, Except.map, Outcome.after, pure]

/-- The builder writes the draft as this text. -/
def Writes (b : Builder) (d : Draft) (text : String) : Prop :=
  (b.perform d).result = .ok text

variable {b : Builder} {d e : Draft} {s : String}

/-- A draft is written when its pieces can be carried out; the text is theirs. -/
theorem writes_iff : b.Writes d s ↔
    ∃ texts, (b.carryOut d).result = .ok texts ∧ s = String.join texts := by
  unfold Writes perform
  rw [Outcome.result_andThen_eq_ok]
  simp only [pure, Except.ok.injEq, eq_comm (b := s)]

/-- The text of two drafts is the text of the first before the text of the second. -/
theorem writes_append : b.Writes (d ++ e) s ↔
    ∃ t u, b.Writes d t ∧ b.Writes e u ∧ s = t ++ u := by
  simp only [writes_iff, carryOut_append, Outcome.result_andThen_eq_ok, pure, Except.ok.injEq]
  constructor
  · rintro ⟨_, ⟨texts, hd, more, he, rfl⟩, rfl⟩
    exact ⟨_, _, ⟨texts, hd, rfl⟩, ⟨more, he, rfl⟩, String.join_append⟩
  · rintro ⟨_, _, ⟨texts, hd, rfl⟩, ⟨more, he, rfl⟩, rfl⟩
    exact ⟨_, ⟨texts, hd, more, he, rfl⟩, String.join_append.symm⟩

/-- The first piece is written before the rest. -/
theorem writes_cons {piece : Piece} : b.Writes (piece :: d) s ↔
    ∃ t u, b.Writes [piece] t ∧ b.Writes d u ∧ s = t ++ u :=
  writes_append (d := [piece])

/-- Nothing is written as nothing. -/
@[simp] theorem writes_nil : b.Writes [] s ↔ s = "" := by
  simp [writes_iff, carryOut]

/-- Fixed text is copied. -/
@[simp] theorem writes_fixed {text : String} : b.Writes [.fixed text] s ↔ s = text := by
  simp [writes_iff, carryOut, Outcome.before, Except.map]

/-- A string is escaped and put in single quotes. -/
theorem writes_quoted {raw : String} : b.Writes [.quoted raw] s ↔
    ∃ body, b.escaper.string raw = .ok body ∧ s = enclosed '\'' body := by
  rw [writes_iff, carryOut]
  cases h : b.escaper.string raw with
  | ok body => simp [carryOut, Outcome.before, Except.map]
  | error e => simp [Outcome.failReported]

/-- An identifier is escaped and put in backticks. -/
theorem writes_identifier {raw : String} : b.Writes [.identifier raw] s ↔
    ∃ body, b.escaper.identifier raw = .ok body ∧ s = enclosed '\x60' body := by
  rw [writes_iff, carryOut]
  cases h : b.escaper.identifier raw with
  | ok body => simp [carryOut, Outcome.before, Except.map]
  | error e => simp [Outcome.failReported]

/-- With the rules of MySQL a string is always written. -/
theorem writes_quoted_mysql (hb : b.escaper = .mysql) {raw : String} :
    b.Writes [.quoted raw] s ↔ s = enclosed '\'' (Escaper.stringBody raw) := by
  simp [writes_quoted, hb, Escaper.mysql]

/-- With the rules of MySQL an identifier is always written. -/
theorem writes_identifier_mysql (hb : b.escaper = .mysql) {raw : String} :
    b.Writes [.identifier raw] s ↔ s = enclosed '\x60' (Escaper.identifierBody raw) := by
  simp [writes_identifier, hb, Escaper.mysql]

/-- A problem leaves no text, and stops a strict builder. -/
theorem writes_problem {error : Error} {sql : Option String} :
    b.Writes [.problem error sql] s ↔ b.strict = false ∧ s = "" := by
  rw [writes_iff, carryOut]
  cases h : b.strict with
  | true => simp [Outcome.failReported]
  | false => simp [carryOut, Outcome.after]

/-- Drafts with a separator between them are written as their texts with the
separator between them. -/
theorem writes_intercalate {sep : String} {ds : List Draft} :
    b.Writes ([Piece.fixed sep].intercalate ds) s ↔
      ∃ texts, List.Forall₂ b.Writes ds texts ∧ s = sep.intercalate texts := by
  induction ds generalizing s with
  | nil => simp
  | cons d ds ih =>
    cases ds with
    | nil => simp [List.forall₂_cons_left_iff]
    | cons d' ds =>
      rw [List.intercalate_cons_cons, List.append_assoc, writes_append]
      constructor
      · rintro ⟨t, u, ht, hu, rfl⟩
        obtain ⟨v, w, hv, hw, rfl⟩ := writes_append.mp hu
        obtain ⟨texts, htexts, rfl⟩ := ih.mp hw
        obtain ⟨x, xs, hx, hxs, rfl⟩ := List.forall₂_cons_left_iff.mp htexts
        refine ⟨t :: x :: xs, .cons ht htexts, ?_⟩
        rw [writes_fixed.mp hv, String.intercalate_cons_cons, String.append_assoc]
      · rintro ⟨texts, htexts, rfl⟩
        obtain ⟨t, ts, ht, hts, rfl⟩ := List.forall₂_cons_left_iff.mp htexts
        obtain ⟨x, xs, hx, hxs, rfl⟩ := List.forall₂_cons_left_iff.mp hts
        refine ⟨t, sep ++ sep.intercalate (x :: xs), ht, ?_, ?_⟩
        · exact writes_append.mpr ⟨_, _, writes_fixed.mpr rfl, ih.mpr ⟨_, hts, rfl⟩, rfl⟩
        · rw [String.intercalate_cons_cons, String.append_assoc]

/-- Drafts of which some have no text are written as their texts, with a separator between
any two that have text. -/
theorem writes_separated {sep : String} {before : Bool} {ds : List Draft} :
    b.Writes (Draft.separated sep before ds) s ↔
      ∃ texts, List.Forall₂ b.Writes ds texts ∧
        s = Draft.laidOut sep before ((ds.map Draft.hasText).zip texts) := by
  induction ds generalizing before s with
  | nil => simp [Draft.separated, Draft.laidOut]
  | cons d ds ih =>
    have hsep {t : String} :
        b.Writes (if before && d.hasText then [.fixed sep] else []) t ↔
          t = if before && d.hasText then sep else "" := by
      split <;> simp
    simp only [Draft.separated, writes_append, hsep, ih, List.forall₂_cons_left_iff]
    constructor
    · rintro ⟨_, _, ⟨_, t, rfl, ht, rfl⟩, ⟨texts, htexts, rfl⟩, rfl⟩
      exact ⟨t :: texts, ⟨t, texts, ht, htexts, rfl⟩, rfl⟩
    · rintro ⟨_, ⟨t, texts, ht, htexts, rfl⟩, rfl⟩
      exact ⟨_, _, ⟨_, t, rfl, ht, rfl⟩, ⟨texts, htexts, rfl⟩, rfl⟩

/-- Reaching a stage changes neither the text nor the error. -/
@[simp] theorem result_finish (b : Builder) (stage : Stage) (d : Draft) :
    (b.finish stage d).result = (b.perform d).result := by
  unfold finish
  obtain ⟨notices, result⟩ := b.perform d
  cases result <;> rfl

/-- Reaching a stage is not reported. -/
@[simp] theorem reports_finish (b : Builder) (stage : Stage) (d : Draft) :
    (b.finish stage d).reports = (b.perform d).reports := by
  unfold finish
  obtain ⟨notices, result⟩ := b.perform d
  cases result <;>
    simp [Outcome.reports, bind, Outcome.andThen, Outcome.after, Outcome.reached, pure,
      Notice.report?]

end Builder

end SqlText
