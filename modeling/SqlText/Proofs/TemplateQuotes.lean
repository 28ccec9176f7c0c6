import SqlText.Proofs.QuoteScan
import SqlText.Proofs.Rendering

/-!
# Arguments cannot open or close quotes

A template is read in the same way whatever its arguments are. If its own text leaves
no quotes open at a marker, then a scan of the finished statement is outside all
quotes where an argument begins and where it ends, and it reads every character of the
template in the state in which it reads it in the template alone. A value that is used
as a name must be one word, as the rest of a name is copied; raw text is left out.
-/

namespace SqlText

/-- The texts in a draft that are copied are balanced. -/
def Draft.IsBalanced (d : Draft) : Prop := ∀ text, .fixed text ∈ d → Balanced text

namespace Draft.IsBalanced

variable {d e : Draft}

/-- Nothing is copied. -/
theorem nil : IsBalanced [] := fun text h => by cases h

/-- A balanced text before a draft. -/
theorem cons_fixed {text : String} (ht : Balanced text) (hd : d.IsBalanced) :
    IsBalanced (.fixed text :: d) := by
  intro t h
  rcases List.mem_cons.mp h with h | h
  · cases h
    exact ht
  · exact hd t h

/-- A piece before a draft that is not copied. -/
theorem cons_other {piece : Piece} (hp : ∀ text, piece ≠ .fixed text) (hd : d.IsBalanced) :
    IsBalanced (piece :: d) := by
  intro t h
  rcases List.mem_cons.mp h with h | h
  · exact absurd h.symm (hp t)
  · exact hd t h

/-- Two drafts one after the other. -/
theorem append (hd : d.IsBalanced) (he : e.IsBalanced) : IsBalanced (d ++ e) := by
  intro t h
  rcases List.mem_append.mp h with h | h
  · exact hd t h
  · exact he t h

/-- Drafts with a separator between them. -/
theorem intercalate {sep : String} (hsep : Balanced sep) {ds : List Draft}
    (h : ∀ d ∈ ds, d.IsBalanced) : IsBalanced ([Piece.fixed sep].intercalate ds) := by
  induction ds with
  | nil => exact nil
  | cons d ds ih =>
    rw [List.forall_mem_cons] at h
    cases ds with
    | nil => simpa using h.1
    | cons d' ds =>
      rw [List.intercalate_cons_cons]
      exact (h.1.append (cons_fixed hsep nil)).append (ih h.2)

end Draft.IsBalanced

/-- With the rules of MySQL a draft is written as a balanced text if what it copies
is balanced. -/
theorem Builder.Writes.balanced {b : Builder} (hb : b.escaper = .mysql) {d : Draft} {s : String}
    (hd : d.IsBalanced) (h : b.Writes d s) : Balanced s := by
  induction d generalizing s with
  | nil =>
    rw [writes_nil.mp h]
    rfl
  | cons piece d ih =>
    obtain ⟨t, u, ht, hu, rfl⟩ := writes_cons.mp h
    refine Balanced.append ?_ (ih (fun text hmem => hd text (.tail _ hmem)) hu)
    cases piece with
    | fixed text =>
      rw [writes_fixed.mp ht]
      exact hd text (.head _)
    | quoted raw =>
      rw [(writes_quoted_mysql hb).mp ht]
      exact .enclosed .single (QuoteState.after_stringBody raw)
    | identifier raw =>
      rw [(writes_identifier_mysql hb).mp ht]
      exact .enclosed .backtick (QuoteState.after_identifierBody raw)
    | problem error sql =>
      rw [(writes_problem.mp ht).2]
      rfl

/-- The text under which a value is used as a name. -/
def Value.nameText? : Value → Option String
  | .str s => some s
  | .int n => some (Value.int n).toText
  | .float x => some (Value.float x).toText
  | _ => none

namespace Literal

open Draft (IsBalanced)

/-- What is copied around a string is balanced. -/
theorem isBalanced_string (v : Value) : IsBalanced (string v) := by
  unfold string
  split
  · exact .cons_fixed (by decide) .nil
  · split
    · exact .cons_other (by simp) .nil
    · exact .cons_other (by simp [mismatch]) (.cons_other (by simp) .nil)

/-- What is copied between the items of a set is balanced. -/
theorem isBalanced_set (strict : Bool) (v : Value) : IsBalanced (set strict v) := by
  unfold set
  split
  · refine IsBalanced.append (.cons_fixed (by decide) ?_) (.cons_fixed (by decide) .nil)
    refine .intercalate (by decide) fun d hd => ?_
    obtain ⟨item, _, rfl⟩ := List.mem_map.mp hd
    exact isBalanced_string item
  · exact .cons_other (by simp [mismatch]) (.cons_fixed (by decide) .nil)

/-- What is copied between the assignments of a field map is balanced. -/
theorem isBalanced_fields (strict : Bool) (v : Value) : IsBalanced (fields strict v) := by
  unfold fields
  split
  · refine .intercalate (by decide) fun d hd => ?_
    obtain ⟨entry, _, rfl⟩ := List.mem_map.mp hd
    refine IsBalanced.append (.cons_other (by simp) (.cons_fixed (by decide) .nil)) ?_
    exact isBalanced_string entry.2
  · exact .cons_other (by simp [mismatch]) .nil

/-- What is copied of a name is balanced when the name is one word. -/
theorem isBalanced_name {s : String} (h : Name.IsWord s) : IsBalanced (name s) := by
  unfold name
  cases hblank : Text.isBlankText s with
  | true =>
    rw [Name.parse?_of_blank hblank]
    exact .cons_other (by simp) .nil
  | false =>
    rw [Name.IsPlain.parse? ⟨hblank, h⟩]
    refine IsBalanced.append (.intercalate (by decide) fun d hd => ?_)
      (.cons_fixed (show Balanced "" by decide) .nil)
    obtain ⟨part, _, rfl⟩ := List.mem_map.mp hd
    exact .cons_other (by simp) .nil

/-- What is copied of a value that is used as a name is balanced when its text is one
word. -/
theorem isBalanced_nameOf {v : Value} (h : ∀ s ∈ v.nameText?, Name.IsWord s) :
    IsBalanced (nameOf v) := by
  cases v with
  | str s => exact isBalanced_name (h s rfl)
  | int n => exact isBalanced_name (h _ rfl)
  | float x => exact isBalanced_name (h _ rfl)
  | _ => exact .cons_other (by simp [mismatch]) .nil

/-- The value can stand for a marker of this kind: no raw text, and no name of several
words. -/
def IsSafe : Placeholder → Value → Prop
  | .raw, _ => False
  | .name, v => ∀ s ∈ v.nameText?, Name.IsWord s
  | _, _ => True

instance (kind : Placeholder) (v : Value) : Decidable (IsSafe kind v) :=
  match kind with
  | .raw => inferInstanceAs (Decidable False)
  | .name => inferInstanceAs (Decidable (∀ s ∈ v.nameText?, Name.IsWord s))
  | .string | .integer | .float _ | .set | .fields => inferInstanceAs (Decidable True)

variable {b : Builder} {s : String}

/-- A safe argument is written as a balanced text. -/
theorem balanced_argument (hb : b.escaper = .mysql) {kind : Placeholder} {v : Value}
    (hsafe : IsSafe kind v) (h : b.Writes (argument b.strict kind v) s) : Balanced s := by
  have hnumber (h : if v.isNull then s = "NULL" else Number.IsNumeral s.toList) :
      Balanced s := by
    split at h
    · rw [h]
      decide
    · exact h.balanced
  cases kind with
  | name => exact h.balanced hb (isBalanced_nameOf hsafe)
  | string => exact h.balanced hb (isBalanced_string v)
  | integer => exact hnumber (numeral_of_writes_integer h)
  | float precision => exact hnumber (numeral_of_writes_float h)
  | set => exact h.balanced hb (isBalanced_set b.strict v)
  | fields => exact h.balanced hb (isBalanced_fields b.strict v)
  | raw => exact hsafe.elim

/-- What is written without an argument is balanced. -/
theorem balanced_neutral {kind : Placeholder} (h : b.Writes (neutral kind) s) : Balanced s := by
  cases kind with
  | float precision =>
    rw [Builder.writes_fixed.mp h]
    exact (Number.isNumeral_fixedPoint _ _).balanced
  | string | integer | set =>
    rw [Builder.writes_fixed.mp h]
    decide
  | name | fields | raw =>
    rw [Builder.writes_nil.mp h]
    decide

end Literal

namespace Template

/-- Every marker that has an argument has a safe one, and no marker is for raw text. -/
def SafeArguments : List Token → List Value → Prop
  | [], _ => True
  | .literal _ :: tokens, args => SafeArguments tokens args
  | .marker kind :: tokens, [] => kind ≠ .raw ∧ SafeArguments tokens []
  | .marker kind :: tokens, v :: args => Literal.IsSafe kind v ∧ SafeArguments tokens args

instance decidableSafeArguments :
    (tokens : List Token) → (args : List Value) → Decidable (SafeArguments tokens args)
  | [], _ => inferInstanceAs (Decidable True)
  | .literal _ :: tokens, args => decidableSafeArguments tokens args
  | .marker _ :: tokens, [] =>
    have := decidableSafeArguments tokens []
    inferInstanceAs (Decidable (_ ∧ _))
  | .marker _ :: tokens, _ :: args =>
    have := decidableSafeArguments tokens args
    inferInstanceAs (Decidable (_ ∧ _))

/-- A scan of the plain text alone is outside all quotes at every marker. -/
def ClosedAtMarkers : QuoteState → List Token → Prop
  | _, [] => True
  | s, .literal text :: tokens => ClosedAtMarkers (s.after text.toList) tokens
  | s, .marker _ :: tokens => s = .outside ∧ ClosedAtMarkers s tokens

instance decidableClosedAtMarkers :
    (s : QuoteState) → (tokens : List Token) → Decidable (ClosedAtMarkers s tokens)
  | _, [] => inferInstanceAs (Decidable True)
  | s, .literal text :: tokens => decidableClosedAtMarkers (s.after text.toList) tokens
  | s, .marker _ :: tokens =>
    have := decidableClosedAtMarkers s tokens
    inferInstanceAs (Decidable (_ ∧ _))

/-- The states in which a scan reads the plain text, stretch by stretch, where every
token has been given a text. -/
def literalPaths : QuoteState → List Token → List String → List (List QuoteState)
  | s, .literal _ :: tokens, text :: texts =>
    s.path text.toList :: literalPaths (s.after text.toList) tokens texts
  | s, .marker _ :: tokens, text :: texts => literalPaths (s.after text.toList) tokens texts
  | _, _, _ => []

/-- The states in which a scan reads what stands for the markers. -/
def markerPaths : QuoteState → List Token → List String → List (List QuoteState)
  | s, .literal _ :: tokens, text :: texts => markerPaths (s.after text.toList) tokens texts
  | s, .marker _ :: tokens, text :: texts =>
    s.path text.toList :: markerPaths (s.after text.toList) tokens texts
  | _, _, _ => []

/-- The text that a token has in the template alone, the markers being skipped. -/
def aloneText : Token → String
  | .literal text => text
  | .marker _ => ""

/-- Texts of tokens are read as the tokens say. -/
structure ReadsAlike (s : QuoteState) (tokens : List Token) (texts : List String) : Prop where
  /-- What stands for a marker begins and ends outside all quotes. -/
  markers : ∀ path ∈ markerPaths s tokens texts,
    path.head? = some .outside ∧ path.getLast? = some .outside
  /-- Every character of the plain text is read in the state in which it is read when the
  markers are skipped. -/
  literals : literalPaths s tokens texts = literalPaths s tokens (tokens.map aloneText)

namespace ReadsAlike

/-- Plain text is read from the same state on both sides. -/
theorem literal {s : QuoteState} {text : String} {tokens : List Token} {texts : List String}
    (h : ReadsAlike (s.after text.toList) tokens texts) :
    ReadsAlike s (.literal text :: tokens) (text :: texts) := by
  refine ⟨h.markers, ?_⟩
  rw [literalPaths, h.literals]
  rfl

/-- A balanced text in the place of a marker changes nothing for the rest. -/
theorem marker {kind : Placeholder} {text : String} {tokens : List Token}
    {texts : List String} (hbalanced : Balanced text)
    (h : ReadsAlike .outside tokens texts) :
    ReadsAlike .outside (.marker kind :: tokens) (text :: texts) := by
  have hafter : QuoteState.outside.after text.toList = .outside := hbalanced
  constructor
  · rw [markerPaths, hafter, List.forall_mem_cons]
    refine ⟨⟨QuoteState.head?_path _ _, ?_⟩, h.markers⟩
    rw [QuoteState.getLast?_path, hafter]
  · rw [literalPaths, hafter, h.literals]
    rfl

end ReadsAlike

/-- With safe arguments the texts of the tokens are read as the tokens say. -/
theorem Rendered.readsAlike {b : Builder} (hb : b.escaper = .mysql) {tokens : List Token}
    {args : List Value} {texts : List String} (h : Rendered b tokens args texts)
    (hsafe : SafeArguments tokens args) {s : QuoteState} (hclosed : ClosedAtMarkers s tokens) :
    ReadsAlike s tokens texts := by
  induction h generalizing s with
  | done => exact ⟨by simp [markerPaths], rfl⟩
  | literal _ ih => exact (ih hsafe hclosed).literal
  | argument hwrites _ ih =>
    obtain ⟨rfl, hclosed⟩ := hclosed
    exact (ih hsafe.2 hclosed).marker (Literal.balanced_argument hb hsafe.1 hwrites)
  | missing hwrites _ ih =>
    obtain ⟨rfl, hclosed⟩ := hclosed
    exact (ih hsafe.2 hclosed).marker (Literal.balanced_neutral hwrites)

/-- The texts of the tokens of a template in a finished statement. -/
def Splits (b : Builder) (template : String) (args : List Value) (sql : String)
    (texts : List String) : Prop :=
  Rendered b (tokens template) args texts ∧ sql = String.join texts

/-- A template that leaves no quotes open at its markers is read in the same way with
any two lists of safe arguments, in either mode: every argument begins and ends outside
all quotes, and the characters of the template are read in the states in which they are
read in the template alone. -/
theorem quotes_independent_of_arguments {template : String}
    (hclosed : ClosedAtMarkers .outside (tokens template)) {strict strict' : Bool}
    {args args' : List Value} (hsafe : SafeArguments (tokens template) args)
    (hsafe' : SafeArguments (tokens template) args') {sql sql' : String}
    (h : ((⟨.mysql, strict⟩ : Builder).substitute template args).result = .ok sql)
    (h' : ((⟨.mysql, strict'⟩ : Builder).substitute template args').result = .ok sql') :
    ∃ texts texts', Splits ⟨.mysql, strict⟩ template args sql texts ∧
      Splits ⟨.mysql, strict'⟩ template args' sql' texts' ∧
      ReadsAlike .outside (tokens template) texts ∧
      ReadsAlike .outside (tokens template) texts' ∧
      literalPaths .outside (tokens template) texts =
        literalPaths .outside (tokens template) texts' := by
  obtain ⟨texts, hrendered, hjoined⟩ := rendered_of_substitute h
  obtain ⟨texts', hrendered', hjoined'⟩ := rendered_of_substitute h'
  have hreads := hrendered.readsAlike rfl hsafe hclosed
  have hreads' := hrendered'.readsAlike rfl hsafe' hclosed
  exact ⟨texts, texts', ⟨hrendered, hjoined⟩, ⟨hrendered', hjoined'⟩, hreads, hreads',
    hreads.literals.trans hreads'.literals.symm⟩

/-- Three arguments full of quotes, one of them missing, and four harmless ones leave the
template alike. -/
theorem quotes_independent_of_quoted_arguments :
    let template := "SELECT 'it''s ?' FROM ?n WHERE a = ?s AND b IN ?a LIMIT ?i"
    let args : List Value := [.str " t`.x ", .str "' OR 1=1 \\", .list [.str "\"", .list [.null]]]
    let args' : List Value := [.str "t", .str "\\", .list [], .int 5]
    ∃ texts texts',
      Splits ⟨.mysql, false⟩ template args
        ("SELECT 'it''s ?' FROM `t```.`x` WHERE a = '\\' OR 1=1 \\\\' " ++
          "AND b IN ('\\\"', '[null]') LIMIT 0") texts ∧
      Splits ⟨.mysql, true⟩ template args'
        "SELECT 'it''s ?' FROM `t` WHERE a = '\\\\' AND b IN () LIMIT 5" texts' ∧
      ReadsAlike .outside (tokens template) texts ∧
      ReadsAlike .outside (tokens template) texts' ∧
      literalPaths .outside (tokens template) texts =
        literalPaths .outside (tokens template) texts' := by
  intro template args args'
  have hclosed : ClosedAtMarkers .outside (tokens template) := by decide +kernel
  have hsafe : SafeArguments (tokens template) args := by decide +kernel
  have hsafe' : SafeArguments (tokens template) args' := by decide +kernel
  exact quotes_independent_of_arguments hclosed hsafe hsafe' (by decide +kernel) (by decide +kernel)

end Template

end SqlText
