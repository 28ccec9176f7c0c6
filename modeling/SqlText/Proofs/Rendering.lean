import SqlText.Proofs.Carrying
import SqlText.Template.Substitution

/-!
# The text of every token

A substituted template is one text for each of its tokens: plain text stands as it
is, a marker has what is written for its own argument, and a marker after the last
argument has its neutral text. Problems leave nothing between them.
-/

namespace SqlText

namespace Template

/-- What a builder writes for each token, the arguments being taken in order. -/
inductive Rendered (b : Builder) : List Token → List Value → List String → Prop where
  /-- No token is left. -/
  | done {args : List Value} : Rendered b [] args []
  /-- Plain text stands as it is. -/
  | literal {text : String} {tokens : List Token} {args : List Value} {texts : List String} :
      Rendered b tokens args texts → Rendered b (.literal text :: tokens) args (text :: texts)
  /-- A marker takes the next argument. -/
  | argument {kind : Placeholder} {v : Value} {text : String} {tokens : List Token}
      {args : List Value} {texts : List String} :
      b.Writes (Literal.argument b.strict kind v) text → Rendered b tokens args texts →
        Rendered b (.marker kind :: tokens) (v :: args) (text :: texts)
  /-- A marker after the last argument is neutral. -/
  | missing {kind : Placeholder} {text : String} {tokens : List Token} {texts : List String} :
      b.Writes (Literal.neutral kind) text → Rendered b tokens [] texts →
        Rendered b (.marker kind :: tokens) [] (text :: texts)

variable {b : Builder}

/-- Filled tokens are written token by token. -/
theorem rendered_of_writes_fill {missing surplus : Draft}
    (hmissing : ∀ t, b.Writes missing t → t = "") (hsurplus : ∀ t, b.Writes surplus t → t = "")
    {tokens : List Token} {args : List Value} {s : String}
    (h : b.Writes (fill b.strict missing surplus tokens args) s) :
    ∃ texts, Rendered b tokens args texts ∧ s = String.join texts := by
  induction tokens generalizing missing args s with
  | nil =>
    refine ⟨[], .done, ?_⟩
    cases args with
    | nil => exact Builder.writes_nil.mp h
    | cons v args => exact hsurplus s h
  | cons token tokens ih =>
    cases token with
    | literal text =>
      obtain ⟨t, u, ht, hu, rfl⟩ := Builder.writes_cons.mp h
      obtain ⟨texts, htexts, rfl⟩ := ih hmissing hu
      refine ⟨text :: texts, .literal htexts, ?_⟩
      rw [Builder.writes_fixed.mp ht, String.join_cons]
    | marker kind =>
      cases args with
      | nil =>
        obtain ⟨t, u, ht, hu, rfl⟩ := Builder.writes_append.mp h
        obtain ⟨v, w, hv, hw, rfl⟩ := Builder.writes_append.mp ht
        obtain ⟨texts, htexts, rfl⟩ := ih (fun t ht => Builder.writes_nil.mp ht) hu
        refine ⟨w :: texts, .missing hw htexts, ?_⟩
        rw [hmissing v hv, String.empty_append, String.join_cons]
      | cons v args =>
        obtain ⟨t, u, ht, hu, rfl⟩ := Builder.writes_append.mp h
        obtain ⟨texts, htexts, rfl⟩ := ih hmissing hu
        exact ⟨t :: texts, .argument ht htexts, String.join_cons.symm⟩

/-- A substituted template is written token by token. -/
theorem rendered_of_substitute {template : String} {args : List Value} {sql : String}
    (h : (b.substitute template args).result = .ok sql) :
    ∃ texts, Rendered b (tokens template) args texts ∧ sql = String.join texts := by
  rw [Builder.substitute, Builder.result_finish] at h
  have hproblem (t : String) (ht : b.Writes [countProblem template args.length] t) : t = "" :=
    (Builder.writes_problem.mp ht).2
  refine rendered_of_writes_fill hproblem (fun t ht => ?_) h
  split at ht
  · exact hproblem t ht
  · exact Builder.writes_nil.mp ht

end Template

end SqlText
