import SqlText.Template.Substitution

/-!
# Markers and their arguments

The arguments of a template go to its markers in order, one to each. The draft of a
template is therefore the draft of the pairs, as far as there are both markers and
arguments; what comes after it is at most the problem that the two differ in number, and
the neutral texts of the markers that are left.
-/

namespace SqlText

/-- The kind of a marker. -/
def Token.kind? : Token → Option Placeholder
  | .literal _ => none
  | .marker kind => some kind

namespace Template

/-- The kinds of the markers in order. -/
def kinds (tokens : List Token) : List Placeholder := tokens.filterMap Token.kind?

/-- Plain text is no marker. -/
@[simp] theorem kinds_literal (text : String) (tokens : List Token) :
    kinds (.literal text :: tokens) = kinds tokens := rfl

/-- A marker has its kind. -/
@[simp] theorem kinds_marker (kind : Placeholder) (tokens : List Token) :
    kinds (.marker kind :: tokens) = kind :: kinds tokens := rfl

/-- Tokens one after another have their markers one after another. -/
theorem kinds_append (ts us : List Token) : kinds (ts ++ us) = kinds ts ++ kinds us :=
  List.filterMap_append

/-- There are as many placeholders as kinds of markers. -/
theorem placeholderCount_eq (template : String) :
    placeholderCount template = (kinds (tokens template)).length := by
  unfold placeholderCount
  induction tokens template with
  | nil => rfl
  | cons token rest ih =>
    cases token with
    | literal text => rw [List.countP_cons_of_neg (by simp [Token.isMarker]), kinds_literal, ih]
    | marker kind =>
      rw [List.countP_cons_of_pos rfl, kinds_marker, List.length_cons, ih]

/-- The draft of tokens with their arguments, up to the first marker that has none. -/
def paired (strict : Bool) : List Token → List Value → Draft
  | [], _ => []
  | .literal text :: rest, args => .fixed text :: paired strict rest args
  | .marker kind :: rest, v :: args =>
    Literal.argument strict kind v ++ paired strict rest args
  | .marker _ :: _, [] => []

variable {strict : Bool} {missing surplus : Draft} {ts us : List Token}
  {args more : List Value}

/-- Markers that have an argument each are drafted with them. -/
theorem fill_eq_paired (h : (kinds ts).length = args.length) :
    fill strict missing surplus ts args = paired strict ts args := by
  induction ts generalizing args with
  | nil =>
    rw [List.length_eq_zero_iff.mp h.symm]
    rfl
  | cons token ts ih =>
    cases token with
    | literal text => rw [fill, paired, ih h]
    | marker kind =>
      cases args with
      | nil => simp at h
      | cons v args => rw [fill, paired, ih (Nat.succ.inj h)]

/-- Arguments that are left over come after all pairs. -/
theorem fill_of_surplus (h : (kinds ts).length < args.length) :
    fill strict missing surplus ts args = paired strict ts args ++ surplus := by
  induction ts generalizing args with
  | nil =>
    cases args with
    | nil => simp at h
    | cons v args => rfl
  | cons token ts ih =>
    cases token with
    | literal text => rw [fill, paired, ih h, List.cons_append]
    | marker kind =>
      cases args with
      | nil => simp at h
      | cons v args => rw [fill, paired, ih (Nat.lt_of_succ_lt_succ h), List.append_assoc]

/-- Where the arguments run out, the first marker without one comes after all pairs. -/
theorem fill_of_missing (h : args.length < (kinds ts).length) :
    ∃ rest, fill strict missing surplus ts args = paired strict ts args ++ (missing ++ rest) := by
  induction ts generalizing args with
  | nil => simp [kinds] at h
  | cons token ts ih =>
    cases token with
    | literal text =>
      obtain ⟨rest, hrest⟩ := ih h
      exact ⟨rest, by rw [fill, paired, hrest, List.cons_append]⟩
    | marker kind =>
      cases args with
      | nil => exact ⟨_, List.append_assoc _ _ _⟩
      | cons v args =>
        obtain ⟨rest, hrest⟩ := ih (Nat.lt_of_succ_lt_succ h)
        exact ⟨rest, by rw [fill, paired, hrest, List.append_assoc]⟩

/-- Tokens one after another take their arguments one after another. -/
theorem paired_append (h : (kinds ts).length = args.length) :
    paired strict (ts ++ us) (args ++ more) = paired strict ts args ++ paired strict us more := by
  induction ts generalizing args with
  | nil =>
    rw [List.length_eq_zero_iff.mp h.symm]
    rfl
  | cons token ts ih =>
    cases token with
    | literal text => rw [List.cons_append, paired, paired, ih h, List.cons_append]
    | marker kind =>
      cases args with
      | nil => simp at h
      | cons v args =>
        rw [List.cons_append, List.cons_append, paired, paired, ih (Nat.succ.inj h),
          List.append_assoc]

end Template

end SqlText
