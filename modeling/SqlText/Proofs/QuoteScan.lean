import SqlText.Proofs.NameText
import SqlText.Proofs.NumeralText

/-!
# A scan for quotes

Whoever looks for the end of a quoted text goes through a statement character by
character and keeps in mind inside which quotes it stands. A text is balanced if such
a scan, outside all quotes before the text, is outside again after it. Every literal
that is put in the place of an argument is balanced.
-/

namespace SqlText

/-- The marks that open and close a quoted text. -/
inductive Quote where
  /-- A single quote, around a string. -/
  | single
  /-- A double quote, around a string. -/
  | double
  /-- A backtick, around an identifier. -/
  | backtick
  deriving DecidableEq, Repr

namespace Quote

/-- The character of a mark. -/
def char : Quote → Char
  | single => '\''
  | double => '"'
  | backtick => '\x60'

/-- The mark of a character. -/
def ofChar? : Char → Option Quote
  | '\'' => some single
  | '"' => some double
  | '\x60' => some backtick
  | _ => none

/-- A backslash between these marks takes the meaning of the next character away. -/
def hasBackslash : Quote → Bool
  | single | double => true
  | backtick => false

end Quote

/-- Where a scan stands. -/
inductive QuoteState where
  /-- Outside all quotes. -/
  | outside
  /-- Inside a quoted text. -/
  | inside (quote : Quote)
  /-- Inside a quoted text, after a backslash. -/
  | escaped (quote : Quote)
  deriving DecidableEq, Repr

namespace QuoteState

/-- The state after one character. The mark of the quotes ends them, so a doubled
one leaves and enters again. -/
def step : QuoteState → Char → QuoteState
  | outside, c =>
    match Quote.ofChar? c with
    | some quote => inside quote
    | none => outside
  | inside quote, c =>
    if c = quote.char then outside
    else if quote.hasBackslash && c == '\\' then escaped quote
    else inside quote
  | escaped quote, _ => inside quote

/-- The state after a text. -/
def after (s : QuoteState) (cs : List Char) : QuoteState := cs.foldl step s

/-- The states before, between and after the characters of a text. -/
def path (s : QuoteState) : List Char → List QuoteState
  | [] => [s]
  | c :: cs => s :: (s.step c).path cs

/-- The scan of two texts one after the other. -/
theorem after_append (s : QuoteState) (cs ds : List Char) :
    s.after (cs ++ ds) = (s.after cs).after ds :=
  List.foldl_append

/-- The scan starts in its first state. -/
theorem head?_path (s : QuoteState) (cs : List Char) : (s.path cs).head? = some s := by
  cases cs <;> rfl

/-- The scan ends in the state after the text. -/
theorem getLast?_path (s : QuoteState) (cs : List Char) :
    (s.path cs).getLast? = some (s.after cs) := by
  induction cs generalizing s with
  | nil => rfl
  | cons c cs ih =>
    have h := ih (s.step c)
    cases hpath : (s.step c).path cs with
    | nil => simp [hpath] at h
    | cons first rest =>
      rw [hpath] at h
      rw [path, hpath, List.getLast?_cons_cons, h]
      rfl

/-- Nothing happens to a state that every character keeps. -/
theorem after_eq_self {s : QuoteState} {cs : List Char} (h : ∀ c ∈ cs, s.step c = s) :
    s.after cs = s := by
  induction cs with
  | nil => rfl
  | cons c cs ih =>
    rw [List.forall_mem_cons] at h
    rw [after, List.foldl_cons, h.1]
    exact ih h.2

/-- Nothing happens to a state that the code of every character keeps. -/
theorem after_flatMap_eq_self {s : QuoteState} {code : Char → List Char}
    (h : ∀ c, s.after (code c) = s) (cs : List Char) : s.after (cs.flatMap code) = s := by
  induction cs with
  | nil => rfl
  | cons c cs ih => rw [List.flatMap_cons, after_append, h, ih]

/-- An escaped string leaves no single quotes. -/
theorem after_stringBody (s : String) :
    (inside .single).after (Escaper.stringBody s).toList = inside .single := by
  rw [Escaper.stringBody, String.toList_ofList]
  refine after_flatMap_eq_self (fun c => ?_) _
  unfold Escaper.stringChar
  split
  case h_8 _ _ _ _ hbackslash hquote _ _ =>
    have hc : c ≠ '\'' ∧ c ≠ '\\' := ⟨hquote, hbackslash⟩
    simp [after, step, Quote.char, hc]
  all_goals rfl

/-- An escaped identifier leaves no backticks. -/
theorem after_identifierBody (s : String) :
    (inside .backtick).after (Escaper.identifierBody s).toList = inside .backtick := by
  rw [Escaper.identifierBody, String.toList_ofList]
  refine after_flatMap_eq_self (fun c => ?_) _
  unfold Escaper.identifierChar
  split
  · rfl
  · rename_i hc
    simp [after, step, Quote.char, Quote.hasBackslash, hc]

end QuoteState

/-- A scan that is outside all quotes before the text is outside after it. -/
def Balanced (text : String) : Prop :=
  QuoteState.outside.after text.toList = .outside

instance (text : String) : Decidable (Balanced text) :=
  inferInstanceAs (Decidable (_ = QuoteState.outside))

namespace Balanced

/-- A text without marks. -/
theorem of_plain {text : String} (h : ∀ c ∈ text.toList, Quote.ofChar? c = none) :
    Balanced text :=
  QuoteState.after_eq_self fun c hc => by simp only [QuoteState.step, h c hc]

/-- Two balanced texts one after the other. -/
theorem append {s t : String} (hs : Balanced s) (ht : Balanced t) : Balanced (s ++ t) := by
  unfold Balanced at hs ht ⊢
  rw [String.toList_append, QuoteState.after_append, hs, ht]

/-- A body between its quotes. -/
theorem enclosed (quote : Quote) {body : String}
    (h : (QuoteState.inside quote).after body.toList = .inside quote) :
    Balanced (Builder.enclosed quote.char body) := by
  have hopen : QuoteState.outside.after [quote.char] = .inside quote := by
    cases quote <;> rfl
  have hclose : (QuoteState.inside quote).after [quote.char] = .outside := by
    cases quote <;> rfl
  unfold Balanced Builder.enclosed
  rw [String.toList_append, String.toList_append, String.toList_singleton,
    QuoteState.after_append, QuoteState.after_append, hopen, h, hclose]

end Balanced

/-- A digit is no mark of a quoted text. -/
theorem Quote.ofChar?_of_isDigit {c : Char} (h : c.isDigit = true) : ofChar? c = none := by
  unfold ofChar?
  split <;> first | rfl | simp at h

/-- A numeral has no quotes. -/
theorem Number.IsNumeral.balanced {s : String} (h : IsNumeral s.toList) : Balanced s := by
  refine Balanced.of_plain fun c hc => ?_
  have hminus {negative : Bool} (hc : c ∈ minus negative) : Quote.ofChar? c = none := by
    cases negative with
    | false => cases hc
    | true =>
      rw [List.mem_singleton.mp hc]
      rfl
  generalize s.toList = cs at h hc
  cases h with
  | integer negative hwhole =>
    rcases List.mem_append.mp hc with hc | hc
    · exact hminus hc
    · exact Quote.ofChar?_of_isDigit (hwhole.2 c hc)
  | decimal negative hwhole hfraction =>
    rcases List.mem_append.mp hc with hc | hc
    · exact hminus hc
    rcases List.mem_append.mp hc with hc | hc
    · exact Quote.ofChar?_of_isDigit (hwhole.2 c hc)
    · rcases List.mem_cons.mp hc with rfl | hc
      · rfl
      · exact Quote.ofChar?_of_isDigit (hfraction.2 c hc)

end SqlText
