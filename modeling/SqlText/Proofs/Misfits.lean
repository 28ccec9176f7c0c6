import SqlText.Proofs.NameText
import SqlText.Proofs.NumeralGrammar
import SqlText.Proofs.Problems

/-!
# Values that do not fit

Which values a builder takes for a marker, and what it says of one that it does not take.
A strict builder wants a value of the right type; it takes a text for a number if all of it,
blanks around it left out, is a numeral in range. A lenient one finds fault only with a list or
a map in the place of a single value, and with what cannot be a name.
-/

namespace SqlText

namespace Value

/-- A number, or a text that is not blank, can be a name. -/
def CountsAsName : Value → Prop
  | .int _ | .float _ => True
  | .str s => Text.isBlankText s = false
  | _ => False

/-- No value, an integer, or a text that denotes an integer of 64 bits. -/
def CountsAsInteger : Value → Prop
  | .null | .int _ => True
  | .str s => ∃ z, Number.Numeral.DenotesInt (Text.trimmed s.toList) z ∧ -2 ^ 63 ≤ z ∧ z < 2 ^ 63
  | _ => False

/-- No value, an integer, a finite number, or a text that denotes one. -/
def CountsAsNumber : Value → Prop
  | .null | .int _ => True
  | .float x => x.isFinite = true
  | .str s => ∃ q, Number.Numeral.DenotesRat (Text.trimmed s.toList) q ∧ |q| < Number.overflow
  | _ => False

/-- A list without a list or a map in it. -/
def IsFlatList : Value → Prop
  | .list items => ∀ item ∈ items, item.isComposite = false
  | _ => False

/-- A map without a list or a map in it. -/
def IsFlatMap : Value → Prop
  | .map entries => ∀ entry ∈ entries, entry.2.isComposite = false
  | _ => False

/-- The values in a list or a map. Any other value is the only one in itself. -/
def contents : Value → List Value
  | .list items => items
  | .map entries => entries.map Prod.snd
  | v => [v]

end Value

namespace Placeholder

/-- What a strict builder takes for a marker. -/
def Accepts (kind : Placeholder) (v : Value) : Prop :=
  match kind with
  | .name => v.CountsAsName
  | .string | .raw => v.isComposite = false
  | .integer => v.CountsAsInteger
  | .float _ => v.CountsAsNumber
  | .set => v.IsFlatList
  | .fields => v.IsFlatMap

/-- The word for the single value that is expected. -/
def expected : Placeholder → String
  | .name => "identifier"
  | .string | .set | .fields => "string"
  | .integer => "integer"
  | .float _ => "float"
  | .raw => "raw text"

/-- The word for the single value that is found. -/
def found (kind : Placeholder) (v : Value) : String :=
  match kind, v with
  | .name, .str _ => "empty name"
  | _, v => v.typeName

/-- A single value does not fit. -/
def misfit (kind : Placeholder) (v : Value) : Error := .typeMismatch kind.expected (kind.found v)

/-- What a strict builder answers to a value that it does not take. In a list for a set and in
a map for assignments this is about the first value that does not fit. -/
def refusal (kind : Placeholder) (v : Value) : Error :=
  match kind, v with
  | .set, .list items => kind.misfit ((items.find? Value.isComposite).getD .null)
  | .set, v => .typeMismatch "list" v.typeName
  | .fields, .map entries =>
    kind.misfit (((entries.map Prod.snd).find? Value.isComposite).getD .null)
  | .fields, v => .typeMismatch "map" v.typeName
  | kind, v => kind.misfit v

/-- The single values that a lenient builder looks at. -/
def positions (kind : Placeholder) (v : Value) : List Value :=
  match kind with
  | .set | .fields => v.contents
  | _ => [v]

/-- A lenient builder finds fault with the single value. -/
def offends (kind : Placeholder) (v : Value) : Bool :=
  match kind, v with
  | .name, .int _ | .name, .float _ => false
  | .name, .str s => Text.isBlankText s
  | .name, _ => true
  | _, v => v.isComposite

/-- The errors that a lenient builder passes over at the argument of a marker. -/
def offences (kind : Placeholder) (v : Value) : List Error :=
  ((kind.positions v).filter kind.offends).map kind.misfit

end Placeholder

namespace Literal

/-- An integer, or a single problem. -/
theorem problems_integer (strict : Bool) (v : Value) : (integer strict v).problems =
    if !(v.isNull || (if strict then strictInt? v else lenientInt? v).isSome) then
      [(Placeholder.integer.misfit v, none)]
    else [] := by
  unfold integer
  cases v.isNull with
  | true => rfl
  | false => cases (if strict then strictInt? v else lenientInt? v) <;> rfl

/-- A number, or a single problem. -/
theorem problems_float (strict : Bool) (precision : UInt32) (v : Value) :
    (float strict precision v).problems =
      if !(v.isNull || (if strict then strictFloat? v else lenientFloat? v).isSome) then
        [((Placeholder.float precision).misfit v, none)]
      else [] := by
  unfold float
  cases v.isNull with
  | true => rfl
  | false => cases (if strict then strictFloat? v else lenientFloat? v) <;> rfl

/-- A list or a map is not a string. -/
theorem problems_string (v : Value) : (string v).problems =
    if v.isComposite then [(Placeholder.string.misfit v, none)] else [] := by
  cases v <;> rfl

/-- A list or a map is not raw text. -/
theorem problems_raw (v : Value) : (raw v).problems =
    if v.isComposite then [(Placeholder.raw.misfit v, none)] else [] := by
  cases v <;> rfl

/-- A name is written without a problem. -/
theorem problems_draft (n : Name) : n.draft.problems = [] := by
  rw [Name.draft, Draft.problems_append, Draft.problems, Reading.ofDraft_intercalate,
    List.flatMap_map]
  exact List.append_eq_nil_iff.mpr ⟨List.flatMap_eq_nil_iff.mpr fun _ _ => rfl, rfl⟩

/-- A blank text is not a name. -/
theorem problems_name (s : String) : (name s).problems =
    if Text.isBlankText s then [(Placeholder.name.misfit (.str s), none)] else [] := by
  rw [← Name.isNone_parse?, name]
  cases Name.parse? s with
  | none => rfl
  | some n => exact problems_draft n

/-- What is neither a number nor a text that is not blank is not a name. -/
theorem problems_nameOf (v : Value) : (nameOf v).problems =
    if Placeholder.name.offends v then [(Placeholder.name.misfit v, none)] else [] := by
  cases v with
  | str s => exact problems_name s
  | int n =>
    have htext : Text.isBlankText (Value.int n).toText = false :=
      (Number.isNumeral_intText n).isBlankText
    exact (problems_name _).trans (if_neg (by simp [htext]))
  | float x =>
    have htext : Text.isBlankText (Value.float x).toText = false := x.isBlankText_plainText
    exact (problems_name _).trans (if_neg (by simp [htext]))
  | _ => rfl

/-- A single problem for every value of a list that is bad. -/
theorem flatMap_problem {α : Type} (bad : α → Bool) (problem : α → Problem) (values : List α) :
    (values.flatMap fun v => if bad v then [problem v] else []) =
      (values.filter bad).map problem := by
  induction values with
  | nil => rfl
  | cons v values ih =>
    rw [List.flatMap_cons, ih, List.filter_cons]
    cases bad v <;> rfl

/-- A problem for every item that is a list or a map. -/
theorem problems_setOf (items : List Value) : (setOf items).problems =
    (items.filter Value.isComposite).map fun item => (Placeholder.set.misfit item, none) := by
  rw [← flatMap_problem, setOf, List.cons_append, Draft.problems_fixed, Draft.problems_append,
    Draft.problems, Reading.ofDraft_intercalate, List.flatMap_map, Draft.problems_fixed,
    Draft.problems_nil, List.append_nil]
  exact List.flatMap_congr fun item _ => problems_string item

/-- A problem for every value that is a list or a map. -/
theorem problems_assignments (entries : List (String × Value)) :
    Draft.problems ([Piece.fixed ", "].intercalate (entries.map assignment)) =
      ((entries.map Prod.snd).filter Value.isComposite).map fun v =>
        (Placeholder.fields.misfit v, none) := by
  rw [← flatMap_problem, Draft.problems, Reading.ofDraft_intercalate, List.flatMap_map,
    List.flatMap_map]
  exact List.flatMap_congr fun entry _ => problems_string entry.2

/-- What counts as an integer is what a strict builder finds to be one. -/
theorem countsAsInteger_iff (v : Value) :
    v.CountsAsInteger ↔ (v.isNull || (strictInt? v).isSome) = true := by
  cases v with
  | str s =>
    rw [Value.isNull, Bool.false_or, strictInt?]
    · exact isSome_intText?.symm
    · simp
  | _ => simp [Value.isNull, strictInt?, Value.CountsAsInteger]

/-- What counts as a number is what a strict builder finds to be one. -/
theorem countsAsNumber_iff (v : Value) :
    v.CountsAsNumber ↔ (v.isNull || (strictFloat? v).isSome) = true := by
  cases v with
  | str s =>
    rw [Value.isNull, Bool.false_or, strictFloat?]
    · exact isSome_finiteText?.symm
    · simp
  | float x =>
    cases hfinite : x.isFinite <;>
      simp [Value.isNull, strictFloat?, finite?, Value.CountsAsNumber, hfinite]
  | _ => simp [Value.isNull, strictFloat?, Value.CountsAsNumber]

/-- A lenient builder looks at the contents of every value for a set. -/
theorem setItems_lenient (v : Value) : setItems false v = some v.contents := by
  cases v <;> rfl

/-- A lenient builder assigns the contents of every value. -/
theorem exists_fieldEntries_lenient (v : Value) :
    ∃ entries, fieldEntries false v = some entries ∧ entries.map Prod.snd = v.contents := by
  cases v with
  | map entries => exact ⟨entries, rfl, rfl⟩
  | list items =>
    refine ⟨_, rfl, ?_⟩
    rw [List.map_map]
    exact List.zipIdx_map_fst 0 items
  | _ => exact ⟨_, rfl, rfl⟩

/-- Of a single value there is at most one offence. -/
theorem problems_of_single (kind : Placeholder) (v : Value) (h : kind.positions v = [v]) :
    ((kind.offences v).map fun e => (e, none) : List Problem) =
      if kind.offends v then [(kind.misfit v, none)] else [] := by
  rw [Placeholder.offences, h]
  cases hoffends : kind.offends v <;> simp [hoffends]

/-- A lenient builder finds the offences of an argument and no other problem. -/
theorem problems_argument_lenient (kind : Placeholder) (v : Value) :
    (argument false kind v).problems = (kind.offences v).map fun e => (e, none) := by
  cases kind with
  | name => exact (problems_nameOf v).trans (problems_of_single .name v rfl).symm
  | string => exact (problems_string v).trans (problems_of_single .string v rfl).symm
  | raw => exact (problems_raw v).trans (problems_of_single .raw v rfl).symm
  | integer =>
    rw [problems_of_single .integer v rfl]
    refine (problems_integer false v).trans ?_
    cases v <;> rfl
  | float precision =>
    rw [problems_of_single (.float precision) v rfl]
    refine (problems_float false precision v).trans ?_
    cases v <;> rfl
  | set =>
    rw [argument, set, setItems_lenient, Placeholder.offences, List.map_map]
    exact problems_setOf v.contents
  | fields =>
    obtain ⟨entries, hentries, hcontents⟩ := exists_fieldEntries_lenient v
    rw [argument, fields, hentries, Placeholder.offences, List.map_map, Placeholder.positions,
      ← hcontents]
    exact problems_assignments entries

end Literal

/-- In a value that is accepted there are no problems, and in any other the refusal is the
first. -/
structure Decides (accepted : Prop) (refusal : Error) (problems : List Problem) : Prop where
  /-- Nothing is found in a value that is accepted. -/
  accepts : accepted → problems = []
  /-- In any other value the refusal is found first. -/
  refuses : ¬accepted → ∃ rest, problems = (refusal, none) :: rest

namespace Decides

variable {accepted : Prop} {refusal : Error}

/-- A single test decides. -/
theorem of_test {bad : Bool} (h : accepted ↔ bad = false) :
    Decides accepted refusal (if bad then [(refusal, none)] else []) where
  accepts haccepted := by
    rw [h.mp haccepted]
    rfl
  refuses hrefused := by
    have hbad : bad = true := Bool.not_eq_false _ ▸ fun hgood => hrefused (h.mpr hgood)
    exact ⟨[], if_pos hbad⟩

/-- The test of every item decides, in the order of the items. -/
theorem of_items (kind : Placeholder) (items : List Value) :
    Decides (∀ item ∈ items, item.isComposite = false)
      (kind.misfit ((items.find? Value.isComposite).getD .null))
      ((items.filter Value.isComposite).map fun item => (kind.misfit item, none)) where
  accepts hflat := by
    have hfilter : items.filter Value.isComposite = [] :=
      List.filter_eq_nil_iff.mpr fun item hitem => by simp [hflat item hitem]
    rw [hfilter, List.map_nil]
  refuses hnested := by
    rw [← List.head?_filter]
    cases hfilter : items.filter Value.isComposite with
    | nil =>
      refine absurd (fun item hitem => ?_) hnested
      exact Bool.not_eq_true _ ▸ List.filter_eq_nil_iff.mp hfilter item hitem
    | cons item rest => exact ⟨_, rfl⟩

end Decides

/-- A strict builder takes an argument without a problem, or refuses it first of all. -/
theorem Placeholder.decides (kind : Placeholder) (v : Value) :
    Decides (kind.Accepts v) (kind.refusal v) (Literal.argument true kind v).problems := by
  cases kind with
  | name =>
    rw [Literal.argument, Literal.problems_nameOf]
    refine .of_test ?_
    cases v <;> simp [offends, Accepts, Value.CountsAsName]
  | string =>
    rw [Literal.argument, Literal.problems_string]
    exact .of_test Iff.rfl
  | raw =>
    rw [Literal.argument, Literal.problems_raw]
    exact .of_test Iff.rfl
  | integer =>
    rw [Literal.argument, Literal.problems_integer]
    refine .of_test ?_
    rw [Bool.not_eq_false']
    exact Literal.countsAsInteger_iff v
  | float precision =>
    rw [Literal.argument, Literal.problems_float]
    refine .of_test ?_
    rw [Bool.not_eq_false']
    exact Literal.countsAsNumber_iff v
  | set =>
    cases v with
    | list items =>
      have hproblems := Literal.problems_setOf items
      exact hproblems ▸ Decides.of_items .set items
    | _ => exact ⟨False.elim, fun _ => ⟨[], rfl⟩⟩
  | fields =>
    cases v with
    | map entries =>
      have hflat : (Value.map entries).IsFlatMap ↔
          ∀ v ∈ entries.map Prod.snd, v.isComposite = false := by
        rw [List.forall_mem_map]
        rfl
      have hproblems := Literal.problems_assignments entries
      rw [Accepts, hflat]
      exact hproblems ▸ Decides.of_items .fields (entries.map Prod.snd)
    | _ => exact ⟨False.elim, fun _ => ⟨[], rfl⟩⟩

end SqlText
