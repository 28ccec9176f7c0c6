import SqlText.Proofs.Description.Reading
import SqlText.Proofs.Json.Text

/-!
# Descriptions survive JSON

The text that a statement is written as is read back as the statement, and so is every text
that shows the statement. One thing must hold of the members under unknown keys, too: a
number among them must not be too large, a string not have half of a surrogate pair, for a
statement is taken in as a whole before its members are read.
-/

namespace SqlText

open Json Json.Progress

namespace Statement

/-- A statement is read back from its own text, and from every text that shows it if everything
in the text can be read. Maps have distinct keys, floating-point numbers read back from their
own texts, and arrays and objects do not nest deeper than the reader goes. -/
theorem survives_json (s : Statement) (hkeyed : s.toValue.IsKeyed)
    (hfloats : ∀ p ∈ s.toValue.parts, p.ReadsBack)
    (hnesting : s.toValue.tree.nesting ≤ deepest) :
    (ofText? s.toValue.jsonText).bind ofJson? = some s ∧
      ∀ text j, ofText? text = some j → s.ShownBy j → j.isReadable deepest = true →
        (ofText? text).bind ofJson? = some s := by
  have hall (text : String) (j : Json) (htext : ofText? text = some j) (hshown : s.ShownBy j)
      (hread : j.isReadable deepest = true) : (ofText? text).bind ofJson? = some s := by
    rw [htext, Option.bind_some]
    exact ofJson?_of_shownBy hkeyed hshown hread
  refine ⟨?_, hall⟩
  apply hall _ _ (s.toValue.ofText?_jsonText hfloats) s.shownBy_tree
  exact s.toValue.isReadable_tree hnesting

/-- A typed condition with the default connector. -/
def priceCondition : Condition := ⟨⟨"price", .float, .float (.nearest false 1 10), 2⟩, .and⟩

/-- A pair whose value has keys that are not in order. -/
def tagsPair : Entry := .pair "tags" (.map [("z", .int 1), ("a", .list [.null, .str "1"])])

/-- A query with both kinds of entries. -/
def itemsQuery : Statement :=
  .select { source := "items", conditions := [.typed priceCondition, tagsPair] }

/-- The same query with its keys turned around. Those with a default are left out, and there
is one that is not known. -/
def itemsQueryTurned : Value :=
  .map
    [("where", .list
        [.map [("decimals", .int 2), ("value", .float (.nearest false 1 10)),
            ("type", .str "float"), ("name", .str "price")],
          .list [.str "tags", .map [("z", .int 1), ("a", .list [.null, .str "1"])]]]),
      ("from", .str "items"), ("statement", .str "select"), ("limit", .int 3)]

/-- The query is shown with its keys turned around. -/
theorem itemsQuery_shownBy_turned : itemsQuery.ShownBy itemsQueryTurned.tree := by
  have hcondition : Written priceCondition.slots _ :=
    .keep rfl (.keep rfl (.keep rfl (.keep rfl (.leave rfl .nil))))
  have htyped : Entry.ShownBy (.typed priceCondition) _ :=
    hcondition.shows_turned [] (List.forall_mem_nil _)
  have hpair : tagsPair.ShownBy _ := rfl
  have hquery : Written (.value "statement" (.str itemsQuery.word) False :: itemsQuery.slots) _ :=
    .keep rfl (.leave rfl (.keep rfl (.leave rfl (.keep ⟨_, rfl, .cons htyped (.cons hpair .nil)⟩
      (.leave rfl (.leave rfl (.leave rfl .nil)))))))
  refine hquery.shows_turned [(some "limit", .number (.int 3))] ?_
  rw [List.forall_mem_singleton]
  have hlimit : "limit" ∉ ["statement", "fields", "from", "joins", "where", "group_by", "having",
      "order_by"] := by decide
  exact ⟨_, rfl, hlimit⟩

/-- The query survives, with its own keys and with its keys turned around. -/
theorem survives_json_turned :
    (itemsQuery.toValue.IsKeyed ∧ (∀ p ∈ itemsQuery.toValue.parts, p.ReadsBack) ∧
      itemsQuery.toValue.tree.nesting ≤ deepest) ∧
    (ofText? itemsQuery.toValue.jsonText).bind ofJson? = some itemsQuery ∧
      (ofText? itemsQueryTurned.jsonText).bind ofJson? = some itemsQuery := by
  have hkeyed : itemsQuery.toValue.IsKeyed := by decide +kernel
  have hfloats : ∀ p ∈ itemsQuery.toValue.parts, p.ReadsBack := by decide +kernel
  have hnesting : itemsQuery.toValue.tree.nesting ≤ deepest := by decide +kernel
  obtain ⟨hown, hall⟩ := survives_json itemsQuery hkeyed hfloats hnesting
  refine ⟨⟨hkeyed, hfloats, hnesting⟩, hown, ?_⟩
  apply hall _ _ (itemsQueryTurned.ofText?_jsonText ?_) itemsQuery_shownBy_turned
  · decide +kernel
  · decide +kernel

/-- A DELETE with a number under an unknown key that is too large. -/
def deleteTooLarge : Json :=
  .object [(some "table", .string "t"), (some "statement", .string "delete"),
    (some "x", .tooLarge)]

/-- A number that is too large is not read even where nothing looks at it: the object shows the
DELETE and does not nest deep, but no statement is found in it. -/
theorem not_survives_tooLarge :
    ofText? "\x7b\"table\":\"t\",\"statement\":\"delete\",\"x\":1e999\x7d" = some deleteTooLarge ∧
      (delete "t" (.all [])).ShownBy deleteTooLarge ∧ deleteTooLarge.nesting ≤ deepest ∧
        ofJson? deleteTooLarge = none := by
  refine ⟨?_, ?_, by decide, rfl⟩
  · have hnumber : IsLeaf ['1', 'e', '9', '9', '9'] .tooLarge := by
      have hvalue : (NumberText.mk false ['1'] none (some 999)).value? = none := by decide +kernel
      have htree : ofNumberText ⟨false, ['1'], none, some 999⟩ = .tooLarge := by
        rw [ofNumberText, hvalue]
      rw [← htree]
      exact isLeaf_number rfl
    have hmembers : ∀ m ∈ [("table", quoted "t", Json.string "t"),
        ("statement", quoted "delete", .string "delete"),
        ("x", ['1', 'e', '9', '9', '9'], .tooLarge)], ReadsAs m.2.1 m.2.2 := by
      simp only [List.forall_mem_cons]
      exact ⟨readsAs_leaf (isLeaf_quoted _), readsAs_leaf (isLeaf_quoted _),
        readsAs_leaf hnumber, List.forall_mem_nil _⟩
    exact ReadsAs.ofText? (readsAs_object hmembers)
  · have hwritten : Written (.value "statement" (.str "delete") False ::
        (delete "t" (.all [])).slots) _ := .keep rfl (.keep rfl (.leave rfl .nil))
    refine hwritten.shows_turned [(some "x", .tooLarge)] ?_
    rw [List.forall_mem_singleton]
    have hunknown : "x" ∉ ["statement", "table", "conditions"] := by decide
    exact ⟨_, rfl, hunknown⟩

end Statement

end SqlText
