import SqlText.Json.Reader
import SqlText.Proofs.Json.Leaf

/-!
# The JSON text of a value

The text of a value is read as its tree. The reader goes through the text token by token, and
what carries the proof is what one value does to it, wherever it stands: the value goes to the
innermost array or object that is open, and nothing else changes.
-/

namespace SqlText

namespace Json

namespace Progress

variable {p : Progress} {c : Char} {cs rest : List Char} {t : Token}

/-- Reads on through a text. -/
def readOn (p : Progress) (cs : List Char) : Option Progress :=
  (tokens? cs).bind fun ts => ts.foldlM step p

/-- Nothing more to read. -/
theorem readOn_nil (p : Progress) : p.readOn [] = some p := by
  have htokens : tokens? [] = some [] := by
    rw [tokens?]
    rfl
  rw [readOn, htokens]
  rfl

/-- A token is read, and the reader goes on after it. -/
theorem readOn_token (hspace : isSpace c = false) (htoken : token? c cs = some (t, rest)) :
    p.readOn (c :: cs) = (p.step t).bind (·.readOn rest) := by
  have hdrop : (c :: cs).dropWhile isSpace = c :: cs :=
    List.dropWhile_cons_of_neg (Bool.eq_false_iff.mp hspace)
  have htokens : tokens? (c :: cs) = (tokens? rest).map (t :: ·) := by
    rw [tokens?]
    split
    · rename_i hnil
      rw [hdrop] at hnil
      cases hnil
    · rename_i hcons
      rw [hdrop] at hcons
      cases hcons
      split
      · rename_i hnone
        rw [htoken] at hnone
        cases hnone
      · rename_i hsome
        rw [htoken] at hsome
        cases hsome
        rfl
  unfold readOn
  rw [htokens]
  cases tokens? rest with
  | none => cases p.step t <;> rfl
  | some ts => rfl

/-- A value may come next. -/
def ExpectsValue : Awaiting → Prop
  | .value | .itemOrEnd => True
  | _ => False

/-- A key may come next, in an object with these members. -/
def ExpectsKey (a : Awaiting) (members : List (Option String × Json)) : Prop :=
  match a with
  | .keyOrEnd => members = []
  | .key before => members = before
  | _ => False

/-- Where a value may come next, every token but a closing bracket is read as its beginning. -/
theorem step_of_expectsValue {opened : List Container} {a : Awaiting} (ha : ExpectsValue a)
    (ht : t ≠ .closeArray) : step ⟨opened, a⟩ t = readValue opened t := by
  cases a with
  | value => rfl
  | itemOrEnd =>
    cases t with
    | closeArray => exact absurd rfl ht
    | _ => rfl
  | _ => cases ha

/-- Where a key may come next, a string is read as the key. -/
theorem step_of_expectsKey {opened : List Container} {a : Awaiting}
    {members : List (Option String × Json)} (ha : ExpectsKey a members) (s : String) :
    step ⟨opened, a⟩ (.leaf (.string s)) = some ⟨opened, .colon members (some s)⟩ := by
  cases a with
  | keyOrEnd =>
    cases ha
    rfl
  | key before =>
    cases ha
    rfl
  | _ => cases ha

/-- A text is read as a value, wherever one may come next and whatever stops it follows. -/
def ReadsAs (text : List Char) (j : Json) : Prop :=
  ∀ (a : Awaiting) (opened : List Container) (rest : List Char), ExpectsValue a → Stops rest →
    readOn ⟨opened, a⟩ (text ++ rest) = (receive j opened).readOn rest

/-- A punctuation character stops a number. -/
theorem stops_cons (h : c = ',' ∨ c = ']' ∨ c = '\x7d') (rest : List Char) : Stops (c :: rest) := by
  intro d hd
  cases hd
  rcases h with rfl | rfl | rfl <;> decide

/-- A leaf is read as its tree. -/
theorem readsAs_leaf {text : List Char} {j : Json} (h : IsLeaf text j) : ReadsAs text j := by
  intro a opened rest ha hrest
  obtain ⟨c, cs, rfl, hspace, htoken⟩ := h
  rw [List.cons_append, readOn_token hspace (htoken rest hrest), step_of_expectsValue ha (by simp)]
  rfl

/-- The items of an open array are read to its end. -/
theorem readOn_items {items : List (List Char × Json)} (h : ∀ i ∈ items, ReadsAs i.1 i.2)
    (hne : items ≠ []) {a : Awaiting} (ha : ExpectsValue a) (before : List Json)
    (outer : List Container) (rest : List Char) :
    readOn ⟨.array before :: outer, a⟩ ([','].intercalate (items.map Prod.fst) ++ ']' :: rest) =
      (receive (.array (before.reverse ++ items.map Prod.snd)) outer).readOn rest := by
  induction items generalizing a before with
  | nil => exact absurd rfl hne
  | cons i items ih =>
    obtain ⟨hi, hitems⟩ := List.forall_mem_cons.mp h
    have htrees : before.reverse ++ (i :: items).map Prod.snd =
        (i.2 :: before).reverse ++ items.map Prod.snd := by simp
    rw [htrees]
    cases items with
    | nil =>
      rw [List.map_singleton, List.intercalate_singleton, hi a _ _ ha (stops_cons (by simp) rest),
        readOn_token (c := ']') rfl rfl, List.map_nil, List.append_nil]
      rfl
    | cons i' items =>
      have hnext := ih hitems (List.cons_ne_nil _ _) (a := .value) trivial (i.2 :: before)
      rw [List.map_cons, List.map_cons, List.intercalate_cons_cons, List.append_assoc,
        List.append_assoc, List.singleton_append, hi a _ _ ha (stops_cons (by simp) _),
        readOn_token (c := ',') rfl rfl, ← hnext]
      rfl

/-- An array is read when its items are. -/
theorem readsAs_array {items : List (List Char × Json)} (h : ∀ i ∈ items, ReadsAs i.1 i.2) :
    ReadsAs ('[' :: [','].intercalate (items.map Prod.fst) ++ [']'])
      (.array (items.map Prod.snd)) := by
  intro a opened rest ha hrest
  have hopen : '[' :: [','].intercalate (items.map Prod.fst) ++ [']'] ++ rest =
      '[' :: ([','].intercalate (items.map Prod.fst) ++ ']' :: rest) := by simp
  rw [hopen, readOn_token (c := '[') rfl rfl, step_of_expectsValue ha (by simp)]
  by_cases hne : items = []
  · subst hne
    exact readOn_token (c := ']') rfl rfl
  · exact readOn_items h hne (a := .itemOrEnd) trivial [] opened rest

/-- A member as it is written: the key, a colon and the text of the value. -/
def memberText (m : String × List Char × Json) : List Char := quoted m.1 ++ ':' :: m.2.1

/-- A member as it is read: the key and the tree of the value. -/
def memberTree (m : String × List Char × Json) : Option String × Json := (some m.1, m.2.2)

/-- The members of an open object are read to its end. -/
theorem readOn_members {members : List (String × List Char × Json)}
    (h : ∀ m ∈ members, ReadsAs m.2.1 m.2.2) (hne : members ≠ []) {a : Awaiting}
    {before : List (Option String × Json)} (ha : ExpectsKey a before) (outer : List Container)
    (rest : List Char) :
    readOn ⟨outer, a⟩ ([','].intercalate (members.map memberText) ++ '\x7d' :: rest) =
      (receive (.object (before.reverse ++ members.map memberTree)) outer).readOn rest := by
  induction members generalizing a before with
  | nil => exact absurd rfl hne
  | cons m members ih =>
    obtain ⟨hm, hmembers⟩ := List.forall_mem_cons.mp h
    have htrees : before.reverse ++ (m :: members).map memberTree =
        (memberTree m :: before).reverse ++ members.map memberTree := by simp
    have hmember (rest : List Char) (hrest : Stops rest) :
        readOn ⟨outer, a⟩ (memberText m ++ rest) =
          readOn ⟨.object (memberTree m :: before) none :: outer, .more⟩ rest := by
      have hquoted : memberText m ++ rest =
          '"' :: (m.1.toList.flatMap escaped ++ '"' :: ':' :: (m.2.1 ++ rest)) := by
        simp [memberText, quoted]
      rw [hquoted, readOn_token rfl (token?_quoted _ _), step_of_expectsKey ha, Option.bind_some,
        readOn_token (c := ':') rfl rfl]
      exact hm .value _ _ trivial hrest
    rw [htrees]
    cases members with
    | nil =>
      rw [List.map_singleton, List.intercalate_singleton, hmember _ (stops_cons (by simp) rest),
        readOn_token (c := '\x7d') rfl rfl, List.map_nil, List.append_nil]
      rfl
    | cons m' members =>
      have hnext := ih hmembers (List.cons_ne_nil _ _) (a := .key (memberTree m :: before)) rfl
      rw [List.map_cons, List.map_cons, List.intercalate_cons_cons, List.append_assoc,
        List.append_assoc, List.singleton_append, hmember _ (stops_cons (by simp) _),
        readOn_token (c := ',') rfl rfl, ← hnext]
      rfl

/-- An object is read when the values of its members are. -/
theorem readsAs_object {members : List (String × List Char × Json)}
    (h : ∀ m ∈ members, ReadsAs m.2.1 m.2.2) :
    ReadsAs ('\x7b' :: [','].intercalate (members.map memberText) ++ ['\x7d'])
      (.object (members.map memberTree)) := by
  intro a opened rest ha hrest
  have hopen : '\x7b' :: [','].intercalate (members.map memberText) ++ ['\x7d'] ++ rest =
      '\x7b' :: ([','].intercalate (members.map memberText) ++ '\x7d' :: rest) := by simp
  rw [hopen, readOn_token (c := '\x7b') rfl rfl, step_of_expectsValue ha (by simp)]
  by_cases hne : members = []
  · subst hne
    exact readOn_token (c := '\x7d') rfl rfl
  · exact readOn_members h hne (a := .keyOrEnd) rfl opened rest

/-- A text that is read as a value is a text of it. -/
theorem ReadsAs.ofText? {text : String} {j : Json} (h : ReadsAs text.toList j) :
    ofText? text = some j := by
  have hstops : Stops [] := by simp [Stops]
  have hread := h .value [] [] trivial hstops
  rw [List.append_nil, readOn_nil] at hread
  obtain ⟨ts, htokens, hsteps⟩ := Option.bind_eq_some_iff.mp hread
  have hstart : ts.foldlM step start = some ⟨[], .done j⟩ := hsteps
  rw [Json.ofText?, htokens, Option.bind_eq_bind, Option.bind_some, hstart]
  rfl

end Progress

end Json

namespace Value

open Json Progress

/-- The items of a list as JSON. -/
theorem jsonItems_eq (items : List Value) : jsonItems items = items.map json := by
  induction items with
  | nil => rfl
  | cons item items ih => rw [jsonItems, ih, List.map_cons]

/-- The entries of a map as JSON. -/
theorem jsonEntries_eq (entries : List (String × Value)) :
    jsonEntries entries = entries.map fun e => memberText (e.1, e.2.json, e.2.tree) := by
  induction entries with
  | nil => rfl
  | cons e entries ih =>
    rw [jsonEntries, ih, List.map_cons]
    rfl

/-- The text of a value is read as its tree, if its floating-point numbers read back. -/
theorem readsAs_json (v : Value) (h : ∀ p ∈ v.parts, p.ReadsBack) : ReadsAs v.json v.tree := by
  induction v using Value.induction with
  | leaf v hleaf =>
    have hself : v ∈ v.parts := by cases v <;> simp [parts]
    exact readsAs_leaf (isLeaf_json hleaf (h v hself))
  | list items ih =>
    have hinside := (forall_parts_list.mp h).2
    have hitems : ∀ i ∈ items.map fun v => (v.json, v.tree), ReadsAs i.1 i.2 :=
      List.forall_mem_map.mpr fun v hv => ih v hv (hinside v hv)
    have hread := readsAs_array hitems
    rw [List.map_map, List.map_map] at hread
    rw [json, jsonItems_eq, tree_list]
    exact hread
  | map entries ih =>
    have hinside := (forall_parts_map.mp h).2
    have hmembers : ∀ m ∈ entries.map fun e => (e.1, e.2.json, e.2.tree), ReadsAs m.2.1 m.2.2 :=
      List.forall_mem_map.mpr fun e he => ih e he (hinside e he)
    have hread := readsAs_object hmembers
    rw [List.map_map, List.map_map] at hread
    rw [json, jsonEntries_eq, tree_map]
    exact hread

/-- The text of a value is a text of its tree, if its floating-point numbers read back. -/
theorem ofText?_jsonText (v : Value) (h : ∀ p ∈ v.parts, p.ReadsBack) :
    ofText? v.jsonText = some v.tree := by
  apply ReadsAs.ofText?
  rw [jsonText, String.toList_ofList]
  exact v.readsAs_json h

end Value

end SqlText
