import SqlText.Json.Record

/-!
# Values as trees

A value has one tree. The reader finds the value in its tree again, every list in order and
every map with its keys in order, as long as the tree does not nest too deep and no map has
a key twice.
-/

namespace SqlText

namespace Json

mutual

/-- How deep arrays and objects nest. -/
def nesting : Json → Nat
  | .array items => nestingOfItems items + 1
  | .object members => nestingOfMembers members + 1
  | _ => 0

/-- How deep the items of an array nest. -/
def nestingOfItems : List Json → Nat
  | [] => 0
  | item :: items => max item.nesting (nestingOfItems items)

/-- How deep the values of an object's members nest. -/
def nestingOfMembers : List (Option String × Json) → Nat
  | [] => 0
  | (_, value) :: members => max value.nesting (nestingOfMembers members)

end

variable {room : Nat} {j : Json} {items : List Json} {members : List (Option String × Json)}

/-- Items can be read when each of them can. -/
theorem areReadable_iff : areReadable room items = true ↔ ∀ j ∈ items, j.isReadable room = true := by
  induction items with
  | nil => simp [areReadable]
  | cons item items ih => simp [areReadable, ih]

/-- Members can be read when each of them can, its key and its value. -/
theorem membersReadable_iff : membersReadable room members = true ↔
    ∀ m ∈ members, m.1.isSome = true ∧ m.2.isReadable room = true := by
  induction members with
  | nil => simp [membersReadable]
  | cons m members ih =>
    obtain ⟨key, value⟩ := m
    simp [membersReadable, ih, and_assoc]

/-- An array that can be read has items that can be read inside of it. -/
theorem isReadable_array : (Json.array items).isReadable room = true ↔
    0 < room ∧ ∀ j ∈ items, j.isReadable (room - 1) = true := by
  rw [isReadable, Bool.and_eq_true, decide_eq_true_iff, areReadable_iff]

/-- An object that can be read has members that can be read inside of it. -/
theorem isReadable_object : (Json.object members).isReadable room = true ↔
    0 < room ∧ ∀ m ∈ members, m.1.isSome = true ∧ m.2.isReadable (room - 1) = true := by
  rw [isReadable, Bool.and_eq_true, decide_eq_true_iff, membersReadable_iff]

/-- An array nests at most so deep when its items nest less. -/
theorem nesting_array_le : (Json.array items).nesting ≤ room ↔
    0 < room ∧ ∀ j ∈ items, j.nesting ≤ room - 1 := by
  have hitems : nestingOfItems items ≤ room - 1 ↔ ∀ j ∈ items, j.nesting ≤ room - 1 := by
    induction items with
    | nil => simp [nestingOfItems]
    | cons item items ih => rw [nestingOfItems, Nat.max_le, ih, List.forall_mem_cons]
  rw [nesting, ← hitems]
  omega

/-- An object nests at most so deep when its values nest less. -/
theorem nesting_object_le : (Json.object members).nesting ≤ room ↔
    0 < room ∧ ∀ m ∈ members, m.2.nesting ≤ room - 1 := by
  have hmembers : nestingOfMembers members ≤ room - 1 ↔
      ∀ m ∈ members, m.2.nesting ≤ room - 1 := by
    induction members with
    | nil => simp [nestingOfMembers]
    | cons m members ih =>
      obtain ⟨key, value⟩ := m
      rw [nestingOfMembers, Nat.max_le, ih, List.forall_mem_cons]
  rw [nesting, ← hmembers]
  omega

end Json

namespace Keyed

variable {α : Type} {m : Keyed α} {key : String}

/-- A new key comes at the end. -/
theorem insert_of_notMem (h : key ∉ m.map Prod.fst) (a : α) : m.insert key a = m ++ [(key, a)] := by
  induction m with
  | nil => rfl
  | cons entry m ih =>
    obtain ⟨k, b⟩ := entry
    rw [List.map_cons, List.mem_cons, not_or] at h
    obtain ⟨hne, hrest⟩ := h
    rw [insert, if_neg (Ne.symm hne), ih hrest, List.cons_append]

/-- Pairs with distinct keys are a map as they are. -/
theorem ofPairs_of_nodup {pairs : List (String × α)} (h : (pairs.map Prod.fst).Nodup) :
    ofPairs pairs = pairs := by
  have hgather (before : Keyed α) (h : ((before ++ pairs).map Prod.fst).Nodup) :
      pairs.foldl (fun m pair => insert m pair.1 pair.2) before = before ++ pairs := by
    induction pairs generalizing before with
    | nil => exact (List.append_nil before).symm
    | cons pair pairs ih =>
      have hnew : pair.1 ∉ before.map Prod.fst := by
        rw [List.map_append, List.nodup_append] at h
        intro hkey
        exact h.2.2 pair.1 hkey pair.1 (List.mem_cons_self ..) rfl
      have hregroup : before ++ pair :: pairs = before ++ [pair] ++ pairs := by simp
      rw [hregroup] at h ⊢
      rw [List.foldl_cons, insert_of_notMem hnew]
      exact ih (h.sublist ((List.sublist_append_right _ _).map _)) _ h
  exact hgather [] h

end Keyed

namespace Value

mutual

/-- The tree of a value. -/
def tree : Value → Json
  | .null => .null
  | .bool b => .bool b
  | .int n => .number (.int n)
  | .float x => .number (.float x)
  | .str s => .string s
  | .list items => .array (trees items)
  | .map entries => .object (members entries)

/-- The trees of a list's items. -/
def trees : List Value → List Json
  | [] => []
  | item :: items => item.tree :: trees items

/-- The members that the entries of a map are in its tree. -/
def members : List (String × Value) → List (Option String × Json)
  | [] => []
  | (key, value) :: entries => (some key, value.tree) :: members entries

end

mutual

/-- A value and every value inside of it. -/
def parts : Value → List Value
  | .list items => .list items :: partsOfItems items
  | .map entries => .map entries :: partsOfEntries entries
  | v => [v]

/-- The values inside of a list. -/
def partsOfItems : List Value → List Value
  | [] => []
  | item :: items => item.parts ++ partsOfItems items

/-- The values inside of a map. -/
def partsOfEntries : List (String × Value) → List Value
  | [] => []
  | (_, value) :: entries => value.parts ++ partsOfEntries entries

end

/-- A map has no key twice. -/
def HasDistinctKeys : Value → Prop
  | .map entries => (entries.map Prod.fst).Nodup
  | _ => True

instance : DecidablePred HasDistinctKeys
  | .map entries => inferInstanceAs (Decidable (entries.map Prod.fst).Nodup)
  | .null | .bool _ | .int _ | .float _ | .str _ | .list _ => .isTrue trivial

/-- No map in the value has a key twice. -/
def IsKeyed (v : Value) : Prop := ∀ p ∈ v.parts, p.HasDistinctKeys

instance : DecidablePred IsKeyed :=
  fun v => inferInstanceAs (Decidable (∀ p ∈ v.parts, p.HasDistinctKeys))

/-- What holds of the values without parts, and of lists and maps when it holds of what is
in them, holds of every value. -/
@[elab_as_elim]
theorem induction {motive : Value → Prop} (leaf : ∀ v, v.isComposite = false → motive v)
    (list : ∀ items, (∀ v ∈ items, motive v) → motive (.list items))
    (map : ∀ entries, (∀ e ∈ entries, motive e.2) → motive (.map entries)) (v : Value) :
    motive v :=
  @Value.rec motive (fun items => ∀ v ∈ items, motive v)
    (fun entries => ∀ e ∈ entries, motive e.2) (fun e => motive e.2)
    (leaf .null rfl) (fun _ => leaf _ rfl) (fun _ => leaf _ rfl) (fun _ => leaf _ rfl)
    (fun _ => leaf _ rfl) list map
    (fun _ h => absurd h List.not_mem_nil)
    (fun _ _ hhead htail => List.forall_mem_cons.mpr ⟨hhead, htail⟩)
    (fun _ h => absurd h List.not_mem_nil)
    (fun _ _ hhead htail => List.forall_mem_cons.mpr ⟨hhead, htail⟩)
    (fun _ _ h => h) v

variable {v : Value} {items : List Value} {entries : List (String × Value)} {room : Nat}

/-- The tree of a list has the trees of its items. -/
theorem tree_list (items : List Value) : (list items).tree = .array (items.map tree) := by
  have htrees : trees items = items.map tree := by
    induction items with
    | nil => rfl
    | cons item items ih => rw [trees, ih, List.map_cons]
  rw [tree, htrees]

/-- The tree of a map has the trees of its values under the same keys. -/
theorem tree_map (entries : List (String × Value)) :
    (map entries).tree = .object (entries.map fun e => (some e.1, e.2.tree)) := by
  have hmembers : members entries = entries.map fun e => (some e.1, e.2.tree) := by
    induction entries with
    | nil => rfl
    | cons e entries ih => rw [members, ih, List.map_cons]
  rw [tree, hmembers]

/-- What is inside of an item is inside of the list. -/
theorem mem_parts_list {p : Value} :
    p ∈ (list items).parts ↔ p = list items ∨ ∃ v ∈ items, p ∈ v.parts := by
  have hparts : p ∈ partsOfItems items ↔ ∃ v ∈ items, p ∈ v.parts := by
    induction items with
    | nil => simp [partsOfItems]
    | cons item items ih => simp [partsOfItems, ih]
  rw [parts, List.mem_cons, hparts]

/-- What is inside of a value is inside of the map. -/
theorem mem_parts_map {p : Value} :
    p ∈ (map entries).parts ↔ p = map entries ∨ ∃ e ∈ entries, p ∈ e.2.parts := by
  have hparts : p ∈ partsOfEntries entries ↔ ∃ e ∈ entries, p ∈ e.2.parts := by
    induction entries with
    | nil => simp [partsOfEntries]
    | cons e entries ih =>
      obtain ⟨key, value⟩ := e
      simp [partsOfEntries, ih]
  rw [parts, List.mem_cons, hparts]

/-- A property of all parts of a list is one of the list and of all parts of its items. -/
theorem forall_parts_list {P : Value → Prop} :
    (∀ p ∈ (list items).parts, P p) ↔
      P (list items) ∧ ∀ v ∈ items, ∀ p ∈ v.parts, P p := by
  constructor
  · intro h
    refine ⟨h _ (mem_parts_list.mpr (.inl rfl)), fun v hv p hp => ?_⟩
    exact h p (mem_parts_list.mpr (.inr ⟨v, hv, hp⟩))
  · rintro ⟨hself, hinside⟩ p hp
    rcases mem_parts_list.mp hp with rfl | ⟨v, hv, hp⟩
    · exact hself
    · exact hinside v hv p hp

/-- A property of all parts of a map is one of the map and of all parts of its values. -/
theorem forall_parts_map {P : Value → Prop} :
    (∀ p ∈ (map entries).parts, P p) ↔
      P (map entries) ∧ ∀ e ∈ entries, ∀ p ∈ e.2.parts, P p := by
  constructor
  · intro h
    refine ⟨h _ (mem_parts_map.mpr (.inl rfl)), fun e he p hp => ?_⟩
    exact h p (mem_parts_map.mpr (.inr ⟨e, he, hp⟩))
  · rintro ⟨hself, hinside⟩ p hp
    rcases mem_parts_map.mp hp with rfl | ⟨e, he, hp⟩
    · exact hself
    · exact hinside e he p hp

/-- A list has distinct keys when its items have. -/
theorem isKeyed_list : (list items).IsKeyed ↔ ∀ v ∈ items, v.IsKeyed := by
  rw [IsKeyed, forall_parts_list, and_iff_right (show (list items).HasDistinctKeys from trivial)]
  rfl

/-- A map has distinct keys when its own are distinct and its values have distinct keys. -/
theorem isKeyed_map :
    (map entries).IsKeyed ↔ (entries.map Prod.fst).Nodup ∧ ∀ e ∈ entries, e.2.IsKeyed :=
  forall_parts_map

/-- What a map holds has distinct keys when the map has. -/
theorem IsKeyed.of_mem_map (key : String) (h : (map entries).IsKeyed)
    (hmem : (key, v) ∈ entries) : v.IsKeyed :=
  (isKeyed_map.mp h).2 _ hmem

/-- A map without its first entry has distinct keys still. -/
theorem IsKeyed.tail_map {e : String × Value} (h : (map (e :: entries)).IsKeyed) :
    (map entries).IsKeyed := by
  obtain ⟨hdistinct, hinside⟩ := isKeyed_map.mp h
  exact isKeyed_map.mpr ⟨(List.nodup_cons.mp hdistinct).2, (List.forall_mem_cons.mp hinside).2⟩

/-- Everything in the tree of a value can be read, if it does not nest too deep. -/
theorem isReadable_tree (v : Value) (h : v.tree.nesting ≤ room) :
    v.tree.isReadable room = true := by
  induction v using Value.induction generalizing room with
  | leaf v hleaf => cases v <;> first | rfl | cases hleaf
  | list items ih =>
    rw [tree_list] at h ⊢
    obtain ⟨hroom, hitems⟩ := Json.nesting_array_le.mp h
    refine Json.isReadable_array.mpr ⟨hroom, List.forall_mem_map.mpr fun v hv => ?_⟩
    exact ih v hv (List.forall_mem_map.mp hitems v hv)
  | map entries ih =>
    rw [tree_map] at h ⊢
    obtain ⟨hroom, hmembers⟩ := Json.nesting_object_le.mp h
    refine Json.isReadable_object.mpr ⟨hroom, List.forall_mem_map.mpr fun e he => ⟨rfl, ?_⟩⟩
    exact ih e he (List.forall_mem_map.mp hmembers e he)

/-- The reader finds values in their trees. -/
theorem values?_trees {collect : List (String × Value) → Keyed Value}
    (h : ∀ v ∈ items, v.tree.value? collect room = some v) :
    Json.values? collect room (items.map tree) = some items := by
  induction items with
  | nil => rfl
  | cons item items ih =>
    obtain ⟨hitem, hitems⟩ := List.forall_mem_cons.mp h
    rw [List.map_cons, Json.values?, hitem, ih hitems]
    rfl

/-- The reader finds entries in their members. -/
theorem entries?_members {collect : List (String × Value) → Keyed Value}
    (h : ∀ e ∈ entries, e.2.tree.value? collect room = some e.2) :
    Json.entries? collect room (entries.map fun e => (some e.1, e.2.tree)) = some entries := by
  induction entries with
  | nil => rfl
  | cons e entries ih =>
    obtain ⟨hentry, hentries⟩ := List.forall_mem_cons.mp h
    rw [List.map_cons, Json.entries?, hentry, ih hentries]
    rfl

/-- The reader finds a value in its tree. -/
theorem value?_tree (hkeys : v.IsKeyed) (h : v.tree.isReadable room = true) :
    v.tree.value? Keyed.ofPairs room = some v := by
  induction v using Value.induction generalizing room with
  | leaf v hleaf => cases v <;> first | rfl | cases hleaf
  | list items ih =>
    rw [tree_list] at h ⊢
    obtain ⟨hroom, hitems⟩ := Json.isReadable_array.mp h
    rw [isKeyed_list] at hkeys
    rw [Json.value?, if_neg (Nat.ne_of_gt hroom), values?_trees, Option.map_some]
    intro v hv
    exact ih v hv (hkeys v hv) (List.forall_mem_map.mp hitems v hv)
  | map entries ih =>
    rw [tree_map] at h ⊢
    obtain ⟨hroom, hmembers⟩ := Json.isReadable_object.mp h
    obtain ⟨hdistinct, hinside⟩ := isKeyed_map.mp hkeys
    rw [Json.value?, if_neg (Nat.ne_of_gt hroom), entries?_members, Option.map_some,
      Keyed.ofPairs_of_nodup hdistinct]
    intro e he
    exact ih e he (hinside e he) (List.forall_mem_map.mp hmembers e he).2

end Value

end SqlText
