import SqlText.Proofs.Json.Tree
import SqlText.Proofs.KeyOrder
import SqlText.Statement.Reading

/-!
# Two ways to a value

A value is read from a JSON text directly or by way of a plain tree. The direct reader makes
sure that everything has a value and then tries the forms of a value one after another; the
other one looks at the numbers of a finished tree. They read the same texts, and what the
second one reads is what the first one does with the entries of every map sorted.
-/

namespace SqlText

namespace Json

variable {room : Nat} {items : List Json} {members : List (Option String × Json)}

/-- What holds of the leaves, and of arrays and objects when it holds of what is in them, holds
of every tree. -/
@[elab_as_elim]
theorem induction {motive : Json → Prop} (null : motive .null) (bool : ∀ b, motive (.bool b))
    (number : ∀ n, motive (.number n)) (string : ∀ s, motive (.string s))
    (tooLarge : motive .tooLarge) (halfPair : motive .halfPair)
    (array : ∀ items, (∀ j ∈ items, motive j) → motive (.array items))
    (object : ∀ members, (∀ m ∈ members, motive m.2) → motive (.object members)) (j : Json) :
    motive j :=
  @Json.rec motive (fun items => ∀ j ∈ items, motive j)
    (fun members => ∀ m ∈ members, motive m.2) (fun m => motive m.2)
    null bool number string tooLarge halfPair array object
    (fun _ h => absurd h List.not_mem_nil)
    (fun _ _ hhead htail => List.forall_mem_cons.mpr ⟨hhead, htail⟩)
    (fun _ h => absurd h List.not_mem_nil)
    (fun _ _ hhead htail => List.forall_mem_cons.mpr ⟨hhead, htail⟩)
    (fun _ _ h => h) j

/-- The number of a tree. -/
def asNumber? : Json → Option Number
  | .number n => some n
  | _ => none

/-- The forms of a value without parts, in the order in which they are tried. An integer that
does not fit 64 bits with sign has the form of a floating-point number. -/
def scalarForms : List (Json → Option Value) :=
  [fun | .null => some .null | _ => none,
    fun j => j.bool?.map .bool,
    fun j => (j.asNumber?.bind Number.int?).map .int,
    fun j => j.asNumber?.map fun n => .float n.toFloat,
    fun j => j.string?.map .str]

/-- The value of a tree without parts: that of the first form that it has. -/
def scalar? (j : Json) : Option Value := scalarForms.findSome? (· j)

mutual

/-- The value of a tree: that of the first form that it has. A list and a map are the last
forms. -/
def tried? : Json → Option Value
  | .array items => (scalar? (.array items)).or ((triedItems? items).map .list)
  | .object members =>
    (scalar? (.object members)).or
      ((triedMembers? members).map fun entries => .map (Keyed.ofPairs entries))
  | j => scalar? j

/-- The values of an array's items. -/
def triedItems? : List Json → Option (List Value)
  | [] => some []
  | item :: items => do
    let v ← tried? item
    let vs ← triedItems? items
    pure (v :: vs)

/-- The keys of an object, each with the value of its member. -/
def triedMembers? : List (Option String × Json) → Option (List (String × Value))
  | [] => some []
  | (key, member) :: members => do
    let k ← key
    let v ← tried? member
    let rest ← triedMembers? members
    pure ((k, v) :: rest)

end

/-- Reads the whole of a tree before it tries the forms of a value. -/
def byForms? (room : Nat) (j : Json) : Option Value :=
  if j.isReadable room then j.tried? else none

/-- Items are read when all of them are. -/
theorem values?_eq_triedItems?
    (h : ∀ j ∈ items, j.value? Keyed.ofPairs room = j.byForms? room) :
    values? Keyed.ofPairs room items =
      if areReadable room items then triedItems? items else none := by
  induction items with
  | nil => rfl
  | cons item items ih =>
    obtain ⟨hitem, hitems⟩ := List.forall_mem_cons.mp h
    rw [values?, hitem, ih hitems, byForms?, areReadable, triedItems?]
    cases item.isReadable room <;> cases areReadable room items <;> simp

/-- Members are read when all of them are, and all the keys. -/
theorem entries?_eq_triedMembers?
    (h : ∀ m ∈ members, m.2.value? Keyed.ofPairs room = m.2.byForms? room) :
    entries? Keyed.ofPairs room members =
      if membersReadable room members then triedMembers? members else none := by
  induction members with
  | nil => rfl
  | cons m members ih =>
    obtain ⟨key, member⟩ := m
    obtain ⟨hmember, hmembers⟩ := List.forall_mem_cons.mp h
    rw [entries?, hmember, ih hmembers, byForms?, membersReadable, triedMembers?]
    cases key with
    | none => rfl
    | some k =>
      cases member.isReadable room <;> cases membersReadable room members <;> simp

/-- Trying the forms one after another decides by the kind of the tree: the forms of a tree
without parts exclude each other, but for those of an integer. -/
theorem value?_eq_byForms? (j : Json) (room : Nat) :
    j.value? Keyed.ofPairs room = j.byForms? room := by
  induction j using Json.induction generalizing room with
  | null => rfl
  | bool b => rfl
  | number n => cases n <;> rfl
  | string s => rfl
  | tooLarge => rfl
  | halfPair => rfl
  | array items ih =>
    have hscalar : scalar? (.array items) = none := rfl
    rw [value?, values?_eq_triedItems? fun j hj => ih j hj _, byForms?, isReadable, tried?,
      hscalar, Option.none_or]
    rcases Nat.eq_zero_or_pos room with rfl | hroom
    · rfl
    · rw [if_neg (Nat.ne_of_gt hroom), decide_eq_true hroom, Bool.true_and]
      split_ifs <;> rfl
  | object members ih =>
    have hscalar : scalar? (.object members) = none := rfl
    rw [value?, entries?_eq_triedMembers? fun m hm => ih m hm _, byForms?, isReadable, tried?,
      hscalar, Option.none_or]
    rcases Nat.eq_zero_or_pos room with rfl | hroom
    · rfl
    · rw [if_neg (Nat.ne_of_gt hroom), decide_eq_true hroom, Bool.true_and]
      split_ifs <;> rfl

end Json

namespace Value

mutual

/-- The value with the entries of every map in it in the order of the bytes of their keys. -/
def sorted : Value → Value
  | .list items => .list (sortedItems items)
  | .map entries => .map (Keyed.sortedByKey (sortedEntries entries))
  | v => v

/-- The items of a list, sorted inside. -/
def sortedItems : List Value → List Value
  | [] => []
  | item :: items => item.sorted :: sortedItems items

/-- The entries of a map, sorted inside. -/
def sortedEntries : List (String × Value) → List (String × Value)
  | [] => []
  | (key, value) :: entries => (key, value.sorted) :: sortedEntries entries

end

/-- Sorting the entries of a map inside sorts what they hold. -/
theorem sortedEntries_eq_map (entries : List (String × Value)) :
    sortedEntries entries = entries.map fun e => (e.1, e.2.sorted) := by
  induction entries with
  | nil => rfl
  | cons e entries ih => rw [sortedEntries, ih, List.map_cons]

/-- The values of plain members are those of each of them, under the same keys. -/
theorem ofPlainMembers_eq_map (members : List (String × Json.Plain)) :
    ofPlainMembers members = members.map fun m => (m.1, ofPlain m.2) := by
  induction members with
  | nil => rfl
  | cons m members ih => rw [ofPlainMembers, ih, List.map_cons]

variable {room : Nat} {items : List Json} {members : List (Option String × Json)}

/-- Plain items have the values of the items, sorted inside. -/
theorem map_ofPlains
    (h : ∀ j ∈ items, (j.plain? room).map ofPlain = (j.value? Keyed.ofPairs room).map sorted) :
    (Json.plains? room items).map ofPlains =
      (Json.values? Keyed.ofPairs room items).map sortedItems := by
  induction items with
  | nil => rfl
  | cons item items ih =>
    obtain ⟨hitem, hitems⟩ := List.forall_mem_cons.mp h
    have hplain : (Json.plains? room (item :: items)).map ofPlains =
        ((item.plain? room).map ofPlain).bind fun v =>
          ((Json.plains? room items).map ofPlains).map (v :: ·) := by
      rw [Json.plains?]
      cases item.plain? room <;> cases Json.plains? room items <;> rfl
    have hvalue : (Json.values? Keyed.ofPairs room (item :: items)).map sortedItems =
        ((item.value? Keyed.ofPairs room).map sorted).bind fun v =>
          ((Json.values? Keyed.ofPairs room items).map sortedItems).map (v :: ·) := by
      rw [Json.values?]
      cases item.value? Keyed.ofPairs room <;>
        cases Json.values? Keyed.ofPairs room items <;> rfl
    rw [hplain, hvalue, hitem, ih hitems]

/-- Plain members have the values of the members, sorted inside, under the same keys. -/
theorem map_ofPlainMembers
    (h : ∀ m ∈ members,
      (m.2.plain? room).map ofPlain = (m.2.value? Keyed.ofPairs room).map sorted) :
    (Json.plainMembers? room members).map ofPlainMembers =
      (Json.entries? Keyed.ofPairs room members).map sortedEntries := by
  induction members with
  | nil => rfl
  | cons m members ih =>
    obtain ⟨key, member⟩ := m
    obtain ⟨hmember, hmembers⟩ := List.forall_mem_cons.mp h
    cases key with
    | none => rfl
    | some k =>
      have hplain : (Json.plainMembers? room ((some k, member) :: members)).map ofPlainMembers =
          ((member.plain? room).map ofPlain).bind fun v =>
            ((Json.plainMembers? room members).map ofPlainMembers).map ((k, v) :: ·) := by
        rw [Json.plainMembers?]
        cases member.plain? room <;> cases Json.plainMembers? room members <;> rfl
      have hvalue :
          (Json.entries? Keyed.ofPairs room ((some k, member) :: members)).map sortedEntries =
            ((member.value? Keyed.ofPairs room).map sorted).bind fun v =>
              ((Json.entries? Keyed.ofPairs room members).map sortedEntries).map
                ((k, v) :: ·) := by
        rw [Json.entries?]
        cases member.value? Keyed.ofPairs room <;>
          cases Json.entries? Keyed.ofPairs room members <;> rfl
      rw [hplain, hvalue, hmember, ih hmembers]

/-- The members of a plain object are in increasing order already when they are collected
again, so the map they become is the one read directly, sorted. -/
theorem ofPlain_object {pairs : List (String × Json.Plain)} {entries : List (String × Value)}
    (h : ofPlainMembers pairs = sortedEntries entries) :
    ofPlain (.object (Keyed.sortedOfPairs pairs)) = (map (Keyed.ofPairs entries)).sorted := by
  have hkeys : ((ofPlainMembers (Keyed.sortedOfPairs pairs)).map Prod.fst).Nodup := by
    rw [ofPlainMembers_eq_map, List.map_map]
    exact (Keyed.isSorted_sortedOfPairs pairs).nodup_keys
  rw [ofPlain, sorted, Keyed.ofPairs_of_nodup hkeys]
  refine congrArg map ?_
  calc ofPlainMembers (Keyed.sortedOfPairs pairs)
      = Keyed.sortedOfPairs (ofPlainMembers pairs) := by
        rw [ofPlainMembers_eq_map, ofPlainMembers_eq_map, Keyed.map_sortedOfPairs]
    _ = (Keyed.ofPairs (sortedEntries entries)).sortedByKey := by
        rw [h, Keyed.sortedOfPairs_eq]
    _ = Keyed.sortedByKey (sortedEntries (Keyed.ofPairs entries)) := by
        rw [sortedEntries_eq_map, sortedEntries_eq_map, Keyed.map_ofPairs]

/-- A plain tree has the value of the tree with the entries of every map sorted. -/
theorem map_ofPlain (j : Json) (room : Nat) :
    (j.plain? room).map ofPlain = (j.value? Keyed.ofPairs room).map sorted := by
  induction j using Json.induction generalizing room with
  | null => rfl
  | bool b => rfl
  | number n => cases n <;> rfl
  | string s => rfl
  | tooLarge => rfl
  | halfPair => rfl
  | array items ih =>
    rw [Json.plain?, Json.value?]
    split_ifs with hroom
    · rfl
    have hitems := map_ofPlains fun j hj => ih j hj (room - 1)
    cases hplain : Json.plains? (room - 1) items <;>
      cases hvalue : Json.values? Keyed.ofPairs (room - 1) items <;>
      simp only [hplain, hvalue, Option.map_none, Option.map_some, reduceCtorEq,
        Option.some.injEq] at hitems ⊢
    rw [ofPlain, sorted, hitems]
  | object members ih =>
    rw [Json.plain?, Json.value?]
    split_ifs with hroom
    · rfl
    have hmembers := map_ofPlainMembers fun m hm => ih m hm (room - 1)
    cases hplain : Json.plainMembers? (room - 1) members <;>
      cases hvalue : Json.entries? Keyed.ofPairs (room - 1) members <;>
      simp only [hplain, hvalue, Option.map_none, Option.map_some, reduceCtorEq,
        Option.some.injEq] at hmembers ⊢
    exact ofPlain_object hmembers

/-- A JSON text has a value read directly exactly when it has one read by way of a plain tree,
and the second is the first with the entries of every map, at every depth, in the order of the
bytes of their keys. The direct reader is the one that tries the forms of a value in order. A
key that comes more than once has what came last, in a map and in a plain object. -/
theorem conversion_sorts_maps (text : String) :
    let direct := (Json.ofText? text).bind ({} : ReadingMode).value?
    let converted := (Json.ofText? text).bind ofSortedJson?
    (converted.isSome ↔ direct.isSome) ∧
      converted = direct.map sorted ∧
      direct = (Json.ofText? text).bind (Json.byForms? Json.deepest) ∧
      ∀ (entries : List (String × Value)) (members : List (String × Json.Plain)) (key : String),
        (Keyed.ofPairs entries).lookup key = Keyed.last? entries key ∧
          (Keyed.sortedOfPairs members).lookup key = Keyed.last? members key := by
  intro direct converted
  have hconverted : converted = direct.map sorted := by
    change (Json.ofText? text).bind ofSortedJson? =
      ((Json.ofText? text).bind ({} : ReadingMode).value?).map sorted
    cases Json.ofText? text with
    | none => rfl
    | some j => exact map_ofPlain j Json.deepest
  refine ⟨?_, hconverted, ?_, fun entries members key => ⟨?_, ?_⟩⟩
  · rw [hconverted, Option.isSome_map]
  · exact congrArg (Json.ofText? text).bind
      (funext fun j => Json.value?_eq_byForms? j Json.deepest)
  · exact Keyed.lookup_ofPairs entries key
  · exact Keyed.lookup_sortedOfPairs members key

/-- An integer of 64 bits without sign is a floating-point number on both ways. A repeated key
has its last value, in its first place or in the order of the keys. -/
example :
    let j : Json := .object [(some "b", .number (.int 1)),
      (some "a", .number (.large 9223372036854775808)), (some "b", .array [.null])]
    ({} : ReadingMode).value? j =
        some (.map [("b", .list [.null]), ("a", .float (.ofInt 9223372036854775808))]) ∧
      ofSortedJson? j =
        some (.map [("a", .float (.ofInt 9223372036854775808)), ("b", .list [.null])]) :=
  ⟨rfl, rfl⟩

end Value

end SqlText
