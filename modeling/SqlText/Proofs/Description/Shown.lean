import SqlText.Proofs.Json.Slots
import SqlText.Statement.Writing

/-!
# Trees that show a description

A description has many trees besides the one it is written as. In each of its objects the
members may stand in any order, those that hold a default may be missing, and there may be
others under unknown keys. Its values have one tree each.
-/

namespace SqlText

open Json

/-- The slots of a field. No decimals are the default. -/
def Field.slots (f : Field) : List Slot :=
  [.value "name" (.str f.name) False, .value "type" (.str f.type.text) False,
    .value "value" f.value False,
    .value "decimals" (.int (Int64.ofInt f.decimals.toNat)) (f.decimals = 0)]

/-- The tree shows the field. -/
def Field.ShownBy (f : Field) (j : Json) : Prop := Shows f.slots j

/-- The slots of a condition. The default is to join it by `AND`. -/
def Condition.slots (c : Condition) : List Slot :=
  c.toField.slots ++ [.value "connector" (.str c.connector.keyword) (c.connector = .and)]

/-- The tree shows the condition. -/
def Condition.ShownBy (c : Condition) (j : Json) : Prop := Shows c.slots j

/-- The tree shows the entry: an object for a condition, an array for a pair. -/
def Entry.ShownBy : Entry → Json → Prop
  | .typed c, j => c.ShownBy j
  | .pair column value, j => j = .array [.string column, value.tree]

/-- The tree shows the filter: a string for a text, an array for conditions. -/
def DeleteFilter.ShownBy : DeleteFilter → Json → Prop
  | .raw sql, j => j = .string sql
  | .all conditions, j => ShowsAll Field.ShownBy conditions j

/-- The slots of a join. -/
def Join.slots (join : Join) : List Slot :=
  [.value "kind" (.str join.kind.word) False, .value "table" (.str join.table) False,
    .value "on" (.str join.on) False]

/-- The tree shows the join. -/
def Join.ShownBy (join : Join) (j : Json) : Prop := Shows join.slots j

/-- The slots of an order term. Upwards is the default. -/
def OrderTerm.slots (t : OrderTerm) : List Slot :=
  [.value "column" (.str t.column) False,
    .value "direction" (.str t.direction.keyword) (t.direction = .ascending)]

/-- The tree shows the order term. -/
def OrderTerm.ShownBy (t : OrderTerm) (j : Json) : Prop := Shows t.slots j

/-- The slots of a query. Every clause is empty by default. -/
def Query.slots (q : Query) : List Slot :=
  [.value "fields" (textsValue q.fields) (q.fields = []),
    .value "from" (.str q.source) (q.source = ""),
    .list "joins" Join.ShownBy q.joins (q.joins = []),
    .list "where" Entry.ShownBy q.conditions (q.conditions = []),
    .value "group_by" (textsValue q.groupBy) (q.groupBy = []),
    .list "having" Entry.ShownBy q.having (q.having = []),
    .list "order_by" OrderTerm.ShownBy q.orderBy (q.orderBy = [])]

namespace Statement

/-- The slots of a statement besides its word. The conditions of an UPDATE and of a DELETE are
empty by default. -/
def slots : Statement → List Slot
  | .insert table fields =>
    [.value "table" (.str table) False, .list "fields" Field.ShownBy fields False]
  | .update table fields conditions =>
    [.value "table" (.str table) False, .list "fields" Field.ShownBy fields False,
      .list "conditions" Field.ShownBy conditions (conditions = [])]
  | .delete table conditions =>
    [.value "table" (.str table) False,
      ⟨"conditions", conditions.ShownBy, conditions = .all []⟩]
  | .select query => query.slots

/-- The tree shows the statement. -/
def ShownBy (s : Statement) (j : Json) : Prop :=
  Shows (.value "statement" (.str s.word) False :: s.slots) j

end Statement

/-! ## The tree that is written -/

/-- A list is shown by the tree it is written as when its items are. -/
theorem showsAll_tree {α : Type} {shown : α → Json → Prop} {write : α → Value} {as : List α}
    (h : ∀ a ∈ as, shown a (write a).tree) : ShowsAll shown as (Value.list (as.map write)).tree := by
  rw [Value.tree_list, List.map_map]
  refine ⟨_, rfl, ?_⟩
  rw [List.forall₂_map_right_iff]
  exact List.forall₂_same.mpr h

/-- A field is shown by the tree it is written as. -/
theorem Field.shownBy_tree (f : Field) : f.ShownBy f.toValue.tree := by
  rw [Field.toValue, Value.tree_map]
  exact Written.shows (.keep rfl (.keep rfl (.keep rfl (.keep rfl .nil))))

/-- A condition is shown by the tree it is written as. -/
theorem Condition.shownBy_tree (c : Condition) : c.ShownBy c.toValue.tree := by
  rw [Condition.toValue, Value.tree_map]
  exact Written.shows (.keep rfl (.keep rfl (.keep rfl (.keep rfl (.keep rfl .nil)))))

/-- An entry is shown by the tree it is written as. -/
theorem Entry.shownBy_tree (e : Entry) : e.ShownBy e.toValue.tree := by
  cases e with
  | typed c => exact c.shownBy_tree
  | pair column value => exact Value.tree_list _

/-- A filter is shown by the tree it is written as. -/
theorem DeleteFilter.shownBy_tree (d : DeleteFilter) : d.ShownBy d.toValue.tree := by
  cases d with
  | raw sql => exact rfl
  | all conditions => exact showsAll_tree fun f _ => f.shownBy_tree

/-- A join is shown by the tree it is written as. -/
theorem Join.shownBy_tree (join : Join) : join.ShownBy join.toValue.tree := by
  rw [Join.toValue, Value.tree_map]
  exact Written.shows (.keep rfl (.keep rfl (.keep rfl .nil)))

/-- An order term is shown by the tree it is written as. -/
theorem OrderTerm.shownBy_tree (t : OrderTerm) : t.ShownBy t.toValue.tree := by
  rw [OrderTerm.toValue, Value.tree_map]
  exact Written.shows (.keep rfl (.keep rfl .nil))

/-- A statement is shown by the tree it is written as. -/
theorem Statement.shownBy_tree (s : Statement) : s.ShownBy s.toValue.tree := by
  rw [Statement.toValue, Value.tree_map]
  apply Written.shows
  refine .keep rfl ?_
  cases s with
  | insert table fields =>
    exact .keep rfl (.keep (showsAll_tree fun f _ => f.shownBy_tree) .nil)
  | update table fields conditions =>
    exact .keep rfl (.keep (showsAll_tree fun f _ => f.shownBy_tree)
      (.keep (showsAll_tree fun f _ => f.shownBy_tree) .nil))
  | delete table conditions => exact .keep rfl (.keep conditions.shownBy_tree .nil)
  | select query =>
    refine .keep rfl (.keep rfl (.keep ?_ (.keep ?_ (.keep rfl (.keep ?_ (.keep ?_ .nil))))))
    · exact showsAll_tree fun join _ => join.shownBy_tree
    · exact showsAll_tree fun e _ => e.shownBy_tree
    · exact showsAll_tree fun e _ => e.shownBy_tree
    · exact showsAll_tree fun t _ => t.shownBy_tree

end SqlText
