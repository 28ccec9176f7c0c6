import SqlText.Proofs.Description.Shown
import SqlText.Proofs.Json.Text
import SqlText.Statement.Reading

/-!
# Descriptions are read back

Whatever tree shows a description, the reader finds the description in it, if everything in
the tree can be read. Entries and filters are told apart by the form of their trees alone: an
array of two is never a condition, and a text never a list.
-/

namespace SqlText

open Json

variable {m : ReadingMode} {j : Json} {room : Nat}

/-! ## Members -/

/-- A type is known by its word. -/
theorem DeclaredType.ofText?_text (t : DeclaredType) : ofText? t.text = some t := by
  cases t <;> rfl

/-- A number of decimals is read back. -/
theorem uint32?_tree (n : UInt32) :
    uint32? (Value.int (Int64.ofInt n.toNat)).tree = some n := by
  have hlt := n.toNat_lt
  have hpow : Int.pow 2 32 = 4294967296 := rfl
  have hback : (Int64.ofInt n.toNat).toInt = n.toNat :=
    Int64.toInt_ofInt_of_le (by omega) (by omega)
  have hrange : 0 ≤ (Int64.ofInt n.toNat).toInt ∧ (Int64.ofInt n.toNat).toInt < Int.pow 2 32 := by
    omega
  rw [Value.tree, uint32?, if_pos hrange, hback]
  simp

/-- Texts are read back. -/
theorem list?_texts (texts : List String) : list? string? (textsValue texts).tree = some texts := by
  rw [textsValue, Value.tree_list, List.map_map, list?]
  induction texts with
  | nil => rfl
  | cons text texts ih =>
    rw [List.map_cons, List.mapM_cons, ih]
    rfl

/-- A member with one tree is read as what the tree stands for. -/
theorem bind_of_takes {α : Type} {name : String} {v : Value} {a : α} {read : Json → Option α}
    {member : Option Json} (h : (Slot.value name v False).Takes room member)
    (hread : v.tree.isReadable room = true → read v.tree = some a) : member.bind read = some a := by
  apply h.bind id
  rintro _ rfl hj
  exact hread hj

/-- A string is read as its text. -/
theorem string_of_takes {name text : String} {member : Option Json}
    (h : (Slot.value name (.str text) False).Takes room member) :
    member.bind string? = some text :=
  bind_of_takes h fun _ => rfl

/-- A member with one tree that may be missing is read as what the tree stands for. -/
theorem memberOr_of_takes {α : Type} {name : String} {v : Value} {isDefault : Prop}
    {default a : α} {read : Json → Option α} {member : Option Json}
    (h : (Slot.value name v isDefault).Takes room member) (hdefault : isDefault → a = default)
    (hread : read v.tree = some a) : memberOr default read member = some a := by
  apply h.memberOr fun hmissing => (hdefault hmissing).symm
  rintro _ rfl _
  exact hread

/-- A list of descriptions is read back, also where an empty one is left out. -/
theorem listMember?_of_takes {α : Type} {shown : α → Json → Prop} {as : List α} {name : String}
    {isDefault : Prop} {read : ReadingMode → Json → Option α} {member : Option Json}
    (h : (Slot.list name shown as isDefault).Takes m.room member) (hdefault : isDefault → as = [])
    (hitem : ∀ a ∈ as, ∀ j, shown a j → j.isReadable m.inside.room = true →
      read m.inside j = some a) :
    listMember? m read member = some as := by
  apply h.memberOr fun hempty => (hdefault hempty).symm
  intro j hj hread
  exact list?_of_showsAll hj hread hitem

/-! ## Fields and conditions -/

/-- The members of a field are read as the field. -/
theorem Field.ofMembers?_of_takes {f : Field} {name type value decimals : Option Json}
    (hkeyed : f.value.IsKeyed)
    (h : List.Forall₂ (fun slot member => slot.Takes m.room member) f.slots
      [name, type, value, decimals]) :
    Field.ofMembers? m name type value decimals = some f := by
  obtain _ | ⟨hname, _ | ⟨htype, _ | ⟨hvalue, _ | ⟨hdecimals, _⟩⟩⟩⟩ := h
  have htype : type.bind (DeclaredType.ofJson? m) = some f.type :=
    bind_of_takes htype fun _ => f.type.ofText?_text
  have hvalue : value.bind m.value? = some f.value := bind_of_takes hvalue (Value.value?_tree hkeyed)
  have hdecimals : memberOr 0 uint32? decimals = some f.decimals :=
    memberOr_of_takes hdecimals id (uint32?_tree f.decimals)
  rw [ofMembers?, string_of_takes hname, htype, hvalue, hdecimals]
  rfl

/-- A field is read back. -/
theorem Field.ofJson?_of_shownBy {f : Field} (hkeyed : f.toValue.IsKeyed) (h : f.ShownBy j)
    (hread : j.isReadable m.room = true) : Field.ofJson? m j = some f := by
  have hnames : ["name", "type", "value", "decimals"].Nodup := by decide
  obtain ⟨taken, hrecord, htakes⟩ := record?_of_shows h hnames hread
  obtain _ | ⟨_, _ | ⟨_, _ | ⟨_, _ | ⟨_, _ | _⟩⟩⟩⟩ := id htakes
  have hrecord : j.record? ["name", "type", "value", "decimals"] = _ := hrecord
  have hvalue : f.value.IsKeyed := .of_mem_map "value" hkeyed (by simp [entries])
  rw [Field.ofJson?, hrecord]
  exact Field.ofMembers?_of_takes (m := m.inside) hvalue htakes

/-- A condition is read back. -/
theorem Condition.ofJson?_of_shownBy {c : Condition} (hkeyed : c.toValue.IsKeyed)
    (h : c.ShownBy j) (hread : j.isReadable m.room = true) : Condition.ofJson? m j = some c := by
  have hnames : ["name", "type", "value", "decimals", "connector"].Nodup := by decide
  obtain ⟨taken, hrecord, htakes⟩ := record?_of_shows h hnames hread
  obtain _ | ⟨hname, _ | ⟨htype, _ | ⟨hvalue, _ | ⟨hdecimals, _ | ⟨hconnector, _ | _⟩⟩⟩⟩⟩ := htakes
  rename_i _ _ _ _ connector
  have hrecord : j.record? ["name", "type", "value", "decimals", "connector"] = _ := hrecord
  have hkeyed : c.value.IsKeyed := .of_mem_map "value" hkeyed (by simp [Field.entries])
  have hfield := Field.ofMembers?_of_takes (m := m.inside) (f := c.toField) hkeyed
    (.cons hname (.cons htype (.cons hvalue (.cons hdecimals .nil))))
  have hconnector : memberOr .and (Connector.ofJson? m.inside) connector = some c.connector :=
    memberOr_of_takes hconnector id (by cases c.connector <;> rfl)
  rw [Condition.ofJson?, hrecord]
  dsimp only [Option.bind_eq_bind, Option.bind_some]
  rw [hfield, Option.bind_some, hconnector, Option.bind_some]
  rfl

/-- An array of two is no condition: it has no value. -/
theorem Condition.ofJson?_pair (column value : Json) :
    Condition.ofJson? m (.array [column, value]) = none := by
  have hfield (type : Option Json) :
      Field.ofMembers? m.inside (some column) type none none = none := by
    rw [Field.ofMembers?]
    cases (some column).bind string? with
    | none => rfl
    | some name => cases type.bind (DeclaredType.ofJson? m.inside) <;> rfl
  have hrecord : (Json.array [column, value]).record?
      ["name", "type", "value", "decimals", "connector"] =
        some [some column, some value, none, none, none] := rfl
  rw [Condition.ofJson?, hrecord]
  dsimp only [Option.bind_eq_bind, Option.bind_some]
  rw [hfield]
  rfl

/-- An entry is read back as a condition or as a pair, as it was. -/
theorem Entry.ofJson?_of_shownBy {e : Entry} (hkeyed : e.toValue.IsKeyed) (h : e.ShownBy j)
    (hread : j.isReadable m.room = true) : Entry.ofJson? m j = some e := by
  rw [Entry.ofJson?, if_pos hread]
  cases e with
  | typed c =>
    rw [Condition.ofJson?_of_shownBy (m := m.anyForm) hkeyed h hread]
    rfl
  | pair column value =>
    cases h
    have hvalue := (isReadable_array.mp hread).2 value.tree (by simp)
    have hkeyed : value.IsKeyed := Value.isKeyed_list.mp hkeyed value (by simp)
    have hpair : m.inside.value? value.tree = some value := Value.value?_tree hkeyed hvalue
    rw [Condition.ofJson?_pair, Option.map_none, Option.none_or, pairOfJson?]
    dsimp only [string?, Option.bind_eq_bind, Option.bind_some]
    rw [hpair]
    rfl

/-- A filter is read back as a text or as a list, as it was. -/
theorem DeleteFilter.ofJson?_of_shownBy {d : DeleteFilter} (hkeyed : d.toValue.IsKeyed)
    (h : d.ShownBy j) (hread : j.isReadable m.room = true) : DeleteFilter.ofJson? m j = some d := by
  unfold DeleteFilter.ofJson?
  rw [if_pos hread]
  cases d with
  | raw sql =>
    cases h
    rfl
  | all conditions =>
    have hkeyed := List.forall_mem_map.mp (Value.isKeyed_list.mp hkeyed)
    have hlist : list? (Field.ofJson? m.anyForm.inside) j = some conditions := by
      apply list?_of_showsAll h hread
      intro f hf j hj hread
      exact Field.ofJson?_of_shownBy (hkeyed f hf) hj hread
    obtain ⟨items, rfl, _⟩ := h
    dsimp only
    rw [hlist]
    rfl

/-! ## Queries -/

/-- A join is read back. -/
theorem Join.ofJson?_of_shownBy {join : Join} (h : join.ShownBy j)
    (hread : j.isReadable m.room = true) : Join.ofJson? m j = some join := by
  have hnames : ["kind", "table", "on"].Nodup := by decide
  obtain ⟨taken, hrecord, htakes⟩ := record?_of_shows h hnames hread
  obtain _ | ⟨hkind, _ | ⟨htable, _ | ⟨hon, _ | _⟩⟩⟩ := htakes
  rename_i kind _ _
  have hrecord : j.record? ["kind", "table", "on"] = _ := hrecord
  have hkind : kind.bind (JoinKind.ofJson? m.inside) = some join.kind :=
    bind_of_takes hkind fun _ => by cases join.kind <;> rfl
  rw [Join.ofJson?, hrecord]
  dsimp only [Option.bind_eq_bind, Option.bind_some]
  rw [hkind, string_of_takes htable, string_of_takes hon]
  rfl

/-- An order term is read back. -/
theorem OrderTerm.ofJson?_of_shownBy {t : OrderTerm} (h : t.ShownBy j)
    (hread : j.isReadable m.room = true) : OrderTerm.ofJson? m j = some t := by
  have hnames : ["column", "direction"].Nodup := by decide
  obtain ⟨taken, hrecord, htakes⟩ := record?_of_shows h hnames hread
  obtain _ | ⟨hcolumn, _ | ⟨hdirection, _ | _⟩⟩ := htakes
  rename_i _ direction
  have hrecord : j.record? ["column", "direction"] = _ := hrecord
  have hdirection : memberOr .ascending (Direction.ofJson? m.inside) direction =
      some t.direction :=
    memberOr_of_takes hdirection id (by cases t.direction <;> rfl)
  rw [OrderTerm.ofJson?, hrecord]
  dsimp only [Option.bind_eq_bind, Option.bind_some]
  rw [string_of_takes hcolumn, hdirection]
  rfl

/-- A query is read back. -/
theorem Query.ofJson?_of_shows {q : Query} (hkeyed : q.toValue.IsKeyed) (h : Shows q.slots j)
    (hread : j.isReadable m.room = true) : Query.ofJson? m j = some q := by
  have hnames : ["fields", "from", "joins", "where", "group_by", "having", "order_by"].Nodup := by
    decide
  obtain ⟨taken, hrecord, htakes⟩ := record?_of_shows h hnames hread
  obtain _ | ⟨hfields, _ | ⟨hsource, _ | ⟨hjoins, _ | ⟨hconditions, _ | ⟨hgroupBy, _ | ⟨hhaving,
    _ | ⟨horderBy, _ | _⟩⟩⟩⟩⟩⟩⟩ := htakes
  rename_i fields source joins conditions groupBy having' orderBy
  have hrecord :
      j.record? ["fields", "from", "joins", "where", "group_by", "having", "order_by"] = _ :=
    hrecord
  have hentries {entries : List Entry} (name : String)
      (hmem : (name, Value.list (entries.map Entry.toValue)) ∈ q.entries) :
      ∀ e ∈ entries, e.toValue.IsKeyed :=
    List.forall_mem_map.mp (Value.isKeyed_list.mp (.of_mem_map name hkeyed hmem))
  have hconditionsKeyed : ∀ e ∈ q.conditions, e.toValue.IsKeyed :=
    hentries "where" (by simp [entries])
  have hhavingKeyed : ∀ e ∈ q.having, e.toValue.IsKeyed := hentries "having" (by simp [entries])
  have hfields : memberOr [] (list? string?) fields = some q.fields :=
    memberOr_of_takes hfields id (list?_texts q.fields)
  have hsource : memberOr "" string? source = some q.source := memberOr_of_takes hsource id rfl
  have hjoins : listMember? m.inside Join.ofJson? joins = some q.joins :=
    listMember?_of_takes (m := m.inside) hjoins id fun _ _ _ => Join.ofJson?_of_shownBy
  have hconditions : listMember? m.inside Entry.ofJson? conditions = some q.conditions :=
    listMember?_of_takes (m := m.inside) hconditions id
      fun e he _ => Entry.ofJson?_of_shownBy (hconditionsKeyed e he)
  have hgroupBy : memberOr [] (list? string?) groupBy = some q.groupBy :=
    memberOr_of_takes hgroupBy id (list?_texts q.groupBy)
  have hhaving : listMember? m.inside Entry.ofJson? having' = some q.having :=
    listMember?_of_takes (m := m.inside) hhaving id
      fun e he _ => Entry.ofJson?_of_shownBy (hhavingKeyed e he)
  have horderBy : listMember? m.inside OrderTerm.ofJson? orderBy = some q.orderBy :=
    listMember?_of_takes (m := m.inside) horderBy id fun _ _ _ => OrderTerm.ofJson?_of_shownBy
  rw [Query.ofJson?, hrecord]
  dsimp only [Option.bind_eq_bind, Option.bind_some]
  rw [hfields, hsource, hjoins, hconditions, hgroupBy, hhaving, horderBy]
  rfl

/-! ## Statements -/

namespace Statement

variable {s : Statement}

/-- The keys of a statement are distinct. -/
theorem nodup_names (s : Statement) :
    (names (.value "statement" (.str s.word) False :: s.slots)).Nodup := by
  have hinsert : ["statement", "table", "fields"].Nodup := by decide
  have hupdate : ["statement", "table", "fields", "conditions"].Nodup := by decide
  have hdelete : ["statement", "table", "conditions"].Nodup := by decide
  have hselect : ["statement", "fields", "from", "joins", "where", "group_by", "having",
    "order_by"].Nodup := by decide
  cases s with
  | insert => exact hinsert
  | update => exact hupdate
  | delete => exact hdelete
  | select => exact hselect

/-- A statement is cut into its word and what shows its other members. -/
theorem cut?_of_shownBy (h : s.ShownBy j) (hread : j.isReadable room = true) :
    ∃ rest, cut? j = some (s.word, rest) ∧ Shows s.slots rest ∧ rest.isReadable room = true := by
  obtain ⟨members, _, _, rfl, _⟩ := id h
  obtain ⟨hroom, hmembers⟩ := isReadable_object.mp hread
  obtain ⟨member, hmember, htakes⟩ :=
    member?_of_shows h s.nodup_names (List.mem_cons_self ..) hmembers
  have hmember : member? members "statement" = some member := hmember
  have hword : member.bind string? = some s.word := string_of_takes htakes
  refine ⟨_, ?_, h.tail s.nodup_names, ?_⟩
  · rw [cut?, hmember, Option.bind_eq_bind, Option.bind_some, hword]
    rfl
  · refine isReadable_object.mpr ⟨hroom, fun m hm => ?_⟩
    exact hmembers m (List.mem_of_mem_filter hm)

/-- The fields of a statement are read back. -/
theorem fields_of_takes {name : String} {fields : List Field} {member : Option Json}
    (hkeyed : (Value.list (fields.map Field.toValue)).IsKeyed)
    (h : (Slot.list name Field.ShownBy fields False).Takes m.room member) :
    member.bind (list? (Field.ofJson? m.inside)) = some fields := by
  have hkeyed := List.forall_mem_map.mp (Value.isKeyed_list.mp hkeyed)
  apply h.bind id
  intro j hj hread
  exact list?_of_showsAll hj hread fun f hf _ =>
    Field.ofJson?_of_shownBy (m := m.inside) (hkeyed f hf)

/-- The members of a statement are read under its word. -/
theorem ofMembers?_of_shows (hkeyed : s.toValue.IsKeyed) (h : Shows s.slots j)
    (hread : j.isReadable m.room = true) : ofMembers? m s.word j = some s := by
  have hnames := (List.nodup_cons.mp s.nodup_names).2
  obtain ⟨taken, hrecord, htakes⟩ := record?_of_shows h hnames hread
  cases s with
  | insert table fields =>
    have hfieldsKeyed : (Value.list (fields.map Field.toValue)).IsKeyed :=
      .of_mem_map "fields" hkeyed (by simp [entries])
    obtain _ | ⟨htable, _ | ⟨hfields, _ | _⟩⟩ := htakes
    have hrecord : j.record? ["table", "fields"] = _ := hrecord
    have hfields := fields_of_takes (m := m.inside) hfieldsKeyed hfields
    rw [word, ofMembers?, hrecord]
    dsimp only [Option.bind_eq_bind, Option.bind_some]
    rw [string_of_takes htable, hfields]
    rfl
  | update table fields conditions =>
    have hfieldsKeyed : (Value.list (fields.map Field.toValue)).IsKeyed :=
      .of_mem_map "fields" hkeyed (by simp [entries])
    have hconditionsKeyed : ∀ f ∈ conditions, f.toValue.IsKeyed :=
      List.forall_mem_map.mp (Value.isKeyed_list.mp
        (.of_mem_map "conditions" hkeyed (by simp [entries])))
    obtain _ | ⟨htable, _ | ⟨hfields, _ | ⟨hconditions, _ | _⟩⟩⟩ := htakes
    rename_i _ _ member
    have hrecord : j.record? ["table", "fields", "conditions"] = _ := hrecord
    have hfields := fields_of_takes (m := m.inside) hfieldsKeyed hfields
    have hconditions : listMember? m.inside Field.ofJson? member = some conditions :=
      listMember?_of_takes (m := m.inside) hconditions id
        fun f hf _ => Field.ofJson?_of_shownBy (hconditionsKeyed f hf)
    rw [word, ofMembers?, hrecord]
    dsimp only [Option.bind_eq_bind, Option.bind_some]
    rw [string_of_takes htable, hfields, hconditions]
    rfl
  | delete table conditions =>
    have hconditionsKeyed : conditions.toValue.IsKeyed :=
      .of_mem_map "conditions" hkeyed (by simp [entries])
    obtain _ | ⟨htable, _ | ⟨hconditions, _ | _⟩⟩ := htakes
    rename_i _ member
    have hrecord : j.record? ["table", "conditions"] = _ := hrecord
    have hconditions : memberOr (.all []) (DeleteFilter.ofJson? m.inside) member =
        some conditions :=
      hconditions.memberOr (fun hdefault => hdefault.symm) fun _ =>
        DeleteFilter.ofJson?_of_shownBy (m := m.inside) hconditionsKeyed
    rw [word, ofMembers?, hrecord]
    dsimp only [Option.bind_eq_bind, Option.bind_some]
    rw [string_of_takes htable, hconditions]
    rfl
  | select query =>
    have hquery : query.toValue.IsKeyed := hkeyed.tail_map
    rw [word, ofMembers?, Query.ofJson?_of_shows hquery h hread]
    rfl

/-- A statement is read back. -/
theorem ofJson?_of_shownBy (hkeyed : s.toValue.IsKeyed) (h : s.ShownBy j)
    (hread : j.isReadable deepest = true) : ofJson? j = some s := by
  obtain ⟨rest, hcut, hshows, hrest⟩ := cut?_of_shownBy h hread
  rw [ofJson?, if_pos hread, hcut]
  exact ofMembers?_of_shows hkeyed hshows hrest

end Statement

end SqlText
