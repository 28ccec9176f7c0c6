import SqlText.Proofs.Json.Tree
import Mathlib.Data.List.Perm.Basic

/-!
# Records as objects

A record is shown by an object in many ways: its members stand in any order, a member that
holds its default is there or not, and any other member may stand among them under a key that
the record does not know. The reader takes the same members from all of them.
-/

namespace SqlText.Json

/-- What stands under one key of a record. -/
structure Slot where
  /-- The key. -/
  name : String
  /-- The trees that show what the record holds there. -/
  shown : Json → Prop
  /-- The key may be missing: the record holds the default there. -/
  isDefault : Prop

/-- The array shows the list item by item. -/
def ShowsAll {α : Type} (shown : α → Json → Prop) (as : List α) (j : Json) : Prop :=
  ∃ items, j = .array items ∧ List.Forall₂ shown as items

namespace Slot

/-- A slot with a value. It may be missing for a default. -/
def value (name : String) (v : Value) (isDefault : Prop) : Slot := ⟨name, (· = v.tree), isDefault⟩

/-- A slot with a list. It may be missing for a default. -/
def list {α : Type} (name : String) (shown : α → Json → Prop) (as : List α) (isDefault : Prop) :
    Slot := ⟨name, ShowsAll shown as, isDefault⟩

/-- The slot takes this member, which can be read, or is missing. -/
def Takes (slot : Slot) (room : Nat) (member : Option Json) : Prop :=
  (member = none ∧ slot.isDefault) ∨
    ∃ j, member = some j ∧ slot.shown j ∧ j.isReadable room = true

end Slot

/-- Members for the slots in their order. Those that hold the default may be missing. -/
inductive Written : List Slot → List (Option String × Json) → Prop
  /-- No slots. -/
  | nil : Written [] []
  /-- A member for a slot. -/
  | keep {slot : Slot} {slots : List Slot} {j : Json} {members : List (Option String × Json)} :
      slot.shown j → Written slots members → Written (slot :: slots) ((some slot.name, j) :: members)
  /-- A default that is left out. -/
  | leave {slot : Slot} {slots : List Slot} {members : List (Option String × Json)} :
      slot.isDefault → Written slots members → Written (slot :: slots) members

/-- The keys of a record. -/
def names (slots : List Slot) : List String := slots.map Slot.name

/-- The object shows the record: it has the members of the record and others in any order, the
others under keys that the record does not have. -/
def Shows (slots : List Slot) (j : Json) : Prop :=
  ∃ members known others, j = .object members ∧ members.Perm (known ++ others) ∧
    Written slots known ∧ ∀ m ∈ others, ∃ key, m.1 = some key ∧ key ∉ names slots

variable {slot : Slot} {slots : List Slot} {known members : List (Option String × Json)}
  {j : Json} {room : Nat} {name : String}

/-- The members for the slots alone show the record. -/
theorem Written.shows (h : Written slots known) : Shows slots (.object known) :=
  ⟨known, known, [], rfl, by rw [List.append_nil], h, List.forall_mem_nil _⟩

/-- So do the members turned around, with others behind them under further keys. -/
theorem Written.shows_turned (h : Written slots known) (others : List (Option String × Json))
    (hothers : ∀ m ∈ others, ∃ key, m.1 = some key ∧ key ∉ names slots) :
    Shows slots (.object (known.reverse ++ others)) :=
  ⟨_, known, others, rfl, (List.reverse_perm known).append_right others, h, hothers⟩

/-- No member has a key that no slot has. -/
theorem Written.filter_of_notMem (h : Written slots known) (hname : name ∉ names slots) :
    known.filter (·.1 == some name) = [] := by
  induction h with
  | nil => rfl
  | @keep slot slots j members _ _ ih =>
    have hne : ¬(some slot.name == some name) = true := by
      intro heq
      have hhead : name = slot.name := (Option.some.inj (beq_iff_eq.mp heq)).symm
      exact hname (hhead ▸ List.mem_cons_self ..)
    rw [List.filter_cons, if_neg hne, ih (List.not_mem_of_not_mem_cons hname)]
  | leave _ _ ih => exact ih (List.not_mem_of_not_mem_cons hname)

/-- The member under the key of a slot shows what the slot holds. Only a default is missing. -/
theorem Written.filter_of_mem (h : Written slots known) (hnames : (names slots).Nodup)
    (hslot : slot ∈ slots) :
    known.filter (·.1 == some slot.name) = [] ∧ slot.isDefault ∨
      ∃ j, known.filter (·.1 == some slot.name) = [(some slot.name, j)] ∧ slot.shown j := by
  induction h with
  | nil => cases hslot
  | @keep head slots j members hshown hwritten ih =>
    obtain ⟨hnew, hnames⟩ := List.nodup_cons.mp hnames
    rcases List.mem_cons.mp hslot with rfl | hslot
    · right
      have heq : (some slot.name == some slot.name) = true := beq_self_eq_true _
      refine ⟨j, ?_, hshown⟩
      rw [List.filter_cons, if_pos heq, hwritten.filter_of_notMem hnew]
    · have hne : ¬(some head.name == some slot.name) = true := by
        intro heq
        have hhead : head.name = slot.name := Option.some.inj (beq_iff_eq.mp heq)
        exact hnew (hhead ▸ List.mem_map_of_mem hslot)
      rw [List.filter_cons, if_neg hne]
      exact ih hnames hslot
  | @leave head slots members hdefault hwritten ih =>
    obtain ⟨hnew, hnames⟩ := List.nodup_cons.mp hnames
    rcases List.mem_cons.mp hslot with rfl | hslot
    · exact .inl ⟨hwritten.filter_of_notMem hnew, hdefault⟩
    · exact ih hnames hslot

/-- The members under a key of the record are those of the record alone. -/
theorem filter_of_others {others : List (Option String × Json)}
    (hperm : members.Perm (known ++ others))
    (hothers : ∀ m ∈ others, ∃ key, m.1 = some key ∧ key ∉ names slots)
    (hname : name ∈ names slots) :
    (members.filter (·.1 == some name)).Perm (known.filter (·.1 == some name)) := by
  have hnone : others.filter (·.1 == some name) = [] := by
    rw [List.filter_eq_nil_iff]
    intro m hm heq
    obtain ⟨key, hkey, hnew⟩ := hothers m hm
    rw [hkey] at heq
    exact hnew (Option.some.inj (beq_iff_eq.mp heq) ▸ hname)
  have hfilter := hperm.filter (·.1 == some name)
  rwa [List.filter_append, hnone, List.append_nil] at hfilter

/-- The reader takes for a slot what shows it, or nothing for a default. -/
theorem member?_of_shows (h : Shows slots (.object members)) (hnames : (names slots).Nodup)
    (hslot : slot ∈ slots)
    (hread : ∀ m ∈ members, m.1.isSome = true ∧ m.2.isReadable room = true) :
    ∃ member, member? members slot.name = some member ∧ slot.Takes room member := by
  obtain ⟨_, known, others, hmembers, hperm, hwritten, hothers⟩ := h
  cases hmembers
  have hfilter := filter_of_others hperm hothers (List.mem_map_of_mem hslot)
  unfold member?
  rcases hwritten.filter_of_mem hnames hslot with ⟨hnone, hdefault⟩ | ⟨j, hone, hshown⟩
  · rw [hnone, List.perm_nil] at hfilter
    rw [hfilter]
    exact ⟨none, rfl, .inl ⟨rfl, hdefault⟩⟩
  · rw [hone, List.perm_singleton] at hfilter
    have hmem : (some slot.name, j) ∈ members.filter (·.1 == some slot.name) := by
      rw [hfilter]
      exact List.mem_singleton_self _
    have hj := (hread _ (List.mem_of_mem_filter hmem)).2
    rw [hfilter]
    exact ⟨some j, rfl, .inr ⟨j, rfl, hshown, hj⟩⟩

/-- The reader takes a member for every slot from an object that shows the record. -/
theorem record?_of_shows (h : Shows slots j) (hnames : (names slots).Nodup)
    (hread : j.isReadable room = true) :
    ∃ taken, j.record? (names slots) = some taken ∧
      List.Forall₂ (fun slot member => slot.Takes (room - 1) member) slots taken := by
  obtain ⟨members, _, _, rfl, _⟩ := id h
  have hmembers := (isReadable_object.mp hread).2
  have hkeys : members.any (·.1.isNone) = false := by
    rw [List.any_eq_false]
    intro m hm hnone
    rw [Option.isNone_iff_eq_none] at hnone
    have hsome := (hmembers m hm).1
    rw [hnone] at hsome
    cases hsome
  have hall {some : List Slot} (hsome : ∀ slot ∈ some, slot ∈ slots) :
      ∃ taken, (names some).mapM (member? members) = .some taken ∧
        List.Forall₂ (fun slot member => slot.Takes (room - 1) member) some taken := by
    induction some with
    | nil => exact ⟨[], rfl, .nil⟩
    | cons slot rest ih =>
      obtain ⟨hslot, hrest⟩ := List.forall_mem_cons.mp hsome
      obtain ⟨member, hmember, htakes⟩ := member?_of_shows h hnames hslot hmembers
      obtain ⟨taken, htaken, hall⟩ := ih hrest
      refine ⟨member :: taken, ?_, .cons htakes hall⟩
      rw [names] at htaken ⊢
      rw [List.map_cons, List.mapM_cons, hmember, htaken]
      rfl
  obtain ⟨taken, htaken, htakes⟩ := hall fun _ hslot => hslot
  refine ⟨taken, ?_, htakes⟩
  rw [record?, hkeys, if_neg Bool.false_ne_true, htaken]

/-- Other keys are kept when one is taken out. -/
theorem Written.filter_ne (h : Written slots known) (hname : name ∉ names slots) :
    known.filter (·.1 != some name) = known := by
  have hnone := List.filter_eq_nil_iff.mp (h.filter_of_notMem hname)
  rw [List.filter_eq_self]
  intro m hm
  simpa using hnone m hm

/-- What is left of an object without the first slot shows the other slots. -/
theorem Shows.tail (h : Shows (slot :: slots) (.object members))
    (hnames : (names (slot :: slots)).Nodup) :
    Shows slots (.object (members.filter (·.1 != some slot.name))) := by
  obtain ⟨_, known, others, hmembers, hperm, hwritten, hothers⟩ := h
  cases hmembers
  obtain ⟨hnew, _⟩ := List.nodup_cons.mp hnames
  have hleft := hperm.filter (·.1 != some slot.name)
  rw [List.filter_append] at hleft
  have hothers' : ∀ m ∈ others.filter (·.1 != some slot.name),
      ∃ key, m.1 = some key ∧ key ∉ names slots := by
    intro m hm
    obtain ⟨key, hkey, hunknown⟩ := hothers m (List.mem_of_mem_filter hm)
    exact ⟨key, hkey, List.not_mem_of_not_mem_cons hunknown⟩
  cases hwritten with
  | @keep _ _ j known hshown hwritten =>
    have hsame : ¬(some slot.name != some slot.name) = true := by simp
    rw [List.filter_cons, if_neg hsame, hwritten.filter_ne hnew] at hleft
    exact ⟨_, _, _, rfl, hleft, hwritten, hothers'⟩
  | leave hdefault hwritten =>
    rw [hwritten.filter_ne hnew] at hleft
    exact ⟨_, _, _, rfl, hleft, hwritten, hothers'⟩

/-- A member that may be missing is read as what the slot holds. -/
theorem Slot.Takes.memberOr {α : Type} {default a : α} {read : Json → Option α}
    {member : Option Json} (h : slot.Takes room member) (hdefault : slot.isDefault → default = a)
    (hread : ∀ j, slot.shown j → j.isReadable room = true → read j = some a) :
    Json.memberOr default read member = some a := by
  rcases h with ⟨rfl, hmissing⟩ | ⟨j, rfl, hshown, hj⟩
  · rw [Json.memberOr, hdefault hmissing]
  · exact hread j hshown hj

/-- A member that must be there is read as what the slot holds. -/
theorem Slot.Takes.bind {α : Type} {a : α} {read : Json → Option α} {member : Option Json}
    (h : slot.Takes room member) (hneeded : ¬slot.isDefault)
    (hread : ∀ j, slot.shown j → j.isReadable room = true → read j = some a) :
    member.bind read = some a := by
  rcases h with ⟨rfl, hmissing⟩ | ⟨j, rfl, hshown, hj⟩
  · exact absurd hmissing hneeded
  · exact hread j hshown hj

/-- A list is read when its items are read. -/
theorem list?_of_showsAll {α : Type} {shown : α → Json → Prop} {as : List α}
    {read : Json → Option α} (h : ShowsAll shown as j) (hread : j.isReadable room = true)
    (hitem : ∀ a ∈ as, ∀ j, shown a j → j.isReadable (room - 1) = true → read j = some a) :
    j.list? read = some as := by
  obtain ⟨items, rfl, hall⟩ := h
  have hitems := (isReadable_array.mp hread).2
  clear hread
  rw [list?]
  induction hall with
  | nil => rfl
  | @cons a j as items hshown _ ih =>
    obtain ⟨ha, has⟩ := List.forall_mem_cons.mp hitem
    obtain ⟨hj, hitems⟩ := List.forall_mem_cons.mp hitems
    rw [List.mapM_cons, ha j hshown hj, ih has hitems]
    rfl

end SqlText.Json
