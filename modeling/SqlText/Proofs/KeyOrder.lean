import SqlText.Keyed
import Mathlib.Data.List.Induction
import Mathlib.Data.List.Lex
import Mathlib.Data.List.Nodup
import Mathlib.Data.String.Basic

/-!
# Keys in order

A map holds under each key what was last written to it, whether its keys stand where they
first came or in increasing order. A map in increasing order is determined by what it holds,
and is therefore the other one with its entries sorted. The order of code points, by which the
keys are compared, is the order of their UTF-8 bytes.
-/

namespace SqlText

open String (utf8EncodeChar)

/-- The bytes of a text. -/
def utf8 (text : String) : List UInt8 := text.toUTF8.data.toList

/-- The bytes of a text are those of its characters, one after another. -/
theorem utf8_eq_flatMap (text : String) : utf8 text = text.toList.flatMap utf8EncodeChar := by
  have hbytes : (String.ofList text.toList).toByteArray = text.toList.utf8Encode :=
    String.toByteArray_ofList
  rw [String.ofList_toList] at hbytes
  change text.toByteArray.data.toList = _
  rw [hbytes]
  simp [List.utf8Encode]

/-- A smaller character has smaller bytes, whatever comes after them: fewer bytes begin with a
smaller one, and as many bytes are compared from the highest bits on. -/
theorem utf8EncodeChar_append_lt {c d : Char} (h : c < d) (bs es : List UInt8) :
    utf8EncodeChar c ++ bs < utf8EncodeChar d ++ es := by
  have hcd : c.val.toNat < d.val.toNat := h
  have hd : d.val.toNat < 0x110000 := by
    rcases d.valid with hd | ⟨-, hd⟩
    · exact Nat.lt_trans hd (by decide)
    · exact hd
  unfold utf8EncodeChar
  simp only
  generalize c.val.toNat = m at hcd ⊢
  generalize d.val.toNat = n at hcd hd ⊢
  split_ifs <;>
    simp (disch := omega) only [List.cons_append, List.nil_append, List.cons_lt_cons_iff,
      UInt8.lt_iff_toNat_lt, ← UInt8.toNat_inj, UInt8.toNat_ofNat', Nat.mod_eq_of_lt] <;>
    omega

/-- The bytes of characters are in the order of the characters. -/
theorem flatMap_utf8EncodeChar_lt {cs ds : List Char} (h : cs < ds) :
    cs.flatMap utf8EncodeChar < ds.flatMap utf8EncodeChar := by
  induction cs generalizing ds with
  | nil =>
    cases ds with
    | nil => exact absurd h (List.lt_irrefl [])
    | cons d ds =>
      obtain ⟨b, bs, hbytes⟩ := List.exists_cons_of_ne_nil (l := utf8EncodeChar d) (by simp)
      rw [List.flatMap_nil, List.flatMap_cons, hbytes]
      exact List.nil_lt_cons ..
  | cons c cs ih =>
    cases ds with
    | nil => exact absurd h (List.not_lt_nil _)
    | cons d ds =>
      rw [List.flatMap_cons, List.flatMap_cons]
      rcases List.cons_lt_cons_iff.mp h with hcd | ⟨rfl, hrest⟩
      · exact utf8EncodeChar_append_lt hcd _ _
      · exact List.append_left_lt (ih hrest)

/-- Texts are in the order of their bytes. -/
theorem utf8_lt_iff {a b : String} : utf8 a < utf8 b ↔ a < b := by
  have hmono {a b : String} (h : a < b) : utf8 a < utf8 b := by
    rw [utf8_eq_flatMap, utf8_eq_flatMap]
    exact flatMap_utf8EncodeChar_lt (String.lt_iff_toList_lt.mp h)
  refine ⟨fun h => ?_, hmono⟩
  rcases lt_trichotomy a b with hab | rfl | hba
  · exact hab
  · exact absurd h (List.lt_irrefl _)
  · exact absurd h (List.lt_asymm (hmono hba))

namespace Keyed

variable {α β : Type} {m : Keyed α}

/-- The keys are in increasing order, no key twice. -/
def IsSorted (m : Keyed α) : Prop := (m.map Prod.fst).Pairwise (· < ·)

/-- What was last written to a key. -/
def last? (pairs : List (String × α)) (key : String) : Option α :=
  (pairs.filter (·.1 = key)).getLast?.map Prod.snd

/-- The entries in the order of the bytes of their keys. -/
def sortedByKey (m : Keyed α) : Keyed α :=
  m.mergeSort fun a b => !decide (utf8 b.1 < utf8 a.1)

/-- The first entry is what is found under its key. -/
theorem lookup_cons (key sought : String) (a : α) (m : Keyed α) :
    List.lookup sought ((key, a) :: m) = if sought = key then some a else m.lookup sought := by
  rw [List.lookup_cons]
  by_cases hsought : sought = key
  · rw [if_pos hsought, beq_iff_eq.mpr hsought]
  · rw [if_neg hsought, beq_false_of_ne hsought]

/-- A key that is there keeps its place, and a new one comes last. -/
theorem keys_insert (m : Keyed α) (key : String) (a : α) :
    (m.insert key a).map Prod.fst =
      if key ∈ m.map Prod.fst then m.map Prod.fst else m.map Prod.fst ++ [key] := by
  induction m with
  | nil => rfl
  | cons entry m ih =>
    obtain ⟨k, held⟩ := entry
    rw [insert]
    by_cases hk : k = key
    · subst hk
      simp
    · rw [if_neg hk, List.map_cons, ih, List.map_cons]
      by_cases hmem : key ∈ m.map Prod.fst
      · rw [if_pos hmem, if_pos (List.mem_cons_of_mem k hmem)]
      · have hnew : key ∉ k :: m.map Prod.fst := by
          rw [List.mem_cons, not_or]
          exact ⟨Ne.symm hk, hmem⟩
        rw [if_neg hmem, if_neg hnew, List.cons_append]

/-- What is written to a key is found there, and everything else is found as before. -/
theorem lookup_insert (m : Keyed α) (key sought : String) (a : α) :
    (m.insert key a).lookup sought = if sought = key then some a else m.lookup sought := by
  induction m with
  | nil => exact lookup_cons key sought a []
  | cons entry m ih =>
    obtain ⟨k, held⟩ := entry
    rw [insert, lookup_cons]
    by_cases hk : k = key
    · subst hk
      rw [if_pos rfl, lookup_cons]
      split_ifs <;> rfl
    · rw [if_neg hk, lookup_cons, ih]
      split_ifs with hsought hkey
      · exact absurd (hsought.symm.trans hkey) hk
      all_goals rfl

/-- Writing changes what is held after it just as before it. -/
theorem map_insert (f : α → β) (m : Keyed α) (key : String) (a : α) :
    (m.insert key a).map (fun entry => (entry.1, f entry.2)) =
      insert (m.map fun entry => (entry.1, f entry.2)) key (f a) := by
  induction m with
  | nil => rfl
  | cons entry m ih =>
    obtain ⟨k, held⟩ := entry
    rw [insert, List.map_cons, insert]
    by_cases hk : k = key
    · rw [if_pos hk, if_pos hk, List.map_cons]
    · rw [if_neg hk, if_neg hk, List.map_cons, ih]

/-- What is written to a key in order is found there, and everything else as before. -/
theorem lookup_insertSorted (m : Keyed α) (key sought : String) (a : α) :
    (m.insertSorted key a).lookup sought =
      if sought = key then some a else m.lookup sought := by
  induction m with
  | nil => exact lookup_cons key sought a []
  | cons entry m ih =>
    obtain ⟨k, held⟩ := entry
    rw [insertSorted, lookup_cons]
    by_cases hlt : k < key
    · rw [if_pos hlt, lookup_cons, ih]
      split_ifs with hsought hkey
      · exact absurd (hsought.symm.trans hkey) (ne_of_lt hlt)
      all_goals rfl
    · rw [if_neg hlt]
      by_cases hk : k = key
      · subst hk
        rw [if_pos rfl, lookup_cons]
        split_ifs <;> rfl
      · rw [if_neg hk, lookup_cons, lookup_cons]

/-- Writing to a key in order brings in that key alone. -/
theorem mem_keys_insertSorted {key sought : String} {a : α} :
    sought ∈ (m.insertSorted key a).map Prod.fst ↔ sought = key ∨ sought ∈ m.map Prod.fst := by
  induction m with
  | nil => simp [insertSorted]
  | cons entry m ih =>
    obtain ⟨k, held⟩ := entry
    rw [insertSorted]
    split_ifs with hlt hk
    · rw [List.map_cons, List.mem_cons, ih, List.map_cons, List.mem_cons, or_left_comm]
    · subst hk
      simp
    · simp

/-- Writing to a key in order keeps the order. -/
theorem IsSorted.insertSorted (h : m.IsSorted) (key : String) (a : α) :
    (m.insertSorted key a).IsSorted := by
  induction m with
  | nil => exact List.pairwise_singleton _ _
  | cons entry m ih =>
    obtain ⟨k, held⟩ := entry
    obtain ⟨hbelow, hrest⟩ := List.pairwise_cons.mp h
    rw [Keyed.insertSorted]
    split_ifs with hlt hk
    · refine List.pairwise_cons.mpr ⟨fun sought hsought => ?_, ih hrest⟩
      rcases mem_keys_insertSorted.mp hsought with rfl | hmem
      · exact hlt
      · exact hbelow sought hmem
    · subst hk
      exact h
    · have hkey : key < k := lt_of_le_of_ne (not_lt.mp hlt) (Ne.symm hk)
      refine List.pairwise_cons.mpr ⟨List.forall_mem_cons.mpr ⟨hkey, fun sought hsought => ?_⟩, h⟩
      exact hkey.trans (hbelow sought hsought)

/-- Changing what is held after writing in order is changing it before. -/
theorem map_insertSorted (f : α → β) (m : Keyed α) (key : String) (a : α) :
    (m.insertSorted key a).map (fun entry => (entry.1, f entry.2)) =
      Keyed.insertSorted (m.map fun entry => (entry.1, f entry.2)) key (f a) := by
  induction m with
  | nil => rfl
  | cons entry m ih =>
    obtain ⟨k, held⟩ := entry
    rw [insertSorted, List.map_cons, insertSorted]
    split_ifs
    · rw [List.map_cons, ih]
    · rw [List.map_cons]
    · rw [List.map_cons, List.map_cons]

/-- Pairs that are written one after another leave under each key the last one with that key,
however an entry finds its place. -/
theorem lookup_foldl {write : Keyed α → String → α → Keyed α}
    (hwrite : ∀ m key sought a,
      (write m key a).lookup sought = if sought = key then some a else List.lookup sought m)
    (pairs : List (String × α)) (key : String) :
    (pairs.foldl (fun m pair => write m pair.1 pair.2) []).lookup key = last? pairs key := by
  induction pairs using List.reverseRecOn with
  | nil => rfl
  | append_singleton pairs pair ih =>
    rw [List.foldl_concat, hwrite, ih, last?, last?, List.filter_append]
    by_cases hkey : key = pair.1
    · subst hkey
      simp
    · have hother : ¬ pair.1 = key := Ne.symm hkey
      simp [hkey, hother]

/-- A map holds what came last. -/
theorem lookup_ofPairs (pairs : List (String × α)) (key : String) :
    (ofPairs pairs).lookup key = last? pairs key :=
  lookup_foldl lookup_insert pairs key

/-- A map in increasing order holds what came last. -/
theorem lookup_sortedOfPairs (pairs : List (String × α)) (key : String) :
    (sortedOfPairs pairs).lookup key = last? pairs key :=
  lookup_foldl lookup_insertSorted pairs key

/-- Pairs written in order are in order. -/
theorem isSorted_sortedOfPairs (pairs : List (String × α)) : (sortedOfPairs pairs).IsSorted := by
  induction pairs using List.reverseRecOn with
  | nil => exact List.Pairwise.nil
  | append_singleton pairs pair ih =>
    rw [sortedOfPairs, List.foldl_concat]
    exact ih.insertSorted pair.1 pair.2

/-- A map has no key twice. -/
theorem nodup_keys_ofPairs (pairs : List (String × α)) :
    ((ofPairs pairs).map Prod.fst).Nodup := by
  induction pairs using List.reverseRecOn with
  | nil => exact List.nodup_nil
  | append_singleton pairs pair ih =>
    rw [ofPairs, List.foldl_concat]
    change ((insert (ofPairs pairs) pair.1 pair.2).map Prod.fst).Nodup
    rw [keys_insert]
    split_ifs with hmem
    · exact ih
    · simpa using ih.concat hmem

/-- Pairs that hold something else make a map that does. -/
theorem map_ofPairs (f : α → β) (pairs : List (String × α)) :
    (ofPairs pairs).map (fun entry => (entry.1, f entry.2)) =
      ofPairs (pairs.map fun pair => (pair.1, f pair.2)) := by
  induction pairs using List.reverseRecOn with
  | nil => rfl
  | append_singleton pairs pair ih =>
    rw [List.map_append, ofPairs, List.foldl_concat, ofPairs, List.map_singleton,
      List.foldl_concat]
    exact (map_insert f _ _ _).trans (congrArg (insert · pair.1 (f pair.2)) ih)

/-- Pairs that hold something else make a map in increasing order that does. -/
theorem map_sortedOfPairs (f : α → β) (pairs : List (String × α)) :
    (sortedOfPairs pairs).map (fun entry => (entry.1, f entry.2)) =
      sortedOfPairs (pairs.map fun pair => (pair.1, f pair.2)) := by
  induction pairs using List.reverseRecOn with
  | nil => rfl
  | append_singleton pairs pair ih =>
    rw [List.map_append, sortedOfPairs, List.foldl_concat, sortedOfPairs, List.map_singleton,
      List.foldl_concat]
    exact (map_insertSorted f _ _ _).trans (congrArg (insertSorted · pair.1 (f pair.2)) ih)

/-- An order has no key twice. -/
theorem IsSorted.nodup_keys (h : m.IsSorted) : (m.map Prod.fst).Nodup :=
  h.imp ne_of_lt

/-- Without a key twice, what is found is what is there. -/
theorem lookup_eq_some_iff_mem (h : (m.map Prod.fst).Nodup) {key : String} {a : α} :
    m.lookup key = some a ↔ (key, a) ∈ m := by
  induction m with
  | nil => simp
  | cons entry m ih =>
    obtain ⟨k, held⟩ := entry
    obtain ⟨hnew, hrest⟩ := List.nodup_cons.mp h
    rw [lookup_cons, List.mem_cons, Prod.mk.injEq]
    split_ifs with hkey
    · subst hkey
      have hnot : (key, a) ∉ m := fun hmem => hnew (List.mem_map.mpr ⟨_, hmem, rfl⟩)
      simp [hnot, eq_comm]
    · simp [hkey, ih hrest]

/-- Maps without a key twice that hold the same have the same entries. -/
theorem perm_of_lookup_eq {m m' : Keyed α} (h : (m.map Prod.fst).Nodup)
    (h' : (m'.map Prod.fst).Nodup) (hsame : ∀ key, m.lookup key = m'.lookup key) :
    m.Perm m' := by
  refine (List.perm_ext_iff_of_nodup (List.Nodup.of_map _ h) (List.Nodup.of_map _ h')).mpr
    fun entry => ?_
  rw [← lookup_eq_some_iff_mem h, ← lookup_eq_some_iff_mem h', hsame]

/-- Only one map in increasing order has given entries. -/
theorem IsSorted.eq_of_perm {m m' : Keyed α} (h : m.IsSorted) (h' : m'.IsSorted)
    (hperm : m.Perm m') : m = m' := by
  rw [IsSorted, List.pairwise_map] at h h'
  refine hperm.eq_of_pairwise (fun a b _ _ hab hba => ?_) h h'
  exact absurd hba (lt_asymm hab)

/-- Sorting a map without a key twice puts it in increasing order. -/
theorem isSorted_sortedByKey (h : (m.map Prod.fst).Nodup) : m.sortedByKey.IsSorted := by
  have hperm : m.sortedByKey.Perm m := List.mergeSort_perm ..
  have hle : m.sortedByKey.Pairwise fun a b => a.1 ≤ b.1 := by
    have hiff (a b : String × α) : (!decide (utf8 b.1 < utf8 a.1)) = true ↔ a.1 ≤ b.1 := by
      rw [Bool.not_eq_true', decide_eq_false_iff_not, utf8_lt_iff, not_lt]
    refine (List.pairwise_mergeSort ?_ ?_ m).imp fun hab => (hiff _ _).mp hab
    · intro a b c hab hbc
      exact (hiff a c).mpr (le_trans ((hiff a b).mp hab) ((hiff b c).mp hbc))
    · intro a b
      rw [Bool.or_eq_true, hiff, hiff]
      exact le_total a.1 b.1
  have hnodup : (m.sortedByKey.map Prod.fst).Nodup := (hperm.map _).nodup_iff.mpr h
  rw [IsSorted, List.pairwise_map]
  exact (hle.and (List.pairwise_map.mp hnodup)).imp fun hab => lt_of_le_of_ne hab.1 hab.2

/-- Pairs written in increasing order are the map of the pairs, sorted. -/
theorem sortedOfPairs_eq (pairs : List (String × α)) :
    sortedOfPairs pairs = (ofPairs pairs).sortedByKey := by
  have hsorted := isSorted_sortedOfPairs pairs
  have hdistinct := nodup_keys_ofPairs pairs
  refine hsorted.eq_of_perm (isSorted_sortedByKey hdistinct) ?_
  refine List.Perm.trans ?_ (List.mergeSort_perm ..).symm
  refine perm_of_lookup_eq hsorted.nodup_keys hdistinct fun key => ?_
  rw [lookup_sortedOfPairs, lookup_ofPairs]

end Keyed

end SqlText
