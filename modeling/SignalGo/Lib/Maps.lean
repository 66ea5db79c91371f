import Mathlib

/-!
# Maps as sorted lists of entries

A map is written out as the list of its entries in the order of the keys, and read back by
inserting them one by one. A `range` loop visits the entries in an order of its own.
-/

namespace SignalGo

open Std (ExtTreeMap ExtTreeSet)

variable {α β : Type} [DecidableEq α] [Ord α] [Std.TransOrd α]

omit [DecidableEq α] in
theorem mem_of_mem_toList [Std.LawfulEqOrd α] {t : ExtTreeMap α β} {kv : α × β}
    (h : kv ∈ t.toList) : kv.1 ∈ t := by
  have hget : t[kv.1]? = some kv.2 := ExtTreeMap.mem_toList_iff_getElem?_eq_some.mp h
  rw [ExtTreeMap.mem_iff_isSome_getElem?, hget]
  rfl

theorem lookup_insert [Std.LawfulEqOrd α] (t : ExtTreeMap α β) (k a : α) (v : β) :
    (t.insert k v)[a]? = if k = a then some v else t[a]? := by
  simp only [ExtTreeMap.getElem?_insert, Std.LawfulEqOrd.compare_eq_iff_eq]

theorem lookup_erase [Std.LawfulEqOrd α] (t : ExtTreeMap α β) (k a : α) :
    (t.erase k)[a]? = if k = a then none else t[a]? := by
  simp only [ExtTreeMap.getElem?_erase, Std.LawfulEqOrd.compare_eq_iff_eq]

/-- Inserting the entries of a map one by one gives the map back. -/
theorem foldl_insert_toList [Std.LawfulEqOrd α] (t : ExtTreeMap α β) :
    t.toList.foldl (fun acc kv => acc.insert kv.1 kv.2) ∅ = t := by
  rw [← ExtTreeMap.ofList_eq_foldl]
  apply ExtTreeMap.ext_getElem?
  intro k
  cases h : t[k]? with
  | some v =>
    exact ExtTreeMap.getElem?_ofList_of_mem (Std.LawfulEqOrd.compare_eq_iff_eq.mpr rfl)
      ExtTreeMap.distinct_keys_toList (ExtTreeMap.mem_toList_iff_getElem?_eq_some.mpr h)
  | none =>
    apply ExtTreeMap.getElem?_ofList_of_contains_eq_false
    rw [ExtTreeMap.map_fst_toList_eq_keys]
    rw [List.contains_eq_mem, decide_eq_false_iff_not, ExtTreeMap.mem_keys,
      ExtTreeMap.mem_iff_isSome_getElem?, h]
    exact Bool.false_ne_true

omit [DecidableEq α] in
/-- Inserting the elements of a set one by one gives the set back. -/
theorem foldl_insert_toList_set [Std.LawfulEqOrd α] (t : ExtTreeSet α) :
    t.toList.foldl (fun acc k => acc.insert k) ∅ = t := by
  have hmem (l : List α) (acc : ExtTreeSet α) (k : α) :
      k ∈ l.foldl (fun acc k => acc.insert k) acc ↔ k ∈ l ∨ k ∈ acc := by
    induction l generalizing acc with
    | nil => simp
    | cons a l ih =>
      rw [List.foldl_cons, ih, ExtTreeSet.mem_insert, Std.LawfulEqOrd.compare_eq_iff_eq,
        List.mem_cons]
      tauto
  apply ExtTreeSet.ext_mem
  intro k
  rw [hmem, ExtTreeSet.mem_toList]
  simp

omit [DecidableEq α] in
/-- Writing what is there changes nothing. -/
theorem insert_of_getElem? [Std.LawfulEqOrd α] {t : ExtTreeMap α β} {k : α} {v : β}
    (h : t[k]? = some v) : t.insert k v = t := by
  refine ExtTreeMap.ext_getElem? fun j => ?_
  rw [ExtTreeMap.getElem?_insert]
  split
  case isTrue heq =>
    rw [← Std.LawfulEqOrd.eq_of_compare heq, h]
  case isFalse => rfl

theorem size_eq_card (t : ExtTreeMap α β) : t.keys.toFinset.card = t.size := by
  rw [List.toFinset_card_of_nodup ExtTreeMap.nodup_keys, ExtTreeMap.length_keys]

/-- A map whose keys are numbered in a finite set has at most as many entries. -/
theorem size_le_card [Std.LawfulEqOrd α] (t : ExtTreeMap α β) {f : α → Nat}
    (hf : Function.Injective f) (s : Finset Nat) (h : ∀ k v, t[k]? = some v → f k ∈ s) :
    t.size ≤ s.card := by
  rw [← size_eq_card]
  refine Finset.card_le_card_of_injOn f (fun k hk => ?_) hf.injOn
  rw [List.coe_toFinset, Set.mem_ofPred_eq, ExtTreeMap.mem_keys,
    ExtTreeMap.mem_iff_isSome_getElem?, Option.isSome_iff_exists] at hk
  obtain ⟨v, hv⟩ := hk
  exact h k v hv

omit [DecidableEq α] in
/-- A map whose keys are all in a list has at most as many entries as the list. -/
theorem size_le_length [Std.LawfulEqOrd α] (t : ExtTreeMap α β) {l : List α} (h : ∀ k ∈ t, k ∈ l) :
    t.size ≤ l.length := by
  rw [← ExtTreeMap.length_keys]
  exact (ExtTreeMap.nodup_keys.subperm fun k hk => h k (ExtTreeMap.mem_keys.mp hk)).length_le

omit [DecidableEq α] in
/-- The same for a set. -/
theorem set_size_le_length [Std.LawfulEqOrd α] (t : ExtTreeSet α) {l : List α}
    (h : ∀ k ∈ t, k ∈ l) : t.size ≤ l.length := by
  have hnodup : t.toList.Nodup := ExtTreeSet.distinct_toList.imp fun {a b} hne heq =>
    hne (Std.LawfulEqOrd.compare_eq_iff_eq.mpr heq)
  rw [← ExtTreeSet.length_toList]
  exact (hnodup.subperm fun k hk => h k (ExtTreeSet.mem_toList.mp hk)).length_le

/-- The order in which Go visits the entries of a map: any. -/
structure MapOrder where
  visit {α : Type} : List α → List α
  perm {α : Type} (l : List α) : (visit l).Perm l

/-- The order of the keys. -/
def MapOrder.ascending : MapOrder := ⟨id, .refl⟩

end SignalGo
