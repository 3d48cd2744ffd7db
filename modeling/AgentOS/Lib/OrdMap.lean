import AgentOS.Lib.Scan

/-!
# Ordered maps

`OrdMap κ υ` is the ordered map of the standard library with extensional equality; iteration
(`toList`) is in key order. The lemmas restate lookups after an update with key equality in place
of the comparison function, and compare key sets by size (`mem_of_size_eq`).
-/

namespace AgentOS.Lib

open Std (ExtTreeMap TransOrd LawfulEqOrd ReflOrd)

/-- An ordered map with extensional equality. -/
abbrev OrdMap (κ υ : Type) [Ord κ] : Type := ExtTreeMap κ υ compare

namespace OrdMap

variable {κ υ υ' : Type} [Ord κ] [TransOrd κ] [LawfulEqOrd κ]

theorem lookup_insert [DecidableEq κ] (m : OrdMap κ υ) (k a : κ) (v : υ) :
    (m.insert k v)[a]? = if k = a then some v else m[a]? := by
  rw [ExtTreeMap.getElem?_insert]
  simp only [LawfulEqOrd.compare_eq_iff_eq]

omit [LawfulEqOrd κ] in
theorem lookup_insert_self (m : OrdMap κ υ) (k : κ) (v : υ) : (m.insert k v)[k]? = some v :=
  ExtTreeMap.getElem?_insert_self

theorem lookup_insert_ne (m : OrdMap κ υ) {k a : κ} (v : υ) (h : k ≠ a) :
    (m.insert k v)[a]? = m[a]? := by
  rw [ExtTreeMap.getElem?_insert, if_neg]
  simpa only [LawfulEqOrd.compare_eq_iff_eq] using h

theorem lookup_erase [DecidableEq κ] (m : OrdMap κ υ) (k a : κ) :
    (m.erase k)[a]? = if k = a then none else m[a]? := by
  rw [ExtTreeMap.getElem?_erase]
  simp only [LawfulEqOrd.compare_eq_iff_eq]

theorem lookup_filter (m : OrdMap κ υ) (p : κ → υ → Bool) (a : κ) :
    (m.filter p)[a]? = m[a]?.filter (p a) := by
  rw [ExtTreeMap.getElem?_filter']

theorem filter_filter (m : OrdMap κ υ) (p q : κ → υ → Bool) :
    (m.filter p).filter q = m.filter fun k v => p k v && q k v := by
  refine ExtTreeMap.ext_getElem? fun a => ?_
  rw [lookup_filter, lookup_filter, lookup_filter, Option.filter_filter]

theorem filter_true (m : OrdMap κ υ) : m.filter (fun _ _ => true) = m := by
  refine ExtTreeMap.ext_getElem? fun a => ?_
  rw [lookup_filter]
  cases m[a]? with
  | none => rfl
  | some v => rfl

variable {m : OrdMap κ υ}

/-- A filter depends on its test at the entries of the map only. -/
theorem filter_congr {p q : κ → υ → Bool} (h : ∀ (k : κ) (v : υ), m[k]? = some v → p k v = q k v) :
    m.filter p = m.filter q := by
  refine ExtTreeMap.ext_getElem? fun a => ?_
  rw [lookup_filter, lookup_filter]
  cases hv : m[a]? with
  | none => rfl
  | some v => rw [Option.filter_some, Option.filter_some, h a v hv]

theorem lookup_modify [DecidableEq κ] (m : OrdMap κ υ) (k a : κ) (f : υ → υ) :
    (m.modify k f)[a]? = if k = a then m[a]?.map f else m[a]? := by
  rw [ExtTreeMap.getElem?_modify]
  simp only [LawfulEqOrd.compare_eq_iff_eq]
  split
  · next h => rw [h]
  · rfl

theorem mem_insert_iff (m : OrdMap κ υ) (k a : κ) (v : υ) : a ∈ m.insert k v ↔ k = a ∨ a ∈ m := by
  rw [ExtTreeMap.mem_insert]
  simp only [LawfulEqOrd.compare_eq_iff_eq]

omit [LawfulEqOrd κ] in
theorem mem_iff_exists_lookup (m : OrdMap κ υ) (a : κ) : a ∈ m ↔ ∃ v, m[a]? = some v := by
  rw [ExtTreeMap.mem_iff_isSome_getElem?, Option.isSome_iff_exists]

omit [LawfulEqOrd κ] in
theorem exists_lookup {a : κ} (h : a ∈ m) : ∃ v, m[a]? = some v :=
  (mem_iff_exists_lookup m a).1 h

omit [LawfulEqOrd κ] in
theorem mem_of_lookup {a : κ} {v : υ} (h : m[a]? = some v) : a ∈ m :=
  (mem_iff_exists_lookup m a).2 ⟨v, h⟩

omit [LawfulEqOrd κ] in
theorem not_mem_iff_lookup (m : OrdMap κ υ) (a : κ) : a ∉ m ↔ m[a]? = none := by
  rw [ExtTreeMap.mem_iff_isSome_getElem?, Bool.not_eq_true, Option.isSome_eq_false_iff,
    Option.isNone_iff_eq_none]

theorem mem_toList_iff {k : κ} {v : υ} : (k, v) ∈ m.toList ↔ m[k]? = some v :=
  ExtTreeMap.mem_toList_iff_getElem?_eq_some

theorem toList_any_eq_false (m : OrdMap κ υ) (p : κ × υ → Bool) :
    m.toList.any p = false ↔ ∀ k v, m[k]? = some v → p (k, v) = false := by
  rw [List.any_eq_false]
  constructor
  · intro h k v hkv
    simpa using h (k, v) (mem_toList_iff.2 hkv)
  · rintro h ⟨k, v⟩ hkv
    simpa using h k v (mem_toList_iff.1 hkv)

variable {m' : OrdMap κ υ'}

/-- A map whose keys all occur in another map is no larger. -/
theorem size_le_of_keys_subset (h : ∀ k, k ∈ m → k ∈ m') : m.size ≤ m'.size := by
  rw [← ExtTreeMap.length_keys, ← ExtTreeMap.length_keys]
  refine (List.subperm_of_subset ExtTreeMap.nodup_keys ?_).length_le
  intro k hk
  rw [ExtTreeMap.mem_keys] at hk ⊢
  exact h k hk

/-- Two maps of one size, one with keys among the other's, have the same keys. -/
theorem mem_of_size_eq (h : ∀ k, k ∈ m → k ∈ m') (hsize : m'.size = m.size) {k : κ} (hk : k ∈ m') :
    k ∈ m := by
  rw [← ExtTreeMap.length_keys, ← ExtTreeMap.length_keys] at hsize
  have hsub : m.keys.Subperm m'.keys := by
    refine List.subperm_of_subset ExtTreeMap.nodup_keys ?_
    intro a ha
    rw [ExtTreeMap.mem_keys] at ha ⊢
    exact h a ha
  have hperm := hsub.perm_of_length_le hsize.le
  rw [← ExtTreeMap.mem_keys] at hk ⊢
  exact hperm.mem_iff.2 hk

theorem size_eq_of_keys_iff (h : ∀ k, k ∈ m ↔ k ∈ m') : m.size = m'.size :=
  Nat.le_antisymm (size_le_of_keys_subset fun k hk => (h k).1 hk)
    (size_le_of_keys_subset fun k hk => (h k).2 hk)

/-- The entries of a map that is iterated in key order have pairwise distinct keys. -/
theorem toList_pairwise_ne (m : OrdMap κ υ) : m.toList.Pairwise fun p q => p.1 ≠ q.1 := by
  refine (ExtTreeMap.distinct_keys_toList).imp ?_
  intro p q h heq
  exact h (by rw [heq]; exact ReflOrd.compare_self)

/-- A symmetric relation holds between all entries of a list in key order exactly when it holds
between the values of all distinct keys. -/
theorem toList_pairwise_iff {R : υ → υ → Prop} (hR : ∀ v v', R v v' → R v' v) (m : OrdMap κ υ) :
    m.toList.Pairwise (fun p q => R p.2 q.2) ↔
      ∀ (k k' : κ) (v v' : υ), m[k]? = some v → m[k']? = some v' → k ≠ k' → R v v' := by
  constructor
  · intro h k k' v v' hv hv' hne
    have hsymm : Std.Symm fun p q : κ × υ => R p.2 q.2 := ⟨fun p q => hR p.2 q.2⟩
    exact h.forall (mem_toList_iff.2 hv) (mem_toList_iff.2 hv')
      fun heq => hne (congrArg Prod.fst heq)
  · intro h
    refine (toList_pairwise_ne m).imp_of_mem ?_
    intro p q hp hq hne
    exact h p.1 q.1 p.2 q.2 (mem_toList_iff.1 hp) (mem_toList_iff.1 hq) hne

end OrdMap

end AgentOS.Lib
