import AgentOS.Lib.OrdMap

/-!
# Cached aggregates of a table

A table of rows is summed up in groups: a row counts towards some groups, with an amount in two
dimensions. A cache keeps for a group the sums of the amounts, clamped at a cap. `Cached` says that
an entry of the cache is right: a stored entry holds the clamped total, and a missing one means that
no row counts towards the group.

Adding a row, replacing it or taking it away changes a total by the row's amount (`total_insert`,
`total_of_lookup`). A clamped total can be updated from the amounts of the old and the new row alone
as long as it grows or has not reached the cap (`clamped_grow`, `clamped_shrink`).
-/

namespace AgentOS.Lib

open Std (ExtTreeMap TransOrd LawfulEqOrd)

variable {κ υ γ : Type} [Ord κ] [TransOrd κ] [LawfulEqOrd κ] [DecidableEq κ]

/-! ## Rows of a map -/

variable {m : OrdMap κ υ} {k : κ}

namespace OrdMap

omit [DecidableEq κ] in
theorem nodup_toList (m : OrdMap κ υ) : m.toList.Nodup :=
  (toList_pairwise_ne m).imp fun h heq => h (congrArg Prod.fst heq)

theorem erase_of_lookup_none (h : m[k]? = none) : m.erase k = m := by
  refine ExtTreeMap.ext_getElem? fun a => ?_
  rw [lookup_erase]
  split
  · next heq => rw [← heq, h]
  · rfl

theorem toList_perm_of_lookup {v : υ} (h : m[k]? = some v) :
    m.toList.Perm ((k, v) :: (m.erase k).toList) := by
  have ha : (k, v) ∉ (m.erase k).toList := by
    rw [mem_toList_iff, lookup_erase, if_pos rfl]
    simp
  refine (List.perm_ext_iff_of_nodup (nodup_toList m) (List.nodup_cons.2 ⟨ha, nodup_toList _⟩)).2 ?_
  rintro ⟨a, w⟩
  rw [List.mem_cons, mem_toList_iff, mem_toList_iff, lookup_erase, Prod.mk.injEq]
  by_cases heq : k = a
  · subst heq
    simp [h, eq_comm]
  · simp [heq, Ne.symm heq]

theorem toList_insert_perm (m : OrdMap κ υ) (k : κ) (v : υ) :
    (m.insert k v).toList.Perm ((k, v) :: (m.erase k).toList) := by
  have he : (m.insert k v).erase k = m.erase k := by
    refine ExtTreeMap.ext_getElem? fun a => ?_
    rw [lookup_erase, lookup_erase, lookup_insert]
    split
    · rfl
    · rfl
  rw [← he]
  exact toList_perm_of_lookup (lookup_insert_self m k v)

end OrdMap

/-! ## Totals -/

/-- How rows count towards groups. The amount is read only where the row counts. -/
structure Tally (υ γ : Type) where
  counts : υ → γ → Bool
  amount : υ → γ → Nat × Nat

variable {g : γ}

namespace Tally

variable (T : Tally υ γ)

/-- The amount of a row in a group. -/
def share (v : υ) (g : γ) : Nat × Nat := if T.counts v g then T.amount v g else 0

/-- The sum of the amounts of all rows. -/
def total (m : OrdMap κ υ) (g : γ) : Nat × Nat := (m.toList.map fun p => T.share p.2 g).sum

/-- Some row counts towards the group. -/
def Occupied (m : OrdMap κ υ) (g : γ) : Prop :=
  ∃ (k : κ) (v : υ), m[k]? = some v ∧ T.counts v g = true

theorem total_insert (m : OrdMap κ υ) (k : κ) (v : υ) (g : γ) :
    T.total (m.insert k v) g = T.share v g + T.total (m.erase k) g := by
  rw [total, ((OrdMap.toList_insert_perm m k v).map _).sum_eq, List.map_cons, List.sum_cons]
  rfl

theorem total_of_lookup {v : υ} (h : m[k]? = some v) (g : γ) :
    T.total m g = T.share v g + T.total (m.erase k) g := by
  rw [total, ((OrdMap.toList_perm_of_lookup h).map _).sum_eq, List.map_cons, List.sum_cons]
  rfl

theorem total_insert_of_none (h : m[k]? = none) (v : υ) (g : γ) :
    T.total (m.insert k v) g = T.share v g + T.total m g := by
  rw [total_insert, OrdMap.erase_of_lookup_none h]

/-- Replacing a row exchanges its share. -/
theorem total_replace {v : υ} (h : m[k]? = some v) (v' : υ) (g : γ) :
    T.share v g + T.total (m.insert k v') g = T.share v' g + T.total m g := by
  rw [total_insert, T.total_of_lookup h]
  exact add_left_comm _ _ _

omit [DecidableEq κ] in
/-- A group towards which no row counts has the total zero. -/
theorem total_eq_zero (h : ¬ T.Occupied m g) : T.total m g = 0 := by
  refine List.sum_eq_zero fun x hx => ?_
  obtain ⟨⟨k, v⟩, hmem, rfl⟩ := List.mem_map.1 hx
  refine if_neg fun hc => h ⟨k, v, OrdMap.mem_toList_iff.1 hmem, hc⟩

omit [DecidableEq κ] [LawfulEqOrd κ] in
/-- The total is the sum over the rows that count. -/
theorem total_eq_sum_filter (m : OrdMap κ υ) (g : γ) :
    T.total m g = ((m.toList.filter fun p => T.counts p.2 g).map fun p => T.amount p.2 g).sum := by
  rw [total]
  induction m.toList with
  | nil => rfl
  | cons p l ih =>
    by_cases hp : T.counts p.2 g = true
    · rw [List.filter_cons, if_pos hp, List.map_cons, List.map_cons, List.sum_cons,
        List.sum_cons, ih, share, if_pos hp]
    · rw [List.filter_cons, if_neg hp, List.map_cons, List.sum_cons, ih, share, if_neg hp, zero_add]

omit [DecidableEq κ] in
theorem occupied_iff_filter_ne_nil (m : OrdMap κ υ) (g : γ) :
    T.Occupied m g ↔ (m.toList.filter fun p => T.counts p.2 g) ≠ [] := by
  rw [ne_eq, List.filter_eq_nil_iff, not_forall]
  constructor
  · rintro ⟨k, v, hkv, hc⟩
    exact ⟨(k, v), fun h => h (OrdMap.mem_toList_iff.2 hkv) hc⟩
  · rintro ⟨⟨k, v⟩, h⟩
    rw [Classical.not_imp, not_not] at h
    exact ⟨k, v, OrdMap.mem_toList_iff.1 h.1, h.2⟩

omit [DecidableEq κ] [LawfulEqOrd κ] in
theorem not_occupied_empty (g : γ) : ¬ T.Occupied (∅ : OrdMap κ υ) g := by
  rintro ⟨k, v, h, -⟩
  simp at h

omit [DecidableEq κ] in
/-- Rows that are mapped without a change of their shares in a group keep its total. -/
theorem total_map {f : κ → υ → υ}
    (h : ∀ (k : κ) (v : υ), m[k]? = some v → T.share (f k v) g = T.share v g) :
    T.total (m.map f) g = T.total m g := by
  rw [total, total, ExtTreeMap.toList_map, List.map_map]
  refine congrArg List.sum (List.map_congr_left ?_)
  rintro ⟨k, v⟩ hmem
  exact h k v (OrdMap.mem_toList_iff.1 hmem)

omit [DecidableEq κ] in
/-- Taking away rows without a share in a group keeps its total. -/
theorem total_filter {p : κ → υ → Bool}
    (h : ∀ (k : κ) (v : υ), m[k]? = some v → p k v = false → T.share v g = 0) :
    T.total (m.filter p) g = T.total m g := by
  have hf : ∀ l : List (κ × υ), (∀ q ∈ l, p q.1 q.2 = false → T.share q.2 g = 0) →
      ((l.filter fun q => p q.1 q.2).map fun q => T.share q.2 g).sum =
        (l.map fun q => T.share q.2 g).sum := by
    intro l
    induction l with
    | nil => intro _; rfl
    | cons q l ih =>
      intro hl
      have hrest := ih fun q' hq' => hl q' (List.mem_cons_of_mem _ hq')
      by_cases hq : p q.1 q.2 = true
      · rw [List.filter_cons, if_pos hq, List.map_cons, List.map_cons, List.sum_cons,
          List.sum_cons, hrest]
      · rw [List.filter_cons, if_neg hq, List.map_cons, List.sum_cons, hrest,
          hl q (by simp) (Bool.eq_false_iff.2 hq), zero_add]
  rw [total, total, ExtTreeMap.toList_filter]
  exact hf m.toList fun q hq => h q.1 q.2 (OrdMap.mem_toList_iff.1 hq)

/-- Where every row comes from a row of another table with at least its share, the total is no
larger. -/
theorem total_le {m' : OrdMap κ υ}
    (h : ∀ (k : κ) (v' : υ), m'[k]? = some v' → ∃ v, m[k]? = some v ∧ T.share v' g ≤ T.share v g) :
    T.total m' g ≤ T.total m g := by
  -- the rows of `m'` are taken from `m` one after another
  have hrows : ∀ (l : List (κ × υ)) (m : OrdMap κ υ), (l.Pairwise fun p q => p.1 ≠ q.1) →
      (∀ p ∈ l, ∃ v, m[p.1]? = some v ∧ T.share p.2 g ≤ T.share v g) →
        (l.map fun p => T.share p.2 g).sum ≤ T.total m g := by
    intro l
    induction l with
    | nil => exact fun m _ _ => ⟨Nat.zero_le _, Nat.zero_le _⟩
    | cons p l ih =>
      intro m hd hl
      obtain ⟨hp, hrest⟩ := List.pairwise_cons.1 hd
      obtain ⟨v, hv, hs⟩ := hl p (by simp)
      have hih := ih (m.erase p.1) hrest fun q hq => by
        rw [OrdMap.lookup_erase, if_neg (hp q hq)]
        exact hl q (List.mem_cons_of_mem _ hq)
      rw [T.total_of_lookup hv, List.map_cons, List.sum_cons]
      exact ⟨Nat.add_le_add hs.1 hih.1, Nat.add_le_add hs.2 hih.2⟩
  refine hrows m'.toList m (OrdMap.toList_pairwise_ne m') ?_
  rintro ⟨k, v'⟩ hmem
  exact h k v' (OrdMap.mem_toList_iff.1 hmem)

/-- A row is replaced by one with no larger share. -/
theorem total_insert_le {v v' : υ} (hv : m[k]? = some v) (hs : T.share v' g ≤ T.share v g) :
    T.total (m.insert k v') g ≤ T.total m g := by
  rw [T.total_insert, T.total_of_lookup hv]
  exact ⟨Nat.add_le_add_right hs.1 _, Nat.add_le_add_right hs.2 _⟩

theorem total_erase_le (m : OrdMap κ υ) (k : κ) (g : γ) : T.total (m.erase k) g ≤ T.total m g := by
  refine T.total_le fun a v ha => ?_
  rw [OrdMap.lookup_erase] at ha
  split at ha
  · cases ha
  · exact ⟨v, ha, le_rfl⟩

omit [DecidableEq κ] [LawfulEqOrd κ] in
/-- The rows that a filter keeps and those that it drops make up the total. -/
theorem total_filter_add (m : OrdMap κ υ) (p : κ → υ → Bool) (g : γ) :
    T.total (m.filter p) g +
        ((m.toList.filter fun q => !p q.1 q.2).map fun q => T.share q.2 g).sum =
      T.total m g := by
  rw [total, total, ExtTreeMap.toList_filter]
  induction m.toList with
  | nil => rfl
  | cons q l ih =>
    cases hq : p q.1 q.2 with
    | true =>
      rw [List.filter_cons, if_pos hq, List.filter_cons, if_neg (by simp [hq]), List.map_cons,
        List.sum_cons, List.map_cons, List.sum_cons, add_assoc, ih]
    | false =>
      rw [List.filter_cons, if_neg (by simp [hq]), List.filter_cons, if_pos (by simp [hq]),
        List.map_cons, List.sum_cons, List.map_cons, List.sum_cons, add_left_comm, ih]

end Tally

/-! ## Clamped totals -/

/-- Both dimensions, clamped at a cap. -/
def clamp (cap : Nat) (p : Nat × Nat) : Nat × Nat := (min p.1 cap, min p.2 cap)

/-- A clamped sum whose amount grows is updated by the difference. -/
theorem clamped_grow {cap sum sum' old new : Nat} (hsum : old + sum' = new + sum)
    (hg : old ≤ new) : min (min sum cap + (new - old)) cap = min sum' cap := by
  omega

/-- A clamped sum whose amount shrinks is updated by the difference while it is below the cap. -/
theorem clamped_shrink {cap sum sum' old new : Nat} (hsum : old + sum' = new + sum)
    (hs : new < old) (hb : min sum cap ≠ cap) :
    old - new ≤ min sum cap ∧ min sum cap - (old - new) = min sum' cap := by
  omega

/-! ## The cache -/

section Cache

variable (T : Tally υ γ) (cap : Nat)

/-- The entry of the cache for a group is right. -/
def Cached (m : OrdMap κ υ) (g : γ) : Option (Nat × Nat) → Prop
  | some e => e = clamp cap (T.total m g)
  | none => ¬ T.Occupied m g

variable {T cap}

omit [DecidableEq κ] in
/-- Read as zero, a right entry is the clamped total also when it is missing. -/
theorem Cached.getD {e : Option (Nat × Nat)} (h : Cached T cap m g e) :
    e.getD (0, 0) = clamp cap (T.total m g) := by
  cases e with
  | some e => exact h
  | none =>
    rw [T.total_eq_zero h]
    simp [clamp]

omit [DecidableEq κ] [LawfulEqOrd κ] in
/-- A right entry stays right when the total and the occupancy of the group stay. -/
theorem Cached.congr {m' : OrdMap κ υ} {e : Option (Nat × Nat)} (h : Cached T cap m g e)
    (ht : T.total m' g = T.total m g) (hoc : T.Occupied m' g → T.Occupied m g) :
    Cached T cap m' g e := by
  cases e with
  | some e => exact h.trans (by rw [ht])
  | none => exact fun ho => h (hoc ho)

section Rows

variable {m : OrdMap κ υ} {k : κ} {v v' : υ} {g : γ} {e : Option (Nat × Nat)}

variable (h : Cached T cap m g e)
include h

/-- A new row that does not count towards the group. -/
theorem Cached.insert (hnew : m[k]? = none)
    (hc : T.counts v g = false) : Cached T cap (m.insert k v) g e := by
  refine h.congr ?_ ?_
  · rw [T.total_insert_of_none hnew, Tally.share, hc]
    simp
  · rintro ⟨a, w, hw, hcw⟩
    rw [OrdMap.lookup_insert] at hw
    split at hw
    · cases hw
      exact absurd hcw (by simp [hc])
    · exact ⟨a, w, hw, hcw⟩

/-- The deletion of a row that does not count towards the group. -/
theorem Cached.erase (hrow : m[k]? = some v)
    (hc : T.counts v g = false) : Cached T cap (m.erase k) g e := by
  refine h.congr ?_ ?_
  · rw [T.total_of_lookup hrow, Tally.share, hc]
    simp
  · rintro ⟨a, w, hw, hcw⟩
    rw [OrdMap.lookup_erase] at hw
    split at hw
    · cases hw
    · exact ⟨a, w, hw, hcw⟩

/-- The replacement of a row by one with the same share. -/
theorem Cached.replace (hrow : m[k]? = some v) (hc : T.counts v' g = T.counts v g)
    (hs : T.share v' g = T.share v g) : Cached T cap (m.insert k v') g e := by
  refine h.congr ?_ ?_
  · have hr := T.total_replace hrow v' g
    rw [hs] at hr
    exact add_left_cancel hr
  · rintro ⟨a, w, hw, hcw⟩
    rw [OrdMap.lookup_insert] at hw
    split at hw
    · cases hw
      exact ⟨k, v, hrow, hc ▸ hcw⟩
    · exact ⟨a, w, hw, hcw⟩

end Rows

end Cache

end AgentOS.Lib
