import AgentOS.Lib.OrdMap

/-!
# Append-only keyed logs

A log is a list that grows at its end. `lastWith p log` is its newest entry with the property `p`,
`lastFor key k log` its newest entry with key `k`. `indexBy` is the map that a replay of the log
builds by inserting every entry under its key, and `ownerIndex` the one built from entries that
bind several keys to one owner; both return the newest entry (`lookup_indexBy`,
`lookup_ownerIndex`).

A log is `Owned` when no key is bound to two owners, and `Chained` when every entry continues the
newest earlier entry with its key. In a chained log whose entries are numbered consecutively per
key, key and number determine the entry (`Chained.eq_of_rank_eq`).
-/

namespace AgentOS.Lib

open Std (TransOrd LawfulEqOrd)

variable {α κ υ : Type}

/-! ## Newest entries -/

/-- The newest entry of a log with the property `p`. -/
def lastWith (p : α → Bool) (log : List α) : Option α :=
  log.reverse.find? p

@[simp] theorem lastWith_nil (p : α → Bool) : lastWith p [] = none := rfl

theorem lastWith_snoc (p : α → Bool) (log : List α) (a : α) :
    lastWith p (log ++ [a]) = if p a then some a else lastWith p log := by
  unfold lastWith
  rw [List.reverse_append, List.reverse_singleton, List.singleton_append, List.find?_cons]
  cases p a <;> rfl

variable {p : α → Bool} {log : List α} {a : α}

theorem mem_of_lastWith (h : lastWith p log = some a) : a ∈ log ∧ p a = true :=
  ⟨List.mem_reverse.1 (List.mem_of_find?_eq_some h), List.find?_some h⟩

theorem lastWith_eq_none : lastWith p log = none ↔ ∀ a ∈ log, p a = false := by
  simp [lastWith, List.find?_eq_none]

theorem exists_lastWith (h : a ∈ log) (ha : p a = true) : ∃ b, lastWith p log = some b := by
  cases hlast : lastWith p log with
  | none => exact absurd (lastWith_eq_none.1 hlast a h) (by simp [ha])
  | some b => exact ⟨b, rfl⟩

variable {key : α → κ}

section LastFor

variable [DecidableEq κ]

/-- The newest entry of a log with key `k`. -/
def lastFor (key : α → κ) (k : κ) (log : List α) : Option α :=
  lastWith (fun a => decide (key a = k)) log

@[simp] theorem lastFor_nil (key : α → κ) (k : κ) : lastFor key k [] = none := rfl

theorem lastFor_snoc (key : α → κ) (k : κ) (log : List α) (a : α) :
    lastFor key k (log ++ [a]) = if key a = k then some a else lastFor key k log := by
  simp [lastFor, lastWith_snoc]

theorem lastFor_snoc_ne {k : κ} (log : List α) (h : key a ≠ k) :
    lastFor key k (log ++ [a]) = lastFor key k log := by
  rw [lastFor_snoc, if_neg h]

theorem mem_of_lastFor {k : κ} (h : lastFor key k log = some a) : a ∈ log ∧ key a = k := by
  obtain ⟨hmem, hkey⟩ := mem_of_lastWith h
  exact ⟨hmem, of_decide_eq_true hkey⟩

theorem lastFor_eq_none {k : κ} : lastFor key k log = none ↔ ∀ a ∈ log, key a ≠ k := by
  simp [lastFor, lastWith_eq_none]

theorem exists_lastFor (key : α → κ) (h : a ∈ log) : ∃ b, lastFor key (key a) log = some b :=
  exists_lastWith h (by simp)

theorem lastFor_append_of_some {k : κ} {log' : List α} (h : lastFor key k log' = some a) :
    lastFor key k (log ++ log') = some a := by
  unfold lastFor lastWith at h ⊢
  rw [List.reverse_append, List.find?_append, h, Option.some_or]

/-- An association list with the newest binding first returns the newest entry. -/
theorem lookup_reverse_map [BEq κ] [LawfulBEq κ] (key : α → κ) (val : α → υ) (log : List α)
    (k : κ) : (log.reverse.map fun a => (key a, val a)).lookup k = (lastFor key k log).map val := by
  unfold lastFor lastWith
  induction log.reverse with
  | nil => rfl
  | cons a l ih =>
    rw [List.map_cons, List.lookup_cons, List.find?_cons, ih]
    by_cases h : key a = k
    · simp [h]
    · have hbeq : (k == key a) = false := beq_eq_false_iff_ne.2 (Ne.symm h)
      simp [h, hbeq]

end LastFor

/-! ## Maps built by a replay -/

section Index

variable [Ord κ] [TransOrd κ]

/-- The map that a replay of the log builds. -/
def indexBy (key : α → κ) (val : α → υ) (log : List α) : OrdMap κ υ :=
  log.foldl (fun m a => m.insert (key a) (val a)) ∅

theorem indexBy_snoc (key : α → κ) (val : α → υ) (log : List α) (a : α) :
    indexBy key val (log ++ [a]) = (indexBy key val log).insert (key a) (val a) := by
  simp [indexBy]

theorem size_indexBy_le (key : α → κ) (val : α → υ) (log : List α) :
    (indexBy key val log).size ≤ log.length := by
  induction log using List.reverseRecOn with
  | nil => simp [indexBy]
  | append_singleton log a ih =>
    rw [indexBy_snoc, List.length_append, List.length_singleton]
    have hi := Std.ExtTreeMap.size_insert_le (t := indexBy key val log) (k := key a) (v := val a)
    omega

variable [LawfulEqOrd κ] [DecidableEq κ]

/-- A replay over a map returns the newest entry of the log, or else what the map holds. -/
theorem lookup_foldl_insert (key : α → κ) (val : α → υ) (m : OrdMap κ υ) (log : List α) (k : κ) :
    (log.foldl (fun m a => m.insert (key a) (val a)) m)[k]? =
      ((lastFor key k log).map val).or m[k]? := by
  induction log using List.reverseRecOn with
  | nil => simp
  | append_singleton log a ih =>
    rw [List.foldl_append, List.foldl_cons, List.foldl_nil, OrdMap.lookup_insert, lastFor_snoc, ih]
    by_cases h : key a = k
    · simp [h]
    · simp [h]

theorem lookup_indexBy (key : α → κ) (val : α → υ) (log : List α) (k : κ) :
    (indexBy key val log)[k]? = (lastFor key k log).map val := by
  simp [indexBy, lookup_foldl_insert]

theorem mem_indexBy {val : α → υ} {k : κ} : k ∈ indexBy key val log ↔ ∃ a ∈ log, key a = k := by
  rw [OrdMap.mem_iff_exists_lookup, lookup_indexBy]
  constructor
  · rintro ⟨v, hv⟩
    obtain ⟨a, ha, -⟩ := Option.map_eq_some_iff.1 hv
    exact ⟨a, mem_of_lastFor ha⟩
  · rintro ⟨a, ha, rfl⟩
    obtain ⟨b, hb⟩ := exists_lastFor key ha
    exact ⟨val b, by rw [hb]; rfl⟩

end Index

/-! ## Keys with one owner -/

/-- No key is bound to two owners. -/
def Owned (keys : α → List κ) (owner : α → υ) (log : List α) : Prop :=
  ∀ a ∈ log, ∀ b ∈ log, ∀ k, k ∈ keys a → k ∈ keys b → owner a = owner b

variable {keys : α → List κ} {owner : α → υ}

theorem Owned.mono {log' : List α} (h : Owned keys owner log') (hsub : ∀ a ∈ log, a ∈ log') :
    Owned keys owner log :=
  fun a ha b hb => h a (hsub a ha) b (hsub b hb)

/-- A log stays owned when a new entry binds keys that only its own owner has bound. -/
theorem Owned.snoc (h : Owned keys owner log)
    (hnew : ∀ b ∈ log, ∀ k, k ∈ keys b → k ∈ keys a → owner b = owner a) :
    Owned keys owner (log ++ [a]) := by
  intro b hb c hc k hkb hkc
  rw [List.mem_append, List.mem_singleton] at hb hc
  rcases hb with hb | rfl <;> rcases hc with hc | rfl
  · exact h b hb c hc k hkb hkc
  · exact hnew b hb k hkb hkc
  · exact (hnew c hc k hkc hkb).symm
  · rfl

section Owner

variable [DecidableEq κ]

/-- Checking every key against the newest earlier entry that binds it checks all entries. -/
theorem owned_iff_eachAfter :
    EachAfter (fun pre a => ∀ k ∈ keys a, ∀ b,
      lastWith (fun c => decide (k ∈ keys c)) pre = some b → owner b = owner a) log ↔
      Owned keys owner log := by
  induction log using List.reverseRecOn with
  | nil => simp [Owned]
  | append_singleton log a ih =>
    rw [eachAfter_snoc, ih]
    constructor
    · rintro ⟨hlog, hlast⟩
      refine hlog.snoc ?_
      -- the newest earlier entry speaks for all earlier entries that bind the key
      intro b hb k hkb hka
      obtain ⟨c, hc⟩ := exists_lastWith (p := fun c => decide (k ∈ keys c)) hb (by simpa using hkb)
      obtain ⟨hcmem, hkc⟩ := mem_of_lastWith hc
      exact (hlog b hb c hcmem k hkb (of_decide_eq_true hkc)).trans (hlast k hka c hc)
    · intro h
      refine ⟨h.mono (by simp +contextual), ?_⟩
      intro k hka b hb
      obtain ⟨hbmem, hkb⟩ := mem_of_lastWith hb
      exact h b (by simp [hbmem]) a (by simp) k (of_decide_eq_true hkb) hka

variable [Ord κ] [TransOrd κ] [LawfulEqOrd κ]

/-- Bind the keys of one entry. -/
def bindKeys (m : OrdMap κ υ) (keys : List κ) (owner : υ) : OrdMap κ υ :=
  keys.foldl (fun m k => m.insert k owner) m

theorem lookup_bindKeys (m : OrdMap κ υ) (keys : List κ) (owner : υ) (k : κ) :
    (bindKeys m keys owner)[k]? = if k ∈ keys then some owner else m[k]? := by
  induction keys generalizing m with
  | nil => simp [bindKeys]
  | cons key keys ih =>
    have hcons : bindKeys m (key :: keys) owner = bindKeys (m.insert key owner) keys owner := rfl
    rw [hcons, ih, OrdMap.lookup_insert]
    by_cases hkeys : k ∈ keys
    · simp [hkeys]
    · by_cases hkey : key = k
      · simp [hkey]
      · simp [hkeys, hkey, Ne.symm hkey]

/-- The map from keys to owners that a replay of the log builds. -/
def ownerIndex (keys : α → List κ) (owner : α → υ) (log : List α) : OrdMap κ υ :=
  log.foldl (fun m a => bindKeys m (keys a) (owner a)) ∅

theorem lookup_ownerIndex (keys : α → List κ) (owner : α → υ) (log : List α) (k : κ) :
    (ownerIndex keys owner log)[k]? = (lastWith (fun a => decide (k ∈ keys a)) log).map owner := by
  induction log using List.reverseRecOn with
  | nil => simp [ownerIndex]
  | append_singleton log a ih =>
    have hsnoc : ownerIndex keys owner (log ++ [a]) =
        bindKeys (ownerIndex keys owner log) (keys a) (owner a) := by
      simp [ownerIndex]
    rw [hsnoc, lookup_bindKeys, lastWith_snoc, ih]
    by_cases h : k ∈ keys a
    · simp [h]
    · simp [h]

end Owner

/-! ## Chained logs -/

section Rank

variable [DecidableEq κ]

/-- Every entry continues the newest earlier entry with its key. -/
def Chained (key : α → κ) (next : Option α → α → Prop) (log : List α) : Prop :=
  EachAfter (fun pre a => next (lastFor key (key a) pre) a) log

theorem chained_snoc {next : Option α → α → Prop} :
    Chained key next (log ++ [a]) ↔ Chained key next log ∧ next (lastFor key (key a) log) a :=
  eachAfter_snoc

variable {key : α → κ} {next : Option α → α → Prop} {rank : α → Nat}

/-- In a log that is numbered consecutively per key, the newest entry has the largest number. -/
theorem Chained.rank_le (hrank : ∀ b a, next (some b) a → rank a = rank b + 1)
    (h : Chained key next log) {b : α} (ha : a ∈ log) (hb : lastFor key (key a) log = some b) :
    rank a ≤ rank b := by
  induction log using List.reverseRecOn generalizing b with
  | nil => simp at ha
  | append_singleton log c ih =>
    obtain ⟨hlog, hc⟩ := chained_snoc.1 h
    by_cases hkey : key c = key a
    · obtain rfl : c = b := by
        rw [lastFor_snoc, if_pos hkey] at hb
        exact Option.some.inj hb
      rcases List.mem_append.1 ha with ha | ha
      · obtain ⟨d, hd⟩ := exists_lastFor key ha
        have hle := ih hlog ha hd
        rw [hkey, hd] at hc
        have hsucc := hrank d c hc
        omega
      · rw [List.mem_singleton.1 ha]
    · rw [lastFor_snoc_ne log hkey] at hb
      rcases List.mem_append.1 ha with ha | ha
      · exact ih hlog ha hb
      · exact absurd (congrArg key (List.mem_singleton.1 ha).symm) hkey

/-- Key and number determine the entry of a log that is numbered consecutively per key. -/
theorem Chained.eq_of_rank_eq (hrank : ∀ b a, next (some b) a → rank a = rank b + 1)
    (h : Chained key next log) {b : α} (ha : a ∈ log) (hb : b ∈ log) (hkey : key a = key b)
    (heq : rank a = rank b) : a = b := by
  induction log using List.reverseRecOn with
  | nil => simp at ha
  | append_singleton log c ih =>
    obtain ⟨hlog, hc⟩ := chained_snoc.1 h
    -- an older entry with the key of the newest one has a smaller number
    have hlt : ∀ d ∈ log, key d = key c → rank d < rank c := by
      intro d hd hdkey
      obtain ⟨e, he⟩ := exists_lastFor key hd
      have hle := hlog.rank_le hrank hd he
      rw [← hdkey, he] at hc
      have hsucc := hrank e c hc
      omega
    rw [List.mem_append, List.mem_singleton] at ha hb
    rcases ha with ha | rfl <;> rcases hb with hb | rfl
    · exact ih hlog ha hb
    · have := hlt a ha hkey
      omega
    · have := hlt b hb hkey.symm
      omega
    · rfl

end Rank

end AgentOS.Lib
