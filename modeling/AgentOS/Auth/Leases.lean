import AgentOS.Auth.System

/-!
# Credential leases

`CredentialLeaseManager` keeps one entry per credential that is in use or being closed. The entries
are shared by pointer: a lease and a drain hold the entry they were made for, while the table may
have moved on to another entry of the same credential. So the model has a heap of entries, numbered
in the order of their creation, and the table maps a credential to a number. Entries are never freed
in the model; the ones that left the table are idle (`Filed.resident`).

Each operation is one critical section of the table's lock, or of one entry's lock.
-/

namespace AgentOS

open Lib

/-- `CredentialLeaseEntry`, with the identity it was made for. The watch channel always carries
`active`. -/
structure LeaseEntry where
  identity : CredentialIdentity
  accepting : Bool
  active : Nat
  owner : Option (Text × Text)
  deriving DecidableEq

variable (identity : CredentialIdentity)

/-- `CredentialLeaseEntry::new`. -/
def LeaseEntry.new : LeaseEntry where
  identity
  accepting := true
  active := 0
  owner := none

/-- `CredentialLeaseManager`: the entries that were ever created and the table. -/
structure LeaseTable where
  heap : OrdMap Nat LeaseEntry
  table : OrdMap CredentialIdentity Nat
  next : Nat

namespace LeaseTable

/-- An empty table. -/
def empty : LeaseTable where
  heap := ∅
  table := ∅
  next := 0

variable (leases : LeaseTable)

/-- `entries.entry(identity).or_insert_with(new)`. -/
def ensure : LeaseTable × Nat :=
  match leases.table[identity]? with
  | some entry => (leases, entry)
  | none =>
    ({ heap := leases.heap.insert leases.next (LeaseEntry.new identity)
       table := leases.table.insert identity leases.next
       next := leases.next + 1 }, leases.next)

variable (entry : Nat)

/-- An update of one entry under its lock. -/
def update (f : LeaseEntry → LeaseEntry) : LeaseTable :=
  { leases with heap := leases.heap.modify entry f }

/-- `entries.remove`. -/
def remove : LeaseTable :=
  { leases with table := leases.table.erase identity }

def acquire : LeaseTable × Option Nat :=
  let ensured := leases.ensure identity
  match ensured.1.heap[ensured.2]? with
  | none => (ensured.1, none)
  | some state =>
    if state.accepting then
      (ensured.1.update ensured.2 fun s => { s with active := s.active + 1 }, some ensured.2)
    else (ensured.1, none)

/-- `close`; the drain holds the entry. -/
def close : LeaseTable × Nat :=
  let ensured := leases.ensure identity
  (ensured.1.update ensured.2 fun s => { s with accepting := false }, ensured.2)

/-- The entry has no active lease. -/
def isIdle : Bool :=
  (leases.heap[entry]?).all fun state => state.active == 0

/-- `reopen` up to the test of the open entry. -/
def opened : LeaseTable :=
  let ensured := leases.ensure identity
  ensured.1.update ensured.2 fun s => { s with accepting := true }

def reopen : LeaseTable :=
  if (leases.opened identity).isIdle (leases.ensure identity).2 then
    (leases.opened identity).remove identity
  else leases.opened identity

def bindOwner (owner : Text × Text) : LeaseTable × Bool :=
  match leases.heap[entry]? with
  | none => (leases, false)
  | some state =>
    match state.owner with
    | some existing => (leases, existing = owner)
    | none => (leases.update entry fun s => { s with owner := some owner }, true)

/-- The first critical section of a lease's drop; the answer says whether the second one follows. -/
def release : LeaseTable × Bool :=
  let released := leases.update entry fun s => { s with active := s.active - 1 }
  (released, (released.heap[entry]?).any fun s => s.accepting && s.active == 0)

/-- The removal of an exact entry that is idle and `accepting`. -/
def evict (accepting : Bool) : LeaseTable :=
  if leases.table[identity]? = some entry ∧
      (leases.heap[entry]?).any (fun s => s.accepting == accepting && s.active == 0) then
    leases.remove identity
  else leases

/-- The second critical section of a lease's drop. -/
def evictOpen : LeaseTable :=
  leases.evict identity entry true

/-- The removal at the end of `CredentialDrain::wait`. -/
def evictClosed : LeaseTable :=
  leases.evict identity entry false

/-- The identities in the table whose owner passes a test. -/
def trackedIdentities (test : Text × Text → Bool) : List CredentialIdentity :=
  (leases.table.toList.filter fun row =>
    (leases.heap[row.2]?).any fun s => s.owner.any test).map Prod.fst

/-- `credential_identities_for_user` of the lease manager. -/
def trackedForUser (userId : Text) : List CredentialIdentity :=
  leases.trackedIdentities fun owner => owner.1 == userId

/-- `credential_identities_for_tenant` of the lease manager. -/
def trackedForTenant (tenantId : Text) : List CredentialIdentity :=
  leases.trackedIdentities fun owner => owner.2 == tenantId

/-! ## Filed entries -/

/-- The table points to entries of the right credential, and an entry with leases is in it. -/
structure Filed : Prop where
  fresh : ∀ entry, leases.next ≤ entry → leases.heap[entry]? = none
  filed : ∀ (identity : CredentialIdentity) (entry : Nat), leases.table[identity]? = some entry →
    ∃ state : LeaseEntry, leases.heap[entry]? = some state ∧ state.identity = identity
  resident : ∀ (entry : Nat) (state : LeaseEntry), leases.heap[entry]? = some state →
    0 < state.active → leases.table[state.identity]? = some entry

variable {leases}

theorem filed_empty : Filed empty where
  fresh _ _ := by simp [empty]
  filed _ _ h := by simp [empty] at h
  resident _ _ h := by simp [empty] at h

/-- One operation rewrites the current entry of one credential, or a new one, and what the table
says about that credential. -/
structure Writes (leases leases' : LeaseTable) (entry : Nat) (before after : LeaseEntry)
    (current : Option Nat) : Prop where
  current_or_new :
    leases.table[before.identity]? = some entry ∧ leases.heap[entry]? = some before ∨
      leases.table[before.identity]? = none ∧ leases.heap[entry]? = none ∧
        before = LeaseEntry.new before.identity
  identity : after.identity = before.identity
  heap : ∀ other, leases'.heap[other]? = if entry = other then some after else leases.heap[other]?
  table : ∀ other, leases'.table[other]? =
    if before.identity = other then current else leases.table[other]?
  next : leases.next ≤ leases'.next ∧ entry < leases'.next

variable {entry : Nat} {state : LeaseEntry}

/-- An entry persists in a write: it is the written one, or it is as before. -/
theorem Writes.persists {ls' : LeaseTable} {before after : LeaseEntry} {cur : Option Nat}
    (hw : Writes leases ls' entry before after cur) {o : Nat} (hs : leases.heap[o]? = some state) :
    o = entry ∧ state = before ∧ ls'.heap[o]? = some after ∨
      o ≠ entry ∧ ls'.heap[o]? = some state := by
  rw [hw.heap]
  split
  · next heq =>
    subst heq
    rcases hw.current_or_new with ⟨-, hb⟩ | ⟨-, hnone, -⟩
    · rw [hs] at hb
      exact .inl ⟨rfl, Option.some.inj hb, rfl⟩
    · rw [hs] at hnone
      cases hnone
  · next hne => exact .inr ⟨fun h => hne h.symm, hs⟩

/-- A write keeps the table in order if it keeps the entry in the table, or leaves it idle. -/
theorem Filed.writes {ls' : LeaseTable} {before after : LeaseEntry} {cur : Option Nat}
    (hfi : leases.Filed) (hw : Writes leases ls' entry before after cur)
    (hc : cur = some entry ∨ cur = none ∧ after.active = 0) : ls'.Filed where
  fresh other ho := by
    have hlt := hw.next
    rw [hw.heap, if_neg (by omega)]
    exact hfi.fresh other (by omega)
  filed identity other ho := by
    rw [hw.table] at ho
    rw [hw.heap]
    split at ho
    · next hid =>
      rcases hc with rfl | ⟨rfl, -⟩
      · cases ho
        exact ⟨after, if_pos rfl, hw.identity.trans hid⟩
      · cases ho
    · next hid =>
      obtain ⟨state, hs, hi⟩ := hfi.filed identity other ho
      split
      · -- the written entry belongs to the written credential
        next heq =>
          subst heq
          rcases hw.current_or_new with ⟨-, hb⟩ | ⟨-, hnone, -⟩
          · rw [hs] at hb
            cases hb
            exact absurd hi hid
          · rw [hs] at hnone
            cases hnone
      · exact ⟨state, hs, hi⟩
  resident other state hs hpos := by
    rw [hw.heap] at hs
    rw [hw.table]
    split at hs
    · next heq =>
      cases hs
      rw [if_pos hw.identity.symm, ← heq]
      rcases hc with rfl | ⟨-, hzero⟩
      · rfl
      · omega
    · next hne =>
      have ho := hfi.resident other state hs hpos
      split
      · next hid =>
        -- two entries with leases would be current for the same credential
        exfalso
        rw [← hid] at ho
        rcases hw.current_or_new with ⟨ht, -⟩ | ⟨ht, -, -⟩
        · rw [ho] at ht
          exact hne (Option.some.inj ht).symm
        · rw [ho] at ht
          cases ht
      · exact ho

theorem lookup_update (entry o : Nat) (f : LeaseEntry → LeaseEntry) :
    (leases.update entry f).heap[o]? =
      if entry = o then leases.heap[o]?.map f else leases.heap[o]? :=
  OrdMap.lookup_modify _ _ _ _

/-! ## What the operations do -/

/-- The number of the current entry, or of the one that would be made. -/
def number (leases : LeaseTable) (identity : CredentialIdentity) : Nat :=
  (leases.ensure identity).2

/-- The current entry, or the one that would be made. -/
def entryOf (leases : LeaseTable) (identity : CredentialIdentity) : LeaseEntry :=
  ((leases.ensure identity).1.heap[leases.number identity]?).getD (LeaseEntry.new identity)

section

variable (hfi : leases.Filed)
include hfi

variable (identity : CredentialIdentity)

/-- `ensure` finds the current entry or makes an open idle one. -/
theorem Filed.ensure :
    (leases.entryOf identity).identity = identity ∧
      Writes leases (leases.ensure identity).1 (leases.number identity) (leases.entryOf identity)
        (leases.entryOf identity) (some (leases.number identity)) := by
  cases hc : leases.table[identity]? with
  | some entry =>
    obtain ⟨state, hs, hi⟩ := hfi.filed identity entry hc
    have he : leases.ensure identity = (leases, entry) := by rw [LeaseTable.ensure, hc]
    have hn : leases.number identity = entry := by rw [number, he]
    have hen : leases.entryOf identity = state := by
      rw [entryOf, hn, he, hs]
      rfl
    rw [hen, hn, he]
    refine ⟨hi, .inl ⟨by rw [hi]; exact hc, hs⟩, rfl, ?_, ?_, ?_⟩
    · intro o
      split
      · next heq => rw [← heq, hs]
      · rfl
    · intro o
      split
      · next heq => rw [← heq, hi, hc]
      · rfl
    · refine ⟨Nat.le_refl _, Nat.lt_of_not_le fun hle => ?_⟩
      rw [hfi.fresh entry hle] at hs
      cases hs
  | none =>
    have he : leases.ensure identity =
        ({ heap := leases.heap.insert leases.next (LeaseEntry.new identity)
           table := leases.table.insert identity leases.next
           next := leases.next + 1 }, leases.next) := by
      rw [LeaseTable.ensure, hc]
    have hn : leases.number identity = leases.next := by rw [number, he]
    have hen : leases.entryOf identity = LeaseEntry.new identity := by
      rw [entryOf, hn, he, OrdMap.lookup_insert_self]
      rfl
    rw [hen, hn, he]
    refine ⟨rfl, .inr ⟨hc, hfi.fresh _ (Nat.le_refl _), rfl⟩, rfl, ?_, ?_, ?_⟩
    · intro o
      exact OrdMap.lookup_insert _ _ _ _
    · intro o
      exact OrdMap.lookup_insert _ _ _ _
    · exact ⟨Nat.le_succ _, Nat.lt_succ_self _⟩

/-- An operation that ensures the entry and then updates it. -/
theorem Filed.ensure_update {f : LeaseEntry → LeaseEntry} (hf : ∀ s, (f s).identity = s.identity) :
    Writes leases ((leases.ensure identity).1.update (leases.number identity) f)
      (leases.number identity) (leases.entryOf identity) (f (leases.entryOf identity))
      (some (leases.number identity)) := by
  obtain ⟨-, hw⟩ := hfi.ensure identity
  refine ⟨hw.current_or_new, hf _, ?_, hw.table, hw.next⟩
  intro o
  rw [lookup_update, hw.heap]
  split
  · rfl
  · rfl

theorem acquire_eq :
    leases.acquire identity =
      if (leases.entryOf identity).accepting then
        ((leases.ensure identity).1.update (leases.number identity)
          fun s => { s with active := s.active + 1 }, some (leases.number identity))
      else ((leases.ensure identity).1, none) := by
  obtain ⟨-, hw⟩ := hfi.ensure identity
  have hl := hw.heap (leases.number identity)
  rw [if_pos rfl] at hl
  rw [acquire]
  show (match (leases.ensure identity).1.heap[leases.number identity]? with
    | none => _
    | some state => _) = _
  rw [hl]
  rfl

/-- `acquire` counts a lease on an open entry, and does nothing if the entry is closed. -/
theorem Filed.acquire :
    (∃ ls', leases.acquire identity = (ls', some (leases.number identity)) ∧
        (leases.entryOf identity).accepting = true ∧
        Writes leases ls' (leases.number identity) (leases.entryOf identity)
          { leases.entryOf identity with active := (leases.entryOf identity).active + 1 }
          (some (leases.number identity))) ∨
      leases.acquire identity = (leases, none) ∧
        leases.table[identity]? = some (leases.number identity) ∧
        leases.heap[leases.number identity]? = some (leases.entryOf identity) ∧
        (leases.entryOf identity).accepting = false := by
  obtain ⟨hi, hw⟩ := hfi.ensure identity
  have heq := acquire_eq hfi identity
  split at heq
  · next ha =>
    left
    refine ⟨_, heq, ha, hfi.ensure_update identity (f := fun s =>
      { s with active := s.active + 1 }) fun _ => rfl⟩
  · next hc =>
    have hc : (leases.entryOf identity).accepting = false := by simpa using hc
    right
    rcases hw.current_or_new with ⟨ht, hheap⟩ | ⟨-, -, hnew⟩
    · rw [hi] at ht
      have he : (leases.ensure identity).1 = leases := by rw [LeaseTable.ensure, ht]
      rw [he] at heq
      exact ⟨heq, ht, hheap, hc⟩
    · -- a new entry is open
      rw [hnew] at hc
      cases hc

theorem Filed.close :
    (leases.close identity).2 = leases.number identity ∧
      Writes leases (leases.close identity).1 (leases.number identity) (leases.entryOf identity)
        { leases.entryOf identity with accepting := false } (some (leases.number identity)) :=
  ⟨rfl, hfi.ensure_update identity (f := fun s => { s with accepting := false }) fun _ => rfl⟩

/-- `reopen` opens the entry, and takes an idle one out of the table. -/
theorem Filed.reopen :
    Writes leases (leases.reopen identity) (leases.number identity) (leases.entryOf identity)
      { leases.entryOf identity with accepting := true }
      (if (leases.entryOf identity).active = 0 then none
        else some (leases.number identity)) := by
  obtain ⟨hi, -⟩ := hfi.ensure identity
  have hw : Writes leases (leases.opened identity) (leases.number identity)
      (leases.entryOf identity) { leases.entryOf identity with accepting := true }
      (some (leases.number identity)) :=
    hfi.ensure_update identity (f := fun s => { s with accepting := true }) fun _ => rfl
  have hidle : (leases.opened identity).isIdle (leases.ensure identity).2 =
      ((leases.entryOf identity).active == 0) := by
    have hl := hw.heap (leases.number identity)
    rw [if_pos rfl] at hl
    rw [isIdle, ← number, hl]
    rfl
  rw [LeaseTable.reopen, hidle]
  simp only [beq_iff_eq]
  split
  · refine ⟨hw.current_or_new, rfl, hw.heap, ?_, hw.next⟩
    intro o
    rw [LeaseTable.remove, OrdMap.lookup_erase, hw.table, hi]
    split
    · rfl
    · rfl
  · exact hw

/-- An update of an entry that has leases, under its own lock. -/
theorem Filed.update_held {f : LeaseEntry → LeaseEntry} (hs : leases.heap[entry]? = some state)
    (hpos : 0 < state.active) (hf : ∀ s, (f s).identity = s.identity) :
    Writes leases (leases.update entry f) entry state (f state) (some entry) := by
  have ht := hfi.resident entry state hs hpos
  refine ⟨.inl ⟨ht, hs⟩, hf state, ?_, ?_, Nat.le_refl _, ?_⟩
  · intro o
    rw [lookup_update]
    split
    · next heq => rw [← heq, hs, Option.map_some]
    · rfl
  · intro o
    split
    · next heq => rw [← heq, ← ht]; rfl
    · rfl
  · refine Nat.lt_of_not_le fun hle => ?_
    rw [hfi.fresh entry hle] at hs
    cases hs

/-- Nothing happens to an entry that has leases. -/
theorem Filed.write_same (hs : leases.heap[entry]? = some state)
    (hpos : 0 < state.active) : Writes leases leases entry state state (some entry) := by
  have hw := hfi.update_held (f := id) hs hpos fun _ => rfl
  refine ⟨hw.current_or_new, rfl, ?_, hw.table, hw.next⟩
  intro o
  split
  · next heq => rw [← heq, hs]
  · rfl

end

/-- `evict` removes the exact entry, or does nothing. -/
theorem evict_cases (leases : LeaseTable) (identity : CredentialIdentity) (entry : Nat)
    (acc : Bool) :
    leases.evict identity entry acc = leases ∧
        ¬ (leases.table[identity]? = some entry ∧ ∃ state, leases.heap[entry]? = some state ∧
          state.accepting = acc ∧ state.active = 0) ∨
      leases.evict identity entry acc = leases.remove identity ∧
        leases.table[identity]? = some entry ∧ ∃ state, leases.heap[entry]? = some state ∧
          state.accepting = acc ∧ state.active = 0 := by
  have hany : (leases.heap[entry]?).any (fun s => s.accepting == acc && s.active == 0) =
      true ↔ ∃ state, leases.heap[entry]? = some state ∧ state.accepting = acc ∧
        state.active = 0 := by
    simp [Option.any_eq_true]
  rw [evict]
  split
  · next h => exact .inr ⟨rfl, h.1, hany.1 h.2⟩
  · next h => exact .inl ⟨rfl, fun h' => h ⟨h'.1, hany.2 h'.2⟩⟩

theorem Filed.remove_idle (hfi : leases.Filed) {identity : CredentialIdentity}
    (ht : leases.table[identity]? = some entry) (hs : leases.heap[entry]? = some state) :
    Writes leases (leases.remove identity) entry state state none := by
  obtain ⟨lease', hs', hi⟩ := hfi.filed identity entry ht
  rw [hs] at hs'
  cases hs'
  refine ⟨.inl ⟨by rw [hi]; exact ht, hs⟩, rfl, ?_, ?_, Nat.le_refl _, ?_⟩
  · intro o
    split
    · next heq => rw [← heq]; exact hs
    · rfl
  · intro o
    rw [LeaseTable.remove, OrdMap.lookup_erase, hi]
  · refine Nat.lt_of_not_le fun hle => ?_
    rw [hfi.fresh entry hle] at hs
    cases hs

theorem mem_trackedIdentities {test : Text × Text → Bool} {identity : CredentialIdentity} :
    identity ∈ leases.trackedIdentities test ↔
      ∃ entry state owner, leases.table[identity]? = some entry ∧
        leases.heap[entry]? = some state ∧ state.owner = some owner ∧ test owner = true := by
  rw [trackedIdentities, List.mem_map]
  constructor
  · rintro ⟨⟨o, entry⟩, hrow, rfl⟩
    rw [List.mem_filter, OrdMap.mem_toList_iff] at hrow
    obtain ⟨ht, hany⟩ := hrow
    obtain ⟨state, hs, ho⟩ := (Option.any_eq_true _ _).1 hany
    obtain ⟨owner, ho, htest⟩ := (Option.any_eq_true _ _).1 ho
    exact ⟨entry, state, owner, ht, hs, ho, htest⟩
  · rintro ⟨entry, state, owner, ht, hs, ho, htest⟩
    refine ⟨(identity, entry), ?_, rfl⟩
    rw [List.mem_filter, OrdMap.mem_toList_iff]
    have hany := (Option.any_eq_true test _).2 ⟨owner, ho, htest⟩
    exact ⟨ht, (Option.any_eq_true _ _).2 ⟨state, hs, hany⟩⟩

end LeaseTable

end AgentOS
