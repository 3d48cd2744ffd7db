import AgentOS.Quota.Aggregates

/-!
# Reading and writing receipts

In a sound ledger every stored receipt can be opened: its rows pass the checks and each of its
scopes has an aggregate. Each way of writing one receipt, without its aggregates, leaves exactly
the aggregates of its scopes stale; the loop over the scopes then refreshes them.
-/

namespace AgentOS

open Lib

/-! ## Reading a sound ledger -/

variable {key : ScopeEpoch} {cgroups : List Text} {state : ProviderRateReceiptState}

namespace StoredQuotaReceipt

/-- The scopes of a receipt in its epoch. -/
def places (receipt : StoredQuotaReceipt) : List ScopeEpoch :=
  receipt.scopes.map fun scope => ⟨scope.key, receipt.epoch⟩

variable {receipt : StoredQuotaReceipt}

theorem mem_places :
    key ∈ receipt.places ↔ receipt.epoch = key.epoch ∧ key.scope ∈ receipt.keys := by
  obtain ⟨sc, ep⟩ := key
  simp only [places, keys, List.mem_map, ScopeEpoch.mk.injEq]
  constructor
  · rintro ⟨row, hrow, rfl, rfl⟩
    exact ⟨rfl, row, hrow, rfl⟩
  · rintro ⟨rfl, row, hrow, rfl⟩
    exact ⟨row, hrow, rfl, rfl⟩

theorem counts_eq_decide (receipt : StoredQuotaReceipt) (key : ScopeEpoch) :
    receiptTally.counts receipt key = decide (key ∈ receipt.places) := by
  rw [Bool.eq_iff_iff, decide_eq_true_iff, mem_places]
  exact counts_iff receipt key

theorem WellFormed.valid_place (h : receipt.WellFormed cgroups) (hkey : key ∈ receipt.places) :
    validateQuotaScopeKey key.scope = .ok () :=
  h.valid_key (mem_places.1 hkey).2

theorem places_eq_map_keys (receipt : StoredQuotaReceipt) :
    receipt.places = receipt.keys.map fun sc => ⟨sc, receipt.epoch⟩ := by
  rw [places, keys, List.map_map]
  rfl

variable (h : receipt.WellFormed cgroups)
include h

theorem WellFormed.nodup_places : receipt.places.Nodup := by
  rw [places_eq_map_keys]
  exact h.nodup_keys.map fun a b heq => congrArg ScopeEpoch.scope heq

/-- The share of a well-formed receipt in one of its scopes. -/
theorem WellFormed.share_place (hkey : key ∈ receipt.places) :
    receiptTally.share receipt key = receipt.contribution key.scope.kind := by
  rw [h.share_eq, if_pos (mem_places.1 hkey)]

/-- The state of a receipt without actual usage changes. -/
theorem WellFormed.with_state (hold : receipt.state ≠ .reconciled)
    (hnew : state ≠ .reconciled) : WellFormed { receipt with state } cgroups := by
  refine ⟨?_, h.rows, h.distinct, h.valid, h.length, h.nested, h.leaf⟩
  have ha := h.actual
  unfold checkActualUsage at ha ⊢
  cases hst : receipt.state <;> cases state <;> simp_all

theorem WellFormed.share_with_state
    (hold : receipt.state ≠ .reconciled) (hnew : state ≠ .reconciled) (key : ScopeEpoch) :
    receiptTally.share { receipt with state } key = receiptTally.share receipt key := by
  have hc : ∀ kind, contribution { receipt with state } kind =
      receipt.contribution kind := by
    intro kind
    unfold contribution charged
    cases hst : receipt.state <;> cases state <;> simp_all
  rw [h.share_eq, (h.with_state hold hnew).share_eq, hc]
  rfl

end StoredQuotaReceipt

namespace QuotaLedger

variable {ledger : QuotaLedger} {rid : Text} {receipt : StoredQuotaReceipt}

theorem Sound.wellFormed (hs : Sound ledger) (h : ledger.receipts[rid]? = some receipt) :
    ∃ cgroups, receipt.WellFormed cgroups :=
  SoundOutside.wellFormed hs rid receipt h

theorem Sound.cached (hs : Sound ledger) (key : ScopeEpoch) :
    Cached receiptTally u64Max ledger.receipts key ledger.aggregates[key]? :=
  SoundOutside.cached hs key (by simp)

/-- A scope with a receipt has an aggregate. -/
theorem Sound.aggregate_of_place (hs : Sound ledger)
    (h : ledger.receipts[rid]? = some receipt) (hkey : key ∈ receipt.places) :
    ledger.aggregates[key]? = some (clamp u64Max (receiptTally.total ledger.receipts key)) := by
  have hc := hs.cached key
  cases he : ledger.aggregates[key]? with
  | some e =>
    rw [he] at hc
    exact congrArg some hc
  | none =>
    rw [he] at hc
    refine absurd ⟨rid, receipt, h, ?_⟩ hc
    rw [receipt.counts_eq_decide]
    exact decide_eq_true hkey

/-- What is used of a scope in an epoch. -/
def used (ledger : QuotaLedger) (key : ScopeEpoch) : Nat × Nat :=
  ledger.aggregates[key]?.getD (0, 0)

theorem Sound.used_eq (hs : Sound ledger) (key : ScopeEpoch) :
    ledger.used key = clamp u64Max (receiptTally.total ledger.receipts key) :=
  (hs.cached key).getD

theorem trustedScopeEpochAggregate_eq (hv : validateQuotaScopeKey key.scope = .ok ()) :
    ledger.trustedScopeEpochAggregate key = .ok (ledger.used key) :=
  bind_eq_ok.2 ⟨(), hv, rfl⟩

theorem loadQuotaReceipt_of_none (h : ledger.receipts[rid]? = none) :
    ledger.loadQuotaReceipt rid = .ok none := by
  rw [loadQuotaReceipt, h]
  rfl

theorem Sound.loadQuotaReceipt_of_some (hs : Sound ledger)
    (h : ledger.receipts[rid]? = some receipt) :
    ledger.loadQuotaReceipt rid = .ok (some receipt) := by
  obtain ⟨cgroups, hwf⟩ := hs.wellFormed h
  rw [loadQuotaReceipt, h]
  exact bind_eq_ok.2 ⟨(), hwf.actual, rfl⟩

theorem requireQuotaReceipt_of_none (h : ledger.receipts[rid]? = none) :
    ledger.requireQuotaReceipt rid = .error (.unknownReceipt rid) := by
  rw [requireQuotaReceipt, loadQuotaReceipt_of_none h]
  rfl

variable {stale : List ScopeEpoch}

theorem SoundOutside.requireQuotaReceipt_of_some (hs : SoundOutside stale ledger)
    (h : ledger.receipts[rid]? = some receipt) : ledger.requireQuotaReceipt rid = .ok receipt := by
  obtain ⟨cgroups, hwf⟩ := hs.wellFormed rid receipt h
  rw [requireQuotaReceipt, loadQuotaReceipt, h]
  refine bind_eq_ok.2 ⟨some receipt, ?_, rfl⟩
  exact bind_eq_ok.2 ⟨(), hwf.actual, rfl⟩

theorem SoundOutside.loadReceiptScopes_eq (hs : SoundOutside stale ledger)
    (h : ledger.receipts[rid]? = some receipt) :
    loadReceiptScopes rid receipt = .ok receipt.scopes := by
  obtain ⟨cgroups, hwf⟩ := hs.wellFormed rid receipt h
  exact hwf.loadReceiptScopes_eq rid

/-- Every scope of a stored receipt has the aggregate that the calls require. -/
theorem Sound.forM_required (hs : Sound ledger) (h : ledger.receipts[rid]? = some receipt) :
    (receipt.scopes.forM fun sc => do
      let _ ← ledger.requiredScopeEpochAggregate ⟨sc.key, receipt.epoch⟩
      return ()) = .ok () := by
  obtain ⟨cgroups, hwf⟩ := hs.wellFormed h
  refine forM_eq_ok fun sc hsc => ?_
  have hp : ⟨sc.key, receipt.epoch⟩ ∈ receipt.places := List.mem_map.2 ⟨sc, hsc, rfl⟩
  have hr : ledger.requiredScopeEpochAggregate ⟨sc.key, receipt.epoch⟩ = .ok _ :=
    bind_eq_ok.2 ⟨(), hwf.valid_place hp, orReject_eq_ok.2 (hs.aggregate_of_place h hp)⟩
  exact bind_eq_ok.2 ⟨_, hr, rfl⟩

theorem openReceipt_of_none (h : ledger.receipts[rid]? = none) :
    ledger.openReceipt rid = .error (.unknownReceipt rid) := by
  rw [openReceipt, requireQuotaReceipt_of_none h]
  rfl

theorem Sound.openReceipt_of_some (hs : Sound ledger) (h : ledger.receipts[rid]? = some receipt) :
    ledger.openReceipt rid = .ok receipt := by
  rw [openReceipt, bind_eq_ok]
  refine ⟨receipt, hs.requireQuotaReceipt_of_some h, ?_⟩
  rw [bind_eq_ok]
  refine ⟨receipt.scopes, hs.loadReceiptScopes_eq h, ?_⟩
  rw [bind_eq_ok]
  exact ⟨(), hs.forM_required h, rfl⟩

/-! ## Writing a receipt -/

section

variable (hs : SoundOutside stale ledger)
include hs

variable (h : ledger.receipts[rid]? = some receipt)
include h

/-- A stored receipt is replaced by one with the same scopes. -/
theorem SoundOutside.replace {receipt' : StoredQuotaReceipt}
    (hwf' : ∃ cgroups, receipt'.WellFormed cgroups) (hp : receipt'.places = receipt.places) :
    SoundOutside (stale ++ receipt.places)
      { ledger with receipts := ledger.receipts.insert rid receipt' } := by
  refine ⟨?_, ?_, hs.validKeys, ?_⟩
  · intro id sto hst
    rw [OrdMap.lookup_insert] at hst
    split at hst
    · cases hst
      exact hwf'
    · exact hs.wellFormed id sto hst
  · intro key hkey
    rw [List.mem_append, not_or] at hkey
    have hc : receiptTally.counts receipt' key = receiptTally.counts receipt key := by
      rw [receipt'.counts_eq_decide, receipt.counts_eq_decide, hp]
    refine (hs.cached key hkey.1).replace h hc ?_
    rw [Tally.share, Tally.share, hc, receipt.counts_eq_decide, decide_eq_false hkey.2]
    rfl
  · intro id hid
    rcases (OrdMap.mem_insert_iff _ _ _ _).1 hid with rfl | hid
    · exact hs.disjoint rid (OrdMap.mem_of_lookup h)
    · exact hs.disjoint id hid

/-- A receipt that has not been reconciled changes its state; its contributions stay. -/
theorem SoundOutside.setState (hold : receipt.state ≠ .reconciled) (hnew : state ≠ .reconciled) :
    SoundOutside stale (ledger.setState rid receipt state) := by
  obtain ⟨cgroups, hwf⟩ := hs.wellFormed rid receipt h
  have hs' := hs.replace h ⟨cgroups, hwf.with_state hold hnew⟩ rfl
  refine ⟨hs'.wellFormed, ?_, hs'.validKeys, hs'.disjoint⟩
  intro key hkey
  exact (hs.cached key hkey).replace h rfl (hwf.share_with_state hold hnew key)

/-- A stored receipt is deleted and leaves a tombstone. -/
theorem SoundOutside.tombstone :
    SoundOutside (stale ++ receipt.places)
      { ledger with
        refunded := ledger.refunded.insert rid receipt.epoch
        receipts := ledger.receipts.erase rid } := by
  refine ⟨?_, ?_, hs.validKeys, ?_⟩
  · intro id sto hst
    rw [OrdMap.lookup_erase] at hst
    split at hst
    · cases hst
    · exact hs.wellFormed id sto hst
  · intro key hkey
    rw [List.mem_append, not_or] at hkey
    refine (hs.cached key hkey.1).erase h ?_
    rw [receipt.counts_eq_decide, decide_eq_false hkey.2]
  · intro id hid
    obtain ⟨sto, hst⟩ := OrdMap.exists_lookup hid
    rw [OrdMap.lookup_erase] at hst
    split at hst
    · cases hst
    · next hne =>
        rw [OrdMap.mem_insert_iff, not_or]
        exact ⟨hne, hs.disjoint id (OrdMap.mem_of_lookup hst)⟩

theorem SoundOutside.tombstone_eq :
    ledger.tombstone rid receipt = .ok { ledger with
      refunded := ledger.refunded.insert rid receipt.epoch
      receipts := ledger.receipts.erase rid } := by
  have hmem := hs.disjoint rid (OrdMap.mem_of_lookup h)
  exact bind_eq_ok.2 ⟨(), rejectIf_eq_ok.2 hmem, rfl⟩

end

/-- A new receipt is inserted. -/
theorem Sound.insert (hs : Sound ledger) (h : ledger.receipts[rid]? = none)
    (hr : rid ∉ ledger.refunded)
    (floor : Option Nat) (hwf : ∃ cgroups, receipt.WellFormed cgroups) :
    SoundOutside receipt.places
      { ledger with receipts := ledger.receipts.insert rid receipt, floor } := by
  refine ⟨?_, ?_, hs.validKeys, ?_⟩
  · intro id sto hst
    rw [OrdMap.lookup_insert] at hst
    split at hst
    · cases hst
      exact hwf
    · exact hs.wellFormed hst
  · intro key hkey
    refine (hs.cached key).insert h ?_
    rw [receipt.counts_eq_decide, decide_eq_false hkey]
  · intro id hid
    rcases (OrdMap.mem_insert_iff _ _ _ _).1 hid with rfl | hid
    · exact hr
    · exact hs.disjoint id hid

/-- The loop over the scopes of a receipt whose contributions change. -/
theorem replaceContributions_refreshed {base : QuotaLedger} (new : StoredQuotaScope → Nat × Nat)
    (hs : Sound ledger) (hbase : SoundOutside stale base) (h : ledger.receipts[rid]? = some receipt)
    (hwf : receipt.WellFormed cgroups) (ha : base.aggregates = ledger.aggregates)
    (hnew : ∀ sc ∈ receipt.scopes, receiptTally.share receipt ⟨sc.key, receipt.epoch⟩ +
      receiptTally.total base.receipts ⟨sc.key, receipt.epoch⟩ =
        new sc + receiptTally.total ledger.receipts ⟨sc.key, receipt.epoch⟩) :
    ∃ ledger', base.replaceContributions receipt new = .ok ledger' ∧
      Refreshed base receipt.places ledger' := by
  refine Refreshed.foldlM base ?_
  intro pre sc post hsco cur hc
  have hsc : sc ∈ receipt.scopes := by simp [hsco]
  have hp : ⟨sc.key, receipt.epoch⟩ ∈ receipt.places := List.mem_map.2 ⟨sc, hsc, rfl⟩
  -- the scopes of a receipt are distinct, so earlier rounds left this aggregate
  have hf : ⟨sc.key, receipt.epoch⟩ ∉
      pre.map fun sc => (⟨sc.key, receipt.epoch⟩ : ScopeEpoch) := by
    have hn := hwf.nodup_places
    rw [StoredQuotaReceipt.places, hsco, List.map_append, List.map_cons] at hn
    intro hmem
    exact (List.disjoint_of_nodup_append hn) hmem (by simp)
  have hold : scopeContribution receipt sc =
      receiptTally.share receipt ⟨sc.key, receipt.epoch⟩ := by
    rw [hwf.share_place hp]
    exact scopeContribution_of_mem (hwf.rows ▸ hsc)
  have hstored := hs.aggregate_of_place h hp
  rw [← ha, ← hc.others _ hf] at hstored
  refine replaceScopeEpochContribution_refreshed (hc.soundOutside hbase)
    (hwf.valid_place hp) hstored ?_
  rw [hold, hc.receipts]
  exact hnew sc hsc

end QuotaLedger

end AgentOS
