import AgentOS.Lib.Aggregate
import AgentOS.Quota.Ledger

/-!
# Aggregates equal their receipts

The aggregates of the ledger are a cache of the receipts (`receiptTally`), clamped at `u64::MAX`.
`QuotaLedger.Sound` says that every receipt has the scope rows that its reservation wrote, that the
cache is right for every scope and epoch, and that no receipt has a tombstone. Every call keeps it
(`call_step`), and in a sound ledger every consistency check succeeds.
-/

namespace AgentOS

open Lib

/-! ## Well-formed receipts -/

namespace StoredQuotaReceipt

/-- The requests and tokens that a receipt stands for. -/
def charged (receipt : StoredQuotaReceipt) : Nat × Nat :=
  match receipt.state with
  | .reconciled => (receipt.actualRequests.getD 0, receipt.actualTokens.getD 0)
  | .reserved | .inFlight | .estimated => (receipt.reservedRequests, receipt.reservedTokens)

/-- What a receipt adds to a scope of a kind. -/
def contribution (receipt : StoredQuotaReceipt) (kind : QuotaScopeKind) : Nat × Nat :=
  (scopeRequests kind receipt.charged.1, receipt.charged.2)

/-- The scopes of a receipt, root to leaf. -/
def keys (receipt : StoredQuotaReceipt) : List QuotaScopeKey :=
  receipt.scopes.map StoredQuotaScope.key

/-- A receipt that a reservation or a charge wrote for the cgroup scopes `cgroups`, of which an
erasure may have taken some from the leaf. -/
structure WellFormed (receipt : StoredQuotaReceipt) (cgroups : List Text) : Prop where
  actual : checkActualUsage receipt = .ok ()
  rows : receipt.scopes = scopeRows receipt cgroups
  distinct : cgroups.Nodup
  valid : ∀ scopeId ∈ cgroups, validateQuotaScopeKey (.ofCgroup scopeId) = .ok ()
  length : cgroups.length < u32Max
  nested : cgroups.Pairwise fun outer inner => childPrefix outer <+: inner
  leaf : ∀ scopeId ∈ cgroups.dropLast, isAgentScope scopeId = false

end StoredQuotaReceipt

section Rows

variable {receipt : StoredQuotaReceipt} {cgroups : List Text}

theorem validate_providerGlobal : validateQuotaScopeKey .providerGlobal = .ok () := by
  decide +kernel

theorem map_key_scopeRows (receipt : StoredQuotaReceipt) (cgroups : List Text) :
    (scopeRows receipt cgroups).map StoredQuotaScope.key =
      QuotaScopeKey.providerGlobal :: cgroups.map .ofCgroup := by
  rw [scopeRows, List.map_map]
  exact List.zipIdx_map_fst 0 _

theorem getElem?_scopeRows (receipt : StoredQuotaReceipt) (cgroups : List Text) (order : Nat) :
    (scopeRows receipt cgroups)[order]? =
      ((QuotaScopeKey.providerGlobal :: cgroups.map .ofCgroup)[order]?).map
        fun key => scopeRow receipt key order := by
  rw [scopeRows, List.getElem?_map, List.getElem?_zipIdx, Option.map_map, Nat.zero_add]
  rfl

/-- Every row of a receipt mirrors it. -/
theorem mem_scopeRows {sc : StoredQuotaScope} (h : sc ∈ scopeRows receipt cgroups) :
    sc.key ∈ QuotaScopeKey.providerGlobal :: cgroups.map .ofCgroup ∧ sc.order ≤ cgroups.length ∧
      sc.reservedRequests = scopeRequests sc.key.kind receipt.reservedRequests ∧
      sc.reservedTokens = receipt.reservedTokens ∧
      sc.actualRequests = receipt.actualRequests.map (scopeRequests sc.key.kind) ∧
      sc.actualTokens = receipt.actualTokens := by
  obtain ⟨⟨key, order⟩, hp, rfl⟩ := List.mem_map.1 h
  have hkey := List.fst_mem_of_mem_zipIdx hp
  have ho := List.snd_lt_of_mem_zipIdx hp
  refine ⟨hkey, ?_, rfl, rfl, rfl, rfl⟩
  simp only [List.length_cons, List.length_map] at ho
  show order ≤ cgroups.length
  omega

theorem scopeRequests_zero (kind : QuotaScopeKind) : scopeRequests kind 0 = 0 := by
  cases kind with
  | provider => rfl
  | cgroup => rfl

theorem scopeContribution_of_mem {sc : StoredQuotaScope} (h : sc ∈ scopeRows receipt cgroups) :
    scopeContribution receipt sc = receipt.contribution sc.key.kind := by
  obtain ⟨-, -, hr, ht, haR, haT⟩ := mem_scopeRows h
  unfold scopeContribution StoredQuotaReceipt.contribution StoredQuotaReceipt.charged
  cases receipt.state with
  | reconciled =>
    rw [haR, haT]
    cases receipt.actualRequests with
    | none => simp [scopeRequests_zero]
    | some requests => rfl
  | reserved | inFlight | estimated => simp [hr, ht]

end Rows

namespace StoredQuotaReceipt.WellFormed

variable {receipt : StoredQuotaReceipt} {cgroups : List Text}

variable (h : receipt.WellFormed cgroups)
include h

theorem keys_eq : receipt.keys = .providerGlobal :: cgroups.map .ofCgroup := by
  rw [StoredQuotaReceipt.keys, h.rows, map_key_scopeRows]

theorem valid_key {sc : QuotaScopeKey}
    (hs : sc ∈ receipt.keys) : validateQuotaScopeKey sc = .ok () := by
  rw [h.keys_eq] at hs
  rcases List.mem_cons.1 hs with rfl | hs
  · exact validate_providerGlobal
  · obtain ⟨sid, hmem, rfl⟩ := List.mem_map.1 hs
    exact h.valid sid hmem

theorem nodup_keys : receipt.keys.Nodup := by
  rw [h.keys_eq, List.nodup_cons]
  constructor
  · intro hmem
    obtain ⟨sid, -, heq⟩ := List.mem_map.1 hmem
    exact absurd (congrArg QuotaScopeKey.kind heq) (by simp [QuotaScopeKey.ofCgroup,
      QuotaScopeKey.providerGlobal])
  · exact h.distinct.map fun a b heq => congrArg QuotaScopeKey.id heq

/-- The scope rows of a well-formed receipt pass every check. -/
theorem loadReceiptScopes_eq (rid : Text) :
    loadReceiptScopes rid receipt = .ok receipt.scopes := by
  have hl := h.length
  have hrows : receipt.scopes.forM (checkScopeRow rid receipt) = .ok () := by
    refine forM_eq_ok fun sc hs => ?_
    rw [h.rows] at hs
    obtain ⟨hkey, hor, hr, ht, haR, haT⟩ :=
      mem_scopeRows hs
    have hv := h.valid_key (h.keys_eq ▸ hkey)
    simp only [checkScopeRow, bind_eq_ok, rejectIf_eq_ok]
    refine ⟨(), by omega, (), hv, ?_⟩
    simp [hr, ht, haR, haT]
  have ho : receipt.scopes.zipIdx.forM (checkScopeOrder rid) = .ok () := by
    apply forM_eq_ok
    rintro ⟨sc, order⟩ hp
    have hs : receipt.scopes[order]? = some sc := List.mem_zipIdx_iff_getElem?.1 hp
    rw [h.rows, getElem?_scopeRows] at hs
    obtain ⟨key, hkey, rfl⟩ := Option.map_eq_some_iff.1 hs
    simp only [checkScopeOrder, bind_eq_ok, rejectIf_eq_ok]
    refine ⟨(), ?_, (), by simp [scopeRow], ?_⟩
    · have hlt := (List.getElem?_eq_some_iff.1 hkey).1
      simp only [List.length_cons, List.length_map] at hlt
      omega
    · cases order with
      | zero =>
        obtain rfl : .providerGlobal = key := by simpa using hkey
        simp [scopeRow]
      | succ order =>
        rw [List.getElem?_cons_succ, List.getElem?_map] at hkey
        obtain ⟨sid, -, rfl⟩ := Option.map_eq_some_iff.1 hkey
        simp [scopeRow, QuotaScopeKey.ofCgroup]
  simp only [loadReceiptScopes, bind_eq_ok, rejectIf_eq_ok, pure_eq_ok]
  refine ⟨(), hrows, (), ?_, (), ho, trivial⟩
  rw [h.rows]
  simp [scopeRows]

end StoredQuotaReceipt.WellFormed

/-! ## The cached totals -/

/-- What a receipt adds to a scope in an epoch: the contribution of its row for the scope. -/
def StoredQuotaReceipt.contributionTo (receipt : StoredQuotaReceipt) (key : ScopeEpoch) :
    Nat × Nat :=
  match receipt.scopes.find? fun scope => scope.key = key.scope with
  | some scope => scopeContribution receipt scope
  | none => (0, 0)

/-- How receipts count towards scopes and epochs. -/
def receiptTally : Tally StoredQuotaReceipt ScopeEpoch where
  counts := StoredQuotaReceipt.inScope
  amount := StoredQuotaReceipt.contributionTo

theorem inScope_iff (receipt : StoredQuotaReceipt) (key : ScopeEpoch) :
    receipt.inScope key = true ↔ receipt.epoch = key.epoch ∧ key.scope ∈ receipt.keys := by
  simp [StoredQuotaReceipt.inScope, StoredQuotaReceipt.keys]

theorem counts_iff (receipt : StoredQuotaReceipt) (key : ScopeEpoch) :
    receiptTally.counts receipt key = true ↔ receipt.epoch = key.epoch ∧ key.scope ∈ receipt.keys :=
  inScope_iff receipt key

/-- A scope of a receipt has a row. -/
theorem find?_scope {receipt : StoredQuotaReceipt} {sc : QuotaScopeKey} (h : sc ∈ receipt.keys) :
    ∃ sto ∈ receipt.scopes, sto.key = sc ∧
      (receipt.scopes.find? fun cand => cand.key = sc) = some sto := by
  obtain ⟨row, hrow, hkey⟩ := List.mem_map.1 h
  have hsome : (receipt.scopes.find? fun cand => cand.key = sc).isSome := by
    rw [List.find?_isSome]
    exact ⟨row, hrow, by simp [hkey]⟩
  obtain ⟨sto, hs⟩ := Option.isSome_iff_exists.1 hsome
  refine ⟨sto, List.mem_of_find?_eq_some hs, ?_, hs⟩
  simpa using List.find?_some hs

namespace StoredQuotaReceipt.WellFormed

variable {receipt : StoredQuotaReceipt} {cgroups : List Text} {key : ScopeEpoch}

variable (h : receipt.WellFormed cgroups)
include h

theorem contributionTo_eq (hs : key.scope ∈ receipt.keys) :
    receipt.contributionTo key = receipt.contribution key.scope.kind := by
  obtain ⟨sto, hmem, hkey, hfind⟩ := find?_scope hs
  rw [StoredQuotaReceipt.contributionTo, hfind]
  rw [h.rows] at hmem
  rw [← hkey]
  exact scopeContribution_of_mem hmem

theorem share_eq (key : ScopeEpoch) :
    receiptTally.share receipt key =
      if receipt.epoch = key.epoch ∧ key.scope ∈ receipt.keys then
        receipt.contribution key.scope.kind
      else 0 := by
  rw [Tally.share]
  by_cases hcounts : receipt.epoch = key.epoch ∧ key.scope ∈ receipt.keys
  · rw [if_pos ((counts_iff receipt key).2 hcounts), if_pos hcounts]
    exact h.contributionTo_eq hcounts.2
  · rw [if_neg (fun hc => hcounts ((counts_iff receipt key).1 hc)), if_neg hcounts]

theorem addReceiptUsage_eq (hs : key.scope ∈ receipt.keys)
    (rid : Text) (usage : QuotaScopeUsage) :
    addReceiptUsage key.scope usage (rid, receipt) =
      .ok ({ usage with
        requests := saturatingAdd usage.requests (receipt.contributionTo key).1
        tokens := saturatingAdd usage.tokens (receipt.contributionTo key).2 }.countState
          receipt.state) := by
  obtain ⟨sto, hmem, hkey, hfind⟩ := find?_scope hs
  simp only [addReceiptUsage, bind_eq_ok, pure_eq_ok, orReject_eq_ok]
  refine ⟨(), h.actual, receipt.scopes, h.loadReceiptScopes_eq rid, sto, hfind, ?_⟩
  rw [StoredQuotaReceipt.contributionTo, hfind]

end StoredQuotaReceipt.WellFormed

section Usage

variable (usage : QuotaScopeUsage) (state : ProviderRateReceiptState)

theorem countState_requests : (usage.countState state).requests = usage.requests := by
  cases state with
  | reserved => rfl
  | inFlight => rfl
  | estimated => rfl
  | reconciled => rfl

theorem countState_tokens : (usage.countState state).tokens = usage.tokens := by
  cases state with
  | reserved => rfl
  | inFlight => rfl
  | estimated => rfl
  | reconciled => rfl

/-- A counted receipt is seen also when its amounts are zero. -/
theorem countState_isEmpty : (usage.countState state).isEmpty = false := by
  have hc : ∀ count, saturatingAdd count 1 ≠ 0 := by
    intro count
    unfold saturatingAdd u64Max
    omega
  cases state with
  | reserved | inFlight | estimated | reconciled =>
    simp [QuotaScopeUsage.countState, QuotaScopeUsage.isEmpty, hc]

end Usage

variable {key : ScopeEpoch}

/-- The loop over the receipts of a scope and epoch computes their clamped sum. -/
theorem foldlM_addReceiptUsage {es : List (Text × StoredQuotaReceipt)}
    (hen : ∀ entry ∈ es, key.scope ∈ entry.2.keys ∧ ∃ cgroups, entry.2.WellFormed cgroups) :
    ∃ usage, es.foldlM (addReceiptUsage key.scope) ⟨key.epoch, key.scope, 0, 0, 0, 0, 0, 0⟩ =
        .ok usage ∧
      (usage.requests, usage.tokens) =
        clamp u64Max (es.map fun entry => entry.2.contributionTo key).sum ∧
      (usage.isEmpty = true ↔ es = []) := by
  induction es using List.reverseRecOn with
  | nil => exact ⟨_, rfl, by simp [clamp], by simp [QuotaScopeUsage.isEmpty]⟩
  | append_singleton es entry ih =>
    obtain ⟨usage, hu, hsum, -⟩ := ih fun e he => hen e (by simp [he])
    obtain ⟨hs, cgroups, hwf⟩ := hen entry (by simp)
    have hlast := hwf.addReceiptUsage_eq hs entry.1 usage
    refine ⟨_, (foldlM_snoc ..).trans (bind_eq_ok.2 ⟨usage, hu, hlast⟩), ?_, ?_⟩
    · rw [countState_requests, countState_tokens]
      simp only [clamp, Prod.mk.injEq] at hsum ⊢
      simp only [List.map_append, List.map_singleton, List.sum_append, List.sum_singleton,
        Prod.fst_add, Prod.snd_add, saturatingAdd, hsum]
      omega
    · rw [countState_isEmpty]
      simp

/-! ## Sound ledgers -/

namespace QuotaLedger

/-- The tables agree, except for the aggregates of the stale scopes and epochs. -/
structure SoundOutside (stale : List ScopeEpoch) (ledger : QuotaLedger) : Prop where
  wellFormed : ∀ (receiptId : Text) (receipt : StoredQuotaReceipt),
    ledger.receipts[receiptId]? = some receipt → ∃ cgroups, receipt.WellFormed cgroups
  cached : ∀ key, key ∉ stale →
    Cached receiptTally u64Max ledger.receipts key ledger.aggregates[key]?
  validKeys : ∀ key, key ∈ ledger.aggregates → validateQuotaScopeKey key.scope = .ok ()
  disjoint : ∀ receiptId, receiptId ∈ ledger.receipts → receiptId ∉ ledger.refunded

/-- The tables agree. -/
def Sound (ledger : QuotaLedger) : Prop := SoundOutside [] ledger

/-- The saturating sum of the contributions of the receipts of a scope in an epoch. -/
def saturatingSum (ledger : QuotaLedger) (key : ScopeEpoch) : Nat × Nat :=
  ((ledger.receipts.toList.filter fun entry => entry.2.inScope key).map fun entry =>
    entry.2.contributionTo key).foldl
      (fun sum amount => (saturatingAdd sum.1 amount.1, saturatingAdd sum.2 amount.2)) (0, 0)

theorem saturatingSum_eq (ledger : QuotaLedger) (key : ScopeEpoch) :
    ledger.saturatingSum key = clamp u64Max (receiptTally.total ledger.receipts key) := by
  have hfold : ∀ amounts : List (Nat × Nat), amounts.foldl
      (fun sum amount => (saturatingAdd sum.1 amount.1, saturatingAdd sum.2 amount.2)) (0, 0) =
        clamp u64Max amounts.sum := by
    intro amounts
    induction amounts using List.reverseRecOn with
    | nil => simp [clamp]
    | append_singleton amounts amount ih =>
      rw [List.foldl_append, List.foldl_cons, List.foldl_nil, ih, List.sum_append,
        List.sum_singleton]
      simp only [clamp, saturatingAdd, Prod.fst_add, Prod.snd_add, Prod.mk.injEq]
      omega
  rw [saturatingSum, hfold, Tally.total_eq_sum_filter]
  rfl

variable {stale : List ScopeEpoch} {ledger : QuotaLedger}

/-- What `computeScopeEpochUsage` finds in well-formed receipts. -/
theorem computeScopeEpochUsage_spec (h : SoundOutside stale ledger)
    (hv : validateQuotaScopeKey key.scope = .ok ()) :
    ∃ usage, ledger.computeScopeEpochUsage key = .ok usage ∧
      (usage.requests, usage.tokens) = clamp u64Max (receiptTally.total ledger.receipts key) ∧
      (usage.isEmpty = true ↔ ¬ receiptTally.Occupied ledger.receipts key) := by
  have he : ∀ e ∈ ledger.receipts.toList.filter (fun e => e.2.inScope key),
      key.scope ∈ e.2.keys ∧ ∃ cgroups, e.2.WellFormed cgroups := by
    rintro ⟨rid, receipt⟩ hen
    obtain ⟨hmem, hs⟩ := List.mem_filter.1 hen
    exact ⟨((inScope_iff receipt key).1 hs).2,
      h.wellFormed rid receipt (OrdMap.mem_toList_iff.1 hmem)⟩
  obtain ⟨usage, hu, hsum, hem⟩ := foldlM_addReceiptUsage he
  refine ⟨usage, ?_, ?_, ?_⟩
  · rw [computeScopeEpochUsage, bind_eq_ok]
    exact ⟨(), hv, hu⟩
  · rw [hsum, Tally.total_eq_sum_filter]
    rfl
  · rw [hem, Tally.occupied_iff_filter_ne_nil, not_not]
    rfl

/-- Only aggregates were written, and those of `keys` are right. -/
structure Refreshed (ledger : QuotaLedger) (keys : List ScopeEpoch) (ledger' : QuotaLedger) :
    Prop where
  tables : ledger' = { ledger with aggregates := ledger'.aggregates }
  others : ∀ key, key ∉ keys → ledger'.aggregates[key]? = ledger.aggregates[key]?
  right : ∀ key ∈ keys, Cached receiptTally u64Max ledger.receipts key ledger'.aggregates[key]?
  valid : ∀ key ∈ keys, validateQuotaScopeKey key.scope = .ok ()

namespace Refreshed

variable {ledger ledger' ledger'' : QuotaLedger} {keys stale : List ScopeEpoch}

section

variable (h : Refreshed ledger keys ledger')
include h

theorem receipts : ledger'.receipts = ledger.receipts := by
  rw [h.tables]

theorem refunded : ledger'.refunded = ledger.refunded := by
  rw [h.tables]

end

theorem refl (ledger : QuotaLedger) : Refreshed ledger [] ledger :=
  ⟨rfl, fun _ _ => rfl, by simp, by simp⟩

section

variable (h : Refreshed ledger keys ledger')
include h

theorem trans {keys' : List ScopeEpoch}
    (h' : Refreshed ledger' keys' ledger'') : Refreshed ledger (keys ++ keys') ledger'' := by
  refine ⟨?_, ?_, ?_, ?_⟩
  · rw [h'.tables, h.tables]
  · intro key hkey
    rw [List.mem_append, not_or] at hkey
    rw [h'.others key hkey.2, h.others key hkey.1]
  · intro key hkey
    by_cases hlast : key ∈ keys'
    · rw [← h.receipts]
      exact h'.right key hlast
    · rw [h'.others key hlast]
      exact h.right key ((List.mem_append.1 hkey).resolve_right hlast)
  · intro key hkey
    rcases List.mem_append.1 hkey with hkey | hkey
    · exact h.valid key hkey
    · exact h'.valid key hkey

theorem soundOutside (hs : SoundOutside stale ledger) : SoundOutside stale ledger' := by
  refine ⟨?_, ?_, ?_, ?_⟩
  · rw [h.receipts]
    exact hs.wellFormed
  · intro key hst
    rw [h.receipts]
    by_cases hkey : key ∈ keys
    · exact h.right key hkey
    · rw [h.others key hkey]
      exact hs.cached key hst
  · intro key hmem
    by_cases hkey : key ∈ keys
    · exact h.valid key hkey
    · refine hs.validKeys key ?_
      rw [OrdMap.mem_iff_exists_lookup] at hmem ⊢
      rwa [h.others key hkey] at hmem
  · rw [h.receipts, h.refunded]
    exact hs.disjoint

/-- When every stale aggregate was written, the tables agree. -/
theorem sound (hs : SoundOutside stale ledger)
    (hst : ∀ key ∈ stale, key ∈ keys) : Sound ledger' := by
  have hs' := h.soundOutside hs
  refine ⟨hs'.wellFormed, ?_, hs'.validKeys, hs'.disjoint⟩
  intro key _
  by_cases hkey : key ∈ keys
  · rw [h.receipts]
    exact h.right key hkey
  · exact hs'.cached key fun hmem => hkey (hst key hmem)

end

/-- A loop whose rounds each refresh one aggregate. -/
theorem foldlM {α : Type} {step : QuotaLedger → α → Except QuotaError QuotaLedger}
    {key : α → ScopeEpoch} (ledger : QuotaLedger) {l : List α}
    (hstep : EachAfter (fun pre a => ∀ cur, Refreshed ledger (pre.map key) cur →
      ∃ next, step cur a = .ok next ∧ Refreshed cur [key a] next) l) :
    ∃ ledger', l.foldlM step ledger = .ok ledger' ∧ Refreshed ledger (l.map key) ledger' := by
  induction l using List.reverseRecOn with
  | nil => exact ⟨ledger, rfl, refl ledger⟩
  | append_singleton l a ih =>
    obtain ⟨hl, ha⟩ := eachAfter_snoc.1 hstep
    obtain ⟨cur, hc, hr⟩ := ih hl
    obtain ⟨next, hnext, hlast⟩ := ha cur hr
    refine ⟨next, (foldlM_snoc ..).trans (bind_eq_ok.2 ⟨cur, hc, hnext⟩), ?_⟩
    rw [List.map_append, List.map_singleton]
    exact hr.trans hlast

end Refreshed

/-- An aggregate that is written with the right value. -/
theorem refreshed_insert {v : Nat × Nat} (hv : validateQuotaScopeKey key.scope = .ok ())
    (hva : v = clamp u64Max (receiptTally.total ledger.receipts key)) :
    Refreshed ledger [key] { ledger with aggregates := ledger.aggregates.insert key v } := by
  refine ⟨rfl, ?_, ?_, ?_⟩
  · intro o ho
    exact OrdMap.lookup_insert_ne _ _ (Ne.symm (by simpa using ho))
  · intro o ho
    obtain rfl : o = key := by simpa using ho
    rw [OrdMap.lookup_insert_self]
    exact hva
  · intro o ho
    obtain rfl : o = key := by simpa using ho
    exact hv

theorem writeScopeEpochAggregate_refreshed (ledger : QuotaLedger) {v : Nat × Nat}
    (hv : validateQuotaScopeKey key.scope = .ok ())
    (hva : v = clamp u64Max (receiptTally.total ledger.receipts key)) :
    ∃ ledger', ledger.writeScopeEpochAggregate key v = .ok ledger' ∧
      Refreshed ledger [key] ledger' :=
  ⟨_, bind_eq_ok.2 ⟨(), hv, rfl⟩, refreshed_insert hv hva⟩

/-- The full recomputation of an aggregate. -/
theorem writeScopeEpochFromReceipts_refreshed (h : SoundOutside stale ledger)
    (hv : validateQuotaScopeKey key.scope = .ok ()) :
    ∃ ledger', ledger.writeScopeEpochFromReceipts key = .ok ledger' ∧
      Refreshed ledger [key] ledger' := by
  obtain ⟨usage, hu, hsum, hem⟩ := computeScopeEpochUsage_spec h hv
  by_cases he : usage.isEmpty = true
  · refine ⟨{ ledger with aggregates := ledger.aggregates.erase key }, ?_, ?_⟩
    · rw [writeScopeEpochFromReceipts, bind_eq_ok]
      exact ⟨usage, hu, by rw [if_pos he]; rfl⟩
    · refine ⟨rfl, ?_, ?_, ?_⟩
      · intro o ho
        rw [OrdMap.lookup_erase, if_neg (Ne.symm (by simpa using ho))]
      · intro o ho
        obtain rfl : o = key := by simpa using ho
        rw [OrdMap.lookup_erase, if_pos rfl]
        exact hem.1 he
      · intro o ho
        obtain rfl : o = key := by simpa using ho
        exact hv
  · refine ⟨{ ledger with
      aggregates := ledger.aggregates.insert key (usage.requests, usage.tokens) }, ?_,
      refreshed_insert hv hsum⟩
    rw [writeScopeEpochFromReceipts, bind_eq_ok]
    exact ⟨usage, hu, by rw [if_neg he]; rfl⟩

/-- One dimension of an aggregate follows the change of a contribution, unless it shrinks from
the clamped maximum. -/
theorem replaceDimension_eq (key : ScopeEpoch) (dim : String) {sum sum' old new : Nat}
    (hsum : old + sum' = new + sum) (hb : ¬ (new < old ∧ min sum u64Max = u64Max)) :
    replaceDimension key dim (min sum u64Max) old new = .ok (min sum' u64Max) := by
  unfold replaceDimension
  split
  · next hg => rw [pure_eq_ok, saturatingAdd, clamped_grow hsum hg]
  · next hs =>
    have hs : new < old := Nat.lt_of_not_le hs
    obtain ⟨hle, heq⟩ := clamped_shrink hsum hs fun h => hb ⟨hs, h⟩
    rw [orReject_eq_ok, checkedSub, if_pos hle, heq]

/-- The incremental update of an aggregate never underflows, and gives the same result as the full
recomputation. -/
theorem replaceScopeEpochContribution_refreshed (h : SoundOutside stale ledger)
    {sum old new : Nat × Nat} (hv : validateQuotaScopeKey key.scope = .ok ())
    (hc : ledger.aggregates[key]? = some (clamp u64Max sum))
    (hsum : old + receiptTally.total ledger.receipts key = new + sum) :
    ∃ ledger', ledger.replaceScopeEpochContribution key old new = .ok ledger' ∧
      Refreshed ledger [key] ledger' := by
  have hre : ledger.requiredScopeEpochAggregate key = .ok (clamp u64Max sum) := by
    rw [requiredScopeEpochAggregate, bind_eq_ok]
    exact ⟨(), hv, orReject_eq_ok.2 hc⟩
  by_cases hmax : (new.1 < old.1 ∧ (clamp u64Max sum).1 = u64Max) ∨
      (new.2 < old.2 ∧ (clamp u64Max sum).2 = u64Max)
  · -- the clamped value does not determine the sum, so the source recomputes it
    obtain ⟨ledger', hw, hr⟩ := writeScopeEpochFromReceipts_refreshed h hv
    refine ⟨ledger', ?_, hr⟩
    rw [replaceScopeEpochContribution, bind_eq_ok]
    exact ⟨_, hre, by rw [if_pos hmax]; exact hw⟩
  · rw [not_or] at hmax
    have hrq := replaceDimension_eq key "request" (congrArg Prod.fst hsum) hmax.1
    have ht := replaceDimension_eq key "token" (congrArg Prod.snd hsum) hmax.2
    obtain ⟨ledger', hw, hr⟩ := writeScopeEpochAggregate_refreshed ledger hv rfl
    refine ⟨ledger', ?_, hr⟩
    rw [replaceScopeEpochContribution, bind_eq_ok]
    refine ⟨_, hre, ?_⟩
    rw [if_neg (not_or.2 hmax), bind_eq_ok]
    refine ⟨_, hrq, ?_⟩
    rw [bind_eq_ok]
    exact ⟨_, ht, hw⟩

end QuotaLedger

end AgentOS
