import AgentOS.Quota.Steps

/-!
# Recovery, pruning and erasure

The calls that touch many receipts, and the run lemma: every call is a `QuotaStep` and keeps the
ledger sound (`call_step`). The main result is `aggregates_equal_receipts`: in every reachable
ledger the aggregates are the saturating sums of the contributions of the receipts.
-/

namespace AgentOS

open Lib OrdMap QuotaLedger QuotaScopeKey

namespace QuotaLedger

variable {ledger : QuotaLedger} {receiptId : Text} {receipt : StoredQuotaReceipt}

/-! ## Recovery -/

theorem SoundOutside.mono {stale stale' : List ScopeEpoch} (hs : SoundOutside stale ledger)
    (hsub : ∀ key ∈ stale, key ∈ stale') : SoundOutside stale' ledger :=
  ⟨hs.wellFormed, fun key hkey => hs.cached key fun hmem => hkey (hsub key hmem), hs.validKeys,
    hs.disjoint⟩

/-- The scan of a recovery after the receipts `done`. -/
structure Recovering (start : QuotaLedger) (done : List Text) (scan : RecoveryScan) : Prop where
  sound : SoundOutside scan.affectedScopes scan.ledger
  valid : ∀ key ∈ scan.affectedScopes, validateQuotaScopeKey key.scope = .ok ()
  tables : scan.ledger =
    { start with receipts := scan.ledger.receipts, refunded := scan.ledger.refunded }
  receipts : ∀ receiptId : Text, scan.ledger.receipts[receiptId]? =
    if receiptId ∈ done then start.receipts[receiptId]?.bind recoveredReceipt
    else start.receipts[receiptId]?
  refunded : ∀ receiptId : Text, scan.ledger.refunded[receiptId]? =
    if receiptId ∈ done then
      recoveredTombstone start.refunded[receiptId]? start.receipts[receiptId]?
    else start.refunded[receiptId]?

/-- A receipt that is recovered next to those in `done`. -/
theorem ite_mem_snoc {β : Type} {done : List Text} {receiptId o : Text} (recovered old : β) :
    (if o ∈ done ++ [receiptId] then recovered else old) =
      if receiptId = o then recovered else if o ∈ done then recovered else old := by
  by_cases heq : receiptId = o
  · simp [heq]
  · simp [heq, Ne.symm heq]

/-- One round of a recovery. -/
theorem Recovering.step {start : QuotaLedger} {done : List Text} {scan : RecoveryScan}
    (hscan : Recovering start done scan) (hf : receiptId ∉ done)
    (h : start.receipts[receiptId]? = some receipt) :
    ∃ scan', recoverReceipt scan receiptId = .ok scan' ∧
      Recovering start (done ++ [receiptId]) scan' := by
  have hs : scan.ledger.receipts[receiptId]? = some receipt := by rw [hscan.receipts, if_neg hf, h]
  obtain ⟨cgroups, hwf⟩ := hscan.sound.wellFormed receiptId receipt hs
  have hv : ∀ key ∈ scan.affectedScopes ++ receipt.places,
      validateQuotaScopeKey key.scope = .ok () := by
    intro key hkey
    rcases List.mem_append.1 hkey with hkey | hkey
    · exact hscan.valid key hkey
    · exact hwf.valid_place hkey
  have hopen : recoverReceipt scan receiptId = _ :=
    (bind_of_ok (hscan.sound.requireQuotaReceipt_of_some hs) _).trans
      (bind_of_ok (hscan.sound.loadReceiptScopes_eq hs) _)
  -- receipts that keep their rows and tombstones
  have hre : recoveredReceipt receipt = some receipt → ∀ o : Text,
      scan.ledger.receipts[o]? = if o ∈ done ++ [receiptId] then
        start.receipts[o]?.bind recoveredReceipt else start.receipts[o]? := by
    intro hkept o
    rw [ite_mem_snoc, hscan.receipts]
    by_cases heq : receiptId = o
    · subst heq
      rw [if_neg hf, if_pos rfl, h, Option.bind_some, hkept]
    · rw [if_neg heq]
  have hr : receipt.state ≠ .reserved → ∀ o : Text,
      scan.ledger.refunded[o]? = if o ∈ done ++ [receiptId] then
        recoveredTombstone start.refunded[o]? start.receipts[o]?
      else start.refunded[o]? := by
    intro hkept o
    rw [ite_mem_snoc, hscan.refunded]
    by_cases heq : receiptId = o
    · subst heq
      rw [if_neg hf, if_pos rfl, h, recoveredTombstone, if_neg hkept]
    · rw [if_neg heq]
  have hmono := hscan.sound.mono fun key hkey => List.mem_append_left receipt.places hkey
  rw [hopen]
  cases hst : receipt.state with
  | reserved =>
    refine ⟨_, bind_eq_ok.2 ⟨_, hscan.sound.tombstone_eq hs, rfl⟩,
      hscan.sound.tombstone hs, hv, ?_, ?_, ?_⟩
    · rw [hscan.tables]
    · intro o
      rw [ite_mem_snoc, lookup_erase, hscan.receipts]
      split
      · next heq =>
        subst heq
        simp [h, recoveredReceipt, hst]
      · rfl
    · intro o
      rw [ite_mem_snoc, lookup_insert, hscan.refunded]
      split
      · next heq =>
        subst heq
        simp [h, recoveredTombstone, hst]
      · rfl
  | inFlight =>
    refine ⟨_, rfl, ?_, hv, ?_, ?_, hr (by simp [hst])⟩
    · exact SoundOutside.setState hmono hs (by simp [hst]) (by simp)
    · rw [setState, hscan.tables]
    · intro o
      rw [ite_mem_snoc, setState, lookup_insert, hscan.receipts]
      split
      · next heq =>
        subst heq
        simp [h, recoveredReceipt, hst]
      · rfl
  | estimated | reconciled =>
    exact ⟨_, rfl, hmono, hv, hscan.tables, hre (by simp [recoveredReceipt, hst]),
      hr (by simp [hst])⟩

/-- The loop over the active receipts. -/
theorem Recovering.foldlM {start : QuotaLedger} (scan : RecoveryScan) (hs : Sound start)
    (hscan : scan.ledger = start) (ha : scan.affectedScopes = []) {ids : List Text}
    (hids : ids.Nodup) (hst : ∀ receiptId ∈ ids, receiptId ∈ start.receipts) :
    ∃ scan', ids.foldlM recoverReceipt scan = .ok scan' ∧ Recovering start ids scan' := by
  induction ids using List.reverseRecOn with
  | nil =>
    refine ⟨scan, rfl, ?_, by simp [ha], by rw [hscan], by simp [hscan], by simp [hscan]⟩
    rw [ha, hscan]
    exact hs
  | append_singleton ids receiptId ih =>
    obtain ⟨hn, -, hd⟩ := List.nodup_append.1 hids
    obtain ⟨mid, hmid, hr⟩ := ih hn fun id hid => hst id (by simp [hid])
    obtain ⟨receipt, h⟩ := exists_lookup (hst receiptId (by simp))
    have hf : receiptId ∉ ids := fun hmem => hd receiptId hmem receiptId (by simp) rfl
    obtain ⟨next, hnext, hlast⟩ := hr.step hf h
    exact ⟨next, (foldlM_snoc ..).trans (bind_eq_ok.2 ⟨mid, hmid, hnext⟩), hlast⟩

/-- Recovery succeeds in every sound ledger. -/
theorem Sound.recover_eq (hs : Sound ledger) (asked : Nat) :
    ∃ recovery ledger', ledger.recoverProviderRateState asked = (.ok recovery, ledger') ∧
      Sound ledger' ∧ QuotaStep ledger (.recover asked) ledger' ∧
      ∀ receiptId : Text,
        ledger'.receipts[receiptId]? = ledger.receipts[receiptId]?.bind recoveredReceipt := by
  have hfl := hs.with_floor (some (ledger.effective asked))
  obtain ⟨ids, hids⟩ : ∃ ids, ids =
    (ledger.receipts.toList.filter fun e => isActive e.2.state).map Prod.fst := ⟨_, rfl⟩
  have hmem : ∀ receiptId : Text, receiptId ∈ ids ↔
      ∃ receipt, ledger.receipts[receiptId]? = some receipt ∧ isActive receipt.state = true := by
    intro receiptId
    rw [hids]
    constructor
    · intro hmem
      obtain ⟨⟨id, receipt⟩, he, rfl⟩ := List.mem_map.1 hmem
      obtain ⟨he, ha⟩ := List.mem_filter.1 he
      exact ⟨receipt, mem_toList_iff.1 he, ha⟩
    · rintro ⟨receipt, h, ha⟩
      exact List.mem_map.2 ⟨(receiptId, receipt), List.mem_filter.2 ⟨mem_toList_iff.2 h, ha⟩, rfl⟩
  have hn : ids.Nodup := by
    rw [hids]
    refine List.pairwise_map.2 ?_
    exact (toList_pairwise_ne ledger.receipts).sublist List.filter_sublist
  have hst : ∀ receiptId ∈ ids, receiptId ∈ ledger.receipts := by
    intro receiptId hid
    obtain ⟨receipt, h, -⟩ := (hmem receiptId).1 hid
    exact mem_of_lookup h
  obtain ⟨scan, hscan, hr⟩ := Recovering.foldlM
    ⟨{ ledger with floor := some (ledger.effective asked) },
      ⟨ledger.effective asked, 0, 0⟩, []⟩ hfl rfl rfl hn hst
  obtain ⟨ledger', hloop, hf⟩ : ∃ ledger',
      scan.affectedScopes.foldlM writeScopeEpochFromReceipts scan.ledger = .ok ledger' ∧
        Refreshed scan.ledger (scan.affectedScopes.map id) ledger' := by
    refine Refreshed.foldlM scan.ledger ?_
    intro pre key post hlist cur hc
    exact writeScopeEpochFromReceipts_refreshed (hc.soundOutside hr.sound)
      (hr.valid key (by simp [hlist]))
  have hre : ∀ receiptId : Text,
      scan.ledger.receipts[receiptId]? = ledger.receipts[receiptId]?.bind recoveredReceipt := by
    intro receiptId
    refine (hr.receipts receiptId).trans (ite_eq_left_iff.2 fun hi => ?_)
    show ledger.receipts[receiptId]? = ledger.receipts[receiptId]?.bind recoveredReceipt
    cases h : ledger.receipts[receiptId]? with
    | none => rfl
    | some receipt =>
      refine (recoveredReceipt_of_inactive (Bool.eq_false_iff.2 fun ha => ?_)).symm
      exact hi ((hmem receiptId).2 ⟨receipt, h, ha⟩)
  have hrf : ∀ receiptId : Text, scan.ledger.refunded[receiptId]? =
      recoveredTombstone ledger.refunded[receiptId]? ledger.receipts[receiptId]? := by
    intro receiptId
    refine (hr.refunded receiptId).trans (ite_eq_left_iff.2 fun hi => ?_)
    show ledger.refunded[receiptId]? =
      recoveredTombstone ledger.refunded[receiptId]? ledger.receipts[receiptId]?
    cases h : ledger.receipts[receiptId]? with
    | none => rfl
    | some receipt =>
      refine (recoveredTombstone_of_inactive _ (Bool.eq_false_iff.2 fun ha => ?_)).symm
      exact hi ((hmem receiptId).2 ⟨receipt, h, ha⟩)
  refine ⟨scan.recovery, ledger', transaction_of_ok ?_, ?_, ?_, ?_⟩
  · refine bind_eq_ok.2 ⟨(), hfl.validateAllProviderEpochs_ok, ?_⟩
    rw [hids] at hscan
    exact bind_eq_ok.2 ⟨scan, hscan, bind_eq_ok.2 ⟨ledger', hloop, rfl⟩⟩
  · exact hf.sound hr.sound fun key hkey => by simpa using hkey
  · have ht := hf.tables
    rw [hr.tables] at ht
    rw [ht]
    exact .recovered hre hrf
  · rw [hf.receipts]
    exact hre

/-- A recovery without active receipts writes no table. -/
theorem Sound.recover_of_inactive (hs : Sound ledger) (asked : Nat)
    (hi : ∀ (receiptId : Text) (receipt : StoredQuotaReceipt),
      ledger.receipts[receiptId]? = some receipt → isActive receipt.state = false) :
    (ledger.recoverProviderRateState asked).2 =
      { ledger with floor := some (ledger.effective asked) } := by
  have hids : (ledger.receipts.toList.filter fun e => isActive e.2.state).map Prod.fst =
      [] := by
    rw [List.map_eq_nil_iff, List.filter_eq_nil_iff]
    rintro ⟨receiptId, receipt⟩ hmem
    simp [hi receiptId receipt (mem_toList_iff.1 hmem)]
  have hr : ledger.recoverProviderRateState asked =
      (.ok ⟨ledger.effective asked, 0, 0⟩,
        { ledger with floor := some (ledger.effective asked) }) := by
    refine transaction_of_ok (bind_eq_ok.2 ⟨(), (hs.with_floor _).validateAllProviderEpochs_ok, ?_⟩)
    show List.foldlM recoverReceipt _ ((ledger.receipts.toList.filter fun e =>
      isActive e.2.state).map Prod.fst) >>= _ = _
    rw [hids]
    rfl
  rw [hr]

/-! ## Pruning -/

theorem quiet_iff (ledger : QuotaLedger) (ep : Nat) :
    ledger.quiet ep = true ↔ ∀ (receiptId : Text) (receipt : StoredQuotaReceipt),
      ledger.receipts[receiptId]? = some receipt → receipt.epoch = ep →
        isActive receipt.state = false := by
  rw [quiet, hasActiveReceipt, Bool.not_eq_true', toList_any_eq_false]
  simp

theorem mem_fence_filter (fence : OrdSet Nat) (keep : Nat → Bool) (ep : Nat) :
    ep ∈ fence.filter keep ↔ ep ∈ fence ∧ keep ep = true := by
  rw [Std.ExtTreeSet.mem_filter]
  constructor
  · rintro ⟨hmem, hkeep⟩
    rw [Std.ExtTreeSet.get_eq] at hkeep
    exact ⟨hmem, hkeep⟩
  · rintro ⟨hmem, hkeep⟩
    refine ⟨hmem, ?_⟩
    rwa [Std.ExtTreeSet.get_eq]

theorem without_without (ledger : QuotaLedger) (gone gone' : Nat → Bool) :
    (ledger.without gone).without gone' = ledger.without fun ep => gone ep || gone' ep := by
  have hf : (ledger.fence.filter fun ep => !gone ep).filter (fun ep => !gone' ep) =
      ledger.fence.filter fun ep => !(gone ep || gone' ep) := by
    refine Std.ExtTreeSet.ext_mem fun ep => ?_
    rw [mem_fence_filter, mem_fence_filter, mem_fence_filter, and_assoc, Bool.not_or,
      Bool.and_eq_true]
  unfold without
  simp only [filter_filter, hf, Bool.not_or]

/-- Only the epochs that occur in the tables matter. -/
theorem without_congr {gone gone' : Nat → Bool} (h : ∀ ep ∈ ledger.epochs, gone ep = gone' ep) :
    ledger.without gone = ledger.without gone' := by
  have he : ∀ ep, ep ∈ ledger.epochs ↔
      (∃ e ∈ ledger.aggregates.toList, e.1.epoch = ep) ∨
      (∃ e ∈ ledger.receipts.toList, e.2.epoch = ep) ∨
      (∃ e ∈ ledger.refunded.toList, e.2 = ep) ∨ ep ∈ ledger.fence := by
    intro ep
    rw [epochs, List.mem_append, List.mem_append, List.mem_append, List.mem_map, List.mem_map,
      List.mem_map, Std.ExtTreeSet.mem_toList, or_assoc, or_assoc]
  have hr : ledger.receipts.filter (fun _ receipt => !gone receipt.epoch) =
      ledger.receipts.filter fun _ receipt => !gone' receipt.epoch := by
    refine filter_congr fun receiptId receipt hmem => ?_
    rw [h receipt.epoch ((he _).2 (.inr (.inl ⟨_, mem_toList_iff.2 hmem, rfl⟩)))]
  have ha : ledger.aggregates.filter (fun key _ => !gone key.epoch) =
      ledger.aggregates.filter fun key _ => !gone' key.epoch := by
    refine filter_congr fun key v hmem => ?_
    rw [h key.epoch ((he _).2 (.inl ⟨_, mem_toList_iff.2 hmem, rfl⟩))]
  have hre : ledger.refunded.filter (fun _ ep => !gone ep) =
      ledger.refunded.filter fun _ ep => !gone' ep := by
    refine filter_congr fun receiptId ep hmem => ?_
    rw [h ep ((he _).2 (.inr (.inr (.inl ⟨_, mem_toList_iff.2 hmem, rfl⟩))))]
  have hf : ledger.fence.filter (fun ep => !gone ep) =
      ledger.fence.filter fun ep => !gone' ep := by
    refine Std.ExtTreeSet.ext_mem fun ep => ?_
    rw [mem_fence_filter, mem_fence_filter]
    refine and_congr_right fun hmem => ?_
    rw [h ep ((he _).2 (.inr (.inr (.inr hmem))))]
  simp only [without, hr, ha, hre, hf]

theorem pruneEpoch_eq (pruned : Nat) (ledger : QuotaLedger) (ep : Nat) :
    (pruneEpoch (pruned, ledger) ep).2 =
      if ledger.quiet ep then ledger.without (· == ep) else ledger := by
  have hf : ledger.fence.erase ep = ledger.fence.filter fun o => !(o == ep) := by
    refine Std.ExtTreeSet.ext_mem fun o => ?_
    rw [mem_fence_filter, Std.ExtTreeSet.mem_erase, ne_eq, Std.LawfulEqOrd.compare_eq_iff_eq]
    simp only [Bool.not_eq_true', beq_eq_false_iff_ne, ne_eq]
    exact ⟨fun h => ⟨h.2, fun heq => h.1 heq.symm⟩, fun h => ⟨fun heq => h.2 heq.symm, h.1⟩⟩
  unfold pruneEpoch quiet
  cases h : ledger.hasActiveReceipt ep with
  | true => simp [h]
  | false =>
    simp only [h, Bool.false_eq_true, if_false, Bool.not_false, if_true, without, hf]
    rfl

/-- An epoch that stays is as active as before. -/
theorem quiet_without {gone : Nat → Bool} (hgone : ∀ ep, gone ep = true → ledger.quiet ep)
    (ep : Nat) : (ledger.without gone).quiet ep = ledger.quiet ep := by
  rw [Bool.eq_iff_iff, quiet_iff, quiet_iff]
  have hl : ∀ receiptId : Text, (ledger.without gone).receipts[receiptId]? =
      ledger.receipts[receiptId]?.filter fun receipt => !gone receipt.epoch :=
    fun receiptId => lookup_filter _ _ _
  constructor
  · intro h receiptId receipt hr he
    by_cases hg : gone receipt.epoch = true
    · exact (quiet_iff _ _).1 (hgone _ hg) receiptId receipt hr rfl
    · refine h receiptId receipt ?_ he
      rw [hl, hr, Option.filter_some, if_pos (by simpa using hg)]
  · intro h receiptId receipt hr he
    rw [hl, Option.filter_eq_some_iff] at hr
    exact h receiptId receipt hr.1 he

/-- The loop over the pruned epochs. -/
theorem foldl_pruneEpoch (ledger : QuotaLedger) (cands : List Nat) :
    (cands.foldl pruneEpoch (0, ledger)).2 =
      ledger.without fun ep => decide (ep ∈ cands) && ledger.quiet ep := by
  induction cands using List.reverseRecOn with
  | nil =>
    show ledger = ledger.without fun _ => false
    have hf : ledger.fence.filter (fun _ => true) = ledger.fence := by
      refine Std.ExtTreeSet.ext_mem fun ep => ?_
      simp
    simp only [without, Bool.not_false, hf, filter_true]
  | append_singleton cands ep ih =>
    obtain ⟨⟨pruned, mid⟩, hmid⟩ : ∃ state, state = cands.foldl pruneEpoch (0, ledger) :=
      ⟨_, rfl⟩
    have hmid' : mid = ledger.without fun ep =>
        decide (ep ∈ cands) && ledger.quiet ep := by rw [← ih, ← hmid]
    rw [List.foldl_append, List.foldl_cons, List.foldl_nil, ← hmid, pruneEpoch_eq, hmid',
      quiet_without (fun o ho => (Bool.and_eq_true_iff.1 ho).2), without_without]
    cases hq : ledger.quiet ep with
    | true =>
      rw [if_pos rfl]
      refine congrArg ledger.without (funext fun o => ?_)
      by_cases heq : o = ep
      · simp [heq, hq]
      · simp [heq]
    | false =>
      rw [if_neg Bool.false_ne_true]
      refine congrArg ledger.without (funext fun o => ?_)
      by_cases heq : o = ep
      · simp [heq, hq]
      · simp [heq]

/-- Whole epochs are deleted with their aggregates. -/
theorem Sound.without (hs : Sound ledger) (gone : Nat → Bool) : Sound (ledger.without gone) := by
  have hr : ∀ {receiptId : Text} {receipt : StoredQuotaReceipt},
      (ledger.without gone).receipts[receiptId]? = some receipt →
        ledger.receipts[receiptId]? = some receipt ∧ gone receipt.epoch = false := by
    intro receiptId receipt h
    have h' := (lookup_filter _ _ _).symm.trans h
    rw [Option.filter_eq_some_iff] at h'
    exact ⟨h'.1, by simpa using h'.2⟩
  have ha : ∀ key : ScopeEpoch, (ledger.without gone).aggregates[key]? =
      if gone key.epoch then none else ledger.aggregates[key]? := by
    intro key
    refine (lookup_filter _ _ _).trans ?_
    cases ledger.aggregates[key]? with
    | none => simp
    | some v => cases gone key.epoch <;> simp [Option.filter_some]
  refine ⟨fun receiptId receipt h => hs.wellFormed (hr h).1, ?_, ?_, ?_⟩
  · intro key _
    rw [ha]
    cases hgone : gone key.epoch with
    | true =>
      rintro ⟨receiptId, receipt, h, hc⟩
      have he := ((counts_iff receipt key).1 hc).1
      rw [← he, (hr h).2] at hgone
      cases hgone
    | false =>
      refine (hs.cached key).congr (receiptTally.total_filter ?_) ?_
      · intro receiptId receipt h hre
        refine if_neg fun hc => ?_
        rw [((counts_iff receipt key).1 hc).1, hgone] at hre
        cases hre
      · rintro ⟨receiptId, receipt, h, hc⟩
        exact ⟨receiptId, receipt, (hr h).1, hc⟩
  · intro key hkey
    obtain ⟨v, hv⟩ := exists_lookup hkey
    rw [ha] at hv
    split at hv
    · cases hv
    · exact hs.validKeys key (mem_of_lookup hv)
  · intro receiptId hmem hrf
    obtain ⟨receipt, h⟩ := exists_lookup hmem
    obtain ⟨ep, he⟩ := exists_lookup hrf
    have he' := (lookup_filter _ _ _).symm.trans he
    rw [Option.filter_eq_some_iff] at he'
    exact hs.disjoint receiptId (mem_of_lookup ((hr h).1)) (mem_of_lookup he'.1)

/-- Pruning succeeds in every sound ledger and deletes the quiet epochs before its bound. -/
theorem Sound.prune_eq (hs : Sound ledger) (bound : Nat) :
    ∃ pruned, ledger.pruneProviderRateEpochs bound = (.ok pruned,
      ledger.without fun ep => decide (ep < bound) && ledger.quiet ep) := by
  obtain ⟨cands, hc⟩ : ∃ cands, cands = (ledger.epochs.filter (· < bound)).dedup := ⟨_, rfl⟩
  have hsame : (ledger.without fun ep => decide (ep ∈ cands) && ledger.quiet ep) =
      ledger.without fun ep => decide (ep < bound) && ledger.quiet ep := by
    refine without_congr fun ep he => ?_
    have hmem : ep ∈ cands ↔ ep < bound := by
      rw [hc, List.mem_dedup, List.mem_filter]
      simp [he]
    simp only [hmem]
  refine ⟨(cands.foldl pruneEpoch (0, ledger)).1, transaction_of_ok ?_⟩
  refine bind_eq_ok.2 ⟨(), hs.validateAllProviderEpochs_ok, ?_⟩
  rw [← hc, ← hsame, ← foldl_pruneEpoch]
  rfl

theorem prune_step (hs : Sound ledger) (bound : Nat) :
    QuotaStep ledger (.prune bound) (ledger.pruneProviderRateEpochs bound).2 ∧
      Sound (ledger.pruneProviderRateEpochs bound).2 := by
  obtain ⟨pruned, hr⟩ := hs.prune_eq bound
  rw [hr]
  exact ⟨.pruned, Sound.without hs fun ep => decide (ep < bound) && ledger.quiet ep⟩

/-! ## Erasure -/

/-- The row of a scope is deleted by an erasure. -/
def erases (erased : Text → Bool) (scope : QuotaScopeKey) : Bool :=
  scope.kind == .cgroup && erased scope.id

variable {erased : Text → Bool} {cgroups : List Text}

/-- Where an erased scope lies below every other erased one, an erasure takes the rows of a receipt
from the leaf. -/
theorem filter_scopeRows (receipt : StoredQuotaReceipt)
    (hcl : cgroups.Pairwise fun outer inner => erased outer = true → erased inner = true) :
    ∃ count, (scopeRows receipt cgroups).filter (fun sc => !erases erased sc.key) =
      scopeRows receipt (cgroups.take count) := by
  have hrows : ∀ start, ∃ count,
      (((cgroups.map ofCgroup).zipIdx start).map fun pl =>
        scopeRow receipt pl.1 pl.2).filter (fun sc => !erases erased sc.key) =
      (((cgroups.take count).map ofCgroup).zipIdx start).map fun pl =>
        scopeRow receipt pl.1 pl.2 := by
    induction cgroups with
    | nil => exact fun start => ⟨0, rfl⟩
    | cons sid cgroups ih =>
      intro start
      obtain ⟨ho, hi⟩ := List.pairwise_cons.1 hcl
      cases hs : erased sid with
      | true =>
        refine ⟨0, List.filter_eq_nil_iff.2 ?_⟩
        intro row hrow
        obtain ⟨⟨key, order⟩, hp, rfl⟩ := List.mem_map.1 hrow
        obtain ⟨inner, hmem, rfl⟩ := List.mem_map.1 (List.fst_mem_of_mem_zipIdx hp)
        have he : erased inner = true := by
          rcases List.mem_cons.1 hmem with rfl | hmem
          · exact hs
          · exact ho inner hmem hs
        simp [scopeRow, erases, ofCgroup, he]
      | false =>
        obtain ⟨count, hc⟩ := ih hi (start + 1)
        refine ⟨count + 1, ?_⟩
        simp only [List.map_cons, List.zipIdx_cons, List.take_succ_cons]
        rw [List.filter_cons, if_pos (by simp [scopeRow, erases, ofCgroup, hs]), hc]
  obtain ⟨count, hc⟩ := hrows 1
  refine ⟨count, ?_⟩
  simp only [scopeRows, List.zipIdx_cons, List.map_cons]
  rw [List.filter_cons, if_pos (by simp [scopeRow, erases, providerGlobal])]
  exact congrArg _ hc

/-- The rows that an erasure leaves to a receipt. -/
def erasedReceipt (erased : Text → Bool) (receipt : StoredQuotaReceipt) : StoredQuotaReceipt :=
  { receipt with scopes := receipt.scopes.filter fun scope => !erases erased scope.key }

theorem mem_keys_erasedReceipt {sc : QuotaScopeKey} :
    sc ∈ (erasedReceipt erased receipt).keys ↔ sc ∈ receipt.keys ∧ erases erased sc = false := by
  simp only [erasedReceipt, StoredQuotaReceipt.keys, List.mem_map, List.mem_filter,
    Bool.not_eq_true']
  constructor
  · rintro ⟨row, ⟨hrow, he⟩, rfl⟩
    exact ⟨⟨row, hrow, rfl⟩, he⟩
  · rintro ⟨⟨row, hrow, rfl⟩, he⟩
    exact ⟨row, ⟨hrow, he⟩, rfl⟩

/-- An erasure takes scopes from the leaf, and the receipt stays well formed. -/
theorem erasedReceipt_wellFormed (hwf : receipt.WellFormed cgroups)
    (hc : cgroups.Pairwise fun outer inner => erased outer = true → erased inner = true) :
    ∃ count, (erasedReceipt erased receipt).WellFormed (cgroups.take count) := by
  obtain ⟨count, hcount⟩ := filter_scopeRows receipt hc
  have hsub : (cgroups.take count).Sublist cgroups := List.take_sublist count cgroups
  refine ⟨count, hwf.actual, ?_, hwf.distinct.sublist hsub, ?_, ?_, hwf.nested.sublist hsub, ?_⟩
  · rw [erasedReceipt, hwf.rows, hcount]
    rfl
  · intro sid hmem
    exact hwf.valid sid (hsub.subset hmem)
  · exact hsub.length_le.trans_lt hwf.length
  · intro sid hmem
    refine hwf.leaf sid ?_
    obtain ⟨rest, hrest⟩ := List.take_prefix count cgroups
    by_cases hnil : rest = []
    · rw [hnil, List.append_nil] at hrest
      rwa [hrest] at hmem
    · rw [← hrest, List.dropLast_append_of_ne_nil hnil]
      exact List.mem_append_left _ (List.mem_of_mem_dropLast hmem)

/-- An erasure of scopes that are closed downwards on every path keeps a ledger sound. -/
theorem Sound.eraseScopes (hs : Sound ledger)
    (hcl : ∀ cgroups : List Text,
      (cgroups.Pairwise fun outer inner => childPrefix outer <+: inner) →
      (∀ sid ∈ cgroups.dropLast, isAgentScope sid = false) →
      cgroups.Pairwise fun outer inner => erased outer = true → erased inner = true) :
    Sound (ledger.eraseScopes erased) := by
  have hre : ∀ receiptId : Text, (ledger.eraseScopes erased).receipts[receiptId]? =
      ledger.receipts[receiptId]?.map (erasedReceipt erased) :=
    fun receiptId => Std.ExtTreeMap.getElem?_map
  have ha : ∀ key : ScopeEpoch, (ledger.eraseScopes erased).aggregates[key]? =
      if erases erased key.scope then none else ledger.aggregates[key]? := by
    intro key
    refine (lookup_filter _ _ _).trans ?_
    show ledger.aggregates[key]?.filter (fun _ => !erases erased key.scope) = _
    cases ledger.aggregates[key]? with
    | none => simp
    | some v => cases erases erased key.scope <;> simp [Option.filter_some]
  have hwf' : ∀ (receiptId : Text) (receipt : StoredQuotaReceipt),
      ledger.receipts[receiptId]? = some receipt → ∃ cgroups cgroups',
        receipt.WellFormed cgroups ∧ (erasedReceipt erased receipt).WellFormed cgroups' := by
    intro receiptId receipt h
    obtain ⟨cgroups, hwf⟩ := hs.wellFormed h
    obtain ⟨count, hcount⟩ := erasedReceipt_wellFormed hwf (hcl cgroups hwf.nested hwf.leaf)
    exact ⟨cgroups, cgroups.take count, hwf, hcount⟩
  refine ⟨?_, ?_, ?_, ?_⟩
  · intro receiptId receipt' h
    rw [hre] at h
    obtain ⟨receipt, hr, rfl⟩ := Option.map_eq_some_iff.1 h
    obtain ⟨-, cgroups', -, hwf⟩ := hwf' receiptId receipt hr
    exact ⟨cgroups', hwf⟩
  · intro key _
    rw [ha]
    cases he : erases erased key.scope with
    | true =>
      rintro ⟨receiptId, receipt', h, hc⟩
      rw [hre] at h
      obtain ⟨receipt, -, rfl⟩ := Option.map_eq_some_iff.1 h
      have hkey := mem_keys_erasedReceipt.1 ((counts_iff _ key).1 hc).2
      rw [he] at hkey
      cases hkey.2
    | false =>
      refine (hs.cached key).congr (receiptTally.total_map ?_) ?_
      · intro receiptId receipt h
        obtain ⟨cgroups, cgroups', hwf, hwE⟩ := hwf' receiptId receipt h
        have hkeys : key.scope ∈ (erasedReceipt erased receipt).keys ↔
            key.scope ∈ receipt.keys := by simp [mem_keys_erasedReceipt, he]
        show receiptTally.share (erasedReceipt erased receipt) key = _
        rw [hwf.share_eq, hwE.share_eq]
        simp only [hkeys]
        rfl
      · rintro ⟨receiptId, receipt', h, hc⟩
        rw [hre] at h
        obtain ⟨receipt, hr, rfl⟩ := Option.map_eq_some_iff.1 h
        obtain ⟨hep, hkey⟩ := (counts_iff _ key).1 hc
        exact ⟨receiptId, receipt, hr,
          (counts_iff receipt key).2 ⟨hep, (mem_keys_erasedReceipt.1 hkey).1⟩⟩
  · intro key hkey
    obtain ⟨v, hv⟩ := exists_lookup hkey
    rw [ha] at hv
    split at hv
    · cases hv
    · exact hs.validKeys key (mem_of_lookup hv)
  · intro receiptId hmem
    obtain ⟨receipt', h⟩ := exists_lookup hmem
    rw [hre] at h
    obtain ⟨receipt, hr, rfl⟩ := Option.map_eq_some_iff.1 h
    exact hs.disjoint receiptId (mem_of_lookup hr)

theorem tenantScope_ne_root (tid : Text) : tenantScope tid ≠ ['/'] := by
  intro heq
  have hl : ("/tenant/".toList ++ quotaScopeSegment tid).length = 1 :=
    congrArg List.length heq
  have hli : "/tenant/".toList.length = 8 := by decide +kernel
  rw [List.length_append] at hl
  omega

/-- The scopes of a tenant are closed downwards. -/
theorem tenantScope_closed (tid : Text) {outer inner : Text} (hn : childPrefix outer <+: inner)
    (h : (outer == tenantScope tid || (tenantScope tid ++ ['/']).isPrefixOf outer) = true) :
    (inner == tenantScope tid || (tenantScope tid ++ ['/']).isPrefixOf inner) = true := by
  rw [Bool.or_eq_true, List.isPrefixOf_iff_prefix] at h ⊢
  refine .inr ?_
  rcases h with h | h
  · obtain rfl : outer = tenantScope tid := by simpa using h
    rwa [childPrefix, if_neg (tenantScope_ne_root tid)] at hn
  · refine h.trans (List.IsPrefix.trans ?_ hn)
    unfold childPrefix
    split
    · exact List.prefix_refl _
    · exact List.prefix_append _ _

/-- The scope that an agent's erasure deletes is an agent's own scope. -/
theorem isAgentScope_of_suffix {agentId : Uuid} {path : Text}
    (h : (agentScopeSuffix agentId).isSuffixOf path = true) : isAgentScope path = true := by
  obtain ⟨before, rfl⟩ := List.isSuffixOf_iff_suffix.1 h
  have hd : ∀ d, decide (hexChar d ≠ '/') = true := by decide
  have hs : ∀ c ∈ agentId.toString.reverse, decide (c ≠ '/') = true := by
    intro c hc
    rcases Uuid.mem_toString (List.mem_reverse.1 hc) with rfl | ⟨d, rfl⟩
    · decide
    · exact hd d
  have hlast : lastSegment (before ++ agentScopeSuffix agentId) = agentId.toString := by
    unfold lastSegment agentScopeSuffix
    have hr : (before ++ ("/agent/".toList ++ agentId.toString)).reverse =
        agentId.toString.reverse ++ '/' :: ("/agent".toList.reverse ++ before.reverse) := by
      simp
    rw [hr, List.takeWhile_append_of_pos hs]
    simp
  rw [isAgentScope, hlast]
  exact List.isSuffixOf_iff_suffix.2 (List.suffix_append _ _)

theorem pairwise_of_dropLast {p : Text → Bool} {l : List Text}
    (h : ∀ a ∈ l.dropLast, p a = false) : l.Pairwise fun a b => p a = true → p b = true := by
  induction l with
  | nil => exact .nil
  | cons a l ih =>
    cases l with
    | nil => simp
    | cons b l =>
      rw [List.dropLast_cons_of_ne_nil (by simp)] at h
      refine List.pairwise_cons.2 ⟨?_, ih fun c hc => h c (List.mem_cons_of_mem _ hc)⟩
      intro c _ ha
      rw [h a (by simp)] at ha
      cases ha

/-- An agent's erasure deletes at most the last scope of a path. -/
theorem agentScope_closed (agentId : Uuid)
    (hleaf : ∀ sid ∈ cgroups.dropLast, isAgentScope sid = false) :
    cgroups.Pairwise fun outer inner => (agentScopeSuffix agentId).isSuffixOf outer = true →
      (agentScopeSuffix agentId).isSuffixOf inner = true := by
  refine pairwise_of_dropLast fun sid hmem => Bool.eq_false_iff.2 fun he => ?_
  have ha := isAgentScope_of_suffix he
  rw [hleaf sid hmem] at ha
  cases ha

theorem Sound.eraseAgent (hs : Sound ledger) (agentId : Uuid) : Sound (ledger.eraseAgent agentId) :=
  eraseScopes hs fun _ _ hleaf => agentScope_closed agentId hleaf

theorem Sound.eraseTenant (hs : Sound ledger) (tid : Text) : Sound (ledger.eraseTenant tid) :=
  eraseScopes hs fun _ hn _ => hn.imp fun h => tenantScope_closed tid h

/-! ## Every call -/

/-- Every call is a step and keeps a sound ledger sound. -/
theorem call_step (hs : Sound ledger) (call : QuotaCall) :
    QuotaStep ledger call (ledger.call call).2 ∧ Sound (ledger.call call).2 := by
  cases call with
  | reserve req path => exact reserve_step hs req path
  | markInvoked receiptId => exact markInvoked_step hs receiptId
  | refund receiptId => exact refund_step hs receiptId
  | retain receiptId => exact retain_step hs receiptId
  | reconcile receiptId reqs tokens => exact reconcile_step hs receiptId reqs tokens
  | charge receiptId asked tokens => exact charge_step hs receiptId asked tokens
  | usage asked => exact usage_step hs asked
  | recover asked =>
    obtain ⟨recovery, ledger', hr, hso, hstep, -⟩ := hs.recover_eq asked
    simp only [call, hr]
    exact ⟨hstep, hso⟩
  | prune bound => exact prune_step hs bound
  | eraseAgent agentId => exact ⟨.agentErased, hs.eraseAgent agentId⟩
  | eraseTenant tid => exact ⟨.tenantErased, hs.eraseTenant tid⟩

theorem sound_empty (fl : Option Nat) (fence : OrdSet Nat) : Sound (.empty fl fence) := by
  refine ⟨?_, ?_, ?_, ?_⟩
  · intro receiptId receipt h
    simp [empty] at h
  · intro key _
    rw [show (empty fl fence).aggregates[key]? = none by simp [empty]]
    exact receiptTally.not_occupied_empty key
  · intro key h
    simp [empty] at h
  · intro receiptId h
    simp [empty] at h

/-- Every reachable ledger is sound. -/
theorem sound_runQuota (fl : Option Nat) (fence : OrdSet Nat) (cs : List QuotaCall) :
    Sound (runQuota (.empty fl fence) cs) :=
  run_invariant (sound_empty fl fence) (fun _ call hs => (call_step hs call).2) cs

end QuotaLedger

/-- In every reachable ledger each stored aggregate is the saturating sum of the contributions of
the receipts of its scope and epoch, and every scope of a receipt has one. So the consistency check
and recovery succeed, and neither a refund nor a reconciliation ever underflows an aggregate. -/
theorem aggregates_equal_receipts (floor : Option Nat) (fence : OrdSet Nat)
    (calls : List QuotaCall) :
    let ledger := runQuota (.empty floor fence) calls
    (∀ (key : ScopeEpoch) (value : Nat × Nat),
      ledger.aggregates[key]? = some value → value = ledger.saturatingSum key) ∧
    (∀ (receiptId : Text) (receipt : StoredQuotaReceipt), ∀ scope ∈ receipt.scopes,
      ledger.receipts[receiptId]? = some receipt →
        ⟨scope.key, receipt.epoch⟩ ∈ ledger.aggregates) ∧
    ledger.validateAllProviderEpochs = .ok () ∧
    (∀ requestedEpoch, ∃ recovery,
      (ledger.recoverProviderRateState requestedEpoch).1 = .ok recovery) ∧
    (∀ receiptId scope epoch dimension,
      (ledger.refundProviderRateBeforeInvocation receiptId).1 ≠
        .error (.aggregateUnderflow scope epoch dimension)) ∧
    ∀ receiptId actualRequests actualTokens scope epoch dimension,
      (ledger.reconcileProviderRateInner receiptId actualRequests actualTokens).1 ≠
        .error (.aggregateUnderflow scope epoch dimension) := by
  intro ledger
  have hs : ledger.Sound := QuotaLedger.sound_runQuota floor fence calls
  refine ⟨?_, ?_, hs.validateAllProviderEpochs_ok, ?_, ?_, ?_⟩
  · intro key value hvalue
    have hcached := hs.cached key
    rw [hvalue] at hcached
    rw [QuotaLedger.saturatingSum_eq]
    exact hcached
  · intro receiptId receipt scope hscope h
    have hplace : ⟨scope.key, receipt.epoch⟩ ∈ receipt.places :=
      List.mem_map.2 ⟨scope, hscope, rfl⟩
    exact OrdMap.mem_of_lookup (hs.aggregate_of_place h hplace)
  · intro requestedEpoch
    obtain ⟨recovery, ledger', hresult, -⟩ := hs.recover_eq requestedEpoch
    exact ⟨recovery, by rw [hresult]⟩
  · intro receiptId scope epoch dimension
    rcases hs.refund_cases receiptId with ⟨hresult, -⟩ | ⟨hresult, -⟩ | ⟨receipt, -, hcases⟩
    · simp [hresult]
    · simp [hresult]
    · rcases hcases with ⟨hresult, -⟩ | ⟨-, ledger', hresult, -⟩
      · simp [hresult]
      · simp [hresult]
  · intro receiptId actualRequests actualTokens scope epoch dimension
    rcases hs.reconcile_cases receiptId actualRequests actualTokens with
      ⟨e, hresult, hother⟩ | ⟨receipt, -, -, hcases⟩
    · rw [hresult]
      exact fun heq => hother scope epoch dimension (Except.error.inj heq)
    · rcases hcases with ⟨hresult, -⟩ | ⟨-, ledger', hresult, -⟩
      · simp [hresult]
      · simp [hresult]

end AgentOS
