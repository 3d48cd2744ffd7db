import AgentOS.Quota.Maintenance

/-!
# No window is overspent

The limits of the provider and of every cgroup scope are fixed. A history keeps, besides the ledger,
the receipts that pruning deleted. In every run of permitted calls what was admitted in an epoch,
stored or pruned, stays within the limits (`quota_windows_bounded`): admission reads exact totals,
every other call can only lower them, and an epoch that was pruned is below the floor and admits
nothing more.
-/

namespace AgentOS

open Lib CgroupQuotaConstraint QuotaLedger StoredQuotaReceipt

/-! ## Limits -/

/-- Fixed limits: positive values of the type `u64`. -/
structure QuotaLimits where
  (rpm tpm : Nat)
  cgroup : Text → Nat
  rpm_range : 0 < rpm ∧ rpm ≤ u64Max
  tpm_range : 0 < tpm ∧ tpm ≤ u64Max
  cgroup_range : ∀ scopeId, 0 < cgroup scopeId ∧ cgroup scopeId ≤ u64Max

namespace QuotaLimits

/-- The requests and tokens of a scope are within its limits. -/
def Allows (limits : QuotaLimits) (scope : QuotaScopeKey) (sum : Nat × Nat) : Prop :=
  match scope.kind with
  | .provider => sum.1 ≤ limits.rpm ∧ sum.2 ≤ limits.tpm
  | .cgroup => sum.2 ≤ limits.cgroup scope.id

/-- The call uses the limits, charges nothing directly, reports no more tokens than were reserved,
prunes nothing at or above the floor and erases nothing. -/
def Permits (limits : QuotaLimits) (ledger : QuotaLedger) : QuotaCall → Prop
  | .reserve request path =>
    request.rpm = limits.rpm ∧ request.tpm = limits.tpm ∧
      ∀ constraint ∈ path.constraints, constraint.tokenLimit = limits.cgroup constraint.scopeId
  | .reconcile receiptId _ actualTokens =>
    ∀ receipt, ledger.receipts[receiptId]? = some receipt → actualTokens ≤ receipt.reservedTokens
  | .prune beforeEpoch => beforeEpoch ≤ ledger.floor.getD 0
  | .markInvoked _ | .refund _ | .retain _ | .usage _ | .recover _ => True
  | .charge _ _ _ | .eraseAgent _ | .eraseTenant _ => False

theorem Allows.mono {limits : QuotaLimits} {sc : QuotaScopeKey} {sum sum' : Nat × Nat}
    (h : limits.Allows sc sum) (hle : sum' ≤ sum) : limits.Allows sc sum' := by
  unfold Allows at h ⊢
  cases hkind : sc.kind with
  | provider =>
    rw [hkind] at h
    exact ⟨hle.1.trans h.1, hle.2.trans h.2⟩
  | cgroup =>
    rw [hkind] at h
    exact hle.2.trans h

end QuotaLimits

/-- A limit that is set leaves enough exactly when the sum does not pass it. -/
theorem exceedsLimit_eq_false {limit used asked : Nat} (hl : 0 < limit) :
    exceedsLimit limit used asked = false ↔ used + asked ≤ limit := by
  have hne : limit ≠ 0 := Nat.ne_of_gt hl
  simp only [exceedsLimit, Bool.and_eq_false_iff, bne_eq_false_iff_eq, hne, false_or,
    Bool.or_eq_false_iff, decide_eq_false_iff_not, not_lt]
  omega

/-! ## Histories -/

/-- The receipts that a call prunes. -/
def QuotaLedger.prunedBy (ledger : QuotaLedger) : QuotaCall → List StoredQuotaReceipt
  | .prune beforeEpoch =>
    (ledger.receipts.toList.filter fun entry =>
      (ledger.pruneProviderRateEpochs beforeEpoch).2.receipts[entry.1]?.isNone).map Prod.snd
  | _ => []

/-- A ledger and the receipts that were pruned from it. -/
structure QuotaHistory where
  ledger : QuotaLedger
  pruned : List StoredQuotaReceipt

namespace QuotaHistory

/-- The history after a call. -/
def step (history : QuotaHistory) (call : QuotaCall) : QuotaHistory :=
  ⟨(history.ledger.call call).2, history.pruned ++ history.ledger.prunedBy call⟩

/-- What all receipts of a scope and epoch stand for, stored and pruned ones. -/
def spent (history : QuotaHistory) (key : ScopeEpoch) : Nat × Nat :=
  receiptTally.total history.ledger.receipts key +
    (history.pruned.map fun receipt => receiptTally.share receipt key).sum

/-- Everything spent is within the limits, and pruned epochs are closed. -/
structure Within (limits : QuotaLimits) (history : QuotaHistory) : Prop where
  sound : history.ledger.Sound
  closed : ∀ receipt ∈ history.pruned, receipt.epoch < history.ledger.floor.getD 0
  allowed : ∀ key, limits.Allows key.scope (history.spent key)

end QuotaHistory

/-- The history of a run of calls. -/
def runHistory (initial : QuotaLedger) (calls : List QuotaCall) : QuotaHistory :=
  run QuotaHistory.step ⟨initial, []⟩ calls

/-! ## One call -/

section Step

variable {limits : QuotaLimits} {ledger ledger' : QuotaLedger} {pruned : List StoredQuotaReceipt}
  {receipt : StoredQuotaReceipt} {cgroups : List Text}

theorem getD_le_of_advances {fl fl' : Option Nat} (h : Advances (· ≤ ·) fl fl') :
    fl.getD 0 ≤ fl'.getD 0 := by
  cases fl with
  | none => exact Nat.zero_le _
  | some ep =>
    obtain ⟨ep', rfl, hle⟩ := h.exists_of_some
    exact hle

/-- A call that lowers totals and advances the floor keeps the limits. -/
theorem QuotaHistory.Within.of_le (hw : QuotaHistory.Within limits ⟨ledger, pruned⟩)
    (hs : ledger'.Sound) (hf : Advances (· ≤ ·) ledger.floor ledger'.floor)
    (hle : ∀ key, receiptTally.total ledger'.receipts key ≤
      receiptTally.total ledger.receipts key) :
    QuotaHistory.Within limits ⟨ledger', pruned⟩ := by
  refine ⟨hs, ?_, ?_⟩
  · intro receipt hmem
    exact (hw.closed receipt hmem).trans_le (getD_le_of_advances hf)
  · intro key
    refine (hw.allowed key).mono ?_
    exact ⟨Nat.add_le_add_right (hle key).1 _, Nat.add_le_add_right (hle key).2 _⟩

theorem share_recoveredReceipt_le (hwf : receipt.WellFormed cgroups) {receipt' : StoredQuotaReceipt}
    (h : recoveredReceipt receipt = some receipt') (key : ScopeEpoch) :
    receiptTally.share receipt' key ≤ receiptTally.share receipt key := by
  unfold recoveredReceipt at h
  cases hs : receipt.state with
  | reserved => simp [hs] at h
  | inFlight =>
    obtain rfl : { receipt with state := .estimated } = receipt' := by simpa [hs] using h
    exact (hwf.share_with_state (by simp [hs]) (by simp) key).le
  | estimated | reconciled =>
    obtain rfl : receipt = receipt' := by simpa [hs] using h
    exact le_rfl

/-- Actual usage within the reservation lowers the contributions of a receipt. -/
theorem share_reconciledReceipt_le (hwf : receipt.WellFormed cgroups)
    (hs : receipt.state = .inFlight ∨ receipt.state = .estimated) {reqs tokens : Nat}
    (hr : reqs ≤ receipt.reservedRequests) (ht : tokens ≤ receipt.reservedTokens)
    (key : ScopeEpoch) :
    receiptTally.share (reconciledReceipt receipt reqs tokens) key ≤
      receiptTally.share receipt key := by
  have hc : receipt.charged = (receipt.reservedRequests, receipt.reservedTokens) := by
    unfold charged
    rcases hs with hs | hs
    · rw [hs]
    · rw [hs]
  have hwf' := reconciledReceipt_wellFormed hwf reqs tokens
  have hp := reconciledReceipt_places receipt reqs tokens
  by_cases hkey : key ∈ receipt.places
  · rw [hwf.share_place hkey, hwf'.share_place (hp ▸ hkey),
      contribution, contribution, hc]
    refine ⟨?_, ht⟩
    show scopeRequests key.scope.kind reqs ≤
      scopeRequests key.scope.kind receipt.reservedRequests
    cases key.scope.kind with
    | provider => exact hr
    | cgroup => exact le_rfl
  · rw [Tally.share, counts_eq_decide, hp, decide_eq_false hkey]
    exact ⟨Nat.zero_le _, Nat.zero_le _⟩

section

variable (hw : QuotaHistory.Within limits ⟨ledger, pruned⟩)
include hw

/-- Nothing was pruned from an epoch at or above the floor. -/
theorem QuotaHistory.Within.spent_open {key : ScopeEpoch} (he : ledger.floor.getD 0 ≤ key.epoch) :
    (pruned.map fun receipt => receiptTally.share receipt key).sum = 0 := by
  refine List.sum_eq_zero fun amount ha => ?_
  obtain ⟨receipt, hmem, rfl⟩ := List.mem_map.1 ha
  refine if_neg fun hc => ?_
  have hcl : receipt.epoch < ledger.floor.getD 0 := hw.closed receipt hmem
  have hsame := ((counts_iff receipt key).1 hc).1
  omega

/-- An admitted request fits into what the limits leave. -/
theorem QuotaHistory.Within.admitted {req : ProviderRateRequest} {path : CgroupPath}
    (hp : limits.Permits ledger (.reserve req path))
    (hfits : ledger.Fits req path.constraints (ledger.effective req.requestedEpoch))
    {key : ScopeEpoch}
    (hkey : key ∈ (reservedReceipt req (ledger.effective req.requestedEpoch)
      (path.constraints.map scopeId)).places) :
    limits.Allows key.scope
      ((scopeRequests key.scope.kind req.estimatedRequests, req.estimatedTokens) +
        receiptTally.total ledger.receipts key) := by
  obtain ⟨he, hs⟩ := mem_places.1 hkey
  obtain ⟨sc, ep⟩ := key
  obtain rfl : ledger.effective req.requestedEpoch = ep := he
  have hkeys : sc ∈ QuotaScopeKey.providerGlobal ::
      (path.constraints.map scopeId).map .ofCgroup := by
    rw [← map_key_scopeRows]
    exact hs
  -- nothing was pruned from the epoch, so the stored total is all that counts
  have hto : limits.Allows sc (receiptTally.total ledger.receipts
      ⟨sc, ledger.effective req.requestedEpoch⟩) := by
    have ha := hw.allowed ⟨sc, ledger.effective req.requestedEpoch⟩
    rwa [spent, hw.spent_open (Nat.le_max_left _ _), add_zero] at ha
  obtain ⟨hrpm, htpm, hcg⟩ := hp
  rcases List.mem_cons.1 hkeys with rfl | hcgr
  · have hr := hfits.requests
    have ht := hfits.tokens
    rw [hrpm, exceedsLimit_eq_false limits.rpm_range.1, hw.sound.used_eq] at hr
    rw [htpm, exceedsLimit_eq_false limits.tpm_range.1, hw.sound.used_eq] at ht
    have hrR := limits.rpm_range
    have htpR := limits.tpm_range
    obtain ⟨htR, htT⟩ := hto
    simp only [clamp] at hr ht
    show _ + _ ≤ limits.rpm ∧ _ + _ ≤ limits.tpm
    simp only [scopeRequests, QuotaScopeKey.providerGlobal] at *
    omega
  · obtain ⟨sid, hmem, rfl⟩ := List.mem_map.1 hcgr
    obtain ⟨cst, hc, rfl⟩ := List.mem_map.1 hmem
    have ht := hfits.cgroups cst hc
    have hra := limits.cgroup_range cst.scopeId
    rw [hcg cst hc, exceedsLimit_eq_false hra.1, hw.sound.used_eq] at ht
    have htT : (receiptTally.total ledger.receipts ⟨.ofCgroup cst.scopeId,
      ledger.effective req.requestedEpoch⟩).2 ≤ limits.cgroup cst.scopeId := hto
    simp only [clamp] at ht
    show _ + _ ≤ limits.cgroup cst.scopeId
    omega

/-- A call that prunes nothing keeps the limits. -/
theorem QuotaHistory.Within.of_step
    {call : QuotaCall} (hp : limits.Permits ledger call) (hstep : QuotaStep ledger call ledger')
    (hs : ledger'.Sound) : QuotaHistory.Within limits ⟨ledger', pruned⟩ := by
  cases hstep with
  | kept hf => exact hw.of_le hs hf fun _ => le_rfl
  | @admitted request path aggregates hnew hrf hfits =>
    refine ⟨hs, ?_, ?_⟩
    · intro receipt hmem
      exact (hw.closed receipt hmem).trans_le (getD_le_of_advances (advances_effective _))
    · intro key
      obtain ⟨cgroups, hwf⟩ := hs.wellFormed (OrdMap.lookup_insert_self _ _ _)
      rw [spent, receiptTally.total_insert_of_none hnew]
      by_cases hkey : key ∈ (reservedReceipt request (ledger.effective request.requestedEpoch)
          (path.constraints.map scopeId)).places
      · have hopen : ledger.floor.getD 0 ≤ key.epoch := by
          rw [← (mem_places.1 hkey).1]
          exact Nat.le_max_left _ _
        rw [hw.spent_open hopen, add_zero, hwf.share_place hkey]
        exact hw.admitted hp hfits hkey
      · rw [Tally.share, counts_eq_decide, decide_eq_false hkey]
        simpa [spent] using hw.allowed key
  | charged | agentErased | tenantErased => exact hp.elim
  | invoked hr hst | retained hr hst =>
    obtain ⟨cgroups, hwf⟩ := hw.sound.wellFormed hr
    refine hw.of_le hs (Advances.refl Nat.le_refl _) fun key => ?_
    exact receiptTally.total_insert_le hr (hwf.share_with_state (by simp [hst]) (by simp) key).le
  | reconciled hr hst hra =>
    obtain ⟨cgroups, hwf⟩ := hw.sound.wellFormed hr
    refine hw.of_le hs (Advances.refl Nat.le_refl _) fun key => ?_
    exact receiptTally.total_insert_le hr (share_reconciledReceipt_le hwf hst hra (hp _ hr) key)
  | refunded hr hst =>
    refine hw.of_le hs (Advances.refl Nat.le_refl _) fun key => ?_
    exact receiptTally.total_erase_le _ _ key
  | recovered hrc hrf =>
    refine hw.of_le hs (advances_effective _) fun key => ?_
    refine receiptTally.total_le fun rid receipt' h => ?_
    rw [hrc] at h
    obtain ⟨receipt, hr, hre⟩ := Option.bind_eq_some_iff.1 h
    obtain ⟨cgroups, hwf⟩ := hw.sound.wellFormed hr
    exact ⟨receipt, hr, share_recoveredReceipt_le hwf hre key⟩
  | pruned =>
    refine hw.of_le hs (Advances.refl Nat.le_refl _) fun key => ?_
    refine receiptTally.total_le fun rid receipt h => ?_
    have h' := (OrdMap.lookup_filter _ _ _).symm.trans h
    exact ⟨receipt, (Option.filter_eq_some_iff.1 h').1, le_rfl⟩

/-- Pruning moves receipts of closed epochs out of the ledger. -/
theorem QuotaHistory.Within.of_prune {bound : Nat} (hpe : limits.Permits ledger (.prune bound)) :
    QuotaHistory.Within limits (step ⟨ledger, pruned⟩ (.prune bound)) := by
  obtain ⟨count, hr⟩ := hw.sound.prune_eq bound
  obtain ⟨gone, hgone⟩ : ∃ gone : Nat → Bool, gone =
    fun ep => decide (ep < bound) && ledger.quiet ep := ⟨_, rfl⟩
  rw [← hgone] at hr
  have hl : (ledger.pruneProviderRateEpochs bound).2 = ledger.without gone := by rw [hr]
  have hp : ledger.prunedBy (.prune bound) =
      (ledger.receipts.toList.filter fun e => !!gone e.2.epoch).map Prod.snd := by
    rw [prunedBy, hl]
    refine congrArg (List.map Prod.snd) (List.filter_congr ?_)
    rintro ⟨rid, receipt⟩ hmem
    show ((ledger.receipts.filter fun _ receipt => !gone receipt.epoch)[rid]?).isNone = _
    rw [OrdMap.lookup_filter, OrdMap.mem_toList_iff.1 hmem, Option.filter_some]
    cases gone receipt.epoch with
    | true => rfl
    | false => rfl
  refine ⟨(prune_step hw.sound bound).2, ?_, ?_⟩
  · intro receipt hmem
    show receipt.epoch < (ledger.pruneProviderRateEpochs bound).2.floor.getD 0
    rw [hl]
    rcases List.mem_append.1 hmem with hmem | hmem
    · exact hw.closed receipt hmem
    · rw [hp] at hmem
      obtain ⟨e, hen, rfl⟩ := List.mem_map.1 hmem
      have he := (List.mem_filter.1 hen).2
      rw [Bool.not_not, hgone, Bool.and_eq_true, decide_eq_true_iff] at he
      exact he.1.trans_le hpe
  · intro key
    refine (hw.allowed key).mono (le_of_eq ?_)
    have ht := receiptTally.total_filter_add ledger.receipts
      (fun _ receipt => !gone receipt.epoch) key
    show receiptTally.total (ledger.pruneProviderRateEpochs bound).2.receipts key +
      ((pruned ++ ledger.prunedBy (.prune bound)).map fun receipt =>
        receiptTally.share receipt key).sum = _
    rw [hl, hp, List.map_append, List.sum_append, List.map_map, spent,
      ← ht, add_assoc, add_comm (List.sum _) (List.sum _)]
    rfl

end

theorem QuotaHistory.Within.step {history : QuotaHistory} (hw : history.Within limits)
    {call : QuotaCall} (hp : limits.Permits history.ledger call) :
    (history.step call).Within limits := by
  obtain ⟨ledger, pruned⟩ := history
  obtain ⟨hstep, hs⟩ := QuotaLedger.call_step hw.sound call
  have hkeep := hw.of_step hp hstep hs
  cases call with
  | prune bound => exact hw.of_prune hp
  | charge rid asked tokens | eraseAgent agentId | eraseTenant tid => exact hp.elim
  | _ => simpa [QuotaHistory.step, QuotaLedger.prunedBy] using hkeep

end Step

/-! ## Every run -/

theorem QuotaHistory.within_initial (limits : QuotaLimits) (fl : Option Nat)
    (fence : OrdSet Nat) : QuotaHistory.Within limits ⟨.empty fl fence, []⟩ := by
  refine ⟨sound_empty fl fence, by simp, ?_⟩
  intro key
  have he : receiptTally.total (empty fl fence).receipts key = 0 :=
    receiptTally.total_eq_zero (receiptTally.not_occupied_empty key)
  have hzero : spent ⟨.empty fl fence, []⟩ key = 0 := by
    rw [spent, he]
    rfl
  rw [hzero]
  unfold QuotaLimits.Allows
  cases key.scope.kind with
  | provider => exact ⟨Nat.zero_le _, Nat.zero_le _⟩
  | cgroup => exact Nat.zero_le _

/-- A denied reservation writes no table. -/
theorem QuotaLedger.Sound.denied_keeps {ledger : QuotaLedger} (hs : ledger.Sound)
    {req : ProviderRateRequest} {path : CgroupPath} {ep : Nat} {sc : QuotaScopeKey}
    {dim : ProviderRateLimitDimension} {used asked limit : Nat}
    (hd : (ledger.reserve req path.constraints).1 = .ok (.denied ep sc dim used asked limit)) :
    ∃ floor, (ledger.reserve req path.constraints).2 = { ledger with floor } := by
  cases h : ledger.receipts[req.receiptId]? with
  | some receipt =>
    obtain ⟨floor, -, hkept⟩ := hs.reserve_of_some path.constraints h
    exact ⟨floor, hkept⟩
  | none =>
    rcases hs.reserve_of_none path h with ⟨e, he⟩ | hkept | ha
    · rw [he]
      exact ⟨ledger.floor, rfl⟩
    · obtain ⟨_, _, _, _, _, _, hr⟩ := hkept
      rw [hr]
      exact ⟨_, rfl⟩
    · obtain ⟨_, ledger', -, -, -, -, hr, -⟩ := ha
      rw [hr] at hd
      cases hd

/-- In every run of permitted calls, what was admitted in an epoch stays within the limits of the
provider and of every cgroup scope, and a denied reservation changes neither receipts nor scope rows
nor aggregates. -/
theorem quota_windows_bounded (limits : QuotaLimits) (floor : Option Nat) (fence : OrdSet Nat)
    (calls : List QuotaCall)
    (hcalls : EachAfter (fun pre call =>
      limits.Permits (runHistory (.empty floor fence) pre).ledger call) calls) :
    let history := runHistory (.empty floor fence) calls
    (∀ epoch,
      (history.spent ⟨.providerGlobal, epoch⟩).1 ≤ limits.rpm ∧
      (history.spent ⟨.providerGlobal, epoch⟩).2 ≤ limits.tpm ∧
      ∀ scopeId, (history.spent ⟨.ofCgroup scopeId, epoch⟩).2 ≤ limits.cgroup scopeId) ∧
    ∀ (request : ProviderRateRequest) (path : CgroupPath) (epoch : Nat) (scope : QuotaScopeKey)
      (dimension : ProviderRateLimitDimension) (used requested limit : Nat),
      (history.ledger.reserve request path.constraints).1 =
        .ok (.denied epoch scope dimension used requested limit) →
      (history.ledger.reserve request path.constraints).2.receipts = history.ledger.receipts ∧
      (history.ledger.reserve request path.constraints).2.aggregates =
        history.ledger.aggregates ∧
      (history.ledger.reserve request path.constraints).2.refunded = history.ledger.refunded := by
  intro history
  have hwithin : history.Within limits :=
    run_invariant_of (QuotaHistory.Within limits)
      (fun history call => limits.Permits history.ledger call)
      (QuotaHistory.within_initial limits floor fence)
      (fun _ _ hw hpermit => hw.step hpermit) hcalls
  refine ⟨?_, ?_⟩
  · intro epoch
    obtain ⟨hrequests, htokens⟩ := hwithin.allowed ⟨.providerGlobal, epoch⟩
    exact ⟨hrequests, htokens, fun scopeId => hwithin.allowed ⟨.ofCgroup scopeId, epoch⟩⟩
  · intro request path epoch scope dimension used requested limit hdenied
    obtain ⟨floor', hledger⟩ := hwithin.sound.denied_keeps hdenied
    rw [hledger]
    exact ⟨rfl, rfl, rfl⟩

/-- Sample limits: two requests and a hundred tokens, sixty tokens for each cgroup. -/
def Sample.quotaLimits : QuotaLimits where
  rpm := 2
  tpm := 100
  cgroup := fun _ => 60
  rpm_range := by decide
  tpm_range := by decide
  cgroup_range := fun _ => by decide

/-- A sample path with a root and a tenant. -/
def Sample.quotaPath : CgroupPath where
  constraints := [⟨"/".toList, 60⟩, ⟨"/tenant/a".toList, 60⟩]
  nested := by decide +kernel
  leaf := by decide +kernel

/-- A sample request for one call and forty tokens. -/
def Sample.quotaRequest (receiptId : Text) : ProviderRateRequest := ⟨receiptId, 7, 2, 100, 1, 40⟩

/-- Two siblings that share a tenant: the second one is denied until the first one reports less than
it reserved. -/
def Sample.quotaCalls : List QuotaCall :=
  [.reserve (Sample.quotaRequest (Sample.uuid 'a')) Sample.quotaPath,
    .reserve (Sample.quotaRequest (Sample.uuid 'b')) Sample.quotaPath,
    .markInvoked (Sample.uuid 'a'),
    .reconcile (Sample.uuid 'a') none 5,
    .reserve (Sample.quotaRequest (Sample.uuid 'b')) Sample.quotaPath]

set_option maxRecDepth 100000 in
theorem quota_windows_bounded_sample :
    ((runHistory (.empty none ∅) Sample.quotaCalls).spent
      ⟨.ofCgroup "/tenant/a".toList, 7⟩).2 = 45 ∧
    ((runHistory (.empty none ∅) Sample.quotaCalls).spent ⟨.providerGlobal, 7⟩).1 ≤ 2 := by
  have hreserve : ∀ receiptId ledger, Sample.quotaLimits.Permits ledger
      (.reserve (Sample.quotaRequest receiptId) Sample.quotaPath) := by
    intro receiptId ledger
    exact ⟨rfl, rfl, by decide +kernel⟩
  have hstored : ((runHistory (.empty none ∅) (Sample.quotaCalls.take 3)).ledger.receipts[
      Sample.uuid 'a']?).map StoredQuotaReceipt.reservedTokens = some 40 := by decide +kernel
  refine ⟨by decide +kernel, ?_⟩
  refine ((quota_windows_bounded Sample.quotaLimits none ∅ Sample.quotaCalls ?_).1 7).1
  refine eachAfter_cons.2 ⟨hreserve _ _, eachAfter_cons.2 ⟨hreserve _ _, eachAfter_cons.2
    ⟨trivial, eachAfter_cons.2 ⟨?_, eachAfter_cons.2 ⟨hreserve _ _, eachAfter_nil⟩⟩⟩⟩⟩
  intro receipt hreceipt
  have htokens : receipt.reservedTokens = 40 := by
    have hmap := congrArg (Option.map StoredQuotaReceipt.reservedTokens) hreceipt
    exact Option.some.inj (hmap.symm.trans hstored)
  omega

end AgentOS
