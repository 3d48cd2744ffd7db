import AgentOS.Quota.Receipts

/-!
# What a ledger call does

`QuotaStep` lists everything that a call can do to the tables of a sound ledger, apart from the
aggregates, which are determined by soundness. Each call on one receipt is shown to be such a step
and to keep the ledger sound.
-/

namespace AgentOS

open Lib CgroupQuotaConstraint

variable {receipt : StoredQuotaReceipt}

namespace QuotaLedger

/-! ## Steps -/

/-- The receipt after a recovery. -/
def recoveredReceipt (receipt : StoredQuotaReceipt) : Option StoredQuotaReceipt :=
  match receipt.state with
  | .reserved => none
  | .inFlight => some { receipt with state := .estimated }
  | .estimated | .reconciled => some receipt

/-- The tombstone of an identifier after a recovery. -/
def recoveredTombstone (refunded : Option Nat) : Option StoredQuotaReceipt → Option Nat
  | some receipt => if receipt.state = .reserved then some receipt.epoch else refunded
  | none => refunded

theorem recoveredReceipt_of_inactive (h : isActive receipt.state = false) :
    recoveredReceipt receipt = some receipt := by
  unfold recoveredReceipt
  cases hst : receipt.state with
  | reserved | inFlight => simp [isActive, hst] at h
  | estimated => rfl
  | reconciled => rfl

theorem recoveredTombstone_of_inactive (refunded : Option Nat)
    (h : isActive receipt.state = false) :
    recoveredTombstone refunded (some receipt) = refunded := by
  refine if_neg fun hst => ?_
  simp [isActive, hst] at h

/-- No receipt of the epoch is active. -/
def quiet (ledger : QuotaLedger) (epoch : Nat) : Bool := !ledger.hasActiveReceipt epoch

/-- The tables without the rows of some epochs. -/
def without (ledger : QuotaLedger) (gone : Nat → Bool) : QuotaLedger :=
  { ledger with
    receipts := ledger.receipts.filter fun _ receipt => !gone receipt.epoch
    aggregates := ledger.aggregates.filter fun key _ => !gone key.epoch
    refunded := ledger.refunded.filter fun _ epoch => !gone epoch
    fence := ledger.fence.filter fun epoch => !gone epoch }

/-- The epoch of a request. -/
def effective (ledger : QuotaLedger) (requestedEpoch : Nat) : Nat :=
  max (ledger.floor.getD 0) requestedEpoch

/-- The limits of a request leave enough in its epoch. -/
structure Fits (ledger : QuotaLedger) (request : ProviderRateRequest)
    (constraints : List CgroupQuotaConstraint) (epoch : Nat) : Prop where
  requests : exceedsLimit request.rpm (ledger.used ⟨.providerGlobal, epoch⟩).1
    request.estimatedRequests = false
  tokens : exceedsLimit request.tpm (ledger.used ⟨.providerGlobal, epoch⟩).2
    request.estimatedTokens = false
  cgroups : ∀ constraint ∈ constraints,
    exceedsLimit constraint.tokenLimit (ledger.used ⟨.ofCgroup constraint.scopeId, epoch⟩).2
      request.estimatedTokens = false

end QuotaLedger

open QuotaLedger in
/-- What a call does to the tables. Where it writes aggregates, they follow from the receipts. -/
inductive QuotaStep (ledger : QuotaLedger) : QuotaCall → QuotaLedger → Prop where
  | kept {call : QuotaCall} {floor : Option Nat} (hfloor : Advances (· ≤ ·) ledger.floor floor) :
      QuotaStep ledger call { ledger with floor }
  | admitted {request : ProviderRateRequest} {path : CgroupPath}
      {aggregates : OrdMap ScopeEpoch (Nat × Nat)}
      (hnew : ledger.receipts[request.receiptId]? = none)
      (hrefunded : request.receiptId ∉ ledger.refunded)
      (hfits : ledger.Fits request path.constraints (ledger.effective request.requestedEpoch)) :
      QuotaStep ledger (.reserve request path) { ledger with
        receipts := ledger.receipts.insert request.receiptId
          (reservedReceipt request (ledger.effective request.requestedEpoch)
            (path.constraints.map CgroupQuotaConstraint.scopeId))
        floor := some (ledger.effective request.requestedEpoch)
        aggregates }
  | charged {receiptId : Text} {requestedEpoch tokens : Nat}
      {aggregates : OrdMap ScopeEpoch (Nat × Nat)}
      (hnew : ledger.receipts[receiptId]? = none) (hrefunded : receiptId ∉ ledger.refunded) :
      QuotaStep ledger (.charge receiptId requestedEpoch tokens) { ledger with
        receipts := ledger.receipts.insert receiptId
          (chargedReceipt (ledger.effective requestedEpoch) tokens)
        floor := some (ledger.effective requestedEpoch)
        aggregates }
  | invoked {receiptId : Text} {receipt : StoredQuotaReceipt}
      (hreceipt : ledger.receipts[receiptId]? = some receipt)
      (hstate : receipt.state = .reserved) :
      QuotaStep ledger (.markInvoked receiptId) (ledger.setState receiptId receipt .inFlight)
  | retained {receiptId : Text} {receipt : StoredQuotaReceipt}
      (hreceipt : ledger.receipts[receiptId]? = some receipt)
      (hstate : receipt.state = .inFlight) :
      QuotaStep ledger (.retain receiptId) (ledger.setState receiptId receipt .estimated)
  | reconciled {receiptId : Text} {receipt : StoredQuotaReceipt} {actualRequests : Option Nat}
      {actualTokens : Nat} {aggregates : OrdMap ScopeEpoch (Nat × Nat)}
      (hreceipt : ledger.receipts[receiptId]? = some receipt)
      (hstate : receipt.state = .inFlight ∨ receipt.state = .estimated)
      (hrange : actualRequests.getD receipt.reservedRequests ≤ receipt.reservedRequests) :
      QuotaStep ledger (.reconcile receiptId actualRequests actualTokens) { ledger with
        receipts := ledger.receipts.insert receiptId
          (reconciledReceipt receipt (actualRequests.getD receipt.reservedRequests) actualTokens)
        aggregates }
  | refunded {receiptId : Text} {receipt : StoredQuotaReceipt}
      {aggregates : OrdMap ScopeEpoch (Nat × Nat)}
      (hreceipt : ledger.receipts[receiptId]? = some receipt)
      (hstate : receipt.state = .reserved) :
      QuotaStep ledger (.refund receiptId) { ledger with
        refunded := ledger.refunded.insert receiptId receipt.epoch
        receipts := ledger.receipts.erase receiptId
        aggregates }
  | recovered {requestedEpoch : Nat} {receipts : OrdMap Text StoredQuotaReceipt}
      {refunded : OrdMap Text Nat} {aggregates : OrdMap ScopeEpoch (Nat × Nat)}
      (hreceipts : ∀ receiptId : Text,
        receipts[receiptId]? = ledger.receipts[receiptId]?.bind recoveredReceipt)
      (hrefunded : ∀ receiptId : Text, refunded[receiptId]? =
        recoveredTombstone ledger.refunded[receiptId]? ledger.receipts[receiptId]?) :
      QuotaStep ledger (.recover requestedEpoch) { ledger with
        receipts, refunded
        floor := some (ledger.effective requestedEpoch)
        aggregates }
  | pruned {beforeEpoch : Nat} :
      QuotaStep ledger (.prune beforeEpoch)
        (ledger.without fun epoch => epoch < beforeEpoch && ledger.quiet epoch)
  | agentErased {agentId : Uuid} :
    QuotaStep ledger (.eraseAgent agentId) (ledger.eraseAgent agentId)
  | tenantErased {tenantId : Text} :
      QuotaStep ledger (.eraseTenant tenantId) (ledger.eraseTenant tenantId)

theorem QuotaStep.same {ledger : QuotaLedger} {call : QuotaCall} : QuotaStep ledger call ledger :=
  .kept (Advances.refl Nat.le_refl _)

namespace QuotaLedger

variable {ledger : QuotaLedger} {receiptId : Text} {receipt : StoredQuotaReceipt}

theorem advances_effective (asked : Nat) :
    Advances (· ≤ ·) ledger.floor (some (ledger.effective asked)) := by
  unfold effective
  cases ledger.floor with
  | none => trivial
  | some fl => exact Nat.le_max_left _ _

theorem Sound.with_floor (hs : Sound ledger) (floor : Option Nat) : Sound { ledger with floor } :=
  ⟨fun _ _ h => hs.wellFormed h, fun key _ => hs.cached key, hs.validKeys, hs.disjoint⟩

/-! ## Reservations -/

variable {constraints : List CgroupQuotaConstraint}

theorem checkConstraints_ok {seen : List Text}
    (h : constraints.foldlM checkConstraint [] = .ok seen) :
    (∀ cst ∈ constraints, validateQuotaScopeKey (.ofCgroup cst.scopeId) = .ok ()) ∧
      (constraints.map scopeId).Nodup := by
  have hr : ∀ seen cst seen', checkConstraint seen cst = .ok seen' ↔
      (validateQuotaScopeKey (.ofCgroup cst.scopeId) = .ok () ∧ cst.scopeId ∉ seen) ∧
        cst.scopeId :: seen = seen' := by
    intro seen cst seen'
    simp only [checkConstraint, bind_eq_ok, rejectIf_eq_ok, pure_eq_ok]
    constructor
    · rintro ⟨_, hv, _, hf, heq⟩
      exact ⟨⟨hv, hf⟩, heq⟩
    · rintro ⟨⟨hv, hf⟩, heq⟩
      exact ⟨(), hv, (), hf, heq⟩
  have hseen : ∀ pre : List CgroupQuotaConstraint,
      pre.foldl (fun seen cst => cst.scopeId :: seen) [] =
        (pre.map scopeId).reverse := by
    intro pre
    induction pre using List.reverseRecOn with
    | nil => rfl
    | append_singleton pre cst ih => simp [ih]
  obtain ⟨heach, -⟩ := (foldlM_eq_ok_iff hr [] constraints seen).1 h
  obtain ⟨hv, hf⟩ := EachAfter.and_iff.1 heach
  refine ⟨eachAfter_iff_forall_mem.1 hv, ?_⟩
  refine List.pairwise_map.2 (eachAfter_iff_pairwise.1 (hf.mono ?_))
  intro pre cst _ hnew prior he heq
  rw [hseen, List.mem_reverse] at hnew
  exact hnew (List.mem_map.2 ⟨prior, he, heq⟩)

variable {request : ProviderRateRequest}

theorem deniedBy_eq_none {ep : Nat} :
    deniedBy request ep (ledger.used ⟨.providerGlobal, ep⟩) (constraints.map fun cst =>
          (cst, ledger.used ⟨.ofCgroup cst.scopeId, ep⟩)) = none ↔
      ledger.Fits request constraints ep := by
  unfold deniedBy
  split
  · next h =>
    refine ⟨fun hnone => absurd hnone (by simp), fun hfits => ?_⟩
    rw [hfits.requests] at h
    exact absurd h (by simp)
  · next hr =>
    split
    · next h =>
      refine ⟨fun hnone => absurd hnone (by simp), fun hfits => ?_⟩
      rw [hfits.tokens] at h
      exact absurd h (by simp)
    · next ht =>
      rw [List.findSome?_eq_none_iff]
      simp only [List.forall_mem_map, ite_eq_right_iff, reduceCtorEq, imp_false,
        Bool.not_eq_true]
      exact ⟨fun h => ⟨Bool.eq_false_iff.2 hr, Bool.eq_false_iff.2 ht, h⟩,
        fun hfits => hfits.cgroups⟩

theorem denied_of_deniedBy {ep : Nat} {us : Nat × Nat}
    {cgroupUsages : List (CgroupQuotaConstraint × (Nat × Nat))} {out : ProviderRateReserveOutcome}
    (h : deniedBy request ep us cgroupUsages = some out) :
    ∃ ep sc dim used asked limit, out = .denied ep sc dim used asked limit := by
  unfold deniedBy at h
  split at h
  · cases h
    exact ⟨_, _, _, _, _, _, rfl⟩
  · split at h
    · cases h
      exact ⟨_, _, _, _, _, _, rfl⟩
    · obtain ⟨usage, -, hd⟩ := List.exists_of_findSome?_eq_some h
      simp only at hd
      split at hd
      · cases hd
        exact ⟨_, _, _, _, _, _, rfl⟩
      · cases hd

/-- The checks of a request, and the shape of its path, make its receipt well formed. -/
theorem reservedReceipt_wellFormed (request : ProviderRateRequest) (ep : Nat)
    (hv : ∀ cst ∈ constraints, validateQuotaScopeKey (.ofCgroup cst.scopeId) = .ok ())
    (hd : (constraints.map scopeId).Nodup) (hl : ¬ u32Max ≤ constraints.length)
    (hn : (constraints.map scopeId).Pairwise fun outer inner => childPrefix outer <+: inner)
    (hleaf : ∀ sid ∈ (constraints.map scopeId).dropLast, isAgentScope sid = false) :
    (reservedReceipt request ep (constraints.map scopeId)).WellFormed
      (constraints.map scopeId) := by
  refine ⟨by simp [checkActualUsage, reservedReceipt], rfl, hd, ?_, ?_, hn, hleaf⟩
  · intro sid hsI
    obtain ⟨cst, hc, rfl⟩ := List.mem_map.1 hsI
    exact hv cst hc
  · rw [List.length_map]
    omega

/-- A clamped total after one more contribution. -/
theorem saturatingAdd_clamp (total amount : Nat × Nat) :
    (saturatingAdd (clamp u64Max total).1 amount.1, saturatingAdd (clamp u64Max total).2 amount.2) =
      clamp u64Max (amount + total) := by
  simp only [clamp, saturatingAdd, Prod.fst_add, Prod.snd_add, Prod.mk.injEq]
  omega

theorem saturatingAdd_clamp_zero (total : Nat × Nat) (tokens : Nat) :
    ((clamp u64Max total).1, saturatingAdd (clamp u64Max total).2 tokens) =
      clamp u64Max ((0, tokens) + total) := by
  rw [← saturatingAdd_clamp]
  simp [clamp, saturatingAdd]

section

variable (hs : Sound ledger)
include hs

/-- What an admitted request writes. -/
theorem admitReservation_refreshed {ep : Nat} (hnew : ledger.receipts[request.receiptId]? = none)
    (hr : receipt =
      reservedReceipt request ep (constraints.map scopeId))
    (hwf : receipt.WellFormed (constraints.map scopeId)) :
    ∃ ledger', { ledger with floor := some ep }.admitReservation request ep
        (ledger.used ⟨.providerGlobal, ep⟩)
        (constraints.map fun cst =>
          (cst, ledger.used ⟨.ofCgroup cst.scopeId, ep⟩)) =
          .ok (.reserved ⟨request.receiptId, ep, request.estimatedRequests,
            request.estimatedTokens, .reserved, constraints.map scopeId⟩,
            ledger') ∧
      Refreshed { ledger with
        receipts := ledger.receipts.insert request.receiptId receipt, floor := some ep }
        receipt.places ledger' := by
  obtain ⟨base, hbase⟩ : ∃ base : QuotaLedger, base = { ledger with
    receipts := ledger.receipts.insert request.receiptId receipt, floor := some ep } := ⟨_, rfl⟩
  -- the total of a scope of the new receipt grows by the request
  have ht : ∀ key ∈ receipt.places, receiptTally.total base.receipts key =
      (scopeRequests key.scope.kind request.estimatedRequests, request.estimatedTokens) +
        receiptTally.total ledger.receipts key := by
    intro key hkey
    rw [hbase, receiptTally.total_insert_of_none hnew, hwf.share_place hkey, hr]
    rfl
  have hp : receipt.places = ⟨.providerGlobal, ep⟩ ::
      constraints.map fun cst => ⟨.ofCgroup cst.scopeId, ep⟩ := by
    rw [receipt.places_eq_map_keys, hwf.keys_eq, List.map_cons, List.map_map, List.map_map, hr]
    rfl
  have hpr : ⟨.providerGlobal, ep⟩ ∈ receipt.places := by simp [hp]
  obtain ⟨fst, hf, hfF⟩ : ∃ fst,
      base.writeScopeEpochAggregate ⟨.providerGlobal, ep⟩
        (saturatingAdd (ledger.used ⟨.providerGlobal, ep⟩).1 request.estimatedRequests,
          saturatingAdd (ledger.used ⟨.providerGlobal, ep⟩).2 request.estimatedTokens) =
          .ok fst ∧ Refreshed base [⟨.providerGlobal, ep⟩] fst := by
    refine writeScopeEpochAggregate_refreshed base (hwf.valid_place hpr) ?_
    rw [ht _ hpr, hs.used_eq]
    exact saturatingAdd_clamp _ (request.estimatedRequests, request.estimatedTokens)
  obtain ⟨ledger', hloop, hlF⟩ : ∃ ledger',
      (constraints.map fun cst =>
        (cst, ledger.used ⟨.ofCgroup cst.scopeId, ep⟩)).foldlM
        (fun ledger us =>
          ledger.writeScopeEpochAggregate ⟨.ofCgroup us.1.scopeId, ep⟩
            (us.2.1, saturatingAdd us.2.2 request.estimatedTokens))
        fst = .ok ledger' ∧
      Refreshed fst ((constraints.map fun cst =>
        (cst, ledger.used ⟨.ofCgroup cst.scopeId, ep⟩)).map
          fun us => ⟨.ofCgroup us.1.scopeId, ep⟩) ledger' := by
    refine Refreshed.foldlM fst ?_
    intro pre us post hlist cur hcu
    obtain ⟨cst, hc, rfl⟩ : ∃ cst ∈ constraints,
        (cst, ledger.used ⟨.ofCgroup cst.scopeId, ep⟩) = us :=
      List.mem_map.1 (hlist ▸ by simp)
    have hpl : ⟨.ofCgroup cst.scopeId, ep⟩ ∈ receipt.places := by
      rw [hp]
      exact List.mem_cons_of_mem _ (List.mem_map.2 ⟨cst, hc, rfl⟩)
    refine writeScopeEpochAggregate_refreshed cur (hwf.valid_place hpl) ?_
    rw [hcu.receipts, hfF.receipts, ht _ hpl, hs.used_eq]
    exact saturatingAdd_clamp_zero _ _
  refine ⟨ledger', ?_, ?_⟩
  · rw [admitReservation, List.map_map]
    rw [hbase, hr] at hf
    exact bind_eq_ok.2 ⟨fst, hf, bind_eq_ok.2 ⟨ledger', hloop, rfl⟩⟩
  · rw [hp, ← hbase]
    rw [List.map_map] at hlF
    exact hfF.trans hlF

/-- A request whose receipt exists writes no table. -/
theorem Sound.reserve_of_some (constraints : List CgroupQuotaConstraint)
    (h : ledger.receipts[request.receiptId]? = some receipt) :
    ∃ floor, Advances (· ≤ ·) ledger.floor floor ∧
      (ledger.reserve request constraints).2 = { ledger with floor } := by
  rcases transaction_cases (s := ledger) with ⟨e, hsame⟩ | ⟨out, ledger', hbody, hr⟩
  · exact ⟨ledger.floor, .refl Nat.le_refl _, congrArg Prod.snd hsame⟩
  · refine ⟨_, advances_effective request.requestedEpoch, (congrArg Prod.snd hr).trans ?_⟩
    have hload := (hs.with_floor
      (some (ledger.effective request.requestedEpoch))).loadQuotaReceipt_of_some h
    simp only [bind_eq_ok] at hbody
    obtain ⟨_, -, _, -, _, -, loaded, hlo, hrest⟩ := hbody
    obtain rfl : some receipt = loaded := by simpa using hload.symm.trans hlo
    simp only [bind_eq_ok, pure_eq_ok, Prod.mk.injEq] at hrest
    obtain ⟨out', -, -, hl⟩ := hrest
    exact hl.symm

/-- A request with a new identifier is refused with an error or a denial, or it is admitted. -/
theorem Sound.reserve_of_none (path : CgroupPath) (h : ledger.receipts[request.receiptId]? = none) :
    (∃ e, ledger.reserve request path.constraints = (.error e, ledger)) ∨
      (∃ ep sc dim used asked limit,
        ledger.reserve request path.constraints =
          (.ok (.denied ep sc dim used asked limit),
            { ledger with floor := some (ledger.effective request.requestedEpoch) })) ∨
      ∃ receipt ledger',
        receipt = reservedReceipt request (ledger.effective request.requestedEpoch)
          (path.constraints.map scopeId) ∧
        receipt.WellFormed (path.constraints.map scopeId) ∧
        request.receiptId ∉ ledger.refunded ∧
        ledger.Fits request path.constraints (ledger.effective request.requestedEpoch) ∧
        ledger.reserve request path.constraints =
          (.ok (.reserved ⟨request.receiptId, ledger.effective request.requestedEpoch,
            request.estimatedRequests, request.estimatedTokens, .reserved,
            path.constraints.map scopeId⟩), ledger') ∧
        Refreshed { ledger with
          receipts := ledger.receipts.insert request.receiptId receipt
          floor := some (ledger.effective request.requestedEpoch) } receipt.places ledger' := by
  rcases transaction_cases (s := ledger) with ⟨e, he⟩ | ⟨out, ledger', hbody, hr⟩
  · exact .inl ⟨e, he⟩
  · refine .inr ?_
    simp only [bind_eq_ok, rejectIf_eq_ok] at hbody
    obtain ⟨_, -, seen, hseen, _, hl, loaded, hlo, hrest⟩ := hbody
    obtain ⟨hv, hd⟩ := checkConstraints_ok hseen
    have hload : { ledger with floor := some (ledger.effective request.requestedEpoch)
        }.loadQuotaReceipt request.receiptId = .ok none := loadQuotaReceipt_of_none h
    obtain rfl : none = loaded := by simpa using hload.symm.trans hlo
    simp only [reserveFresh, bind_eq_ok, rejectIf_eq_ok] at hrest
    obtain ⟨_, hre, hrest⟩ := hrest
    split at hrest
    · simp only [pure_eq_ok, Prod.mk.injEq] at hrest
      obtain ⟨rfl, rfl⟩ := hrest
      exact .inl ⟨_, _, _, _, _, _, hr⟩
    · simp only [bind_eq_ok] at hrest
      obtain ⟨us, hus, usages, hu, hrest⟩ := hrest
      obtain rfl : ledger.used ⟨.providerGlobal, ledger.effective request.requestedEpoch⟩ = us :=
        Except.ok.inj ((trustedScopeEpochAggregate_eq validate_providerGlobal).symm.trans hus)
      obtain rfl : (path.constraints.map fun cst => (cst, ledger.used
          ⟨.ofCgroup cst.scopeId, ledger.effective request.requestedEpoch⟩)) = usages := by
        refine Except.ok.inj (Eq.trans (Eq.symm ?_) hu)
        refine mapM_eq_ok fun cst hc => ?_
        exact bind_eq_ok.2 ⟨_, trustedScopeEpochAggregate_eq (hv cst hc), rfl⟩
      have hwf := reservedReceipt_wellFormed request (ledger.effective request.requestedEpoch)
        hv hd hl path.nested path.leaf
      obtain ⟨admitted, ha, hf⟩ := admitReservation_refreshed hs h rfl hwf
      split at hrest
      · next denial hdenied =>
          simp only [pure_eq_ok, Prod.mk.injEq] at hrest
          obtain ⟨rfl, rfl⟩ := hrest
          obtain ⟨ep, sc, dim, used, asked, limit, rfl⟩ := denied_of_deniedBy hdenied
          exact .inl ⟨ep, sc, dim, used, asked, limit, hr⟩
      · next hnone =>
          obtain ⟨rfl, rfl⟩ : _ ∧ admitted = ledger' :=
            Prod.mk.inj (Except.ok.inj (ha.symm.trans hrest))
          exact .inr ⟨_, admitted, rfl, hwf, hre, deniedBy_eq_none.1 hnone, hr, hf⟩

theorem reserve_step (request : ProviderRateRequest) (path : CgroupPath) :
    QuotaStep ledger (.reserve request path) (ledger.reserve request path.constraints).2 ∧
      Sound (ledger.reserve request path.constraints).2 := by
  cases h : ledger.receipts[request.receiptId]? with
  | some receipt =>
    obtain ⟨fl, hfl, hkept⟩ := hs.reserve_of_some path.constraints h
    rw [hkept]
    exact ⟨.kept hfl, hs.with_floor _⟩
  | none =>
    rcases hs.reserve_of_none path h with ⟨e, he⟩ | hd | ha
    · rw [he]
      exact ⟨.same, hs⟩
    · obtain ⟨ep, sc, dim, used, asked, limit, hr⟩ := hd
      rw [hr]
      exact ⟨.kept (advances_effective _), hs.with_floor _⟩
    · obtain ⟨receipt, ledger', rfl, hwf, hre, hfits, hr, hf⟩ := ha
      rw [hr]
      refine ⟨?_, hf.sound (hs.insert h hre _ ⟨_, hwf⟩) fun _ hkey => hkey⟩
      show QuotaStep ledger _ ledger'
      rw [hf.tables]
      exact .admitted h hre hfits

end

/-! ## The life of a receipt -/

theorem markInvoked_of_none (h : ledger.receipts[receiptId]? = none) :
    ledger.markProviderRateInvoked receiptId = (.error (.unknownReceipt receiptId), ledger) := by
  rw [markProviderRateInvoked, openReceipt_of_none h]
  rfl

theorem Sound.markInvoked_of_some (hs : Sound ledger)
    (h : ledger.receipts[receiptId]? = some receipt) :
    ledger.markProviderRateInvoked receiptId = (.ok (),
      if receipt.state = .reserved then ledger.setState receiptId receipt .inFlight
      else ledger) := by
  rw [markProviderRateInvoked, hs.openReceipt_of_some h]
  by_cases hst : receipt.state = .reserved
  · simp [hst, transaction, bind, Except.bind, pure, Except.pure]
  · simp [hst, transaction, bind, Except.bind, pure, Except.pure]

theorem markInvoked_step (hs : Sound ledger) (receiptId : Text) :
    QuotaStep ledger (.markInvoked receiptId) (ledger.markProviderRateInvoked receiptId).2 ∧
      Sound (ledger.markProviderRateInvoked receiptId).2 := by
  cases h : ledger.receipts[receiptId]? with
  | none =>
    rw [markInvoked_of_none h]
    exact ⟨.same, hs⟩
  | some receipt =>
    rw [hs.markInvoked_of_some h]
    split
    · next hst =>
      exact ⟨.invoked h hst, hs.setState h (by simp [hst]) (by simp)⟩
    · exact ⟨.same, hs⟩

theorem retain_of_none (h : ledger.receipts[receiptId]? = none) :
    ledger.retainProviderRateEstimate receiptId = (.error (.unknownReceipt receiptId), ledger) := by
  rw [retainProviderRateEstimate, openReceipt_of_none h]
  rfl

section

variable (hs : Sound ledger)
include hs

theorem Sound.retain_of_some (h : ledger.receipts[receiptId]? = some receipt) :
    ledger.retainProviderRateEstimate receiptId =
      match receipt.state with
      | .inFlight => (.ok (), ledger.setState receiptId receipt .estimated)
      | .estimated | .reconciled => (.ok (), ledger)
      | .reserved => (.error (.notInvoked receiptId), ledger) := by
  rw [retainProviderRateEstimate, hs.openReceipt_of_some h]
  cases hst : receipt.state with
  | reserved => simp [hst, transaction, bind, Except.bind, throw, throwThe, MonadExceptOf.throw]
  | inFlight | estimated | reconciled =>
    simp [hst, transaction, bind, Except.bind, pure, Except.pure]

theorem retain_step (receiptId : Text) :
    QuotaStep ledger (.retain receiptId) (ledger.retainProviderRateEstimate receiptId).2 ∧
      Sound (ledger.retainProviderRateEstimate receiptId).2 := by
  cases h : ledger.receipts[receiptId]? with
  | none =>
    rw [retain_of_none h]
    exact ⟨.same, hs⟩
  | some receipt =>
    rw [hs.retain_of_some h]
    cases hst : receipt.state with
    | reserved | estimated | reconciled => exact ⟨.same, hs⟩
    | inFlight => exact ⟨.retained h hst, hs.setState h (by simp [hst]) (by simp)⟩

/-- The answer of a refund: it never fails on an aggregate. -/
theorem Sound.refund_cases (receiptId : Text) :
    (ledger.refundProviderRateBeforeInvocation receiptId =
        (.error (.unknownReceipt receiptId), ledger) ∧
      ledger.receipts[receiptId]? = none ∧ receiptId ∉ ledger.refunded) ∨
    (ledger.refundProviderRateBeforeInvocation receiptId = (.ok (), ledger) ∧
      ledger.receipts[receiptId]? = none ∧ receiptId ∈ ledger.refunded) ∨
    ∃ receipt, ledger.receipts[receiptId]? = some receipt ∧
      ((ledger.refundProviderRateBeforeInvocation receiptId =
          (.error (.afterInvocation receiptId), ledger) ∧ receipt.state ≠ .reserved) ∨
        receipt.state = .reserved ∧
          ∃ ledger', ledger.refundProviderRateBeforeInvocation receiptId = (.ok (), ledger') ∧
            Refreshed { ledger with
              refunded := ledger.refunded.insert receiptId receipt.epoch
              receipts := ledger.receipts.erase receiptId } receipt.places ledger') := by
  cases h : ledger.receipts[receiptId]? with
  | none =>
    by_cases hr : receiptId ∈ ledger.refunded
    · refine .inr (.inl ⟨transaction_of_ok (bind_eq_ok.2 ⟨none, loadQuotaReceipt_of_none h, ?_⟩),
        rfl, hr⟩)
      exact bind_eq_ok.2 ⟨(), rejectIf_eq_ok.2 (not_not.2 hr), rfl⟩
    · refine .inl ⟨?_, rfl, hr⟩
      rw [refundProviderRateBeforeInvocation, loadQuotaReceipt_of_none h]
      simp [transaction, bind, Except.bind, rejectIf, hr]
  | some receipt =>
    refine .inr (.inr ⟨receipt, rfl, ?_⟩)
    by_cases hst : receipt.state = .reserved
    · refine .inr ⟨hst, ?_⟩
      obtain ⟨cgroups, hwf⟩ := hs.wellFormed h
      obtain ⟨ledger', hloop, hf⟩ := replaceContributions_refreshed (fun _ => (0, 0)) hs
        (SoundOutside.tombstone hs h) h hwf rfl (by
          intro sc hsc
          rw [receiptTally.total_of_lookup h]
          exact (zero_add _).symm)
      refine ⟨ledger', transaction_of_ok (bind_eq_ok.2 ⟨some receipt,
        hs.loadQuotaReceipt_of_some h, bind_eq_ok.2 ⟨receipt, hs.openReceipt_of_some h, ?_⟩⟩), hf⟩
      refine bind_eq_ok.2 ⟨(), rejectIf_eq_ok.2 (not_not.2 hst), ?_⟩
      exact bind_eq_ok.2 ⟨_, SoundOutside.tombstone_eq hs h, bind_eq_ok.2 ⟨ledger', hloop, rfl⟩⟩
    · refine .inl ⟨?_, hst⟩
      rw [refundProviderRateBeforeInvocation, hs.loadQuotaReceipt_of_some h]
      simp [transaction, bind, Except.bind, hs.openReceipt_of_some h, rejectIf, hst]

theorem refund_step (receiptId : Text) :
    QuotaStep ledger (.refund receiptId) (ledger.refundProviderRateBeforeInvocation receiptId).2 ∧
      Sound (ledger.refundProviderRateBeforeInvocation receiptId).2 := by
  rcases hs.refund_cases receiptId with ⟨hr, -⟩ | ⟨hr, -⟩ | ⟨receipt, h, hc⟩
  · rw [hr]
    exact ⟨.same, hs⟩
  · rw [hr]
    exact ⟨.same, hs⟩
  · rcases hc with ⟨hr, -⟩ | ⟨hst, ledger', hr, hf⟩
    · rw [hr]
      exact ⟨.same, hs⟩
    · rw [hr]
      refine ⟨?_, hf.sound (SoundOutside.tombstone hs h) fun _ hkey => hkey⟩
      show QuotaStep ledger _ ledger'
      rw [hf.tables]
      exact .refunded h hst

end

theorem reconciledReceipt_wellFormed {cgroups : List Text} (hwf : receipt.WellFormed cgroups)
    (reqs tokens : Nat) : (reconciledReceipt receipt reqs tokens).WellFormed cgroups := by
  refine ⟨by simp [checkActualUsage, reconciledReceipt], ?_, hwf.distinct, hwf.valid, hwf.length,
    hwf.nested, hwf.leaf⟩
  rw [reconciledReceipt, hwf.rows, scopeRows, List.map_map, scopeRows]
  rfl

theorem reconciledReceipt_places (receipt : StoredQuotaReceipt) (reqs tokens : Nat) :
    (reconciledReceipt receipt reqs tokens).places = receipt.places := by
  rw [StoredQuotaReceipt.places, reconciledReceipt, List.map_map]
  rfl

section

variable (hs : Sound ledger)
include hs

theorem Sound.reconcile_eq (h : ledger.receipts[receiptId]? = some receipt)
    (reqs : Option Nat) (tokens : Nat) :
    ledger.reconcileProviderRateInner receiptId reqs tokens =
      transaction ledger (do
        rejectIf (reqs.getD receipt.reservedRequests = 0 ∨
            receipt.reservedRequests < reqs.getD receipt.reservedRequests)
          (.actualOutOfRange receiptId (reqs.getD receipt.reservedRequests)
            receipt.reservedRequests)
        ledger.reconcileState receiptId receipt (reqs.getD receipt.reservedRequests)
          tokens) := by
  simp only [reconcileProviderRateInner, hs.requireQuotaReceipt_of_some h,
    hs.loadReceiptScopes_eq h, hs.openReceipt_of_some h, ok_bind]

/-- The contributions of a receipt are replaced by its actual usage. -/
theorem Sound.replaceContributions_reconciled
    (h : ledger.receipts[receiptId]? = some receipt) (reqs tokens : Nat) :
    ∃ ledger', { ledger with
        receipts := ledger.receipts.insert receiptId
          (reconciledReceipt receipt reqs tokens) }.replaceContributions receipt
          (fun sc => (scopeRequests sc.key.kind reqs, tokens)) =
        .ok ledger' ∧
      Refreshed { ledger with
        receipts := ledger.receipts.insert receiptId
          (reconciledReceipt receipt reqs tokens) } receipt.places ledger' ∧
      Sound ledger' := by
  obtain ⟨cgroups, hwf⟩ := hs.wellFormed h
  have hwf' := reconciledReceipt_wellFormed hwf reqs tokens
  have hp := reconciledReceipt_places receipt reqs tokens
  have hbase := SoundOutside.replace hs h ⟨cgroups, hwf'⟩ hp
  obtain ⟨ledger', hloop, hf⟩ := replaceContributions_refreshed
    (fun sc => (scopeRequests sc.key.kind reqs, tokens)) hs hbase h hwf rfl
    (by
      intro sc hsc
      rw [receiptTally.total_replace h, hwf'.share_place]
      · rfl
      · rw [hp]
        exact List.mem_map.2 ⟨sc, hsc, rfl⟩)
  exact ⟨ledger', hloop, hf, hf.sound hbase fun _ hkey => hkey⟩

/-- The answer of a reconciliation: it never fails on an aggregate. -/
theorem Sound.reconcile_cases (receiptId : Text)
    (reqs : Option Nat) (tokens : Nat) :
    (∃ e, ledger.reconcileProviderRateInner receiptId reqs tokens =
        (.error e, ledger) ∧
      ∀ sc ep dim, e ≠ .aggregateUnderflow sc ep dim) ∨
    ∃ receipt, ledger.receipts[receiptId]? = some receipt ∧
      reqs.getD receipt.reservedRequests ≤ receipt.reservedRequests ∧
      ((ledger.reconcileProviderRateInner receiptId reqs tokens = (.ok (), ledger) ∧
          receipt.state = .reconciled) ∨
        (receipt.state = .inFlight ∨ receipt.state = .estimated) ∧
          ∃ ledger', ledger.reconcileProviderRateInner receiptId reqs tokens =
              (.ok (), ledger') ∧
            Refreshed { ledger with
              receipts := ledger.receipts.insert receiptId (reconciledReceipt receipt
                (reqs.getD receipt.reservedRequests) tokens) }
              receipt.places ledger' ∧
            Sound ledger') := by
  cases h : ledger.receipts[receiptId]? with
  | none =>
    refine .inl ⟨.unknownReceipt receiptId, ?_, by simp⟩
    rw [reconcileProviderRateInner, requireQuotaReceipt_of_none h]
    rfl
  | some receipt =>
    rw [hs.reconcile_eq h]
    by_cases hr : reqs.getD receipt.reservedRequests = 0 ∨
        receipt.reservedRequests < reqs.getD receipt.reservedRequests
    · simp only [rejectIf_true hr, error_bind]
      exact .inl ⟨_, rfl, by simp⟩
    · have hle : reqs.getD receipt.reservedRequests ≤ receipt.reservedRequests :=
        Nat.le_of_not_lt fun hlt => hr (.inr hlt)
      obtain ⟨ledger', hloop, hf, hso⟩ := hs.replaceContributions_reconciled h
        (reqs.getD receipt.reservedRequests) tokens
      simp only [rejectIf_false hr, ok_bind, reconcileState, hloop]
      cases hst : receipt.state with
      | reserved => exact .inl ⟨.notInvoked receiptId, rfl, by simp⟩
      | inFlight =>
        exact .inr ⟨receipt, rfl, hle, .inr ⟨.inl hst, ledger', rfl, hf, hso⟩⟩
      | estimated =>
        exact .inr ⟨receipt, rfl, hle, .inr ⟨.inr hst, ledger', rfl, hf, hso⟩⟩
      | reconciled =>
        by_cases hsame : receipt.actualRequests ≠
            some (reqs.getD receipt.reservedRequests) ∨
            receipt.actualTokens ≠ some tokens
        · simp only [rejectIf_true hsame, error_bind]
          exact .inl ⟨_, rfl, by simp⟩
        · simp only [rejectIf_false hsame, ok_bind]
          exact .inr ⟨receipt, rfl, hle, .inl ⟨rfl, hst⟩⟩

theorem reconcile_step (receiptId : Text) (reqs : Option Nat) (tokens : Nat) :
    QuotaStep ledger (.reconcile receiptId reqs tokens)
        (ledger.reconcileProviderRateInner receiptId reqs tokens).2 ∧
      Sound (ledger.reconcileProviderRateInner receiptId reqs tokens).2 := by
  rcases hs.reconcile_cases receiptId reqs tokens with
    ⟨e, hr, -⟩ | ⟨receipt, h, hra, hc⟩
  · rw [hr]
    exact ⟨.same, hs⟩
  · rcases hc with ⟨hr, -⟩ | ⟨hst, ledger', hr, hf, hso⟩
    · rw [hr]
      exact ⟨.same, hs⟩
    · rw [hr]
      refine ⟨?_, hso⟩
      show QuotaStep ledger _ ledger'
      rw [hf.tables]
      exact .reconciled h hst hra

end

/-! ## Direct charges and reads -/

theorem chargedReceipt_wellFormed (ep tokens : Nat) : (chargedReceipt ep tokens).WellFormed [] :=
  ⟨by simp [checkActualUsage, chargedReceipt], rfl, by simp, by simp, by decide, by simp, by simp⟩

variable (hs : Sound ledger)
include hs

/-- A charge with a known identifier writes no table. -/
theorem Sound.charge_of_some (h : ledger.receipts[receiptId]? = some receipt) (asked tokens : Nat) :
    ∃ floor, Advances (· ≤ ·) ledger.floor floor ∧
      (ledger.chargeProviderRateTokens receiptId asked tokens).2 = { ledger with floor } := by
  rcases transaction_cases (s := ledger) with ⟨e, hsame⟩ | ⟨ans, ledger', hbody, hr⟩
  · exact ⟨ledger.floor, .refl Nat.le_refl _, congrArg Prod.snd hsame⟩
  · refine ⟨_, advances_effective asked, (congrArg Prod.snd hr).trans ?_⟩
    have hload := (hs.with_floor (some (ledger.effective asked))).loadQuotaReceipt_of_some h
    simp only [bind_eq_ok] at hbody
    obtain ⟨loaded, hlo, hrest⟩ := hbody
    obtain rfl : some receipt = loaded := by simpa using hload.symm.trans hlo
    simp only [bind_eq_ok, pure_eq_ok, Prod.mk.injEq] at hrest
    obtain ⟨receipt', -, _, -, -, hl⟩ := hrest
    exact hl.symm

/-- A charge with a new identifier. -/
theorem Sound.charge_of_none (h : ledger.receipts[receiptId]? = none)
    (asked tokens : Nat) :
    ledger.chargeProviderRateTokens receiptId asked tokens =
        (.error (.refundedReuse receiptId), ledger) ∨
      receiptId ∉ ledger.refunded ∧
        ∃ ledger', ledger.chargeProviderRateTokens receiptId asked tokens =
            (.ok (), ledger') ∧
          Refreshed { ledger with
            receipts := ledger.receipts.insert receiptId
              (chargedReceipt (ledger.effective asked) tokens)
            floor := some (ledger.effective asked) }
            (chargedReceipt (ledger.effective asked) tokens).places ledger' := by
  by_cases hr : receiptId ∈ ledger.refunded
  · refine .inl (transaction_of_error ?_)
    exact (bind_of_ok (loadQuotaReceipt_of_none h) _).trans (bind_of_error (rejectIf_true hr) _)
  · refine .inr ⟨hr, ?_⟩
    have hwf := chargedReceipt_wellFormed (ledger.effective asked) tokens
    have hp : ⟨.providerGlobal, ledger.effective asked⟩ ∈
        (chargedReceipt (ledger.effective asked) tokens).places :=
      List.mem_singleton.2 rfl
    obtain ⟨ledger', hw, hf⟩ : ∃ ledger',
        { ledger with
          receipts := ledger.receipts.insert receiptId
            (chargedReceipt (ledger.effective asked) tokens)
          floor := some (ledger.effective asked) }.writeScopeEpochAggregate
            ⟨.providerGlobal, ledger.effective asked⟩
            ((ledger.used ⟨.providerGlobal, ledger.effective asked⟩).1,
              saturatingAdd (ledger.used ⟨.providerGlobal, ledger.effective asked⟩).2
                tokens) = .ok ledger' ∧
          Refreshed { ledger with
            receipts := ledger.receipts.insert receiptId
              (chargedReceipt (ledger.effective asked) tokens)
            floor := some (ledger.effective asked) }
            [⟨.providerGlobal, ledger.effective asked⟩] ledger' := by
      refine writeScopeEpochAggregate_refreshed _ validate_providerGlobal ?_
      rw [receiptTally.total_insert_of_none h, hwf.share_place hp, hs.used_eq]
      exact saturatingAdd_clamp_zero _ tokens
    refine ⟨ledger', transaction_of_ok ?_, hf⟩
    refine bind_eq_ok.2 ⟨none, loadQuotaReceipt_of_none h, ?_⟩
    refine bind_eq_ok.2 ⟨(), rejectIf_eq_ok.2 hr, ?_⟩
    refine bind_eq_ok.2 ⟨_, trustedScopeEpochAggregate_eq validate_providerGlobal, ?_⟩
    exact bind_eq_ok.2 ⟨ledger', hw, rfl⟩

theorem charge_step (receiptId : Text) (asked tokens : Nat) :
    QuotaStep ledger (.charge receiptId asked tokens)
        (ledger.chargeProviderRateTokens receiptId asked tokens).2 ∧
      Sound (ledger.chargeProviderRateTokens receiptId asked tokens).2 := by
  cases h : ledger.receipts[receiptId]? with
  | some receipt =>
    obtain ⟨fl, hfl, hkept⟩ := hs.charge_of_some h asked tokens
    rw [hkept]
    exact ⟨.kept hfl, hs.with_floor _⟩
  | none =>
    rcases hs.charge_of_none h asked tokens with
      he | ⟨hr, ledger', hre, hf⟩
    · rw [he]
      exact ⟨.same, hs⟩
    · rw [hre]
      have hwf := chargedReceipt_wellFormed (ledger.effective asked) tokens
      refine ⟨?_, hf.sound (hs.insert h hr _ ⟨_, hwf⟩) fun _ hkey => hkey⟩
      show QuotaStep ledger _ ledger'
      rw [hf.tables]
      exact .charged h hr

/-- The check of an aggregate against its receipts succeeds. -/
theorem Sound.validateScopeEpoch_ok (key : ScopeEpoch)
    (hv : validateQuotaScopeKey key.scope = .ok ()) :
    ∃ us, ledger.validateScopeEpoch key = .ok us := by
  obtain ⟨us, hu, hsum, hem⟩ := computeScopeEpochUsage_spec hs hv
  have hc := hs.cached key
  refine ⟨us, bind_eq_ok.2 ⟨us, hu, ?_⟩⟩
  cases he : ledger.aggregates[key]? with
  | some v =>
    rw [he] at hc
    refine bind_eq_ok.2 ⟨(), rejectIf_eq_ok.2 (not_not.2 ?_), rfl⟩
    rw [hsum]
    exact hc
  | none =>
    rw [he] at hc
    refine bind_eq_ok.2 ⟨(), rejectIf_eq_ok.2 ?_, rfl⟩
    rw [hem.2 hc]
    simp

theorem usage_step (asked : Nat) :
    QuotaStep ledger (.usage asked) (ledger.providerRateUsage asked).2 ∧
      Sound (ledger.providerRateUsage asked).2 := by
  have hf := hs.with_floor (some (ledger.effective asked))
  obtain ⟨us, hu⟩ := hf.validateScopeEpoch_ok
    ⟨.providerGlobal, ledger.effective asked⟩ validate_providerGlobal
  have hr : ledger.providerRateUsage asked =
      (.ok us, { ledger with floor := some (ledger.effective asked) }) :=
    transaction_of_ok (bind_eq_ok.2 ⟨us, hu, rfl⟩)
  rw [hr]
  exact ⟨.kept (advances_effective _), hf⟩

/-- The scopes and epochs that the consistency check visits are valid. -/
theorem Sound.valid_scopeEpochs {key : ScopeEpoch}
    (hkey : key ∈ ledger.scopeEpochs) : validateQuotaScopeKey key.scope = .ok () := by
  rcases List.mem_append.1 hkey with hkey | hkey
  · obtain ⟨⟨key', v⟩, hmem, rfl⟩ := List.mem_map.1 hkey
    have hl := OrdMap.mem_toList_iff.1 hmem
    exact hs.validKeys key' (OrdMap.mem_of_lookup hl)
  · obtain ⟨⟨receiptId, receipt⟩, hmem, hp⟩ := List.mem_flatMap.1 hkey
    obtain ⟨cgroups, hwf⟩ := hs.wellFormed (OrdMap.mem_toList_iff.1 hmem)
    exact hwf.valid_place hp

/-- Every consistency check succeeds. -/
theorem Sound.validateAllProviderEpochs_ok : ledger.validateAllProviderEpochs = .ok () := by
  refine bind_eq_ok.2 ⟨(), forM_eq_ok ?_, bind_eq_ok.2 ⟨(), forM_eq_ok ?_, forM_eq_ok ?_⟩⟩
  · rintro ⟨receiptId, receipt⟩ hmem
    have h := OrdMap.mem_toList_iff.1 hmem
    obtain ⟨cgroups, hwf⟩ := hs.wellFormed h
    exact bind_eq_ok.2 ⟨(), hwf.actual,
      bind_eq_ok.2 ⟨receipt.scopes, hwf.loadReceiptScopes_eq receiptId, rfl⟩⟩
  · intro key hkey
    exact hs.valid_scopeEpochs hkey
  · intro key hkey
    obtain ⟨us, hu⟩ := hs.validateScopeEpoch_ok key (hs.valid_scopeEpochs hkey)
    exact bind_eq_ok.2 ⟨us, hu, rfl⟩

end QuotaLedger

end AgentOS
