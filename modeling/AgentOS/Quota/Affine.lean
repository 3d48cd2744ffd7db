import AgentOS.Quota.Maintenance

/-!
# Receipts are affine

The life of a receipt identifier is what the tables say of it: nothing, a stored receipt, or a
tombstone. `LifeStep` lists the moves that one call can make (`life_step`). Between two prunings of
its epoch a life only evolves: the state climbs, what was reserved stays, and only a receipt that
was never invoked is refunded (`life_evolves`). So a repeated call finds its work done.
-/

namespace AgentOS

open Lib

/-! ## Lives -/

/-- What the tables say of a receipt identifier. -/
inductive ReceiptLife where
  | unknown
  | stored (receipt : StoredQuotaReceipt)
  | refunded (epoch : Nat)

/-- The life of an identifier in a ledger. -/
def QuotaLedger.life (ledger : QuotaLedger) (receiptId : Text) : ReceiptLife :=
  match ledger.receipts[receiptId]?, ledger.refunded[receiptId]? with
  | some receipt, _ => .stored receipt
  | none, some epoch => .refunded epoch
  | none, none => .unknown

/-- The cgroup scopes that a call erases: the scope of its agent, or all scopes of its tenant. -/
def QuotaCall.erased : QuotaCall → Text → Bool
  | .eraseAgent agentId => fun scopeId =>
    (QuotaLedger.agentScopeSuffix agentId).isSuffixOf scopeId
  | .eraseTenant tenantId => fun scopeId =>
    scopeId == QuotaLedger.tenantScope tenantId ||
      (QuotaLedger.tenantScope tenantId ++ ['/']).isPrefixOf scopeId
  | _ => fun _ => false

open QuotaLedger in
/-- The moves of the life of `receiptId` under one call on the ledger. -/
inductive LifeStep (ledger : QuotaLedger) (receiptId : Text) :
    QuotaCall → ReceiptLife → ReceiptLife → Prop where
  | same (call : QuotaCall) (life : ReceiptLife) : LifeStep ledger receiptId call life life
  | reserve {request : ProviderRateRequest} {path : CgroupPath}
      (htarget : request.receiptId = receiptId) :
      LifeStep ledger receiptId (.reserve request path) .unknown
        (.stored (reservedReceipt request (ledger.effective request.requestedEpoch)
          (path.constraints.map CgroupQuotaConstraint.scopeId)))
  | charge {requestedEpoch tokens : Nat} :
      LifeStep ledger receiptId (.charge receiptId requestedEpoch tokens) .unknown
        (.stored (chargedReceipt (ledger.effective requestedEpoch) tokens))
  | invoke {receipt : StoredQuotaReceipt} (hstate : receipt.state = .reserved) :
      LifeStep ledger receiptId (.markInvoked receiptId) (.stored receipt)
        (.stored { receipt with state := .inFlight })
  | retain {receipt : StoredQuotaReceipt} (hstate : receipt.state = .inFlight) :
      LifeStep ledger receiptId (.retain receiptId) (.stored receipt)
        (.stored { receipt with state := .estimated })
  | reconcile {receipt : StoredQuotaReceipt} {actualRequests : Option Nat} {actualTokens : Nat}
      (hstate : receipt.state = .inFlight ∨ receipt.state = .estimated) :
      LifeStep ledger receiptId (.reconcile receiptId actualRequests actualTokens) (.stored receipt)
        (.stored (reconciledReceipt receipt (actualRequests.getD receipt.reservedRequests)
          actualTokens))
  | refund {receipt : StoredQuotaReceipt} (hstate : receipt.state = .reserved) :
      LifeStep ledger receiptId (.refund receiptId) (.stored receipt) (.refunded receipt.epoch)
  | recoverReserved {requestedEpoch : Nat} {receipt : StoredQuotaReceipt}
      (hstate : receipt.state = .reserved) :
      LifeStep ledger receiptId (.recover requestedEpoch) (.stored receipt)
        (.refunded receipt.epoch)
  | recoverInvoked {requestedEpoch : Nat} {receipt : StoredQuotaReceipt}
      (hstate : receipt.state = .inFlight) :
      LifeStep ledger receiptId (.recover requestedEpoch) (.stored receipt)
        (.stored { receipt with state := .estimated })
  | erased {call : QuotaCall} {receipt : StoredQuotaReceipt}
      (hscopes : (erasedReceipt call.erased receipt).keys <+: receipt.keys)
      (hprovider : .providerGlobal ∈ (erasedReceipt call.erased receipt).keys) :
      LifeStep ledger receiptId call (.stored receipt) (.stored (erasedReceipt call.erased receipt))
  | pruned {beforeEpoch : Nat} {receipt : StoredQuotaReceipt}
      (hepoch : receipt.epoch < beforeEpoch) (hstate : isActive receipt.state = false) :
      LifeStep ledger receiptId (.prune beforeEpoch) (.stored receipt) .unknown
  | prunedTombstone {beforeEpoch epoch : Nat} (hepoch : epoch < beforeEpoch) :
      LifeStep ledger receiptId (.prune beforeEpoch) (.refunded epoch) .unknown

variable {call : QuotaCall} {life life' : ReceiptLife}

theorem LifeStep.of_eq {ledger : QuotaLedger} {receiptId : Text} (h : life' = life) :
    LifeStep ledger receiptId call life life' := by
  rw [h]
  exact .same call life

variable {epoch : Nat}

namespace QuotaLedger

variable {ledger ledger' : QuotaLedger} {receiptId : Text} {receipt : StoredQuotaReceipt}

theorem life_of_stored (h : ledger.receipts[receiptId]? = some receipt) :
    ledger.life receiptId = .stored receipt := by
  rw [life, h]

theorem life_of_refunded (h : ledger.receipts[receiptId]? = none)
    (hr : ledger.refunded[receiptId]? = some epoch) : ledger.life receiptId = .refunded epoch := by
  rw [life, h, hr]

theorem life_of_unknown (h : ledger.receipts[receiptId]? = none)
    (hr : ledger.refunded[receiptId]? = none) : ledger.life receiptId = .unknown := by
  rw [life, h, hr]

theorem life_eq_stored : ledger.life receiptId = .stored receipt ↔
    ledger.receipts[receiptId]? = some receipt := by
  refine ⟨fun h => ?_, life_of_stored⟩
  unfold life at h
  split at h
  · next hr => rw [hr, ReceiptLife.stored.inj h]
  · cases h
  · cases h

theorem life_congr (hr : ledger'.receipts[receiptId]? = ledger.receipts[receiptId]?)
    (hre : ledger'.refunded[receiptId]? = ledger.refunded[receiptId]?) :
    ledger'.life receiptId = ledger.life receiptId := by
  rw [life, life, hr, hre]

theorem Sound.refunded_of_stored (hs : Sound ledger)
    (h : ledger.receipts[receiptId]? = some receipt) : ledger.refunded[receiptId]? = none :=
  (OrdMap.not_mem_iff_lookup _ _).1
    (hs.disjoint receiptId (OrdMap.mem_of_lookup h))

/-- The scopes that an erasure leaves are the first ones. -/
theorem erasedReceipt_prefix {erased : Text → Bool} {cgroups : List Text}
    (hwf : receipt.WellFormed cgroups)
    (hclosed : cgroups.Pairwise fun outer inner => erased outer = true → erased inner = true) :
    (erasedReceipt erased receipt).keys <+: receipt.keys ∧
      .providerGlobal ∈ (erasedReceipt erased receipt).keys := by
  obtain ⟨count, hleft⟩ := erasedReceipt_wellFormed hwf hclosed
  rw [hleft.keys_eq, hwf.keys_eq]
  refine ⟨?_, List.mem_cons_self⟩
  exact List.cons_prefix_cons.2 ⟨rfl, (List.take_prefix count cgroups).map _⟩

/-! ## One call -/

theorem keys_reconciledReceipt (receipt : StoredQuotaReceipt) (actualRequests actualTokens : Nat) :
    (reconciledReceipt receipt actualRequests actualTokens).keys = receipt.keys := by
  rw [StoredQuotaReceipt.keys, reconciledReceipt, List.map_map]
  rfl

variable {o : Text}

/-- The life of an identifier when one receipt was replaced. -/
theorem life_insert {receipt' : StoredQuotaReceipt}
    (h : ledger.receipts[receiptId]? = some receipt)
    (hr : ledger'.receipts = ledger.receipts.insert receiptId receipt')
    (hre : ledger'.refunded = ledger.refunded)
    (hstep : LifeStep ledger receiptId call (.stored receipt) (.stored receipt')) :
    LifeStep ledger o call (ledger.life o) (ledger'.life o) := by
  by_cases heq : receiptId = o
  · subst heq
    rw [life_of_stored h, life_of_stored (by rw [hr, OrdMap.lookup_insert_self])]
    exact hstep
  · refine .of_eq (life_congr ?_ (by rw [hre]))
    rw [hr, OrdMap.lookup_insert_ne _ _ heq]

/-- The life of an identifier when a receipt was added. -/
theorem life_insert_new (h : ledger.receipts[receiptId]? = none)
    (hnew : receiptId ∉ ledger.refunded)
    (hr : ledger'.receipts = ledger.receipts.insert receiptId receipt)
    (hre : ledger'.refunded = ledger.refunded)
    (hstep : LifeStep ledger receiptId call .unknown (.stored receipt)) :
    LifeStep ledger o call (ledger.life o) (ledger'.life o) := by
  by_cases heq : receiptId = o
  · subst heq
    rw [life_of_unknown h ((OrdMap.not_mem_iff_lookup _ _).1 hnew),
      life_of_stored (by rw [hr, OrdMap.lookup_insert_self])]
    exact hstep
  · refine .of_eq (life_congr ?_ (by rw [hre]))
    rw [hr, OrdMap.lookup_insert_ne _ _ heq]

/-- The life of an identifier when scopes were erased. -/
theorem life_eraseScopes {erased : Text → Bool}
    (hstep : ∀ receipt, ledger.receipts[o]? = some receipt →
      LifeStep ledger o call (.stored receipt) (.stored (erasedReceipt erased receipt))) :
    LifeStep ledger o call (ledger.life o) ((ledger.eraseScopes erased).life o) := by
  have hl : (ledger.eraseScopes erased).receipts[o]? =
      ledger.receipts[o]?.map (erasedReceipt erased) := Std.ExtTreeMap.getElem?_map
  cases h : ledger.receipts[o]? with
  | some receipt =>
    rw [h] at hl
    rw [life_of_stored h, life_of_stored hl]
    exact hstep receipt h
  | none =>
    rw [h] at hl
    exact .of_eq (life_congr (hl.trans h.symm) rfl)

theorem life_without (hs : Sound ledger) {gone : Nat → Bool} {bound : Nat}
    (hgone : ∀ epoch, gone epoch = true → epoch < bound ∧ ledger.quiet epoch = true) :
    LifeStep ledger o (.prune bound) (ledger.life o) ((ledger.without gone).life o) := by
  have hre : (ledger.without gone).receipts[o]? =
      ledger.receipts[o]?.filter fun receipt => !gone receipt.epoch := OrdMap.lookup_filter _ _ _
  have hrf : (ledger.without gone).refunded[o]? =
      ledger.refunded[o]?.filter fun epoch => !gone epoch := OrdMap.lookup_filter _ _ _
  cases h : ledger.receipts[o]? with
  | some receipt =>
    rw [h, Option.filter_some] at hre
    rw [hs.refunded_of_stored h] at hrf
    rw [life_of_stored h]
    cases hg : gone receipt.epoch with
    | true =>
      rw [life_of_unknown (hre.trans (by simp [hg])) hrf]
      obtain ⟨he, hq⟩ := hgone _ hg
      exact .pruned he ((quiet_iff _ _).1 hq o receipt h rfl)
    | false =>
      rw [hg, Bool.not_false, if_pos rfl] at hre
      rw [life_of_stored hre]
      exact .same _ _
  | none =>
    rw [h] at hre
    cases hr : ledger.refunded[o]? with
    | none =>
      rw [hr] at hrf
      exact .of_eq (life_congr (hre.trans h.symm) (hrf.trans hr.symm))
    | some epoch =>
      rw [hr, Option.filter_some] at hrf
      rw [life_of_refunded h hr]
      cases hg : gone epoch with
      | true =>
        rw [life_of_unknown hre (hrf.trans (by simp [hg]))]
        exact .prunedTombstone (hgone _ hg).1
      | false =>
        rw [hg, Bool.not_false, if_pos rfl] at hrf
        rw [life_of_refunded hre hrf]
        exact .same _ _

theorem life_recovered {asked : Nat}
    (hr : ledger'.receipts[o]? = ledger.receipts[o]?.bind recoveredReceipt)
    (hre : ledger'.refunded[o]? = recoveredTombstone ledger.refunded[o]? ledger.receipts[o]?) :
    LifeStep ledger o (.recover asked) (ledger.life o) (ledger'.life o) := by
  cases h : ledger.receipts[o]? with
  | none =>
    rw [h] at hr hre
    exact .of_eq (life_congr (hr.trans h.symm) hre)
  | some receipt =>
    rw [h, Option.bind_some, recoveredReceipt] at hr
    rw [h, recoveredTombstone] at hre
    rw [life_of_stored h]
    cases hst : receipt.state with
    | reserved =>
      rw [hst] at hr
      rw [hst, if_pos rfl] at hre
      rw [life_of_refunded hr hre]
      exact .recoverReserved hst
    | inFlight =>
      rw [hst] at hr
      rw [life_of_stored hr]
      exact .recoverInvoked hst
    | estimated | reconciled =>
      rw [hst] at hr
      rw [life_of_stored hr]
      exact .same _ _

/-- One call moves the life of every identifier by at most one step. -/
theorem life_step (hs : Sound ledger) (call : QuotaCall) (o : Text) :
    LifeStep ledger o call (ledger.life o) ((ledger.call call).2.life o) := by
  obtain ⟨hstep, -⟩ := call_step hs call
  generalize (ledger.call call).2 = ledger' at hstep ⊢
  cases hstep with
  | kept hf => exact .same _ _
  | admitted hnew hre hfits => exact life_insert_new hnew hre rfl rfl (.reserve rfl)
  | charged hnew hre => exact life_insert_new hnew hre rfl rfl .charge
  | invoked hr hst => exact life_insert hr rfl rfl (.invoke hst)
  | retained hr hst => exact life_insert hr rfl rfl (.retain hst)
  | reconciled hr hst hra => exact life_insert hr rfl rfl (.reconcile hst)
  | @refunded receiptId receipt aggregates hr hst =>
    by_cases heq : receiptId = o
    · subst heq
      rw [life_of_stored hr, life_of_refunded (by rw [OrdMap.lookup_erase, if_pos rfl])
        (OrdMap.lookup_insert_self _ _ _)]
      exact .refund hst
    · refine .of_eq (life_congr ?_ (OrdMap.lookup_insert_ne _ _ heq))
      rw [OrdMap.lookup_erase, if_neg heq]
  | recovered hrc hre => exact life_recovered (hrc o) (hre o)
  | pruned =>
    refine life_without hs fun epoch hgone => ?_
    rw [Bool.and_eq_true, decide_eq_true_iff] at hgone
    exact hgone
  | agentErased =>
    refine life_eraseScopes fun receipt h => ?_
    obtain ⟨cgroups, hwf⟩ := hs.wellFormed h
    obtain ⟨hscopes, hprovider⟩ := erasedReceipt_prefix hwf (agentScope_closed _ hwf.leaf)
    exact .erased hscopes hprovider
  | @tenantErased tenantId =>
    refine life_eraseScopes fun receipt h => ?_
    obtain ⟨cgroups, hwf⟩ := hs.wellFormed h
    obtain ⟨hscopes, hprovider⟩ := erasedReceipt_prefix hwf
      (hwf.nested.imp fun hn => tenantScope_closed tenantId hn)
    exact .erased hscopes hprovider

/-! ## Runs between prunings -/

end QuotaLedger

/-- The epoch of a life. -/
def ReceiptLife.epoch? : ReceiptLife → Option Nat
  | .unknown => none
  | .stored receipt => some receipt.epoch
  | .refunded epoch => some epoch

/-- The order in which a receipt goes through its states. -/
def ProviderRateReceiptState.rank : ProviderRateReceiptState → Nat
  | .reserved => 0
  | .inFlight => 1
  | .estimated => 2
  | .reconciled => 3

/-- What a life can become under calls that do not prune its epoch: scopes that are gone belong to
an agent or a tenant that one of the calls erased. -/
inductive Evolves (calls : List QuotaCall) : ReceiptLife → ReceiptLife → Prop where
  | unknown (life : ReceiptLife) : Evolves calls .unknown life
  | stored {receipt receipt' : StoredQuotaReceipt} (hepoch : receipt'.epoch = receipt.epoch)
      (hrequests : receipt'.reservedRequests = receipt.reservedRequests)
      (htokens : receipt'.reservedTokens = receipt.reservedTokens)
      (hscopes : receipt'.keys <+: receipt.keys)
      (hgone : ∀ scope ∈ receipt.keys, scope ∉ receipt'.keys →
        ∃ call ∈ calls, QuotaLedger.erases call.erased scope = true)
      (hstate : receipt.state.rank ≤ receipt'.state.rank) :
      Evolves calls (.stored receipt) (.stored receipt')
  | refunded {receipt : StoredQuotaReceipt} (hstate : receipt.state = .reserved) :
      Evolves calls (.stored receipt) (.refunded receipt.epoch)
  | tombstone (epoch : Nat) : Evolves calls (.refunded epoch) (.refunded epoch)

variable {state : ProviderRateReceiptState} {calls : List QuotaCall}

/-- A receipt with the scopes it had evolves as its state climbs. -/
theorem Evolves.of_keys {receipt receipt' : StoredQuotaReceipt}
    (hepoch : receipt'.epoch = receipt.epoch)
    (hrequests : receipt'.reservedRequests = receipt.reservedRequests)
    (htokens : receipt'.reservedTokens = receipt.reservedTokens)
    (hkeys : receipt'.keys = receipt.keys) (hstate : receipt.state.rank ≤ receipt'.state.rank) :
    Evolves calls (.stored receipt) (.stored receipt') := by
  refine .stored hepoch hrequests htokens (hkeys ▸ List.prefix_refl _) ?_ hstate
  intro scope hscope hgone
  rw [hkeys] at hgone
  exact absurd hscope hgone

theorem Evolves.refl (life : ReceiptLife) : Evolves calls life life := by
  cases life with
  | unknown => exact .unknown _
  | stored receipt => exact .of_keys rfl rfl rfl rfl le_rfl
  | refunded epoch => exact .tombstone epoch

theorem Evolves.trans {calls' : List QuotaCall} {life'' : ReceiptLife}
    (h : Evolves calls life life') (h' : Evolves calls' life' life'') :
    Evolves (calls ++ calls') life life'' := by
  cases h with
  | unknown => exact .unknown _
  | @stored receipt receipt' he hr ht hsc hgone hst =>
    cases h' with
    | stored he' hr' ht' hsc' hgone' hst' =>
      refine .stored (he'.trans he) (hr'.trans hr) (ht'.trans ht) (hsc'.trans hsc) ?_
        (hst.trans hst')
      intro scope hscope hleft
      by_cases hmid : scope ∈ receipt'.keys
      · obtain ⟨call, hcall, herased⟩ := hgone' scope hmid hleft
        exact ⟨call, List.mem_append_right _ hcall, herased⟩
      · obtain ⟨call, hcall, herased⟩ := hgone scope hscope hmid
        exact ⟨call, List.mem_append_left _ hcall, herased⟩
    | refunded hre =>
      -- only a receipt that was never invoked is still reserved
      rw [hre] at hst
      rw [he]
      refine .refunded ?_
      cases hcase : receipt.state with
      | reserved => rfl
      | inFlight | estimated | reconciled => rw [hcase] at hst; exact absurd hst (by decide)
  | refunded hst =>
    cases h' with
    | tombstone => exact .refunded hst
  | tombstone =>
    cases h' with
    | tombstone => exact .tombstone _

theorem Evolves.epoch_eq (h : Evolves calls life life') (he : life.epoch? = some epoch) :
    life'.epoch? = some epoch := by
  cases h with
  | unknown => cases he
  | stored heq => rw [← he]; exact congrArg some heq
  | refunded | tombstone => exact he

/-- A step that does not prune the epoch of a life lets it evolve. -/
theorem LifeStep.evolves {ledger : QuotaLedger} {receiptId : Text}
    (h : LifeStep ledger receiptId call life life')
    (hkept : ∀ bound epoch, call = .prune bound → life.epoch? = some epoch → bound ≤ epoch) :
    Evolves [call] life life' := by
  cases h with
  | same => exact .refl _
  | reserve | charge => exact .unknown _
  | invoke hst | retain hst | recoverInvoked hst =>
    refine .of_keys rfl rfl rfl rfl ?_
    rw [hst]
    exact Nat.le_succ _
  | reconcile hst =>
    refine .of_keys rfl rfl rfl (QuotaLedger.keys_reconciledReceipt _ _ _) ?_
    rcases hst with hst | hst
    · rw [hst]
      exact Nat.le_add_right 1 2
    · rw [hst]
      exact Nat.le_succ 2
  | refund hst | recoverReserved hst => exact .refunded hst
  | erased hscopes =>
    refine .stored rfl rfl rfl hscopes (fun scope hscope hgone => ?_) le_rfl
    refine ⟨call, List.mem_singleton_self _, ?_⟩
    rw [QuotaLedger.mem_keys_erasedReceipt, not_and, Bool.not_eq_false] at hgone
    exact hgone hscope
  | pruned he | prunedTombstone he => exact absurd (hkept _ _ rfl rfl) (by omega)

namespace QuotaLedger

variable {ledger ledger' : QuotaLedger} {receiptId : Text} {receipt : StoredQuotaReceipt}

variable (hs : Sound ledger)
include hs

variable (cs : List QuotaCall)
include cs

theorem sound_run : Sound (runQuota ledger cs) :=
  run_invariant hs (fun _ call hs => (call_step hs call).2) cs

theorem evolves_from (hlife : ledger.life receiptId = life) (he : life.epoch? = some epoch)
    (hkept : ∀ bound, .prune bound ∈ cs → bound ≤ epoch) :
    Evolves cs life ((runQuota ledger cs).life receiptId) := by
  induction cs using List.reverseRecOn with
  | nil => exact hlife ▸ .refl _
  | append_singleton cs call ih =>
    have hf := ih fun bound hmem => hkept bound (by simp [hmem])
    have hlast := life_step (sound_run hs cs) call receiptId
    rw [runQuota, run_snoc]
    refine hf.trans (hlast.evolves fun bound epoch' heq he' => ?_)
    obtain rfl : epoch' = epoch := Option.some.inj (he'.symm.trans (hf.epoch_eq he))
    exact hkept bound (by simp [heq])

/-- Between two prunings of its epoch a life evolves. -/
theorem life_evolves (hkept : ∀ bound epoch, .prune bound ∈ cs →
      (ledger.life receiptId).epoch? = some epoch → bound ≤ epoch) :
    Evolves cs (ledger.life receiptId) ((runQuota ledger cs).life receiptId) := by
  cases hst : ledger.life receiptId with
  | unknown => exact .unknown _
  | stored receipt =>
    exact evolves_from hs cs hst rfl fun bound hmem =>
      hkept bound receipt.epoch hmem (by rw [hst]; rfl)
  | refunded epoch =>
    exact evolves_from hs cs hst rfl fun bound hmem =>
      hkept bound epoch hmem (by rw [hst]; rfl)

end QuotaLedger

/-! ## Repeated calls -/

/-- The identifier that a call on one receipt names. -/
def QuotaCall.target : QuotaCall → Option Text
  | .reserve request _ => some request.receiptId
  | .markInvoked receiptId | .refund receiptId | .retain receiptId
  | .reconcile receiptId _ _ | .charge receiptId _ _ => some receiptId
  | .usage _ | .recover _ | .prune _ | .eraseAgent _ | .eraseTenant _ => none

/-- The call was accepted: it answered without an error, and it is no denied reservation. -/
def accepted : Except QuotaError QuotaReply → Bool
  | .ok (.outcome (.denied _ _ _ _ _ _)) | .error _ => false
  | .ok _ => true

/-- What an accepted call on a receipt leaves of its life. -/
def QuotaCall.Done (life : ReceiptLife) : QuotaCall → Prop
  | .reserve _ _ | .charge _ _ _ => ∃ receipt, life = .stored receipt
  | .markInvoked _ => ∃ receipt, life = .stored receipt ∧ receipt.state ≠ .reserved
  | .retain _ => ∃ receipt, life = .stored receipt ∧ 2 ≤ receipt.state.rank
  | .reconcile _ _ _ => ∃ receipt, life = .stored receipt ∧ receipt.state = .reconciled
  | .refund _ => ∃ epoch, life = .refunded epoch
  | .usage _ | .recover _ | .prune _ | .eraseAgent _ | .eraseTenant _ => False

/-- What is left of it later: a reservation may have been refunded. -/
def QuotaCall.Past (life : ReceiptLife) : QuotaCall → Prop
  | .reserve _ _ | .charge _ _ _ => life ≠ .unknown
  | call => call.Done life

theorem QuotaCall.Done.past (h : call.Done life) : call.Past life := by
  cases call with
  | reserve | charge =>
    obtain ⟨receipt, rfl⟩ := h
    exact fun hunknown => by cases hunknown
  | _ => exact h

/-- The call changes neither receipts nor aggregates. -/
def KeepsTables (ledger : QuotaLedger) (call : QuotaCall) : Prop :=
  (ledger.call call).2.receipts = ledger.receipts ∧
    (ledger.call call).2.aggregates = ledger.aggregates

theorem KeepsTables.of_eq {ledger : QuotaLedger} {floor : Option Nat}
    (h : (ledger.call call).2 = { ledger with floor }) : KeepsTables ledger call := by
  rw [KeepsTables, h]
  exact ⟨rfl, rfl⟩

theorem KeepsTables.of_same {ledger : QuotaLedger} (h : (ledger.call call).2 = ledger) :
    KeepsTables ledger call := by
  rw [KeepsTables, h]
  exact ⟨rfl, rfl⟩

theorem rank_eq_three (h : 3 ≤ state.rank) : state = .reconciled := by
  cases state with
  | reserved | inFlight | estimated => exact absurd h (by decide)
  | reconciled => rfl

theorem rank_pos : 0 < state.rank ↔ state ≠ .reserved := by
  cases state with
  | reserved | inFlight | estimated | reconciled => simp [ProviderRateReceiptState.rank]

/-- What is done stays done, except that a reservation may be refunded. -/
theorem Evolves.past (h : Evolves calls life life') (hdone : call.Past life) : call.Past life' := by
  have hsto : ∀ receipt, life = .stored receipt → receipt.state ≠ .reserved →
      ∃ receipt', life' = .stored receipt' ∧ receipt.state.rank ≤ receipt'.state.rank := by
    rintro receipt rfl hst
    cases h with
    | stored _ _ _ _ _ hrank => exact ⟨_, rfl, hrank⟩
    | refunded hr => exact absurd hr hst
  have hk : life ≠ .unknown → life' ≠ .unknown := by
    intro hne hu
    cases h with
    | unknown => exact hne rfl
    | stored | refunded | tombstone => cases hu
  cases call with
  | reserve req path | charge receiptId asked tokens => exact hk hdone
  | markInvoked receiptId =>
    obtain ⟨receipt, hlife, hst⟩ := hdone
    obtain ⟨receipt', hlife', hrank⟩ := hsto receipt hlife hst
    exact ⟨receipt', hlife', rank_pos.1 ((rank_pos.2 hst).trans_le hrank)⟩
  | retain receiptId =>
    obtain ⟨receipt, hlife, hst⟩ := hdone
    obtain ⟨receipt', hlife', hrank⟩ := hsto receipt hlife
      (rank_pos.1 (Nat.lt_of_lt_of_le (by decide) hst))
    exact ⟨receipt', hlife', hst.trans hrank⟩
  | reconcile receiptId reqs tokens =>
    obtain ⟨receipt, hlife, hst⟩ := hdone
    obtain ⟨receipt', hlife', hrank⟩ := hsto receipt hlife (by simp [hst])
    rw [hst] at hrank
    exact ⟨receipt', hlife', rank_eq_three hrank⟩
  | refund receiptId =>
    obtain ⟨epoch, rfl⟩ := hdone
    cases h with
    | tombstone => exact ⟨epoch, rfl⟩
  | _ => exact hdone.elim

namespace QuotaLedger

variable {ledger ledger' : QuotaLedger} {receiptId : Text} {receipt : StoredQuotaReceipt}

/-- A life that is known but not stored is refunded. -/
theorem refunded_of_known (hk : ledger.life receiptId ≠ .unknown)
    (h : ledger.receipts[receiptId]? = none) : receiptId ∈ ledger.refunded := by
  cases hr : ledger.refunded[receiptId]? with
  | none => exact absurd (life_of_unknown h hr) hk
  | some epoch => exact OrdMap.mem_of_lookup hr

theorem lookup_of_life_refunded (h : ledger.life receiptId = .refunded epoch) :
    ledger.receipts[receiptId]? = none ∧ ledger.refunded[receiptId]? = some epoch := by
  unfold life at h
  split at h
  · cases h
  · next hnone hsome =>
    cases h
    exact ⟨hnone, hsome⟩
  · cases h

/-- A call whose work is done writes no table. -/
theorem Sound.keeps_of_past (hs : Sound ledger) (ht : call.target = some receiptId)
    (hdone : call.Past (ledger.life receiptId)) : KeepsTables ledger call := by
  cases call with
  | reserve req path =>
    cases ht
    cases h : ledger.receipts[req.receiptId]? with
    | some receipt =>
      obtain ⟨fl, -, hkept⟩ := hs.reserve_of_some path.constraints h
      exact .of_eq hkept
    | none =>
      rcases hs.reserve_of_none path h with ⟨e, he⟩ | hd | ha
      · exact .of_same (congrArg Prod.snd he)
      · obtain ⟨_, _, _, _, _, _, hr⟩ := hd
        exact .of_eq (congrArg Prod.snd hr)
      · obtain ⟨_, _, -, -, hf, -⟩ := ha
        exact absurd (refunded_of_known hdone h) hf
  | charge id asked tokens =>
    cases ht
    cases h : ledger.receipts[receiptId]? with
    | some receipt =>
      obtain ⟨fl, -, hkept⟩ := hs.charge_of_some h asked tokens
      exact .of_eq hkept
    | none =>
      rcases hs.charge_of_none h asked tokens with he | ⟨hf, -⟩
      · exact .of_same (congrArg Prod.snd he)
      · exact absurd (refunded_of_known hdone h) hf
  | markInvoked id =>
    cases ht
    obtain ⟨receipt, hlife, hst⟩ := hdone
    have hr := hs.markInvoked_of_some (life_eq_stored.1 hlife)
    rw [if_neg hst] at hr
    exact .of_same (congrArg Prod.snd hr)
  | retain id =>
    cases ht
    obtain ⟨receipt, hlife, hrank⟩ := hdone
    have hr := hs.retain_of_some (life_eq_stored.1 hlife)
    refine .of_same ((congrArg Prod.snd hr).trans ?_)
    cases hst : receipt.state with
    | reserved => rfl
    | inFlight => rw [hst] at hrank; exact absurd hrank (by decide)
    | estimated => rfl
    | reconciled => rfl
  | reconcile id reqs tokens =>
    cases ht
    obtain ⟨receipt, hlife, hst⟩ := hdone
    have h := life_eq_stored.1 hlife
    rcases hs.reconcile_cases receiptId reqs tokens with
      ⟨e, hr, -⟩ | ⟨sto, hsto, -, hc⟩
    · exact .of_same (congrArg Prod.snd hr)
    · obtain rfl : receipt = sto := Option.some.inj (h.symm.trans hsto)
      rcases hc with ⟨hr, -⟩ | ⟨hi, -⟩
      · exact .of_same (congrArg Prod.snd hr)
      · rw [hst] at hi
        exact absurd hi (by simp)
  | refund id =>
    cases ht
    obtain ⟨epoch, hlife⟩ := hdone
    obtain ⟨hnone, -⟩ := lookup_of_life_refunded hlife
    rcases hs.refund_cases receiptId with ⟨hr, -⟩ | ⟨hr, -⟩ | ⟨receipt, h, -⟩
    · exact .of_same (congrArg Prod.snd hr)
    · exact .of_same (congrArg Prod.snd hr)
    · rw [hnone] at h
      cases h
  | _ => cases ht

theorem stored_of_eq (heq : ledger = ledger') (h : ledger'.receipts[receiptId]? = some receipt) :
    ∃ receipt, ledger.life receiptId = .stored receipt :=
  ⟨receipt, by rw [heq, life_of_stored h]⟩

theorem done_of_eq (ledger' : QuotaLedger) (heq : ledger = ledger')
    (h : call.Done (ledger'.life receiptId)) : call.Done (ledger.life receiptId) := heq ▸ h

theorem Sound.done_reserve (hs : Sound ledger) {req : ProviderRateRequest} {path : CgroupPath}
    (ha : accepted (ledger.call (.reserve req path)).1 = true) :
    QuotaCall.Done ((ledger.call (.reserve req path)).2.life req.receiptId)
      (.reserve req path) := by
  cases h : ledger.receipts[req.receiptId]? with
  | some receipt =>
    obtain ⟨fl, -, hkept⟩ := hs.reserve_of_some path.constraints h
    exact stored_of_eq hkept h
  | none =>
    rcases hs.reserve_of_none path h with ⟨e, he⟩ | hd | had
    · simp [QuotaLedger.call, he, accepted, Except.map] at ha
    · obtain ⟨_, _, _, _, _, _, hr⟩ := hd
      simp [QuotaLedger.call, hr, accepted, Except.map] at ha
    · obtain ⟨receipt, ledger', -, -, -, -, hr, hf⟩ := had
      exact @stored_of_eq _ ledger' _ _ (congrArg Prod.snd hr)
        (by rw [hf.receipts, OrdMap.lookup_insert_self])

theorem Sound.done_charge (hs : Sound ledger) {asked tokens : Nat}
    (ha : accepted (ledger.call (.charge receiptId asked tokens)).1 = true) :
    QuotaCall.Done ((ledger.call (.charge receiptId asked tokens)).2.life receiptId)
      (.charge receiptId asked tokens) := by
  cases h : ledger.receipts[receiptId]? with
  | some receipt =>
    obtain ⟨fl, -, hkept⟩ := hs.charge_of_some h asked tokens
    exact stored_of_eq hkept h
  | none =>
    rcases hs.charge_of_none h asked tokens with
      he | ⟨-, ledger', hr, hf⟩
    · simp [QuotaLedger.call, he, accepted, Except.map] at ha
    · exact @stored_of_eq _ ledger' _ _ (congrArg Prod.snd hr)
        (by rw [hf.receipts, OrdMap.lookup_insert_self])

theorem Sound.done_markInvoked (hs : Sound ledger)
    (ha : accepted (ledger.call (.markInvoked receiptId)).1 = true) :
    QuotaCall.Done ((ledger.call (.markInvoked receiptId)).2.life receiptId)
      (.markInvoked receiptId) := by
  cases h : ledger.receipts[receiptId]? with
  | none => simp [QuotaLedger.call, markInvoked_of_none h, accepted, Except.map] at ha
  | some receipt =>
    show QuotaCall.Done ((ledger.markProviderRateInvoked receiptId).2.life receiptId) _
    rw [hs.markInvoked_of_some h]
    show QuotaCall.Done ((if receipt.state = .reserved then
      ledger.setState receiptId receipt .inFlight else ledger).life receiptId) _
    by_cases hst : receipt.state = .reserved
    · rw [if_pos hst]
      exact ⟨_, life_of_stored (OrdMap.lookup_insert_self _ _ _), by simp⟩
    · rw [if_neg hst]
      exact ⟨receipt, life_of_stored h, hst⟩

theorem Sound.done_retain (hs : Sound ledger)
    (ha : accepted (ledger.call (.retain receiptId)).1 = true) :
    QuotaCall.Done ((ledger.call (.retain receiptId)).2.life receiptId) (.retain receiptId) := by
  cases h : ledger.receipts[receiptId]? with
  | none => simp [QuotaLedger.call, retain_of_none h, accepted, Except.map] at ha
  | some receipt =>
    have hr := hs.retain_of_some h
    show QuotaCall.Done ((ledger.retainProviderRateEstimate receiptId).2.life receiptId) _
    cases hst : receipt.state with
    | reserved =>
      rw [hst] at hr
      simp [QuotaLedger.call, hr, accepted, Except.map] at ha
    | inFlight =>
      rw [hr, hst]
      exact ⟨_, life_of_stored (OrdMap.lookup_insert_self _ _ _), Nat.le_refl 2⟩
    | estimated | reconciled =>
      rw [hr, hst]
      exact ⟨receipt, life_of_stored h, by rw [hst]; decide⟩

theorem Sound.done_reconcile (hs : Sound ledger) {reqs : Option Nat} {tokens : Nat}
    (ha : accepted (ledger.call (.reconcile receiptId reqs tokens)).1 = true) :
    QuotaCall.Done ((ledger.call (.reconcile receiptId reqs tokens)).2.life receiptId)
      (.reconcile receiptId reqs tokens) := by
  rcases hs.reconcile_cases receiptId reqs tokens with
    ⟨e, hr, -⟩ | ⟨receipt, h, -, hc⟩
  · simp [QuotaLedger.call, hr, accepted, Except.map] at ha
  · rcases hc with ⟨hr, hst⟩ | ⟨-, ledger', hr, hf, -⟩
    · exact done_of_eq ledger (congrArg Prod.snd hr) ⟨receipt, life_of_stored h, hst⟩
    · exact done_of_eq ledger' (congrArg Prod.snd hr)
        ⟨_, life_of_stored (by rw [hf.receipts, OrdMap.lookup_insert_self]), rfl⟩

theorem Sound.done_refund (hs : Sound ledger)
    (ha : accepted (ledger.call (.refund receiptId)).1 = true) :
    QuotaCall.Done ((ledger.call (.refund receiptId)).2.life receiptId) (.refund receiptId) := by
  rcases hs.refund_cases receiptId with ⟨hr, -⟩ | ⟨hr, hnone, hmem⟩ | ⟨receipt, h, hc⟩
  · simp [QuotaLedger.call, hr, accepted, Except.map] at ha
  · obtain ⟨epoch, hep⟩ := OrdMap.exists_lookup hmem
    exact done_of_eq ledger (congrArg Prod.snd hr) ⟨epoch, life_of_refunded hnone hep⟩
  · rcases hc with ⟨hr, -⟩ | ⟨-, ledger', hr, hf⟩
    · simp [QuotaLedger.call, hr, accepted, Except.map] at ha
    · refine done_of_eq ledger' (congrArg Prod.snd hr) ⟨receipt.epoch, life_of_refunded ?_ ?_⟩
      · rw [hf.receipts, OrdMap.lookup_erase, if_pos rfl]
      · rw [hf.refunded, OrdMap.lookup_insert_self]

/-- An accepted call on a receipt has done its work. -/
theorem Sound.done_of_accepted (hs : Sound ledger) (ht : call.target = some receiptId)
    (ha : accepted (ledger.call call).1 = true) :
    call.Done ((ledger.call call).2.life receiptId) := by
  cases call with
  | reserve =>
    cases ht
    exact hs.done_reserve ha
  | charge =>
    cases ht
    exact hs.done_charge ha
  | markInvoked =>
    cases ht
    exact hs.done_markInvoked ha
  | retain =>
    cases ht
    exact hs.done_retain ha
  | reconcile =>
    cases ht
    exact hs.done_reconcile ha
  | refund =>
    cases ht
    exact hs.done_refund ha
  | _ => cases ht

theorem isActive_recoveredReceipt {receipt' : StoredQuotaReceipt}
    (h : recoveredReceipt receipt = some receipt') : isActive receipt'.state = false := by
  unfold recoveredReceipt at h
  cases hst : receipt.state with
  | reserved => simp [hst] at h
  | inFlight =>
    obtain rfl : { receipt with state := .estimated } = receipt' := by simpa [hst] using h
    rfl
  | estimated | reconciled =>
    obtain rfl : receipt = receipt' := by simpa [hst] using h
    simp [hst, isActive]

/-- Erased scopes stay erased. -/
theorem eraseScopes_idempotent (erased : Text → Bool) :
    ((ledger.eraseScopes erased).eraseScopes erased).receipts =
        (ledger.eraseScopes erased).receipts ∧
      ((ledger.eraseScopes erased).eraseScopes erased).aggregates =
        (ledger.eraseScopes erased).aggregates := by
  constructor
  · refine Std.ExtTreeMap.ext_getElem? fun receiptId => ?_
    have hl : ∀ ledger : QuotaLedger, (ledger.eraseScopes erased).receipts[receiptId]? =
        ledger.receipts[receiptId]?.map (erasedReceipt erased) :=
      fun ledger => Std.ExtTreeMap.getElem?_map
    rw [hl, hl, Option.map_map]
    refine congrArg (Option.map · _) (funext fun receipt => ?_)
    simp [erasedReceipt, List.filter_filter]
  · refine (OrdMap.filter_filter _ _ _).trans (OrdMap.filter_congr fun key v _ => ?_)
    exact Bool.and_self _

/-- An accepted call that is repeated at once writes no table. -/
theorem Sound.repeat_keeps (hs : Sound ledger) (call : QuotaCall)
    (ha : accepted (ledger.call call).1 = true) : KeepsTables (ledger.call call).2 call := by
  have hso := (call_step hs call).2
  cases ht : call.target with
  | some receiptId => exact hso.keeps_of_past ht (hs.done_of_accepted ht ha).past
  | none =>
    cases call with
    | usage asked =>
      obtain ⟨hstep, -⟩ := call_step hso (.usage asked)
      generalize hl : (ledger.call (.usage asked)).2 = first at *
      generalize hse : (first.call (.usage asked)).2 = second at hstep
      cases hstep with
      | kept hf => exact .of_eq hse
    | recover asked =>
      obtain ⟨recovery, ledger', hr, hso', -, hrc⟩ := hs.recover_eq asked
      have hl : (ledger.call (.recover asked)).2 = ledger' :=
        congrArg Prod.snd hr
      rw [hl]
      refine .of_eq (hso'.recover_of_inactive asked fun receiptId receipt h => ?_)
      rw [hrc] at h
      obtain ⟨prior, -, hre⟩ := Option.bind_eq_some_iff.1 h
      exact isActive_recoveredReceipt hre
    | prune bound =>
      obtain ⟨count, hr⟩ := hs.prune_eq bound
      have hl : (ledger.call (.prune bound)).2 = ledger.without fun epoch =>
        decide (epoch < bound) && ledger.quiet epoch := congrArg Prod.snd hr
      have hq : ∀ epoch, (ledger.without fun epoch =>
          decide (epoch < bound) && ledger.quiet epoch).quiet epoch =
            ledger.quiet epoch :=
        quiet_without fun epoch hgone => (Bool.and_eq_true_iff.1 hgone).2
      rw [hl] at hso ⊢
      obtain ⟨count', hr'⟩ := hso.prune_eq bound
      refine .of_same ((congrArg Prod.snd hr').trans ?_)
      simp only [hq]
      rw [without_without]
      simp only [Bool.or_self]
    | eraseAgent agentId =>
      show ((ledger.eraseAgent agentId).eraseAgent agentId).receipts = _ ∧ _
      exact eraseScopes_idempotent _
    | eraseTenant tid =>
      show ((ledger.eraseTenant tid).eraseTenant tid).receipts = _ ∧ _
      exact eraseScopes_idempotent _
    | _ => cases ht

theorem floor_le_trans {fst second third : Option Nat} (h : Advances (· ≤ ·) fst second)
    (h' : Advances (· ≤ ·) second third) : Advances (· ≤ ·) fst third := by
  refine Advances.trans ?_ h h'
  intro a b c hab hbc
  exact Nat.le_trans hab hbc

/-- The floor only advances. -/
theorem floor_advances (hs : Sound ledger) (call : QuotaCall) :
    Advances (· ≤ ·) ledger.floor (ledger.call call).2.floor := by
  obtain ⟨hstep, -⟩ := call_step hs call
  generalize (ledger.call call).2 = ledger' at hstep ⊢
  cases hstep with
  | kept hf => exact hf
  | admitted | charged | recovered => exact advances_effective _
  | _ => exact Advances.refl Nat.le_refl _

end QuotaLedger

/-- Receipts are affine. One call moves the life of an identifier by one step of its state machine,
and an accepted call on the identifier has done its work. As long as its epoch is not pruned, a life
evolves: the state climbs, an invoked receipt is never refunded, a refunded one stays refunded, and
the reservation stays except for scopes that an erasure of their agent or tenant takes from the
leaf. A stored receipt counts once in the aggregate of each of its scopes, in its epoch only. An
accepted call that is repeated, at once or later, writes no table, and the floor only advances. -/
theorem receipts_affine (floor : Option Nat) (fence : OrdSet Nat) (earlier later : List QuotaCall)
    (receiptId : Text) :
    let ledger := runQuota (.empty floor fence) earlier
    let ledger' := runQuota (.empty floor fence) (earlier ++ later)
    (∀ call,
      LifeStep ledger receiptId call (ledger.life receiptId) ((ledger.call call).2.life receiptId) ∧
      (call.target = some receiptId → accepted (ledger.call call).1 = true →
        call.Done ((ledger.call call).2.life receiptId))) ∧
    ((∀ beforeEpoch epoch, .prune beforeEpoch ∈ later →
        (ledger.life receiptId).epoch? = some epoch → beforeEpoch ≤ epoch) →
      Evolves later (ledger.life receiptId) (ledger'.life receiptId)) ∧
    (∀ receipt, ledger.receipts[receiptId]? = some receipt →
      receipt.keys.Nodup ∧ ∀ key : ScopeEpoch, ledger.aggregates[key]?.getD (0, 0) = clamp u64Max
        ((if key.epoch = receipt.epoch ∧ key.scope ∈ receipt.keys then receipt.contributionTo key
          else 0) + receiptTally.total (ledger.receipts.erase receiptId) key)) ∧
    (∀ call, accepted (ledger.call call).1 = true → KeepsTables (ledger.call call).2 call) ∧
    (∀ call, call.target = some receiptId → accepted (ledger.call call).1 = true →
      (∀ beforeEpoch epoch, .prune beforeEpoch ∈ later →
        ((ledger.call call).2.life receiptId).epoch? = some epoch → beforeEpoch ≤ epoch) →
      KeepsTables (runQuota (.empty floor fence) (earlier ++ call :: later)) call) ∧
    Advances (· ≤ ·) ledger.floor ledger'.floor := by
  intro ledger ledger'
  have hs : ledger.Sound := QuotaLedger.sound_runQuota floor fence earlier
  refine ⟨fun call => ⟨QuotaLedger.life_step hs call receiptId, hs.done_of_accepted⟩,
    ?_, ?_, ?_, ?_, ?_⟩
  · intro hkept
    have hrun : ledger' = runQuota ledger later := run_append _ _ _ _
    rw [hrun]
    exact QuotaLedger.life_evolves hs later hkept
  · intro receipt h
    obtain ⟨cgroups, hwf⟩ := hs.wellFormed h
    refine ⟨hwf.nodup_keys, fun key => ?_⟩
    rw [(hs.cached key).getD, receiptTally.total_of_lookup h, Tally.share]
    congr 2
    by_cases hcounts : receiptTally.counts receipt key = true
    · obtain ⟨hepoch, hscope⟩ := (counts_iff receipt key).1 hcounts
      rw [if_pos hcounts, if_pos ⟨hepoch.symm, hscope⟩]
      rfl
    · rw [if_neg hcounts, if_neg]
      rintro ⟨hepoch, hscope⟩
      exact hcounts ((counts_iff receipt key).2 ⟨hepoch.symm, hscope⟩)
  · exact fun call haccepted => hs.repeat_keeps call haccepted
  · intro call htarget haccepted hkept
    have hrun : runQuota (.empty floor fence) (earlier ++ call :: later) =
        runQuota (ledger.call call).2 later := run_append _ _ _ _
    have hsound := (QuotaLedger.call_step hs call).2
    rw [hrun]
    exact (QuotaLedger.sound_run hsound later).keeps_of_past htarget
      ((QuotaLedger.life_evolves hsound later hkept).past
        (hs.done_of_accepted htarget haccepted).past)
  · exact run_related (R := fun s t => Advances (· ≤ ·) s.floor t.floor)
      (fun _ => Advances.refl Nat.le_refl _) (fun _ _ _ => QuotaLedger.floor_le_trans)
      (QuotaLedger.sound_empty floor fence) (fun _ call hs => (QuotaLedger.call_step hs call).2)
      (fun _ call hs => QuotaLedger.floor_advances hs call) earlier later

/-- No reservation that a crash left open pins its epoch: a pruning after the recovery removes every
row below its bound, and no other row. -/
theorem recovery_unpins_epochs (floor : Option Nat) (fence : OrdSet Nat) (calls : List QuotaCall)
    (asked bound : Nat) :
    let ledger := runQuota (.empty floor fence) (calls ++ [.recover asked])
    (ledger.pruneProviderRateEpochs bound).2 = ledger.without (· < bound) := by
  obtain ⟨recovery, ledger, hr, hs, -, hrows⟩ :=
    (QuotaLedger.sound_runQuota floor fence calls).recover_eq asked
  have hrun : runQuota (.empty floor fence) (calls ++ [.recover asked]) = ledger :=
    (run_snoc ..).trans (congrArg Prod.snd hr)
  have hquiet : ∀ epoch, ledger.quiet epoch = true := by
    refine fun epoch => (QuotaLedger.quiet_iff ledger epoch).2 fun receiptId receipt h _ => ?_
    rw [hrows] at h
    obtain ⟨prior, -, hre⟩ := Option.bind_eq_some_iff.1 h
    exact QuotaLedger.isActive_recoveredReceipt hre
  obtain ⟨pruned, hp⟩ := hs.prune_eq bound
  simp [hrun, hp, hquiet]

end AgentOS
