import AgentOS.Base.Uuid
import AgentOS.Base.Word
import AgentOS.Lib.Durable
import AgentOS.Raft.Types

/-!
# The provider quota ledger

The quota tables of `SqliteContextManager` and the calls that read and write them: receipts of
provider requests with the scopes they count towards, one aggregate for each scope and epoch,
tombstones of refunded receipts, and the epoch floor. Each call is one transaction. Scope rows
reference their receipt with a cascading foreign key, so the model keeps them in the receipt, in
scope order; receipt identifiers are the texts of UUIDs.
-/

namespace AgentOS

open Lib

/-! ## Scopes -/

inductive QuotaScopeKind where
  | provider
  | cgroup
  deriving DecidableEq

structure QuotaScopeKey where
  kind : QuotaScopeKind
  id : Text
  deriving DecidableEq

def providerQuotaScopeId : Text := "global".toList

namespace QuotaScopeKey

def providerGlobal : QuotaScopeKey := ⟨.provider, providerQuotaScopeId⟩

/-- `QuotaScopeKey::cgroup`. -/
def ofCgroup (scopeId : Text) : QuotaScopeKey := ⟨.cgroup, scopeId⟩

end QuotaScopeKey

/-- The primary key of `quota_epochs`. -/
structure ScopeEpoch where
  scope : QuotaScopeKey
  epoch : Nat
  deriving DecidableEq

namespace ScopeEpoch

/-- The kind of a key, as a number. -/
def kindIndex (key : ScopeEpoch) : Nat :=
  match key.scope.kind with
  | .provider => 0
  | .cgroup => 1

/-- The derived order: kind, scope and epoch. -/
def cmp : ScopeEpoch → ScopeEpoch → Ordering :=
  compareLex (compareOn kindIndex)
    (compareLex (compareOn fun key => key.scope.id) (compareOn ScopeEpoch.epoch))

instance : Ord ScopeEpoch := ⟨cmp⟩

instance : Std.TransOrd ScopeEpoch :=
  inferInstanceAs (Std.TransCmp (compareLex (compareOn kindIndex)
    (compareLex (compareOn fun key => key.scope.id) (compareOn ScopeEpoch.epoch))))

instance : Std.LawfulEqOrd ScopeEpoch where
  eq_of_compare {a b} h := by
    have h : (compare a.kindIndex b.kindIndex).then
        ((compare a.scope.id b.scope.id).then (compare a.epoch b.epoch)) = .eq := h
    rw [Ordering.then_eq_eq, Ordering.then_eq_eq] at h
    simp only [Std.LawfulEqOrd.compare_eq_iff_eq] at h
    obtain ⟨hkind, hid, hepoch⟩ := h
    obtain ⟨⟨kind, id⟩, epoch⟩ := a
    obtain ⟨⟨kind', id'⟩, epoch'⟩ := b
    obtain rfl : id = id' := hid
    obtain rfl : epoch = epoch' := hepoch
    cases kind with
    | provider =>
      cases kind' with
      | provider => rfl
      | cgroup => exact absurd hkind (by simp [kindIndex])
    | cgroup =>
      cases kind' with
      | provider => exact absurd hkind (by simp [kindIndex])
      | cgroup => rfl

end ScopeEpoch

/-! ## Rows -/

inductive ProviderRateReceiptState where
  | reserved
  | inFlight
  | estimated
  | reconciled
  deriving DecidableEq

/-- `StoredQuotaScope`: a row of `quota_receipt_scopes`. -/
structure StoredQuotaScope where
  key : QuotaScopeKey
  (order reservedRequests reservedTokens : Nat)
  (actualRequests actualTokens : Option Nat)
  deriving DecidableEq

/-- `StoredQuotaReceipt`: a row of `quota_receipts`, with its scope rows. -/
structure StoredQuotaReceipt where
  epoch : Nat
  state : ProviderRateReceiptState
  (reservedRequests reservedTokens : Nat)
  (actualRequests actualTokens : Option Nat)
  scopes : List StoredQuotaScope
  deriving DecidableEq

/-- The quota tables. -/
structure QuotaLedger where
  receipts : OrdMap Text StoredQuotaReceipt
  aggregates : OrdMap ScopeEpoch (Nat × Nat)
  refunded : OrdMap Text Nat
  floor : Option Nat
  fence : OrdSet Nat

/-- A ledger without receipts. A database that was migrated from a release without quotas starts
with fenced epochs. -/
def QuotaLedger.empty (floor : Option Nat) (fence : OrdSet Nat) : QuotaLedger :=
  ⟨∅, ∅, ∅, floor, fence⟩

/-- The errors of the ledger; each is reported with the text given here after
`durable quota accounting unavailable: `. -/
inductive QuotaError where
  /-- `invalid {kind:?} quota scope id` -/
  | invalidScopeId (kind : QuotaScopeKind)
  /-- `only the provider/global scope is supported` -/
  | unsupportedProvider
  /-- `stable cgroup quota scopes must be absolute canonical paths` -/
  | relativeCgroup
  /-- `reconciled quota receipt is missing actual usage` -/
  | missingActual
  /-- `unreconciled quota receipt unexpectedly has actual usage` -/
  | unexpectedActual
  /-- `quota receipt scope order is negative or oversized` -/
  | oversizedOrder
  /-- `receipt {id} disagrees with associated scope {scope:?}` -/
  | scopeDisagrees (receiptId : Text) (scope : QuotaScopeKey)
  /-- `provider receipt {id} has no quota scopes` -/
  | noScopes (receiptId : Text)
  /-- `too many quota scopes on one receipt` -/
  | tooManyReceiptScopes
  /-- `receipt {id} has non-contiguous scope ordering` -/
  | nonContiguous (receiptId : Text)
  /-- `receipt {id} scope zero is not provider/global` -/
  | scopeZero (receiptId : Text)
  /-- `receipt {id} has a non-cgroup scope after provider/global` -/
  | nonCgroup (receiptId : Text)
  /-- `quota receipt {id} disappeared from scope {scope:?}` -/
  | scopeDisappeared (receiptId : Text) (scope : QuotaScopeKey)
  /-- `quota scope {scope:?} epoch {epoch} is missing its aggregate` -/
  | missingAggregate (scope : QuotaScopeKey) (epoch : Nat)
  /-- `quota scope {scope:?} epoch {epoch} {dimension} aggregate underflow` -/
  | aggregateUnderflow (scope : QuotaScopeKey) (epoch : Nat) (dimension : String)
  /-- `quota scope {scope:?} epoch {epoch} aggregate {value:?} disagrees with receipts
  {expected:?}` -/
  | aggregateDisagrees (scope : QuotaScopeKey) (epoch : Nat) (value expected : Nat × Nat)
  /-- `provider attempt reservation must include at least one request` -/
  | emptyReservation
  /-- `duplicate cgroup quota scope {id:?}` -/
  | duplicateScope (scopeId : Text)
  /-- `too many cgroup quota scopes` -/
  | tooManyScopes
  /-- `quota receipt {id} was reused with conflicting reservation data` -/
  | conflictingReservation (receiptId : Text)
  /-- `quota receipt {id} was reused with different cgroup scopes` -/
  | differentScopes (receiptId : Text)
  /-- `refunded quota receipt {id} cannot be reused` -/
  | refundedReuse (receiptId : Text)
  /-- `unknown quota receipt {id}` -/
  | unknownReceipt (receiptId : Text)
  /-- `quota receipt {id} cannot be refunded after provider invocation` -/
  | afterInvocation (receiptId : Text)
  /-- `quota receipt {id} was not marked invoked` -/
  | notInvoked (receiptId : Text)
  /-- `quota receipt {id} actual request count {actual} is outside reserved range 1..={reserved}` -/
  | actualOutOfRange (receiptId : Text) (actual reserved : Nat)
  /-- `quota receipt {id} was reconciled with different usage` -/
  | differentUsage (receiptId : Text)
  /-- `quota receipt {id} was reused with conflicting token charge` -/
  | conflictingCharge (receiptId : Text)
  /-- `failed to tombstone refunded receipt`: the tombstone exists. -/
  | duplicateTombstone (receiptId : Text)
  deriving DecidableEq

/-! ## Reading receipts -/

def validateQuotaScopeKey (scope : QuotaScopeKey) : Except QuotaError Unit := do
  rejectIf (scope.id = [] ∨ 1024 < byteLength scope.id ∨ '\x00' ∈ scope.id)
    (.invalidScopeId scope.kind)
  match scope.kind with
  | .provider => rejectIf (scope.id ≠ providerQuotaScopeId) .unsupportedProvider
  | .cgroup => rejectIf (scope.id.head? ≠ some '/') .relativeCgroup

variable (receipt : StoredQuotaReceipt)

/-- The check of `load_quota_receipt` on the actual usage. -/
def checkActualUsage : Except QuotaError Unit :=
  match receipt.state with
  | .reconciled =>
    rejectIf (receipt.actualRequests = none ∨ receipt.actualTokens = none) .missingActual
  | .reserved | .inFlight | .estimated =>
    rejectIf (receipt.actualRequests ≠ none ∨ receipt.actualTokens ≠ none) .unexpectedActual

variable (ledger : QuotaLedger)

def QuotaLedger.loadQuotaReceipt (receiptId : Text) :
    Except QuotaError (Option StoredQuotaReceipt) :=
  match ledger.receipts[receiptId]? with
  | none => return none
  | some receipt => do
      checkActualUsage receipt
      return some receipt

/-- `load_quota_receipt`, where a missing receipt is an error. -/
def QuotaLedger.requireQuotaReceipt (receiptId : Text) :
    Except QuotaError StoredQuotaReceipt := do
  orReject (← ledger.loadQuotaReceipt receiptId) (.unknownReceipt receiptId)

/-- The requests that a scope of a kind counts. -/
def scopeRequests (kind : QuotaScopeKind) (requests : Nat) : Nat :=
  match kind with
  | .provider => requests
  | .cgroup => 0

variable (receiptId : Text)

/-- The check of one scope row against its receipt. -/
def checkScopeRow (receipt : StoredQuotaReceipt) (scope : StoredQuotaScope) :
    Except QuotaError Unit := do
  rejectIf (u32Max < scope.order) .oversizedOrder
  validateQuotaScopeKey scope.key
  rejectIf
    (scope.reservedRequests ≠ scopeRequests scope.key.kind receipt.reservedRequests ∨
      scope.reservedTokens ≠ receipt.reservedTokens ∨
      scope.actualRequests ≠ receipt.actualRequests.map (scopeRequests scope.key.kind) ∨
      scope.actualTokens ≠ receipt.actualTokens)
    (.scopeDisagrees receiptId scope.key)

/-- The check of the place of a scope row. -/
def checkScopeOrder (place : StoredQuotaScope × Nat) :
    Except QuotaError Unit := do
  let (scope, expectedOrder) := place
  rejectIf (u32Max < expectedOrder) .tooManyReceiptScopes
  rejectIf (scope.order ≠ expectedOrder) (.nonContiguous receiptId)
  if expectedOrder = 0 then
    rejectIf (scope.key ≠ .providerGlobal) (.scopeZero receiptId)
  else
    rejectIf (scope.key.kind ≠ .cgroup) (.nonCgroup receiptId)

def loadReceiptScopes (receipt : StoredQuotaReceipt) :
    Except QuotaError (List StoredQuotaScope) := do
  receipt.scopes.forM (checkScopeRow receiptId receipt)
  rejectIf (receipt.scopes = []) (.noScopes receiptId)
  receipt.scopes.zipIdx.forM (checkScopeOrder receiptId)
  return receipt.scopes

def scopeContribution (scope : StoredQuotaScope) : Nat × Nat :=
  match receipt.state with
  | .reconciled => (scope.actualRequests.getD 0, scope.actualTokens.getD 0)
  | .reserved | .inFlight | .estimated => (scope.reservedRequests, scope.reservedTokens)

/-! ## Aggregates -/

structure QuotaScopeUsage where
  epoch : Nat
  scope : QuotaScopeKey
  (requests tokens reservedReceipts inFlightReceipts estimatedReceipts reconciledReceipts : Nat)
  deriving DecidableEq

/-- No receipt and no amount was counted. -/
def QuotaScopeUsage.isEmpty (usage : QuotaScopeUsage) : Bool :=
  usage.requests == 0 && usage.tokens == 0 && usage.reservedReceipts == 0 &&
    usage.inFlightReceipts == 0 && usage.estimatedReceipts == 0 && usage.reconciledReceipts == 0

/-- One more receipt in a state. -/
def QuotaScopeUsage.countState (usage : QuotaScopeUsage) :
    ProviderRateReceiptState → QuotaScopeUsage
  | .reserved => { usage with reservedReceipts := saturatingAdd usage.reservedReceipts 1 }
  | .inFlight => { usage with inFlightReceipts := saturatingAdd usage.inFlightReceipts 1 }
  | .estimated => { usage with estimatedReceipts := saturatingAdd usage.estimatedReceipts 1 }
  | .reconciled => { usage with reconciledReceipts := saturatingAdd usage.reconciledReceipts 1 }

/-- One round of the loop of `compute_scope_epoch_usage`. -/
def addReceiptUsage (scope : QuotaScopeKey) (usage : QuotaScopeUsage)
    (entry : Text × StoredQuotaReceipt) : Except QuotaError QuotaScopeUsage := do
  let (receiptId, receipt) := entry
  checkActualUsage receipt
  let scopes ← loadReceiptScopes receiptId receipt
  let stored ← orReject (scopes.find? fun candidate => candidate.key = scope)
    (.scopeDisappeared receiptId scope)
  let contribution := scopeContribution receipt stored
  let usage := { usage with
    requests := saturatingAdd usage.requests contribution.1
    tokens := saturatingAdd usage.tokens contribution.2 }
  return usage.countState receipt.state

/-- The receipt is associated with the scope in the epoch. -/
def StoredQuotaReceipt.inScope (key : ScopeEpoch) : Bool :=
  receipt.epoch == key.epoch && receipt.scopes.any fun scope => scope.key = key.scope

namespace QuotaLedger

variable (key : ScopeEpoch)

def computeScopeEpochUsage :
    Except QuotaError QuotaScopeUsage := do
  validateQuotaScopeKey key.scope
  (ledger.receipts.toList.filter fun entry => entry.2.inScope key).foldlM
    (addReceiptUsage key.scope) ⟨key.epoch, key.scope, 0, 0, 0, 0, 0, 0⟩

def trustedScopeEpochAggregate :
    Except QuotaError (Nat × Nat) := do
  validateQuotaScopeKey key.scope
  return ledger.aggregates[key]?.getD (0, 0)

def requiredScopeEpochAggregate :
    Except QuotaError (Nat × Nat) := do
  validateQuotaScopeKey key.scope
  orReject ledger.aggregates[key]? (.missingAggregate key.scope key.epoch)

def writeScopeEpochAggregate (value : Nat × Nat) :
    Except QuotaError QuotaLedger := do
  validateQuotaScopeKey key.scope
  return { ledger with aggregates := ledger.aggregates.insert key value }

def writeScopeEpochFromReceipts :
    Except QuotaError QuotaLedger := do
  let usage ← ledger.computeScopeEpochUsage key
  if usage.isEmpty then
    return { ledger with aggregates := ledger.aggregates.erase key }
  else
    return { ledger with aggregates := ledger.aggregates.insert key (usage.requests, usage.tokens) }

/-- `replace`, the closure of `replace_scope_epoch_contribution`. -/
def replaceDimension (dimension : String) (value previous replacement : Nat) :
    Except QuotaError Nat :=
  if previous ≤ replacement then
    return saturatingAdd value (replacement - previous)
  else
    orReject (checkedSub value (previous - replacement))
      (.aggregateUnderflow key.scope key.epoch dimension)

def replaceScopeEpochContribution (old new : Nat × Nat) :
    Except QuotaError QuotaLedger := do
  let current ← ledger.requiredScopeEpochAggregate key
  if (new.1 < old.1 ∧ current.1 = u64Max) ∨ (new.2 < old.2 ∧ current.2 = u64Max) then
    ledger.writeScopeEpochFromReceipts key
  else do
    let requests ← replaceDimension key "request" current.1 old.1 new.1
    let tokens ← replaceDimension key "token" current.2 old.2 new.2
    ledger.writeScopeEpochAggregate key (requests, tokens)

def validateScopeEpoch :
    Except QuotaError QuotaScopeUsage := do
  let usage ← ledger.computeScopeEpochUsage key
  match ledger.aggregates[key]? with
  | some value => do
      rejectIf (value ≠ (usage.requests, usage.tokens))
        (.aggregateDisagrees key.scope key.epoch value (usage.requests, usage.tokens))
      return usage
  | none => do
      rejectIf (usage.isEmpty = false) (.missingAggregate key.scope key.epoch)
      return usage

/-- The scopes and epochs of the aggregates and of the scope rows. -/
def scopeEpochs : List ScopeEpoch :=
  ledger.aggregates.toList.map Prod.fst ++
    ledger.receipts.toList.flatMap fun entry =>
      entry.2.scopes.map fun scope => ⟨scope.key, entry.2.epoch⟩

/-- The check of one receipt in `validate_all_provider_epochs`. -/
def checkReceipt (entry : Text × StoredQuotaReceipt) : Except QuotaError Unit := do
  checkActualUsage entry.2
  let _ ← loadReceiptScopes entry.1 entry.2
  return ()

def validateAllProviderEpochs : Except QuotaError Unit := do
  ledger.receipts.toList.forM checkReceipt
  ledger.scopeEpochs.forM fun key => validateQuotaScopeKey key.scope
  ledger.scopeEpochs.forM fun key => do
    let _ ← ledger.validateScopeEpoch key
    return ()

def effectiveQuotaEpoch (requestedEpoch : Nat) : Nat × QuotaLedger :=
  let effective := max (ledger.floor.getD 0) requestedEpoch
  (effective, { ledger with floor := some effective })

end QuotaLedger

/-! ## Reservations -/

structure CgroupQuotaConstraint where
  scopeId : Text
  tokenLimit : Nat
  deriving DecidableEq

structure ProviderRateRequest where
  receiptId : Text
  (requestedEpoch rpm tpm estimatedRequests estimatedTokens : Nat)
  deriving DecidableEq

inductive ProviderRateLimitDimension where
  | requests
  | tokens
  | migrationFence
  deriving DecidableEq

structure ProviderRateReservation where
  id : Text
  (epoch reservedRequests reservedTokens : Nat)
  state : ProviderRateReceiptState
  cgroupScopes : List Text
  deriving DecidableEq

inductive ProviderRateReserveOutcome where
  | reserved (reservation : ProviderRateReservation)
  | denied (epoch : Nat) (scope : QuotaScopeKey) (dimension : ProviderRateLimitDimension)
      (used requested limit : Nat)
  deriving DecidableEq

/-- One round of the loop that checks the cgroup scopes of a request. -/
def checkConstraint (seen : List Text) (constraint : CgroupQuotaConstraint) :
    Except QuotaError (List Text) := do
  validateQuotaScopeKey (.ofCgroup constraint.scopeId)
  rejectIf (constraint.scopeId ∈ seen) (.duplicateScope constraint.scopeId)
  return constraint.scopeId :: seen

/-- A limit, where zero means none, leaves too little for the requested amount. -/
def exceedsLimit (limit used requested : Nat) : Bool :=
  limit != 0 && (limit < used || limit - used < requested)

/-- The row of a receipt for one of its scopes. -/
def scopeRow (key : QuotaScopeKey) (order : Nat) :
    StoredQuotaScope where
  key
  order
  reservedRequests := scopeRequests key.kind receipt.reservedRequests
  reservedTokens := receipt.reservedTokens
  actualRequests := receipt.actualRequests.map (scopeRequests key.kind)
  actualTokens := receipt.actualTokens

/-- The scope rows of a receipt for cgroup scopes given root to leaf. -/
def scopeRows (cgroups : List Text) : List StoredQuotaScope :=
  (QuotaScopeKey.providerGlobal :: cgroups.map .ofCgroup).zipIdx.map fun place =>
    scopeRow receipt place.1 place.2

/-- The receipt that an admitted request inserts. -/
def reservedReceipt (request : ProviderRateRequest) (epoch : Nat) (cgroups : List Text) :
    StoredQuotaReceipt :=
  let receipt : StoredQuotaReceipt :=
    ⟨epoch, .reserved, request.estimatedRequests, request.estimatedTokens, none, none, []⟩
  { receipt with scopes := scopeRows receipt cgroups }

/-- The first limit that refuses a request. -/
def deniedBy (request : ProviderRateRequest) (epoch : Nat) (usage : Nat × Nat)
    (cgroupUsages : List (CgroupQuotaConstraint × (Nat × Nat))) :
    Option ProviderRateReserveOutcome :=
  if exceedsLimit request.rpm usage.1 request.estimatedRequests then
    some (.denied epoch .providerGlobal .requests usage.1 request.estimatedRequests request.rpm)
  else if exceedsLimit request.tpm usage.2 request.estimatedTokens then
    some (.denied epoch .providerGlobal .tokens usage.2 request.estimatedTokens request.tpm)
  else
    cgroupUsages.findSome? fun constraintUsage =>
      let (constraint, usage) := constraintUsage
      if exceedsLimit constraint.tokenLimit usage.2 request.estimatedTokens then
        some (.denied epoch (.ofCgroup constraint.scopeId) .tokens usage.2
          request.estimatedTokens constraint.tokenLimit)
      else none

namespace QuotaLedger

variable (request : ProviderRateRequest) (cgroups : List CgroupQuotaConstraint)

/-- The branch of a reservation whose receipt exists. -/
def reserveAgain (receipt : StoredQuotaReceipt) :
    Except QuotaError ProviderRateReserveOutcome := do
  let scopes ← loadReceiptScopes request.receiptId receipt
  scopes.forM fun scope => do
    let _ ← ledger.requiredScopeEpochAggregate ⟨scope.key, receipt.epoch⟩
    return ()
  let storedCgroups := scopes.tail.map fun scope => scope.key.id
  rejectIf
    (receipt.reservedRequests ≠ request.estimatedRequests ∨
      receipt.reservedTokens ≠ request.estimatedTokens)
    (.conflictingReservation request.receiptId)
  rejectIf (storedCgroups ≠ cgroups.map CgroupQuotaConstraint.scopeId)
    (.differentScopes request.receiptId)
  return .reserved ⟨request.receiptId, receipt.epoch, receipt.reservedRequests,
    receipt.reservedTokens, receipt.state, storedCgroups⟩

/-- The branch of a reservation that inserts a receipt. -/
def admitReservation (epoch : Nat) (usage : Nat × Nat)
    (cgroupUsages : List (CgroupQuotaConstraint × (Nat × Nat))) :
    Except QuotaError (ProviderRateReserveOutcome × QuotaLedger) := do
  let cgroups := cgroupUsages.map fun constraintUsage => constraintUsage.1.scopeId
  let ledger := { ledger with
    receipts := ledger.receipts.insert request.receiptId (reservedReceipt request epoch cgroups) }
  let ledger ← ledger.writeScopeEpochAggregate ⟨.providerGlobal, epoch⟩
    (saturatingAdd usage.1 request.estimatedRequests,
      saturatingAdd usage.2 request.estimatedTokens)
  let ledger ← cgroupUsages.foldlM (fun ledger constraintUsage =>
    ledger.writeScopeEpochAggregate ⟨.ofCgroup constraintUsage.1.scopeId, epoch⟩
      (constraintUsage.2.1, saturatingAdd constraintUsage.2.2 request.estimatedTokens)) ledger
  return (.reserved ⟨request.receiptId, epoch, request.estimatedRequests,
    request.estimatedTokens, .reserved, cgroups⟩, ledger)

/-- The branch of a reservation whose receipt is new. -/
def reserveFresh (epoch : Nat) :
    Except QuotaError (ProviderRateReserveOutcome × QuotaLedger) := do
  rejectIf (request.receiptId ∈ ledger.refunded) (.refundedReuse request.receiptId)
  if epoch ∈ ledger.fence then
    return (.denied epoch .providerGlobal .migrationFence 0 0 0, ledger)
  else do
    let usage ← ledger.trustedScopeEpochAggregate ⟨.providerGlobal, epoch⟩
    let cgroupUsages ← cgroups.mapM fun constraint => do
      let usage ← ledger.trustedScopeEpochAggregate ⟨.ofCgroup constraint.scopeId, epoch⟩
      return (constraint, usage)
    match deniedBy request epoch usage cgroupUsages with
    | some outcome => return (outcome, ledger)
    | none => ledger.admitReservation request epoch usage cgroupUsages

/-- `reserve_provider_rate_attempts_with_cgroups`. -/
def reserve :
    Except QuotaError ProviderRateReserveOutcome × QuotaLedger :=
  transaction ledger do
    rejectIf (request.estimatedRequests = 0) .emptyReservation
    let _ ← cgroups.foldlM checkConstraint []
    rejectIf (u32Max ≤ cgroups.length) .tooManyScopes
    let (epoch, ledger) := ledger.effectiveQuotaEpoch request.requestedEpoch
    match ← ledger.loadQuotaReceipt request.receiptId with
    | some receipt => do
        let outcome ← ledger.reserveAgain request cgroups receipt
        return (outcome, ledger)
    | none => ledger.reserveFresh request cgroups epoch

/-! ## The life of a receipt -/

variable (receiptId : Text)

/-- A receipt with its scopes, each of which has an aggregate. -/
def openReceipt :
    Except QuotaError StoredQuotaReceipt := do
  let receipt ← ledger.requireQuotaReceipt receiptId
  let scopes ← loadReceiptScopes receiptId receipt
  scopes.forM fun scope => do
    let _ ← ledger.requiredScopeEpochAggregate ⟨scope.key, receipt.epoch⟩
    return ()
  return receipt

variable (receipt : StoredQuotaReceipt)

/-- `UPDATE quota_receipts SET state = .. WHERE id = ..`. -/
def setState (state : ProviderRateReceiptState) :
    QuotaLedger :=
  { ledger with receipts := ledger.receipts.insert receiptId { receipt with state } }

def markProviderRateInvoked : Except QuotaError Unit × QuotaLedger :=
  transaction ledger do
    let receipt ← ledger.openReceipt receiptId
    if receipt.state = .reserved then
      return ((), ledger.setState receiptId receipt .inFlight)
    else
      return ((), ledger)

/-- A tombstone, and the deletion of the receipt with its scope rows. -/
def tombstone :
    Except QuotaError QuotaLedger := do
  rejectIf (receiptId ∈ ledger.refunded) (.duplicateTombstone receiptId)
  return { ledger with
    refunded := ledger.refunded.insert receiptId receipt.epoch
    receipts := ledger.receipts.erase receiptId }

/-- The loop that replaces the contribution of a receipt to each of its scopes. -/
def replaceContributions (new : StoredQuotaScope → Nat × Nat) :
    Except QuotaError QuotaLedger :=
  receipt.scopes.foldlM (fun ledger scope =>
    ledger.replaceScopeEpochContribution ⟨scope.key, receipt.epoch⟩
      (scopeContribution receipt scope) (new scope)) ledger

def refundProviderRateBeforeInvocation : Except QuotaError Unit × QuotaLedger :=
  transaction ledger do
    match ← ledger.loadQuotaReceipt receiptId with
    | none => do
        rejectIf (receiptId ∉ ledger.refunded) (.unknownReceipt receiptId)
        return ((), ledger)
    | some _ => do
        let receipt ← ledger.openReceipt receiptId
        rejectIf (receipt.state ≠ .reserved) (.afterInvocation receiptId)
        let ledger ← ledger.tombstone receiptId receipt
        let ledger ← ledger.replaceContributions receipt fun _ => (0, 0)
        return ((), ledger)

def retainProviderRateEstimate : Except QuotaError Unit × QuotaLedger :=
  transaction ledger do
    let receipt ← ledger.openReceipt receiptId
    match receipt.state with
    | .inFlight => return ((), ledger.setState receiptId receipt .estimated)
    | .estimated | .reconciled => return ((), ledger)
    | .reserved => throw (.notInvoked receiptId)

/-- The receipt and its scope rows with the actual usage. -/
def reconciledReceipt (actualRequests actualTokens : Nat) : StoredQuotaReceipt :=
  { receipt with
    state := .reconciled
    actualRequests := some actualRequests
    actualTokens := some actualTokens
    scopes := receipt.scopes.map fun scope => { scope with
      actualRequests := some (scopeRequests scope.key.kind actualRequests)
      actualTokens := some actualTokens } }

/-- The part of a reconciliation that depends on the state of the receipt. -/
def reconcileState (actualRequests actualTokens : Nat) : Except QuotaError (Unit × QuotaLedger) :=
  match receipt.state with
  | .reconciled => do
      rejectIf
        (receipt.actualRequests ≠ some actualRequests ∨ receipt.actualTokens ≠ some actualTokens)
        (.differentUsage receiptId)
      return ((), ledger)
  | .inFlight | .estimated => do
      let ledger := { ledger with
        receipts := ledger.receipts.insert receiptId
          (reconciledReceipt receipt actualRequests actualTokens) }
      let ledger ← ledger.replaceContributions receipt fun scope =>
        (scopeRequests scope.key.kind actualRequests, actualTokens)
      return ((), ledger)
  | .reserved => throw (.notInvoked receiptId)

def reconcileProviderRateInner (actualRequests : Option Nat) (actualTokens : Nat) :
    Except QuotaError Unit × QuotaLedger :=
  transaction ledger do
    let receipt ← ledger.requireQuotaReceipt receiptId
    let _ ← loadReceiptScopes receiptId receipt
    let actualRequests := actualRequests.getD receipt.reservedRequests
    rejectIf (actualRequests = 0 ∨ receipt.reservedRequests < actualRequests)
      (.actualOutOfRange receiptId actualRequests receipt.reservedRequests)
    let receipt ← ledger.openReceipt receiptId
    ledger.reconcileState receiptId receipt actualRequests actualTokens

/-- The receipt of a direct token charge. -/
def chargedReceipt (epoch tokens : Nat) : StoredQuotaReceipt :=
  let receipt : StoredQuotaReceipt := ⟨epoch, .reconciled, 0, 0, some 0, some tokens, []⟩
  { receipt with scopes := scopeRows receipt [] }

def chargeProviderRateTokens (requestedEpoch tokens : Nat) :
    Except QuotaError Unit × QuotaLedger :=
  transaction ledger do
    let (epoch, ledger) := ledger.effectiveQuotaEpoch requestedEpoch
    match ← ledger.loadQuotaReceipt receiptId with
    | some _ => do
        let receipt ← ledger.openReceipt receiptId
        rejectIf
          (¬ (receipt.reservedRequests = 0 ∧ receipt.reservedTokens = 0 ∧
            receipt.state = .reconciled ∧ receipt.actualRequests = some 0 ∧
            receipt.actualTokens = some tokens ∧
            receipt.scopes.map (fun scope => scope.key) = [.providerGlobal]))
          (.conflictingCharge receiptId)
        return ((), ledger)
    | none => do
        rejectIf (receiptId ∈ ledger.refunded) (.refundedReuse receiptId)
        let aggregate ← ledger.trustedScopeEpochAggregate ⟨.providerGlobal, epoch⟩
        let ledger := { ledger with
          receipts := ledger.receipts.insert receiptId (chargedReceipt epoch tokens) }
        let ledger ← ledger.writeScopeEpochAggregate ⟨.providerGlobal, epoch⟩
          (aggregate.1, saturatingAdd aggregate.2 tokens)
        return ((), ledger)

def providerRateUsage (requestedEpoch : Nat) : Except QuotaError QuotaScopeUsage × QuotaLedger :=
  transaction ledger do
    let (epoch, ledger) := ledger.effectiveQuotaEpoch requestedEpoch
    let usage ← ledger.validateScopeEpoch ⟨.providerGlobal, epoch⟩
    return (usage, ledger)

/-! ## Recovery, pruning and erasure -/

structure ProviderRateRecovery where
  (effectiveEpoch refundedReserved retainedInFlightEstimates : Nat)
  deriving DecidableEq

/-- The state of the loop of `recover_provider_rate_state`. -/
structure RecoveryScan where
  ledger : QuotaLedger
  recovery : ProviderRateRecovery
  affectedScopes : List ScopeEpoch

/-- One round of the loop of `recover_provider_rate_state`. -/
def recoverReceipt (scan : RecoveryScan) (receiptId : Text) : Except QuotaError RecoveryScan := do
  let receipt ← scan.ledger.requireQuotaReceipt receiptId
  let scopes ← loadReceiptScopes receiptId receipt
  let affectedScopes :=
    scan.affectedScopes ++ scopes.map fun scope => ⟨scope.key, receipt.epoch⟩
  match receipt.state with
  | .reserved => do
      let ledger ← scan.ledger.tombstone receiptId receipt
      return {
        ledger
        recovery := { scan.recovery with
          refundedReserved := saturatingAdd scan.recovery.refundedReserved 1 }
        affectedScopes }
  | .inFlight =>
    return {
      ledger := scan.ledger.setState receiptId receipt .estimated
      recovery := { scan.recovery with
        retainedInFlightEstimates := saturatingAdd scan.recovery.retainedInFlightEstimates 1 }
      affectedScopes }
  | .estimated | .reconciled => return { scan with affectedScopes }

/-- The state is `reserved` or `in_flight`. -/
def isActive (state : ProviderRateReceiptState) : Bool :=
  match state with
  | .reserved | .inFlight => true
  | .estimated | .reconciled => false

def recoverProviderRateState (requestedEpoch : Nat) :
    Except QuotaError ProviderRateRecovery × QuotaLedger :=
  transaction ledger do
    let (epoch, ledger) := ledger.effectiveQuotaEpoch requestedEpoch
    ledger.validateAllProviderEpochs
    let ids := (ledger.receipts.toList.filter fun entry => isActive entry.2.state).map Prod.fst
    let scan ← ids.foldlM recoverReceipt ⟨ledger, ⟨epoch, 0, 0⟩, []⟩
    let ledger ← scan.affectedScopes.foldlM writeScopeEpochFromReceipts scan.ledger
    return (scan.recovery, ledger)

/-- The epochs that occur in the tables. -/
def epochs : List Nat :=
  ledger.aggregates.toList.map (fun entry => entry.1.epoch) ++
    ledger.receipts.toList.map (fun entry => entry.2.epoch) ++
    ledger.refunded.toList.map Prod.snd ++ ledger.fence.toList

/-- The epoch has a receipt that is `reserved` or `in_flight`. -/
def hasActiveReceipt (epoch : Nat) : Bool :=
  ledger.receipts.toList.any fun entry => entry.2.epoch == epoch && isActive entry.2.state

/-- One round of the loop of `prune_provider_rate_epochs`: an epoch with an active receipt stays,
any other one is deleted and counted. -/
def pruneEpoch (state : Nat × QuotaLedger) (epoch : Nat) : Nat × QuotaLedger :=
  let (pruned, ledger) := state
  if ledger.hasActiveReceipt epoch then
    (pruned, ledger)
  else
    (pruned + 1, { ledger with
      receipts := ledger.receipts.filter fun _ receipt => receipt.epoch != epoch
      aggregates := ledger.aggregates.filter fun key _ => key.epoch != epoch
      refunded := ledger.refunded.filter fun _ refundedEpoch => refundedEpoch != epoch
      fence := ledger.fence.erase epoch })

def pruneProviderRateEpochs (beforeEpoch : Nat) : Except QuotaError Nat × QuotaLedger :=
  transaction ledger do
    ledger.validateAllProviderEpochs
    let candidates := (ledger.epochs.filter (· < beforeEpoch)).dedup
    return candidates.foldl pruneEpoch (0, ledger)

/-- The deletion of the scope rows and aggregates of cgroup scopes. -/
def eraseScopes (erased : Text → Bool) : QuotaLedger :=
  let isErased (scope : QuotaScopeKey) : Bool := scope.kind == .cgroup && erased scope.id
  { ledger with
    receipts := ledger.receipts.map fun _ receipt =>
      { receipt with scopes := receipt.scopes.filter fun scope => !isErased scope.key }
    aggregates := ledger.aggregates.filter fun key _ => !isErased key.scope }

/-- The scope path of an agent ends with this. -/
def agentScopeSuffix (agentId : Uuid) : Text := "/agent/".toList ++ agentId.toString

/-- The part of an agent's erasure that touches the ledger. -/
def eraseAgent (agentId : Uuid) : QuotaLedger :=
  ledger.eraseScopes fun scopeId => (agentScopeSuffix agentId).isSuffixOf scopeId

def quotaScopeSegment (value : Text) : Text :=
  value.flatMap fun c => if c = '~' then ['~', '0'] else if c = '/' then ['~', '1'] else [c]

/-- The scope of a tenant. -/
def tenantScope (tenantId : Text) : Text := "/tenant/".toList ++ quotaScopeSegment tenantId

/-- The part of a tenant's erasure that touches the ledger. -/
def eraseTenant (tenantId : Text) : QuotaLedger :=
  ledger.eraseScopes fun scopeId =>
    scopeId == tenantScope tenantId || (tenantScope tenantId ++ ['/']).isPrefixOf scopeId

end QuotaLedger

/-! ## Runs -/

/-- The last component of a path. -/
def lastSegment (path : Text) : Text := (path.reverse.takeWhile (· ≠ '/')).reverse

/-- The path names an agent: its last component follows `agent`. -/
def isAgentScope (path : Text) : Bool := ("/agent/".toList ++ lastSegment path).isSuffixOf path

/-- Every path below `path` starts with this. -/
def childPrefix (path : Text) : Text := if path = ['/'] then path else path ++ ['/']

/-- The scopes of a request, root to leaf: each path lies below the ones before it, and only the
last one may be an agent's own scope. -/
structure CgroupPath where
  constraints : List CgroupQuotaConstraint
  nested : (constraints.map CgroupQuotaConstraint.scopeId).Pairwise
    fun outer inner => childPrefix outer <+: inner
  leaf : ∀ scopeId ∈ (constraints.map CgroupQuotaConstraint.scopeId).dropLast,
    isAgentScope scopeId = false

/-- A call of the ledger. -/
inductive QuotaCall where
  | reserve (request : ProviderRateRequest) (cgroups : CgroupPath)
  | markInvoked (receiptId : Text)
  | refund (receiptId : Text)
  | retain (receiptId : Text)
  | reconcile (receiptId : Text) (actualRequests : Option Nat) (actualTokens : Nat)
  | charge (receiptId : Text) (requestedEpoch tokens : Nat)
  | usage (requestedEpoch : Nat)
  | recover (requestedEpoch : Nat)
  | prune (beforeEpoch : Nat)
  | eraseAgent (agentId : Uuid)
  | eraseTenant (tenantId : Text)

/-- What a call answers. -/
inductive QuotaReply where
  | done
  | outcome (outcome : ProviderRateReserveOutcome)
  | usage (usage : QuotaScopeUsage)
  | recovery (recovery : QuotaLedger.ProviderRateRecovery)
  | pruned (epochs : Nat)

/-- What a call answers and leaves. -/
def QuotaLedger.call :
    QuotaCall → Except QuotaError QuotaReply × QuotaLedger
  | .reserve request cgroups => (ledger.reserve request cgroups.constraints).map (·.map .outcome) id
  | .markInvoked receiptId =>
    (ledger.markProviderRateInvoked receiptId).map (·.map fun _ => .done) id
  | .refund receiptId =>
    (ledger.refundProviderRateBeforeInvocation receiptId).map (·.map fun _ => .done) id
  | .retain receiptId => (ledger.retainProviderRateEstimate receiptId).map (·.map fun _ => .done) id
  | .reconcile receiptId actualRequests actualTokens =>
    (ledger.reconcileProviderRateInner receiptId actualRequests actualTokens).map
      (·.map fun _ => .done) id
  | .charge receiptId requestedEpoch tokens =>
    (ledger.chargeProviderRateTokens receiptId requestedEpoch tokens).map
      (·.map fun _ => .done) id
  | .usage requestedEpoch => (ledger.providerRateUsage requestedEpoch).map (·.map .usage) id
  | .recover requestedEpoch =>
    (ledger.recoverProviderRateState requestedEpoch).map (·.map .recovery) id
  | .prune beforeEpoch => (ledger.pruneProviderRateEpochs beforeEpoch).map (·.map .pruned) id
  | .eraseAgent agentId => (.ok .done, ledger.eraseAgent agentId)
  | .eraseTenant tenantId => (.ok .done, ledger.eraseTenant tenantId)

/-- The ledger after a run of calls. -/
def runQuota (initial : QuotaLedger) (calls : List QuotaCall) : QuotaLedger :=
  run (fun ledger call => (ledger.call call).2) initial calls

end AgentOS
