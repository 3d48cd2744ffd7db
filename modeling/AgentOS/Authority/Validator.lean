import AgentOS.Authority.Apply

/-!
# The validator of the persistent state

`validate_persistent_state` replays the four audit histories of the control plane and compares
the result with the live maps. Each loop of the source is a fold over its accumulators; a set that
only detects duplicates is a list, and the map keyed by member revisions is an association list
with the newest binding first.
-/

namespace AgentOS

open Lib

/-! ## Membership history -/

/-- The head of the membership history of a node. -/
abbrev MembershipHead : Type := Nat × ClusterMemberState × Option Text

abbrev MembershipRevisionEvidence : Type := ClusterMemberState × Option Text × DateTime

/-- The node, member generation and instant of an authorisation. -/
abbrev Authorization : Type := Text × Nat × DateTime

/-- The accumulators of the membership loop. -/
structure MembershipScan where
  index : Nat
  historicalTlsOwners : OrdMap Text Text
  latestMembershipAudit : OrdMap Text MembershipHead
  membershipRevisionAudit : List ((Text × Nat) × MembershipRevisionEvidence)
  firstMembershipTlsRevision : OrdMap Text Authorization

def MembershipScan.init : MembershipScan := ⟨0, ∅, ∅, [], ∅⟩

variable (logicalTime : DateTime)

/-- The tests that look at one membership audit entry alone. -/
def membershipEntryIsInvalid (index : Nat) (audit : ClusterMembershipAudit) : Prop :=
  audit.membershipGeneration ≠ index + 1 ∨ audit.memberGeneration = 0 ∨
    logicalTime < audit.changedAt ∨ isUuid audit.nodeId = false ∨ isInvalidText audit.actor ∨
    isInvalidText audit.reason

instance (logicalTime : DateTime) (index : Nat) (audit : ClusterMembershipAudit) :
    Decidable (membershipEntryIsInvalid logicalTime index audit) :=
  inferInstanceAs (Decidable (_ ∨ _ ∨ _ ∨ _ ∨ _ ∨ _))

/-- A membership audit entry continues the history of its node. -/
def membershipTransitionIsValid (audit : ClusterMembershipAudit) : Option MembershipHead → Bool
  | none =>
    audit.memberGeneration == 1 && audit.previous.isNone && audit.current == .active &&
      audit.previousTlsServerCertificateFingerprint.isNone
  | some (generation, state, tlsFingerprint) =>
    state != .revoked && checkedSucc generation == some audit.memberGeneration &&
      audit.previous == some state &&
      audit.previousTlsServerCertificateFingerprint == tlsFingerprint &&
      !(tlsFingerprint.isSome && audit.currentTlsServerCertificateFingerprint.isNone)

/-- One turn of the inner loop over the two TLS leaves of a membership audit entry. -/
def bindHistoricalTls (nodeId : Text) (owners : OrdMap Text Text) (fingerprint : Text) :
    Except String (OrdMap Text Text) := do
  rejectIf
    (validTlsFingerprint fingerprint = false ∨
      owners[fingerprint]?.any fun owner => owner != nodeId)
    "replicated membership audit reuses an invalid or foreign TLS binding"
  return owners.insert fingerprint nodeId

/-- The TLS leaves that a membership audit entry names. -/
def ClusterMembershipAudit.fingerprints (audit : ClusterMembershipAudit) : List Text :=
  audit.previousTlsServerCertificateFingerprint.toList ++
    audit.currentTlsServerCertificateFingerprint.toList

/-- `entry(..).or_insert_with(..)`. -/
def insertIfAbsent {υ : Type} (m : OrdMap Text υ) (key : Text) (value : υ) :
    OrdMap Text υ :=
  if key ∈ m then m else m.insert key value

/-- The accumulators after a valid membership audit entry, given the bound TLS leaves. -/
def MembershipScan.next (scan : MembershipScan) (owners : OrdMap Text Text)
    (audit : ClusterMembershipAudit) : MembershipScan where
  index := scan.index + 1
  historicalTlsOwners := owners
  latestMembershipAudit := scan.latestMembershipAudit.insert audit.nodeId
    (audit.memberGeneration, audit.current, audit.currentTlsServerCertificateFingerprint)
  membershipRevisionAudit :=
    ((audit.nodeId, audit.memberGeneration),
      (audit.current, audit.currentTlsServerCertificateFingerprint, audit.changedAt)) ::
      scan.membershipRevisionAudit
  firstMembershipTlsRevision :=
    match audit.currentTlsServerCertificateFingerprint with
    | none => scan.firstMembershipTlsRevision
    | some fingerprint =>
      insertIfAbsent scan.firstMembershipTlsRevision fingerprint
        (audit.nodeId, audit.memberGeneration, audit.changedAt)

/-- One round of the membership loop. -/
def membershipRound (scan : MembershipScan) (audit : ClusterMembershipAudit) :
    Except String MembershipScan := do
  rejectIf (membershipEntryIsInvalid logicalTime scan.index audit)
    "replicated membership audit entry is invalid"
  rejectIf
    (membershipTransitionIsValid audit scan.latestMembershipAudit[audit.nodeId]? = false)
    "replicated membership audit history is not consecutive"
  let owners ← audit.fingerprints.foldlM (bindHistoricalTls audit.nodeId)
    scan.historicalTlsOwners
  return scan.next owners audit

/-! ## Members -/

/-- The accumulators of the member loop. -/
structure MemberScan where
  (fingerprints endpoints tlsFingerprints : List Text)

variable (K : Crypto)

/-- One round of the member loop. -/
def memberRound (logicalTime : DateTime) (history : MembershipScan) (scan : MemberScan)
    (entry : Text × ClusterMember) : Except String MemberScan := do
  let nodeId := entry.1
  let member := entry.2
  rejectIf (nodeId ≠ member.nodeId) "replicated member map key does not match node id"
  (validateMemberRegistration K member.registration).mapError ContextError.toString
  rejectIf
    (member.fingerprint ∈ scan.fingerprints ∨ member.endpoint ∈ scan.endpoints ∨
      member.tlsServerCertificateFingerprint.any fun fingerprint =>
        scan.tlsFingerprints.contains fingerprint)
    "replicated membership contains a duplicate identity, endpoint, or TLS binding"
  rejectIf
    (member.generation = 0 ∨ member.updatedAt < member.joinedAt ∨
      logicalTime < member.updatedAt)
    "replicated member contains invalid generation or time"
  rejectIf
    (history.latestMembershipAudit[nodeId]? ≠
      some (member.generation, member.state, member.tlsServerCertificateFingerprint))
    "replicated member does not match its latest audit evidence"
  return {
    fingerprints := member.fingerprint :: scan.fingerprints
    endpoints := member.endpoint :: scan.endpoints
    tlsFingerprints := member.tlsServerCertificateFingerprint.toList ++ scan.tlsFingerprints }

/-! ## Rollout history -/

structure CertificateRolloutAuditHead where
  phase : Option ClusterCertificateRolloutPhase
  (previousFingerprint nextFingerprint : Text)
  (memberGeneration trustGeneration : Nat)
  changedAt : DateTime
  reason : Text
  deriving DecidableEq

/-- The accumulators of the rollout loop. -/
structure RolloutScan where
  index : Nat
  historicalTlsOwners : OrdMap Text Text
  seenRolloutCandidates : List Text
  firstRolloutActivation : OrdMap Text Authorization
  latestRolloutAudit : OrdMap Text CertificateRolloutAuditHead

variable (history : MembershipScan)

def RolloutScan.init : RolloutScan :=
  ⟨0, history.historicalTlsOwners, [], ∅, ∅⟩

/-- A rollout audit entry continues the rollout of its node. A preparation also needs a candidate
that no earlier preparation named. -/
def rolloutTransitionIsValid (seen : List Text) (audit : ClusterCertificateRolloutAudit) :
    Option CertificateRolloutAuditHead → Bool
  | none => startsRollout
  | some head =>
    match head.phase with
    | none => startsRollout
    | some .prepared =>
      audit.previousPhase == some .prepared &&
        (audit.currentPhase == some .activated || audit.currentPhase.isNone) &&
        sameLeaves head
    | some .activated =>
      audit.previousPhase == some .activated && audit.currentPhase.isNone && sameLeaves head
where
  startsRollout : Bool :=
    audit.previousPhase.isNone && audit.currentPhase == some .prepared &&
      !seen.contains audit.nextTlsServerCertificateFingerprint
  sameLeaves (head : CertificateRolloutAuditHead) : Bool :=
    audit.previousTlsServerCertificateFingerprint == head.previousFingerprint &&
      audit.nextTlsServerCertificateFingerprint == head.nextFingerprint

variable (audit : ClusterCertificateRolloutAudit)

/-- The TLS leaf that the member revision of a rollout audit entry must carry. -/
def ClusterCertificateRolloutAudit.expectedMemberTls : Option Text :=
  match audit.previousPhase, audit.currentPhase with
  | _, some .prepared => some audit.previousTlsServerCertificateFingerprint
  | some .prepared, none => some audit.previousTlsServerCertificateFingerprint
  | _, some .activated => some audit.nextTlsServerCertificateFingerprint
  | some .activated, none => some audit.nextTlsServerCertificateFingerprint
  | none, none => none

/-- The member revision that a rollout audit entry names agrees with it. -/
def revisionMatches (audit : ClusterCertificateRolloutAudit) : Bool :=
  (history.membershipRevisionAudit.lookup (audit.nodeId, audit.memberGeneration)).any
    fun evidence =>
      (evidence.1 == .active || (audit.currentPhase.isNone && evidence.1 == .revoked)) &&
        evidence.2.1 == audit.expectedMemberTls && evidence.2.2 == audit.changedAt

/-- The tests of one rollout audit entry. -/
def rolloutEntryIsInvalid (history : MembershipScan) (scan : RolloutScan)
    (audit : ClusterCertificateRolloutAudit) : Prop :=
  audit.trustGeneration ≠ scan.index + 1 ∨
    audit.memberGeneration = 0 ∨
    logicalTime < audit.changedAt ∨
    isUuid audit.nodeId = false ∨
    validTlsFingerprint audit.previousTlsServerCertificateFingerprint = false ∨
    validTlsFingerprint audit.nextTlsServerCertificateFingerprint = false ∨
    audit.previousTlsServerCertificateFingerprint =
      audit.nextTlsServerCertificateFingerprint ∨
    isInvalidText audit.actor ∨
    isInvalidText audit.reason ∨
    rolloutTransitionIsValid scan.seenRolloutCandidates audit
      scan.latestRolloutAudit[audit.nodeId]? = false ∨
    revisionMatches history audit = false ∨
    (scan.historicalTlsOwners[audit.previousTlsServerCertificateFingerprint]?.any
      fun owner => owner != audit.nodeId) = true ∨
    (scan.historicalTlsOwners[audit.nextTlsServerCertificateFingerprint]?.any
      fun owner => owner != audit.nodeId) = true

instance (logicalTime : DateTime) (history : MembershipScan) (scan : RolloutScan)
    (audit : ClusterCertificateRolloutAudit) :
    Decidable (rolloutEntryIsInvalid logicalTime history scan audit) :=
  inferInstanceAs (Decidable (_ ∨ _ ∨ _ ∨ _ ∨ _ ∨ _ ∨ _ ∨ _ ∨ _ ∨ _ ∨ _ ∨ _ ∨ _))

/-- The head that a rollout audit entry leaves behind. -/
def ClusterCertificateRolloutAudit.head :
    CertificateRolloutAuditHead where
  phase := audit.currentPhase
  previousFingerprint := audit.previousTlsServerCertificateFingerprint
  nextFingerprint := audit.nextTlsServerCertificateFingerprint
  memberGeneration := audit.memberGeneration
  trustGeneration := audit.trustGeneration
  changedAt := audit.changedAt
  reason := audit.reason

/-- The accumulators after a valid rollout audit entry. -/
def RolloutScan.next (scan : RolloutScan) (audit : ClusterCertificateRolloutAudit) :
    RolloutScan where
  index := scan.index + 1
  historicalTlsOwners :=
    (scan.historicalTlsOwners.insert audit.previousTlsServerCertificateFingerprint
      audit.nodeId).insert audit.nextTlsServerCertificateFingerprint audit.nodeId
  seenRolloutCandidates :=
    if audit.currentPhase = some .prepared then
      audit.nextTlsServerCertificateFingerprint :: scan.seenRolloutCandidates
    else scan.seenRolloutCandidates
  firstRolloutActivation :=
    if audit.currentPhase = some .activated then
      scan.firstRolloutActivation.insert audit.nextTlsServerCertificateFingerprint
        (audit.nodeId, audit.memberGeneration, audit.changedAt)
    else scan.firstRolloutActivation
  latestRolloutAudit := scan.latestRolloutAudit.insert audit.nodeId audit.head

/-- One round of the rollout loop. -/
def rolloutRound (history : MembershipScan) (scan : RolloutScan)
    (audit : ClusterCertificateRolloutAudit) : Except String RolloutScan := do
  rejectIf (rolloutEntryIsInvalid logicalTime history scan audit)
    "replicated certificate rollout audit history is invalid"
  rejectIf
    (audit.currentPhase = some .activated ∧
      audit.nextTlsServerCertificateFingerprint ∈ scan.firstRolloutActivation)
    "replicated certificate rollout candidate has multiple activations"
  return scan.next audit

/-- A rollout candidate whose first authorisation in the membership history is not its
activation. -/
def candidateWasAuthorizedEarly (scan : RolloutScan) (candidate : Text) : Bool :=
  match history.firstMembershipTlsRevision[candidate]?, scan.firstRolloutActivation[candidate]?
    with
  | none, none => false
  | some firstAuthorized, some activated => firstAuthorized != activated
  | _, _ => true

/-! ## Live rollouts -/

variable (rollout : ClusterCertificateRollout)

/-- The candidate window of a rollout lies within the limits. -/
def prepareWindowIsValid : Bool :=
  (rollout.preparedAt.checkedAddSigned (seconds minCertificateRolloutSeconds)).any
      (fun minimum => decide (minimum ≤ rollout.prepareExpiresAt)) &&
    (rollout.preparedAt.checkedAddSigned (seconds maxCertificateRolloutSeconds)).any
      fun maximum => decide (rollout.prepareExpiresAt ≤ maximum)

/-- The deadline and the current leaf agree with the phase of a rollout. -/
def retirementIsValid (member : Option ClusterMember) (rollout : ClusterCertificateRollout) :
    Bool :=
  match rollout.phase with
  | .prepared =>
    rollout.retirePreviousAfter.isNone && rollout.updatedAt == rollout.preparedAt &&
      (member.bind ClusterMember.tlsServerCertificateFingerprint) ==
        some rollout.previousTlsServerCertificateFingerprint
  | .activated =>
    (rollout.retirePreviousAfter.any fun deadline =>
        rollout.updatedAt.checkedAddSigned (seconds rollout.minimumOverlapSeconds) ==
          some deadline) &&
      (member.bind ClusterMember.tlsServerCertificateFingerprint) ==
        some rollout.nextTlsServerCertificateFingerprint

/-- The audit head that a live rollout must match. -/
def ClusterCertificateRollout.head :
    CertificateRolloutAuditHead where
  phase := some rollout.phase
  previousFingerprint := rollout.previousTlsServerCertificateFingerprint
  nextFingerprint := rollout.nextTlsServerCertificateFingerprint
  memberGeneration := rollout.memberGeneration
  trustGeneration := rollout.trustGeneration
  changedAt := rollout.updatedAt
  reason := rollout.reason

/-- The tests of one live rollout. -/
def rolloutIsInvalid (nodeId : Text) (member : Option ClusterMember)
    (latest : Option CertificateRolloutAuditHead) (rollout : ClusterCertificateRollout) : Prop :=
  nodeId ≠ rollout.nodeId ∨
    (member.all fun member =>
      member.state != .active || member.generation != rollout.memberGeneration) = true ∨
    rollout.trustGeneration = 0 ∨
    isOutsideRolloutWindow rollout.minimumOverlapSeconds ∨
    prepareWindowIsValid rollout = false ∨
    rollout.updatedAt < rollout.preparedAt ∨
    logicalTime < rollout.updatedAt ∨
    validTlsFingerprint rollout.previousTlsServerCertificateFingerprint = false ∨
    validTlsFingerprint rollout.nextTlsServerCertificateFingerprint = false ∨
    rollout.previousTlsServerCertificateFingerprint =
      rollout.nextTlsServerCertificateFingerprint ∨
    isInvalidText rollout.reason ∨
    retirementIsValid member rollout = false ∨
    latest ≠ some rollout.head

instance (logicalTime : DateTime) (nodeId : Text) (member : Option ClusterMember)
    (latest : Option CertificateRolloutAuditHead) (rollout : ClusterCertificateRollout) :
    Decidable (rolloutIsInvalid logicalTime nodeId member latest rollout) :=
  inferInstanceAs (Decidable (_ ∨ _ ∨ _ ∨ _ ∨ _ ∨ _ ∨ _ ∨ _ ∨ _ ∨ _ ∨ _ ∨ _ ∨ _))

/-! ## Ownership history -/

/-- The head of the ownership history of an agent. -/
structure OwnershipHead where
  generation : Nat
  ownerNodeId : Text
  (authorityTerm fencingToken : Nat)
  state : ClusterOwnershipState
  deriving DecidableEq

/-- The tests that look at one ownership audit entry alone. -/
def ownershipEntryIsInvalid (audit : ClusterAgentOwnershipAudit) : Prop :=
  audit.generation = 0 ∨ audit.authorityTerm = 0 ∨ audit.fencingToken = 0 ∨
    logicalTime < audit.changedAt ∨
    isOk (validateOwnershipIdentity audit.agentId audit.ownerNodeId) = false ∨
    (audit.previousOwnerNodeId.any fun owner => !isUuid owner) = true ∨
    isInvalidText audit.actor ∨ isInvalidText audit.reason

instance (logicalTime : DateTime) (audit : ClusterAgentOwnershipAudit) :
    Decidable (ownershipEntryIsInvalid logicalTime audit) :=
  inferInstanceAs (Decidable (_ ∨ _ ∨ _ ∨ _ ∨ _ ∨ _ ∨ _ ∨ _))

/-- The state that an ownership operation leaves behind. -/
def operationState (operation : String) : Option ClusterOwnershipState :=
  if operation = "claim" ∨ operation = "transfer" ∨ operation = "renew" then some .active
  else if operation = "release" then some .released
  else none

/-- An ownership audit entry continues the history of its agent. -/
def ownershipHistoryIsValid (audit : ClusterAgentOwnershipAudit) : Option OwnershipHead → Bool
  | none =>
    audit.operation == "claim" && audit.generation == 1 && audit.fencingToken == 1 &&
      audit.previousOwnerNodeId.isNone
  | some head =>
    checkedSucc head.generation == some audit.generation &&
      audit.previousOwnerNodeId == some head.ownerNodeId &&
      decide (head.authorityTerm ≤ audit.authorityTerm) &&
      if audit.operation = "renew" ∨ audit.operation = "release" then
        head.state == .active && audit.ownerNodeId == head.ownerNodeId &&
          audit.fencingToken == head.fencingToken
      else if audit.operation = "transfer" then
        checkedSucc head.fencingToken == some audit.fencingToken
      else false

/-- One round of the ownership loop. -/
def ownershipRound (latest : OrdMap Text OwnershipHead) (audit : ClusterAgentOwnershipAudit) :
    Except String (OrdMap Text OwnershipHead) := do
  rejectIf (ownershipEntryIsInvalid logicalTime audit)
    "replicated ownership audit entry is invalid"
  let state ← orReject (operationState audit.operation)
    "replicated ownership audit operation is invalid"
  rejectIf (ownershipHistoryIsValid audit latest[audit.agentId]? = false)
    "replicated ownership audit history is not consecutive"
  return latest.insert audit.agentId
    ⟨audit.generation, audit.ownerNodeId, audit.authorityTerm, audit.fencingToken, state⟩

/-- The audit head that an ownership record must match. -/
def ClusterAgentOwnership.head (ownership : ClusterAgentOwnership) : OwnershipHead where
  generation := ownership.generation
  ownerNodeId := ownership.ownerNodeId
  authorityTerm := ownership.authorityTerm
  fencingToken := ownership.fencingToken
  state := ownership.state

/-- The checks of one ownership record. -/
def ownershipCheck (latest : OrdMap Text OwnershipHead) (entry : Text × ClusterAgentOwnership) :
    Except String Unit := do
  let agentId := entry.1
  let ownership := entry.2
  rejectIf
    (agentId ≠ ownership.agentId ∨ ownership.generation = 0 ∨ ownership.authorityTerm = 0 ∨
      ownership.fencingToken = 0 ∨ logicalTime < ownership.updatedAt)
    "replicated ownership map contains invalid identity, generation, or time"
  rejectIf
    ((ownership.state = .active ∧ ownership.leaseExpiresAt ≤ ownership.updatedAt) ∨
      (ownership.state = .released ∧ ownership.leaseExpiresAt ≠ ownership.updatedAt))
    "replicated ownership contains invalid lease timestamps"
  (validateOwnershipIdentity ownership.agentId ownership.ownerNodeId).mapError
    ContextError.toString
  rejectIf (latest[agentId]? ≠ some ownership.head)
    "replicated ownership does not match its latest audit evidence"

/-! ## Control plane -/

/-- The checks of one join challenge. -/
def challengeCheck (startedAt logicalTime : DateTime) (entry : Text × ReplicatedJoinChallenge) :
    Except String Unit := do
  let challenge := entry.2
  let bytes ← orReject (hexDecode32 challenge.challengeHex)
    "replicated join challenge is invalid"
  rejectIf
    (K.sha256Hex bytes ≠ entry.1 ∨ challenge.expiresAt ≤ startedAt ∨
      challenge.consumedAt.any fun consumed =>
        decide (logicalTime < consumed) || decide (challenge.expiresAt ≤ consumed))
    "replicated join challenge contains invalid hash or timestamps"

/-- A hard capacity is exceeded. -/
def exceedsCapacity (control : ReplicatedControlPlaneState) : Prop :=
  maxJoinChallenges < control.joinChallenges.size ∨
    maxMembers < control.members.size ∨
    control.members.size < control.certificateRollouts.size ∨
    maxOwnerships < control.ownerships.size ∨
    maxAuditEntries < control.membershipAudit.length ∨
    maxAuditEntries < control.certificateRolloutAudit.length ∨
    maxAuditEntries < control.ownershipAudit.length

instance (control : ReplicatedControlPlaneState) : Decidable (exceedsCapacity control) :=
  inferInstanceAs (Decidable (_ ∨ _ ∨ _ ∨ _ ∨ _ ∨ _ ∨ _))

def validateControlPlaneState (control : ReplicatedControlPlaneState) :
    Except String Unit := do
  let _ ← (validateAndBuildGenesis K control.genesis control.logicalTime).mapError fun error =>
    "invalid immutable authority genesis: " ++ error.2
  rejectIf (control.genesis.clusterId ≠ control.clusterId)
    "immutable authority genesis cluster id differs from live authority state"
  let clusterId ← orReject (Uuid.parseStr control.clusterId)
    "replicated authority cluster id is invalid"
  rejectIf (clusterId.toString ≠ control.clusterId)
    "replicated authority cluster id is not canonical"
  rejectIf (control.membershipGeneration ≠ control.membershipAudit.length)
    "replicated membership generation does not match its audit length"
  rejectIf (exceedsCapacity control)
    "replicated authority state exceeds a configured hard capacity"
  let startedAt ← orReject (control.membershipAudit.head?.map ClusterMembershipAudit.changedAt)
    "replicated authority has no genesis audit"
  control.joinChallenges.toList.forM (challengeCheck K startedAt control.logicalTime)
  let history ← control.membershipAudit.foldlM (membershipRound control.logicalTime) .init
  let _ ← control.members.toList.foldlM (memberRound K control.logicalTime history) ⟨[], [], []⟩
  rejectIf (history.latestMembershipAudit.size ≠ control.members.size)
    "replicated membership audit references an unknown member"
  rejectIf (control.tlsTrustGeneration ≠ control.certificateRolloutAudit.length)
    "replicated TLS trust generation does not match its audit length"
  let rollouts ← control.certificateRolloutAudit.foldlM
    (rolloutRound control.logicalTime history) (.init history)
  rejectIf (rollouts.seenRolloutCandidates.any (candidateWasAuthorizedEarly history rollouts))
    "replicated certificate rollout candidate was authorized before its activation"
  control.certificateRollouts.toList.forM fun entry =>
    rejectIf
      (rolloutIsInvalid control.logicalTime entry.1 control.members[entry.1]?
        rollouts.latestRolloutAudit[entry.1]? entry.2)
      "replicated certificate rollout does not match current member and audit state"
  rejectIf
    (rollouts.latestRolloutAudit.toList.any fun entry =>
      entry.2.phase.isSome != control.certificateRollouts.contains entry.1)
    "replicated certificate rollout audit references inconsistent live state"
  let ownerships ← control.ownershipAudit.foldlM (ownershipRound control.logicalTime) ∅
  control.ownerships.toList.forM (ownershipCheck control.logicalTime ownerships)
  rejectIf (ownerships.size ≠ control.ownerships.size)
    "replicated ownership audit references an unknown ownership record"

/-! ## Receipts and the log frontier -/

/-- The accumulators of the receipt loop. -/
structure ReceiptScan where
  sequences : List Nat
  logIds : List LogId

/-- The compare-and-set that a retained barrier passed. -/
def expectedSequenceMatches (sequence : Nat) : AuthorityCommand → Bool
  | .barrier command => command.expectedSequence.all (· == sequence - 1)
  | _ => true

/-- One round of the receipt loop. -/
def receiptRound (stateSequence : Nat) (scan : ReceiptScan)
    (entry : Text × StoredAuthorityReceipt) : Except String ReceiptScan := do
  let operationId := entry.1
  let receipt := entry.2
  rejectIf
    (operationId ≠ receipt.command.operationId ∨ canonicalOperationId operationId = none)
    ("authority receipt key " ++ debugString operationId ++
      " does not match a canonical command id")
  let (responseId, sequence, logId, replayed) ← orReject
    receipt.response.successfulResponseMetadata
    ("authority receipt " ++ String.ofList operationId ++ " does not contain a successful response")
  rejectIf
    (responseId ≠ operationId ∨ replayed = true ∨ sequence = 0 ∨ stateSequence < sequence ∨
      expectedSequenceMatches sequence receipt.command = false ∨
      responseMatchesCommand receipt.command receipt.response = false ∨
      sequence ∈ scan.sequences ∨ logId ∈ scan.logIds)
    ("authority receipt " ++ String.ofList operationId ++ " contains an inconsistent response")
  return ⟨sequence :: scan.sequences, logId :: scan.logIds⟩

/-- The control plane, once it is initialized, is validated with the authority state. -/
def controlPlaneCheck : Option ReplicatedControlPlaneState → Except String Unit
  | some control => validateControlPlaneState K control
  | none => return ()

def validateAuthorityState (state : AuthorityState) : Except String Unit := do
  rejectIf (maxAuthorityReceipts < state.receipts.size)
    ("authority receipt count " ++ toString state.receipts.size ++ " exceeds maximum 4096")
  rejectIf (state.sequence ≠ state.receipts.size)
    ("authority sequence " ++ toString state.sequence ++ " does not match " ++
      toString state.receipts.size ++ " retained receipts")
  let _ ← state.receipts.toList.foldlM (receiptRound state.sequence) ⟨[], []⟩
  controlPlaneCheck K state.controlPlane

/-- The `Display` text of a log identifier. -/
def LogId.toString (logId : LogId) : String :=
  "T" ++ ToString.toString logId.leaderId.term ++ "-N" ++
    ToString.toString logId.leaderId.nodeId ++ "-" ++ ToString.toString logId.index

def validateLogIdAtOrBefore (candidate : LogId) (frontier : Option LogId) (label : String) :
    Except String Unit := do
  let frontier ← orReject frontier (label ++ " exists without a last-applied log id")
  rejectIf
    (frontier.index < candidate.index ∨
      (candidate.index = frontier.index ∧ candidate ≠ frontier))
    (label ++ " " ++ candidate.toString ++ " is not at or before last-applied " ++
      frontier.toString)

variable (applied : Option LogId)

/-- The frontier check of the stored membership. -/
def membershipFrontierCheck : Option LogId → Except String Unit
  | some logId => validateLogIdAtOrBefore logId applied "stored membership"
  | none => return ()

/-- The frontier check of one receipt; a validated receipt carries a successful response. -/
def receiptFrontierCheck (entry : Text × StoredAuthorityReceipt) : Except String Unit :=
  match entry.2.response.successfulResponseMetadata with
  | some (_, _, logId, _) => validateLogIdAtOrBefore logId applied "authority receipt"
  | none => return ()

def validatePersistentState (state : PersistentState) : Except String Unit := do
  validateAuthorityState K state.authority
  membershipFrontierCheck state.lastApplied state.membership.logId
  state.authority.receipts.toList.forM (receiptFrontierCheck state.lastApplied)

/-! ## Applying a batch -/

/-- The first two neighbours of a batch whose indices are not consecutive. -/
def nonConsecutive : List Entry → Option (Nat × Nat)
  | a :: b :: rest =>
    if b.logId.index ≠ min (a.logId.index + 1) (2 ^ 64 - 1) then
      some (a.logId.index, b.logId.index)
    else nonConsecutive (b :: rest)
  | _ => none

/-- The check of the indices of a batch. -/
def requireConsecutive (entries : List Entry) : Except String Unit :=
  match nonConsecutive entries with
  | some (a, b) => .error ("non-consecutive Raft state-machine apply " ++
      toString a ++ " then " ++ toString b)
  | none => return ()

/-- The check that a batch starts above the last applied entry. -/
def requireAbove (first : Option Entry) : Except String Unit :=
  match applied, first with
  | some previous, some first =>
    rejectIf (first.logId.index ≤ previous.index)
      ("refusing to reapply or regress from " ++ previous.toString ++ " to " ++
        first.logId.toString)
  | _, _ => return ()

/-- `RaftStateMachine::apply` on a loaded state: the state that is written. -/
def raftApply (state : PersistentState) (entries : List Entry) :
    Except String PersistentState := do
  requireConsecutive entries
  requireAbove state.lastApplied entries.head?
  let next := applyEntries K state entries
  validatePersistentState K next
  return next

end AgentOS
