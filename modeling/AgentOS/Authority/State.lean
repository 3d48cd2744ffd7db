import AgentOS.Authority.Retry

/-!
# Authority state

The replicated control plane, its logical clock and its genesis. A handler of the source works on
a clone of the control plane that is dropped on an error; here it returns the updated control
plane next to its result.
-/

namespace AgentOS

open Lib

structure ReplicatedJoinChallenge where
  challengeHex : Text
  expiresAt : DateTime
  consumedAt : Option DateTime
  deriving DecidableEq

structure ReplicatedControlPlaneState where
  genesis : AuthorityGenesis
  clusterId : Text
  membershipGeneration : Nat
  members : OrdMap Text ClusterMember
  membershipAudit : List ClusterMembershipAudit
  tlsTrustGeneration : Nat
  certificateRollouts : OrdMap Text ClusterCertificateRollout
  certificateRolloutAudit : List ClusterCertificateRolloutAudit
  joinChallenges : OrdMap Text ReplicatedJoinChallenge
  ownerships : OrdMap Text ClusterAgentOwnership
  ownershipAudit : List ClusterAgentOwnershipAudit
  logicalTime : DateTime
  deriving DecidableEq

structure StoredAuthorityReceipt where
  command : AuthorityCommand
  response : AuthorityResponse
  deriving DecidableEq

structure AuthorityState where
  sequence : Nat
  receipts : OrdMap Text StoredAuthorityReceipt
  controlPlane : Option ReplicatedControlPlaneState
  deriving DecidableEq

/-- `AuthorityState::default`. -/
def AuthorityState.empty : AuthorityState := ⟨0, ∅, none⟩

def invalidCommand (error : String) : AuthorityError := (.invalidCommand, error)

def conflict (error : String) : AuthorityError := (.conflict, error)

/-- A request check whose error becomes an `InvalidCommand` rejection. -/
def checked {α : Type} (result : Except ContextError α) : Except AuthorityError α :=
  result.mapError fun error => invalidCommand error.toString

@[simp] theorem checked_eq_ok {α : Type} {r : Except ContextError α} {a : α} :
    checked r = .ok a ↔ r = .ok a :=
  mapError_eq_ok

/-! ## Logical clock -/

/-- `advance_authority_time`: the clock moves by a microsecond at least. -/
def advanceAuthorityTime (control : ReplicatedControlPlaneState) (proposedAt : DateTime) :
    Except AuthorityError (DateTime × ReplicatedControlPlaneState) := do
  let minimum ← orReject (control.logicalTime.checkedAddSigned (microseconds 1))
    (invalidCommand "replicated authority clock is exhausted")
  let effective := max proposedAt minimum
  return (effective, { control with logicalTime := effective })

/-- The instant `now` at which a mutation proposed at `proposedAt` is evaluated. -/
def EffectiveAt (logicalTime proposedAt now : DateTime) : Prop :=
  ∃ minimum, logicalTime.checkedAddSigned (microseconds 1) = some minimum ∧
    now = max proposedAt minimum

theorem advanceAuthorityTime_eq_ok {control control' : ReplicatedControlPlaneState}
    {proposedAt now : DateTime} :
    advanceAuthorityTime control proposedAt = .ok (now, control') ↔
      EffectiveAt control.logicalTime proposedAt now ∧
        control' = { control with logicalTime := now } := by
  simp only [advanceAuthorityTime, EffectiveAt, bind_eq_ok, orReject_eq_ok, pure_eq_ok,
    Prod.mk.injEq]
  constructor
  · rintro ⟨least, hm, rfl, rfl⟩
    exact ⟨⟨least, hm, rfl⟩, rfl⟩
  · rintro ⟨⟨least, hm, rfl⟩, rfl⟩
    exact ⟨least, hm, rfl, rfl⟩

/-- The logical clock strictly increases. -/
theorem EffectiveAt.lt {ltime proposedAt now : DateTime}
    (h : EffectiveAt ltime proposedAt now) : ltime < now := by
  obtain ⟨least, hm, rfl⟩ := h
  have hn := DateTime.checkedAddSigned_eq_some.1 hm
  have hlt : ltime < least := by
    rw [DateTime.lt_iff, hn, microseconds]
    omega
  exact lt_of_lt_of_le hlt (le_max_right _ _)

theorem EffectiveAt.unique {ltime proposedAt now now' : DateTime}
    (h : EffectiveAt ltime proposedAt now)
    (h' : EffectiveAt ltime proposedAt now') : now = now' := by
  obtain ⟨least, hm, rfl⟩ := h
  obtain ⟨least', hm', rfl⟩ := h'
  rw [Option.some.inj (hm.symm.trans hm')]

/-! ## Genesis -/

/-- The registration of a genesis member. -/
def AuthorityGenesisMember.registration (seed : AuthorityGenesisMember) :
    ClusterMemberRegistration where
  nodeId := seed.nodeId
  fingerprint := seed.fingerprint
  publicKey := seed.publicKey
  tlsServerCertificateFingerprint := seed.tlsServerCertificateFingerprint
  endpoint := seed.endpoint
  serverVersion := seed.serverVersion
  minProtocolVersion := seed.minProtocolVersion
  protocolVersion := seed.protocolVersion

/-- The member seeded for a genesis member. -/
def AuthorityGenesisMember.member (seed : AuthorityGenesisMember) (proposedAt : DateTime) :
    ClusterMember where
  nodeId := seed.nodeId
  fingerprint := seed.fingerprint
  publicKey := seed.publicKey
  tlsServerCertificateFingerprint := seed.tlsServerCertificateFingerprint
  endpoint := seed.endpoint
  serverVersion := seed.serverVersion
  minProtocolVersion := seed.minProtocolVersion
  protocolVersion := seed.protocolVersion
  state := .active
  generation := 1
  joinedAt := proposedAt
  updatedAt := proposedAt
  reason := "replicated authority genesis".toList

/-- What the genesis loop has accumulated. -/
structure GenesisScan where
  members : OrdMap Text ClusterMember
  (fingerprints endpoints tlsFingerprints : List Text)

/-- One round of the genesis loop. -/
def genesisRound (K : Crypto) (proposedAt : DateTime) (scan : GenesisScan)
    (seed : AuthorityGenesisMember) : Except AuthorityError GenesisScan := do
  checked (validateMemberRegistration K seed.registration)
  rejectIf
    (seed.fingerprint ∈ scan.fingerprints ∨ seed.endpoint ∈ scan.endpoints ∨
      seed.tlsServerCertificateFingerprint.any (fun fingerprint =>
        scan.tlsFingerprints.contains fingerprint))
    (invalidCommand "authority genesis contains a duplicate identity, endpoint, or TLS binding")
  rejectIf (seed.nodeId ∈ scan.members)
    (invalidCommand "authority genesis contains a duplicate application node id")
  return {
    members := scan.members.insert seed.nodeId (seed.member proposedAt)
    fingerprints := seed.fingerprint :: scan.fingerprints
    endpoints := seed.endpoint :: scan.endpoints
    tlsFingerprints := seed.tlsServerCertificateFingerprint.toList ++ scan.tlsFingerprints }

/-- The audit entry of one genesis member. -/
def genesisAudit (proposedAt : DateTime) (index : Nat) (member : ClusterMember) :
    ClusterMembershipAudit where
  membershipGeneration := index + 1
  nodeId := member.nodeId
  memberGeneration := 1
  previous := none
  current := .active
  previousTlsServerCertificateFingerprint := none
  currentTlsServerCertificateFingerprint := member.tlsServerCertificateFingerprint
  actor := "system:raft-genesis".toList
  reason := "replicated authority genesis".toList
  changedAt := proposedAt

def validateAndBuildGenesis (K : Crypto) (genesis : AuthorityGenesis) (proposedAt : DateTime) :
    Except AuthorityError ReplicatedControlPlaneState := do
  let clusterId ← orReject (Uuid.parseStr genesis.clusterId)
    (invalidCommand "authority genesis cluster_id must be a UUID")
  rejectIf (clusterId.toString ≠ genesis.clusterId)
    (invalidCommand "authority genesis cluster_id must be canonical")
  rejectIf (genesis.members = [] ∨ 31 < genesis.members.length)
    (invalidCommand "authority genesis must contain 1 to 31 members")
  let scan ← genesis.members.foldlM (genesisRound K proposedAt) ⟨∅, [], [], []⟩
  return {
    genesis
    clusterId := genesis.clusterId
    membershipGeneration := scan.members.size
    members := scan.members
    membershipAudit := scan.members.toList.mapIdx fun index entry =>
      genesisAudit proposedAt index entry.2
    tlsTrustGeneration := 0
    certificateRollouts := ∅
    certificateRolloutAudit := []
    joinChallenges := ∅
    ownerships := ∅
    ownershipAudit := []
    logicalTime := proposedAt }

end AgentOS
