import AgentOS.Base.Clock
import AgentOS.Base.Uuid

/-!
# Cluster records

The records of `cluster_control` that both authorities share: members, certificate rollouts,
ownership leases, their audit entries, and the checks made on the requests that create them.
Unsigned integers are natural numbers; the additions that can overflow are `checkedSucc`.
-/

namespace AgentOS

open Lib

/-! ## Limits -/

def minJoinChallengeTtlSeconds : Nat := 5
def maxJoinChallengeTtlSeconds : Nat := 300
def minCertificateRolloutSeconds : Nat := 5
def maxCertificateRolloutSeconds : Nat := 3600
def minOwnershipLeaseTtlSeconds : Nat := 5
def maxOwnershipLeaseTtlSeconds : Nat := 300
def maxMemberEndpointBytes : Nat := 2048
def maxMemberVersionBytes : Nat := 256

/-! ## Membership -/

inductive ClusterMemberState where
  | active
  | left
  | revoked
  deriving DecidableEq

/-- `ClusterMemberRegistration`: the candidate fields covered by the join signature. -/
structure ClusterMemberRegistration where
  (nodeId fingerprint publicKey : Text)
  tlsServerCertificateFingerprint : Option Text
  (endpoint serverVersion : Text)
  (minProtocolVersion protocolVersion : Nat)
  deriving DecidableEq

structure ClusterMember where
  (nodeId fingerprint publicKey : Text)
  tlsServerCertificateFingerprint : Option Text
  (endpoint serverVersion : Text)
  (minProtocolVersion protocolVersion : Nat)
  state : ClusterMemberState
  generation : Nat
  (joinedAt updatedAt : DateTime)
  reason : Text
  deriving DecidableEq

/-- The registration whose fields a member carries. -/
def ClusterMember.registration (member : ClusterMember) : ClusterMemberRegistration where
  nodeId := member.nodeId
  fingerprint := member.fingerprint
  publicKey := member.publicKey
  tlsServerCertificateFingerprint := member.tlsServerCertificateFingerprint
  endpoint := member.endpoint
  serverVersion := member.serverVersion
  minProtocolVersion := member.minProtocolVersion
  protocolVersion := member.protocolVersion

structure ClusterMembershipAudit where
  membershipGeneration : Nat
  nodeId : Text
  memberGeneration : Nat
  previous : Option ClusterMemberState
  current : ClusterMemberState
  (previousTlsServerCertificateFingerprint currentTlsServerCertificateFingerprint : Option Text)
  (actor reason : Text)
  changedAt : DateTime
  deriving DecidableEq

structure ClusterJoinChallenge where
  (clusterId challengeHex : Text)
  expiresAt : DateTime
  deriving DecidableEq

/-! ## Certificate rollouts -/

inductive ClusterCertificateRolloutPhase where
  | prepared
  | activated
  deriving DecidableEq

structure ClusterCertificateRollout where
  nodeId : Text
  (trustGeneration memberGeneration : Nat)
  phase : ClusterCertificateRolloutPhase
  (previousTlsServerCertificateFingerprint nextTlsServerCertificateFingerprint : Text)
  minimumOverlapSeconds : Nat
  prepareExpiresAt : DateTime
  retirePreviousAfter : Option DateTime
  (preparedAt updatedAt : DateTime)
  reason : Text
  deriving DecidableEq

/-- `ClusterCertificateRollout::accepts_fingerprint`. -/
def ClusterCertificateRollout.acceptsFingerprint (rollout : ClusterCertificateRollout)
    (fingerprint : Text) (authorityTime : DateTime) : Bool :=
  match rollout.phase with
  | .prepared =>
    fingerprint == rollout.previousTlsServerCertificateFingerprint ||
      (decide (authorityTime < rollout.prepareExpiresAt) &&
        fingerprint == rollout.nextTlsServerCertificateFingerprint)
  | .activated =>
    fingerprint == rollout.nextTlsServerCertificateFingerprint ||
      (rollout.retirePreviousAfter.any (fun deadline => decide (authorityTime < deadline)) &&
        fingerprint == rollout.previousTlsServerCertificateFingerprint)

structure ClusterCertificateRolloutAudit where
  trustGeneration : Nat
  nodeId : Text
  memberGeneration : Nat
  (previousPhase currentPhase : Option ClusterCertificateRolloutPhase)
  (previousTlsServerCertificateFingerprint nextTlsServerCertificateFingerprint actor reason : Text)
  changedAt : DateTime
  deriving DecidableEq

/-! ## Ownership -/

inductive ClusterOwnershipState where
  | active
  | released
  deriving DecidableEq

structure ClusterAgentOwnership where
  (agentId ownerNodeId : Text)
  (authorityTerm fencingToken generation : Nat)
  state : ClusterOwnershipState
  (leaseExpiresAt updatedAt : DateTime)
  reason : Text
  deriving DecidableEq

structure ClusterAgentOwnershipAudit where
  agentId : Text
  generation : Nat
  previousOwnerNodeId : Option Text
  ownerNodeId : Text
  (authorityTerm fencingToken : Nat)
  operation : String
  (actor reason : Text)
  changedAt : DateTime
  deriving DecidableEq

/-! ## Request checks -/

def validateMemberRegistration (K : Crypto) (registration : ClusterMemberRegistration) :
    Except ContextError Unit := do
  rejectIf (isUuid registration.nodeId = false) (storageError "invalid cluster member node id")
  let publicKey ← orReject (hexDecode32 registration.publicKey)
    (storageError "invalid cluster member Ed25519 public key")
  rejectIf
    (byteLength registration.fingerprint ≠ 64 ∨
      K.sha256Hex publicKey ≠ registration.fingerprint)
    (storageError "cluster member fingerprint does not match its public key")
  rejectIf
    (registration.tlsServerCertificateFingerprint.any fun fingerprint =>
      !validTlsFingerprint fingerprint)
    (storageError "invalid cluster member TLS server certificate fingerprint")
  validateMemberText registration.endpoint maxMemberEndpointBytes "cluster member endpoint"
  validateMemberText registration.serverVersion maxMemberVersionBytes
    "cluster member server version"
  rejectIf
    (registration.minProtocolVersion = 0 ∨
      registration.protocolVersion < registration.minProtocolVersion)
    (storageError "invalid cluster member protocol window")

/-- The four bytes of `u32::to_be_bytes`. -/
def toBeBytes32 (n : Nat) : List UInt8 :=
  [UInt8.ofNat (n / 2 ^ 24), UInt8.ofNat (n / 2 ^ 16), UInt8.ofNat (n / 2 ^ 8), UInt8.ofNat n]

/-- One length-prefixed field of the join payload. -/
def payloadField (field : List UInt8) : Except ContextError (List UInt8) := do
  rejectIf (2 ^ 32 ≤ field.length) (storageError "cluster join payload field is too large")
  return toBeBytes32 field.length ++ field

/-- `membership_join_payload`: the bytes that a joining node signs. -/
def membershipJoinPayload (K : Crypto) (clusterId challengeHex : Text)
    (registration : ClusterMemberRegistration) : Except ContextError (List UInt8) := do
  rejectIf (isUuid clusterId = false) (storageError "invalid cluster authority id")
  validateMemberRegistration K registration
  let challenge ← orReject (hexDecode32 challengeHex)
    (storageError "invalid cluster join challenge")
  let fields := [asBytes clusterId, challenge, asBytes registration.nodeId,
    asBytes registration.fingerprint, asBytes registration.publicKey,
    asBytes registration.endpoint, asBytes registration.serverVersion,
    asBytes (toString registration.minProtocolVersion).toList,
    asBytes (toString registration.protocolVersion).toList]
  let encoded ← (fields ++ registration.tlsServerCertificateFingerprint.toList.map asBytes).mapM
    payloadField
  return asBytes "AIagentOS cluster membership join v1".toList ++ encoded.flatten

def validateOwnershipIdentity (agentId ownerNodeId : Text) : Except ContextError Unit := do
  rejectIf (isUuid agentId = false) (storageError "invalid cluster ownership agent id")
  rejectIf (isUuid ownerNodeId = false) (storageError "invalid cluster ownership node id")

def validateOwnershipRequest (agentId ownerNodeId : Text) (ttlSeconds : Nat)
    (actor reason : Text) : Except ContextError Unit := do
  validateOwnershipIdentity agentId ownerNodeId
  rejectIf
    (ttlSeconds < minOwnershipLeaseTtlSeconds ∨ maxOwnershipLeaseTtlSeconds < ttlSeconds)
    (storageError "invalid agent ownership TTL: expected 5..=300 seconds")
  validateText actor "cluster-ownership actor"
  validateReason reason

def ownershipExpiry (now : DateTime) (ttlSeconds : Nat) : Except ContextError DateTime := do
  rejectIf (maxI64 < ttlSeconds) (storageError "agent ownership TTL exceeds clock range")
  orReject (now.checkedAddSigned (seconds ttlSeconds))
    (storageError "agent ownership expiry overflow")

/-! ## What the checks establish -/

theorem validateOwnershipIdentity_eq_ok {agentId owner : Text} {u : Unit} :
    validateOwnershipIdentity agentId owner = .ok u ↔
      isUuid agentId = true ∧ isUuid owner = true := by
  simp [validateOwnershipIdentity, bind_eq_ok]

/-- A validated ownership request. -/
structure OwnershipRequest (agentId ownerNodeId : Text) (ttlSeconds : Nat)
    (actor reason : Text) : Prop where
  agent : isUuid agentId = true
  owner : isUuid ownerNodeId = true
  minTtl : minOwnershipLeaseTtlSeconds ≤ ttlSeconds
  maxTtl : ttlSeconds ≤ maxOwnershipLeaseTtlSeconds
  actor : ¬ isInvalidText actor
  reason : ¬ isInvalidText reason

theorem validateOwnershipRequest_eq_ok {agentId owner : Text} {ttl : Nat}
    {actor reason : Text} {u : Unit} :
    validateOwnershipRequest agentId owner ttl actor reason = .ok u ↔
      OwnershipRequest agentId owner ttl actor reason := by
  simp only [validateOwnershipRequest, bind_eq_ok, validateOwnershipIdentity_eq_ok,
    rejectIf_eq_ok, validateText_eq_ok, validateReason_eq_ok, exists_and_left, exists_const,
    not_or, not_lt]
  constructor
  · rintro ⟨⟨hag, ho⟩, ⟨hmin, hmax⟩, ha, hr⟩
    exact ⟨hag, ho, hmin, hmax, ha, hr⟩
  · rintro ⟨hag, ho, hmin, hmax, ha, hr⟩
    exact ⟨⟨hag, ho⟩, ⟨hmin, hmax⟩, ha, hr⟩

theorem ownershipExpiry_eq_ok {now expiry : DateTime} {ttl : Nat}
    (h : ownershipExpiry now ttl = .ok expiry) : expiry.nanos = now.nanos + seconds ttl := by
  simp only [ownershipExpiry, bind_eq_ok, rejectIf_eq_ok, orReject_eq_ok, exists_and_left,
    exists_const] at h
  exact DateTime.checkedAddSigned_eq_some.1 h.2

/-- A lease of a validated request ends after it starts. -/
theorem lt_of_ownershipExpiry {agentId owner : Text} {ttl : Nat} {actor reason : Text}
    {now expiry : DateTime} (hreq : OwnershipRequest agentId owner ttl actor reason)
    (h : ownershipExpiry now ttl = .ok expiry) : now < expiry := by
  have hn := ownershipExpiry_eq_ok h
  have hpos : 0 < seconds ttl := by
    apply seconds_pos
    have hmin := hreq.minTtl
    unfold minOwnershipLeaseTtlSeconds at hmin
    omega
  rw [DateTime.lt_iff]
  omega

/-- A validated registration names a UUID and, if it binds a TLS leaf, a well-formed one. -/
theorem validateMemberRegistration_ok {K : Crypto} {reg : ClusterMemberRegistration} {u : Unit}
    (h : validateMemberRegistration K reg = .ok u) :
    isUuid reg.nodeId = true ∧ ∀ fp, reg.tlsServerCertificateFingerprint = some fp →
        validTlsFingerprint fp = true := by
  simp only [validateMemberRegistration, bind_eq_ok, rejectIf_eq_ok, orReject_eq_ok,
    exists_and_left, exists_const, Bool.not_eq_false] at h
  refine ⟨h.1, ?_⟩
  intro fp hf
  obtain ⟨-, key, -, -, htls, -⟩ := h
  simpa [hf] using htls

end AgentOS
