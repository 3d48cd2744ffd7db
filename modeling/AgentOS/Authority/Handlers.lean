import AgentOS.Authority.State

/-!
# Command handlers

The handlers of `apply_new_authority_command`, in source order. The checks of a handler come in
the order of the source, so that the error of a request that fails several checks is the same.
-/

namespace AgentOS

open Lib

/-! ## Limits -/

def maxJoinChallenges : Nat := 4096
def maxMembers : Nat := 100000
def maxOwnerships : Nat := 1000000
def maxAuditEntries : Nat := 100000

variable (control : ReplicatedControlPlaneState)

def requireMembershipAuditCapacity :
    Except AuthorityError Unit :=
  rejectIf (maxAuditEntries ≤ control.membershipAudit.length)
    (.capacityReached, "replicated membership audit capacity is exhausted")

def requireCertificateRolloutAuditCapacity :
    Except AuthorityError Unit :=
  rejectIf (maxAuditEntries ≤ control.certificateRolloutAudit.length)
    (.capacityReached, "replicated certificate rollout audit capacity is exhausted")

/-! ## Updates shared by the handlers -/

namespace ReplicatedControlPlaneState

/-- Store a member revision and its audit entry. -/
def recordMember (nodeId : Text) (member : ClusterMember) (audit : ClusterMembershipAudit) :
    ReplicatedControlPlaneState :=
  { control with
    members := control.members.insert nodeId member
    membershipGeneration := audit.membershipGeneration
    membershipAudit := control.membershipAudit ++ [audit] }

/-- Append a rollout audit entry. -/
def recordRolloutAudit (audit : ClusterCertificateRolloutAudit) : ReplicatedControlPlaneState :=
  { control with
    tlsTrustGeneration := audit.trustGeneration
    certificateRolloutAudit := control.certificateRolloutAudit ++ [audit] }

/-- Store an ownership revision and its audit entry. -/
def recordOwnership (agentId : Text) (ownership : ClusterAgentOwnership)
    (audit : ClusterAgentOwnershipAudit) :
    ReplicatedControlPlaneState :=
  { control with
    ownerships := control.ownerships.insert agentId ownership
    ownershipAudit := control.ownershipAudit ++ [audit] }

end ReplicatedControlPlaneState

/-- The audit entry of a revision of an existing member. -/
def memberRevisionAudit (membershipGeneration : Nat) (nodeId : Text) (previous : ClusterMember)
    (generation : Nat) (state : ClusterMemberState) (tls : Option Text)
    (actor reason : Text) (now : DateTime) : ClusterMembershipAudit where
  membershipGeneration
  nodeId
  memberGeneration := generation
  previous := some previous.state
  current := state
  previousTlsServerCertificateFingerprint := previous.tlsServerCertificateFingerprint
  currentTlsServerCertificateFingerprint := tls
  actor
  reason
  changedAt := now

/-- The revision of an existing member. -/
def revisedMember (previous : ClusterMember) (generation : Nat) (state : ClusterMemberState)
    (tls : Option Text) (reason : Text) (now : DateTime) : ClusterMember :=
  { previous with
    state
    generation
    tlsServerCertificateFingerprint := tls
    updatedAt := now
    reason }

def appendMemberRevision (previous : ClusterMember) (state : ClusterMemberState) (tls : Option Text)
    (actor reason : Text) (now : DateTime) :
    Except AuthorityError (ClusterMember × ReplicatedControlPlaneState) := do
  requireMembershipAuditCapacity control
  let generation ← orReject (checkedSucc previous.generation)
    (conflict "cluster member generation overflow")
  let membershipGeneration ← orReject (checkedSucc control.membershipGeneration)
    (conflict "membership generation overflow")
  let upd := revisedMember previous generation state tls reason now
  return (upd, control.recordMember previous.nodeId upd
    (memberRevisionAudit membershipGeneration previous.nodeId previous generation state tls
      actor reason now))

/-- The entry that `append_certificate_rollout_audit` appends. -/
def rolloutAuditEntry (trustGeneration : Nat) (nodeId : Text) (memberGeneration : Nat)
    (previousPhase currentPhase : Option ClusterCertificateRolloutPhase)
    (previousFingerprint nextFingerprint : Text) (actor reason : Text) (now : DateTime) :
    ClusterCertificateRolloutAudit where
  trustGeneration
  nodeId
  memberGeneration
  previousPhase
  currentPhase
  previousTlsServerCertificateFingerprint := previousFingerprint
  nextTlsServerCertificateFingerprint := nextFingerprint
  actor
  reason
  changedAt := now

/-- `append_certificate_rollout_audit`: the new trust generation and the control plane. -/
def appendCertificateRolloutAudit (nodeId : Text) (memberGeneration : Nat)
    (previousPhase currentPhase : Option ClusterCertificateRolloutPhase)
    (previousFingerprint nextFingerprint : Text) (actor reason : Text) (now : DateTime) :
    Except AuthorityError (Nat × ReplicatedControlPlaneState) := do
  requireCertificateRolloutAuditCapacity control
  let trustGeneration ← orReject (checkedSucc control.tlsTrustGeneration)
    (conflict "cluster TLS trust generation overflow")
  return (trustGeneration, control.recordRolloutAudit
    (rolloutAuditEntry trustGeneration nodeId memberGeneration previousPhase currentPhase
      previousFingerprint nextFingerprint actor reason now))

/-- The audit entry of a renewal or a release. -/
def holderAudit (agentId ownerNodeId : Text) (generation authorityTerm fencingToken : Nat)
    (operation : String) (actor reason : Text) (now : DateTime) : ClusterAgentOwnershipAudit where
  agentId
  generation
  previousOwnerNodeId := some ownerNodeId
  ownerNodeId
  authorityTerm
  fencingToken
  operation
  actor
  reason
  changedAt := now

def consumeJoinChallenge (challengeHash : Text) (now : DateTime) : ReplicatedControlPlaneState :=
  { control with
    joinChallenges := control.joinChallenges.modify challengeHash fun challenge =>
      { challenge with consumedAt := some now } }

/-- The conflict of a stale member revision. -/
def memberRevisionConflict (expected current : Nat) : AuthorityError :=
  conflict ("cluster member revision conflict: expected " ++ toString expected ++ ", current " ++
    toString current)

/-! ## Join challenges -/

/-- The join challenges that outlive a new one: unexpired and unconsumed. -/
def retainedChallenges (challenges : OrdMap Text ReplicatedJoinChallenge) (now : DateTime) :
    OrdMap Text ReplicatedJoinChallenge :=
  challenges.filter fun _ record =>
    decide (now < record.expiresAt) && record.consumedAt.isNone

/-- The body of `AuthorityCommand::IssueJoinChallenge`. -/
def applyIssueJoinChallenge (K : Crypto) (control : ReplicatedControlPlaneState)
    (command : IssueJoinChallenge) :
    Except AuthorityError (ClusterJoinChallenge × ReplicatedControlPlaneState) := do
  rejectIf
    (command.ttlSeconds < minJoinChallengeTtlSeconds ∨
      maxJoinChallengeTtlSeconds < command.ttlSeconds)
    (invalidCommand "invalid join challenge ttl (expected 5..=300 seconds)")
  let challenge ← orReject (hexDecode32 command.challengeHex)
    (invalidCommand "invalid cluster join challenge")
  let (now, next) ← advanceAuthorityTime control command.proposedAt
  let retained := retainedChallenges next.joinChallenges now
  rejectIf (maxJoinChallenges ≤ retained.size)
    (.capacityReached, "replicated join challenge capacity is exhausted")
  let challengeHash := K.sha256Hex challenge
  rejectIf (challengeHash ∈ retained) (conflict "cluster join challenge already exists")
  let expiresAt ← orReject (now.checkedAddSigned (seconds command.ttlSeconds))
    (invalidCommand "cluster join challenge expiry overflow")
  return (⟨next.clusterId, command.challengeHex, expiresAt⟩,
    { next with
      joinChallenges := retained.insert challengeHash ⟨command.challengeHex, expiresAt, none⟩ })

/-- `validate_challenged_registration`: the instant and the hash of the challenge, which stays
unconsumed. -/
def validateChallengedRegistration (K : Crypto) (control : ReplicatedControlPlaneState)
    (registration : ClusterMemberRegistration) (challengeHex signatureHex : Text)
    (proposedAt : DateTime) :
    Except AuthorityError ((DateTime × Text) × ReplicatedControlPlaneState) := do
  checked (validateMemberRegistration K registration)
  let challenge ← orReject (hexDecode32 challengeHex)
    (invalidCommand "invalid cluster join challenge")
  let signature ← orReject (hexDecode signatureHex)
    (invalidCommand "invalid cluster join signature")
  let payload ← checked (membershipJoinPayload K control.clusterId challengeHex registration)
  rejectIf (K.verifyChallenge registration.publicKey payload signature = false)
    (conflict "cluster member challenged identity proof denied")
  let (now, control) ← advanceAuthorityTime control proposedAt
  let challengeHash := K.sha256Hex challenge
  let record ← orReject control.joinChallenges[challengeHash]?
    (conflict "invalid cluster join challenge: unknown")
  rejectIf (record.challengeHex ≠ challengeHex)
    (conflict "invalid cluster join challenge: hash mismatch")
  rejectIf (record.consumedAt.isSome = true)
    (conflict "cluster join challenge was already consumed")
  rejectIf (record.expiresAt ≤ now) (conflict "invalid cluster join challenge: expired")
  return ((now, challengeHash), control)

/-! ## Certificate rollouts -/

def certificateFingerprintWasPreviouslyAuthorized (fingerprint : Text) : Bool :=
  control.membershipAudit.any (fun audit =>
      audit.previousTlsServerCertificateFingerprint == some fingerprint ||
        audit.currentTlsServerCertificateFingerprint == some fingerprint) ||
    control.certificateRolloutAudit.any fun audit =>
      audit.previousTlsServerCertificateFingerprint == fingerprint ||
        audit.nextTlsServerCertificateFingerprint == fingerprint

/-- The registration fields that a rollout must not change. -/
def changesRegistration (member : ClusterMember) (registration : ClusterMemberRegistration) :
    Prop :=
  member.fingerprint ≠ registration.fingerprint ∨
    member.publicKey ≠ registration.publicKey ∨
    member.endpoint ≠ registration.endpoint ∨
    member.serverVersion ≠ registration.serverVersion ∨
    member.minProtocolVersion ≠ registration.minProtocolVersion ∨
    member.protocolVersion ≠ registration.protocolVersion

instance (member : ClusterMember) (registration : ClusterMemberRegistration) :
    Decidable (changesRegistration member registration) :=
  inferInstanceAs (Decidable (_ ∨ _ ∨ _ ∨ _ ∨ _ ∨ _))

/-- A rollout window outside the limits. -/
def isOutsideRolloutWindow (rolloutSeconds : Nat) : Prop :=
  rolloutSeconds < minCertificateRolloutSeconds ∨ maxCertificateRolloutSeconds < rolloutSeconds

instance (rolloutSeconds : Nat) : Decidable (isOutsideRolloutWindow rolloutSeconds) :=
  inferInstanceAs (Decidable (_ ∨ _))

/-- The rollout that a preparation stores. -/
def preparedRollout (command : PrepareMemberCertificateRollout) (member : ClusterMember)
    (trustGeneration memberGeneration : Nat) (previousFingerprint nextFingerprint : Text)
    (prepareExpiresAt now : DateTime) : ClusterCertificateRollout where
  nodeId := member.nodeId
  trustGeneration
  memberGeneration
  phase := .prepared
  previousTlsServerCertificateFingerprint := previousFingerprint
  nextTlsServerCertificateFingerprint := nextFingerprint
  minimumOverlapSeconds := command.minimumOverlapSeconds
  prepareExpiresAt
  retirePreviousAfter := none
  preparedAt := now
  updatedAt := now
  reason := command.reason

def applyPrepareMemberCertificateRollout (K : Crypto) (control : ReplicatedControlPlaneState)
    (command : PrepareMemberCertificateRollout) :
    Except AuthorityError
      ((ClusterMember × ClusterCertificateRollout) × ReplicatedControlPlaneState) := do
  checked (validateText command.actor "cluster-certificate-rollout actor")
  checked (validateReason command.reason)
  rejectIf
    (isOutsideRolloutWindow command.prepareTtlSeconds ∨
      isOutsideRolloutWindow command.minimumOverlapSeconds)
    (invalidCommand "invalid certificate rollout window (expected 5..=3600 seconds)")
  requireMembershipAuditCapacity control
  requireCertificateRolloutAuditCapacity control
  let ((now, challengeHash), control) ← validateChallengedRegistration K control
    command.registration command.challengeHex command.signatureHex command.proposedAt
  let member ← orReject control.members[command.registration.nodeId]?
    (conflict "cluster member not found")
  rejectIf (member.state ≠ .active)
    (conflict "certificate rollout requires an active cluster member")
  rejectIf (member.generation ≠ command.expectedGeneration)
    (memberRevisionConflict command.expectedGeneration member.generation)
  rejectIf (member.nodeId ∈ control.certificateRollouts)
    (conflict "cluster member already has an unfinished certificate rollout")
  rejectIf (changesRegistration member command.registration)
    (conflict "certificate rollout registration may only change the TLS certificate fingerprint")
  let previousFingerprint ← orReject member.tlsServerCertificateFingerprint
    (conflict "certificate rollout requires an existing TLS-bound application listener")
  let nextFingerprint ← orReject command.registration.tlsServerCertificateFingerprint
    (invalidCommand "certificate rollout candidate fingerprint is required")
  rejectIf (previousFingerprint = nextFingerprint)
    (conflict "certificate rollout candidate must differ from the current fingerprint")
  rejectIf
    (certificateFingerprintWasPreviouslyAuthorized control nextFingerprint = true ∨
      control.members.toList.any fun entry =>
        entry.2.tlsServerCertificateFingerprint == some nextFingerprint)
    (conflict "certificate rollout candidate was already authorized or assigned")
  let prepareExpiresAt ← orReject (now.checkedAddSigned (seconds command.prepareTtlSeconds))
    (invalidCommand "certificate rollout prepare expiry overflow")
  let (upd, control) ← appendMemberRevision control member member.state
    member.tlsServerCertificateFingerprint command.actor command.reason now
  let (trustGeneration, control) ← appendCertificateRolloutAudit control member.nodeId
    upd.generation none (some .prepared) previousFingerprint nextFingerprint command.actor
    command.reason now
  let rollout := preparedRollout command member trustGeneration upd.generation
    previousFingerprint nextFingerprint prepareExpiresAt now
  let control := { control with
    certificateRollouts := control.certificateRollouts.insert member.nodeId rollout }
  return ((upd, rollout), consumeJoinChallenge control challengeHash now)

inductive CertificateRolloutFinish where
  | abort
  | finalize
  deriving DecidableEq

/-- The phase and deadline test of `apply_finish_member_certificate_rollout`. -/
def requireFinishable (finish : CertificateRolloutFinish) (rollout : ClusterCertificateRollout)
    (now : DateTime) : Except AuthorityError Unit :=
  match finish with
  | .abort =>
    rejectIf (rollout.phase ≠ .prepared)
      (conflict "activated certificate rollout cannot be aborted; wait and finalize it")
  | .finalize => do
      rejectIf (rollout.phase ≠ .activated)
        (conflict "prepared certificate rollout cannot be finalized before activation")
      rejectIf (rollout.retirePreviousAfter.all fun deadline => decide (now < deadline))
        (conflict "certificate rollout overlap has not reached its retirement deadline")

def applyFinishMemberCertificateRollout (finish : CertificateRolloutFinish)
    (command : FinishMemberCertificateRollout) :
    Except AuthorityError (ClusterMember × ReplicatedControlPlaneState) := do
  rejectIf (isUuid command.nodeId = false)
    (invalidCommand "invalid certificate rollout cluster member node id")
  checked (validateText command.actor "cluster-certificate-rollout actor")
  checked (validateReason command.reason)
  requireMembershipAuditCapacity control
  requireCertificateRolloutAuditCapacity control
  let member ← orReject control.members[command.nodeId]? (conflict "cluster member not found")
  rejectIf (member.state ≠ .active)
    (conflict "certificate rollout mutation requires an active cluster member")
  rejectIf (member.generation ≠ command.expectedGeneration)
    (memberRevisionConflict command.expectedGeneration member.generation)
  let rollout ← orReject control.certificateRollouts[command.nodeId]?
    (conflict "cluster member has no unfinished certificate rollout")
  rejectIf (rollout.memberGeneration ≠ member.generation)
    (conflict "certificate rollout revision differs from the current member revision")
  let (now, control) ← advanceAuthorityTime control command.proposedAt
  requireFinishable finish rollout now
  let (upd, control) ← appendMemberRevision control member member.state
    member.tlsServerCertificateFingerprint command.actor command.reason now
  let (_, control) ← appendCertificateRolloutAudit control command.nodeId upd.generation
    (some rollout.phase) none rollout.previousTlsServerCertificateFingerprint
    rollout.nextTlsServerCertificateFingerprint command.actor command.reason now
  return (upd, { control with
    certificateRollouts := control.certificateRollouts.erase command.nodeId })

/-! ## When a request succeeds, and what it stores -/

section Outcome

variable {K : Crypto} {control control' : ReplicatedControlPlaneState}

variable {upd : ClusterMember} {now : DateTime}

theorem appendMemberRevision_eq_ok {prev : ClusterMember} {state : ClusterMemberState}
    {tls : Option Text} {actor reason : Text} :
    appendMemberRevision control prev state tls actor reason now = .ok (upd, control') ↔
      control.membershipAudit.length < maxAuditEntries ∧ prev.generation + 1 < 2 ^ 64 ∧
        control.membershipGeneration + 1 < 2 ^ 64 ∧
        upd = revisedMember prev (prev.generation + 1) state tls reason now ∧
        control' = control.recordMember prev.nodeId upd
          (memberRevisionAudit (control.membershipGeneration + 1) prev.nodeId prev
            (prev.generation + 1) state tls actor reason now) := by
  simp only [appendMemberRevision, requireMembershipAuditCapacity, bind_eq_ok, rejectIf_eq_ok,
    orReject_eq_ok, checkedSucc_eq_some, pure_eq_ok, Prod.mk.injEq, exists_and_left,
    exists_const, not_le]
  constructor
  · rintro ⟨hcap, gen, ⟨hg, rfl⟩, total, ⟨ht, rfl⟩, rfl, rfl⟩
    exact ⟨hcap, hg, ht, rfl, rfl⟩
  · rintro ⟨hcap, hg, ht, rfl, rfl⟩
    exact ⟨hcap, _, ⟨hg, rfl⟩, _, ⟨ht, rfl⟩, rfl, rfl⟩

theorem appendCertificateRolloutAudit_eq_ok {nodeId : Text} {memGen : Nat}
    {previousPhase currentPhase : Option ClusterCertificateRolloutPhase}
    {previousLeaf nextLeaf actor reason : Text} {trustGeneration : Nat} :
    appendCertificateRolloutAudit control nodeId memGen previousPhase currentPhase
        previousLeaf nextLeaf actor reason now = .ok (trustGeneration, control') ↔
      control.certificateRolloutAudit.length < maxAuditEntries ∧
        control.tlsTrustGeneration + 1 < 2 ^ 64 ∧
        trustGeneration = control.tlsTrustGeneration + 1 ∧
        control' = control.recordRolloutAudit
          (rolloutAuditEntry trustGeneration nodeId memGen previousPhase currentPhase
            previousLeaf nextLeaf actor reason now) := by
  simp only [appendCertificateRolloutAudit, requireCertificateRolloutAuditCapacity, bind_eq_ok,
    rejectIf_eq_ok, orReject_eq_ok, checkedSucc_eq_some, pure_eq_ok, Prod.mk.injEq,
    exists_and_left, exists_const, not_le]
  constructor
  · rintro ⟨hcap, trust, ⟨ht, rfl⟩, rfl, rfl⟩
    exact ⟨hcap, ht, rfl, rfl⟩
  · rintro ⟨hcap, ht, rfl, rfl⟩
    exact ⟨hcap, _, ⟨ht, rfl⟩, rfl, rfl⟩

/-- The conditions of a new join challenge with hash `hash`. -/
structure IssueGuard (K : Crypto) (control : ReplicatedControlPlaneState)
    (command : IssueJoinChallenge) (now expiresAt : DateTime) (hash : Text) : Prop where
  minTtl : minJoinChallengeTtlSeconds ≤ command.ttlSeconds
  maxTtl : command.ttlSeconds ≤ maxJoinChallengeTtlSeconds
  decoded : ∃ challenge, hexDecode32 command.challengeHex = some challenge ∧
    K.sha256Hex challenge = hash
  clock : EffectiveAt control.logicalTime command.proposedAt now
  capacity : (retainedChallenges control.joinChallenges now).size < maxJoinChallenges
  unused : hash ∉ retainedChallenges control.joinChallenges now
  expiry : now.checkedAddSigned (seconds command.ttlSeconds) = some expiresAt

/-- The control plane after a new join challenge. -/
def issueNext (control : ReplicatedControlPlaneState) (command : IssueJoinChallenge)
    (now expiresAt : DateTime) (hash : Text) : ReplicatedControlPlaneState :=
  { control with
    logicalTime := now
    joinChallenges := (retainedChallenges control.joinChallenges now).insert hash
      ⟨command.challengeHex, expiresAt, none⟩ }

theorem applyIssueJoinChallenge_eq_ok {command : IssueJoinChallenge} {chal : ClusterJoinChallenge} :
    applyIssueJoinChallenge K control command = .ok (chal, control') ↔
      ∃ now expiry hash, IssueGuard K control command now expiry hash ∧
        chal = ⟨control.clusterId, command.challengeHex, expiry⟩ ∧
        control' = issueNext control command now expiry hash := by
  simp only [applyIssueJoinChallenge, bind_eq_ok, rejectIf_eq_ok, orReject_eq_ok, Prod.exists,
    advanceAuthorityTime_eq_ok, pure_eq_ok, Prod.mk.injEq, exists_and_left, exists_const, not_le,
    not_or, not_lt]
  constructor
  · rintro ⟨⟨hmin, hmax⟩, bytes, hb, now, _, ⟨hc, rfl⟩, hcap, hu, expiry,
      he, rfl, rfl⟩
    exact ⟨now, expiry, _, ⟨hmin, hmax, ⟨bytes, hb, rfl⟩, hc, hcap, hu, he⟩, rfl, rfl⟩
  · rintro ⟨now, expiry, _, ⟨hmin, hmax, ⟨bytes, hb, rfl⟩, hc, hcap, hu,
      he⟩, rfl, rfl⟩
    exact ⟨⟨hmin, hmax⟩, bytes, hb, now, _, ⟨hc, rfl⟩, hcap, hu, expiry, he, rfl, rfl⟩

/-- The conditions of a challenged registration at `now` that redeems the challenge `hash`. -/
structure ChallengedGuard (K : Crypto) (control : ReplicatedControlPlaneState)
    (registration : ClusterMemberRegistration) (challengeHex signatureHex : Text)
    (proposedAt now : DateTime) (hash : Text) : Prop where
  valid : validateMemberRegistration K registration = .ok ()
  decoded : ∃ challenge, hexDecode32 challengeHex = some challenge ∧
    K.sha256Hex challenge = hash
  signed : ∃ signature payload, hexDecode signatureHex = some signature ∧
    membershipJoinPayload K control.clusterId challengeHex registration = .ok payload ∧
    K.verifyChallenge registration.publicKey payload signature = true
  clock : EffectiveAt control.logicalTime proposedAt now
  unredeemed : ∃ record, control.joinChallenges[hash]? = some record ∧
    record.challengeHex = challengeHex ∧ record.consumedAt = none ∧ now < record.expiresAt

theorem validateChallengedRegistration_eq_ok {reg : ClusterMemberRegistration}
    {challengeHex signatureHex hash : Text} {proposedAt : DateTime} :
    validateChallengedRegistration K control reg challengeHex signatureHex proposedAt =
        .ok ((now, hash), control') ↔
      ChallengedGuard K control reg challengeHex signatureHex proposedAt now hash ∧
        control' = { control with logicalTime := now } := by
  simp only [validateChallengedRegistration, bind_eq_ok, rejectIf_eq_ok, orReject_eq_ok,
    checked_eq_ok, Prod.exists, advanceAuthorityTime_eq_ok, pure_eq_ok, Prod.mk.injEq,
    exists_and_left, exists_const, not_le, ne_eq, not_not, Bool.not_eq_true, Bool.not_eq_false,
    Option.isSome_eq_false_iff, Option.isNone_iff_eq_none]
  constructor
  · rintro ⟨_, hreg, bytes, hb, sig, hs, payload, hp, hv, now',
      _, ⟨hc, rfl⟩, record, hr, hhex, hu, hlive, ⟨rfl, rfl⟩, rfl⟩
    exact ⟨⟨hreg, ⟨bytes, hb, rfl⟩, ⟨sig, payload, hs, hp, hv⟩,
      hc, ⟨record, hr, hhex, hu, hlive⟩⟩, rfl⟩
  · rintro ⟨⟨hreg, ⟨bytes, hb, rfl⟩, ⟨sig, payload, hs, hp, hv⟩,
      hc, ⟨record, hr, hhex, hu, hlive⟩⟩, rfl⟩
    exact ⟨(), hreg, bytes, hb, sig, hs, payload, hp, hv, now, _,
      ⟨hc, rfl⟩, record, hr, hhex, hu, hlive, ⟨rfl, rfl⟩, rfl⟩

/-- The conditions of a rollout preparation for `member`. -/
structure PrepareGuard (K : Crypto) (control : ReplicatedControlPlaneState)
    (command : PrepareMemberCertificateRollout) (now prepareExpiresAt : DateTime) (hash : Text)
    (member : ClusterMember) (previousFingerprint nextFingerprint : Text) : Prop where
  actor : ¬ isInvalidText command.actor
  reason : ¬ isInvalidText command.reason
  prepareWindow : ¬ isOutsideRolloutWindow command.prepareTtlSeconds
  overlapWindow : ¬ isOutsideRolloutWindow command.minimumOverlapSeconds
  capacity : control.membershipAudit.length < maxAuditEntries
  rolloutCapacity : control.certificateRolloutAudit.length < maxAuditEntries
  challenged : ChallengedGuard K control command.registration command.challengeHex
    command.signatureHex command.proposedAt now hash
  found : control.members[command.registration.nodeId]? = some member
  active : member.state = .active
  expected : member.generation = command.expectedGeneration
  idle : member.nodeId ∉ control.certificateRollouts
  unchanged : ¬ changesRegistration member command.registration
  previousLeaf : member.tlsServerCertificateFingerprint = some previousFingerprint
  nextLeaf : command.registration.tlsServerCertificateFingerprint = some nextFingerprint
  distinct : previousFingerprint ≠ nextFingerprint
  unauthorized : certificateFingerprintWasPreviouslyAuthorized control nextFingerprint = false
  unassigned : ∀ (nodeId : Text) (candidate : ClusterMember),
    control.members[nodeId]? = some candidate →
      candidate.tlsServerCertificateFingerprint ≠ some nextFingerprint
  expiry : now.checkedAddSigned (seconds command.prepareTtlSeconds) = some prepareExpiresAt
  revision : member.generation + 1 < 2 ^ 64
  total : control.membershipGeneration + 1 < 2 ^ 64
  trust : control.tlsTrustGeneration + 1 < 2 ^ 64

/-- The control plane after a rollout preparation. -/
def prepareNext (control : ReplicatedControlPlaneState)
    (command : PrepareMemberCertificateRollout) (now prepareExpiresAt : DateTime) (hash : Text)
    (member : ClusterMember) (previousFingerprint nextFingerprint : Text) :
    ReplicatedControlPlaneState :=
  let generation := member.generation + 1
  let revised := { control with logicalTime := now }.recordMember member.nodeId
    (revisedMember member generation member.state member.tlsServerCertificateFingerprint
      command.reason now)
    (memberRevisionAudit (control.membershipGeneration + 1) member.nodeId member generation
      member.state member.tlsServerCertificateFingerprint command.actor command.reason now)
  let audited := revised.recordRolloutAudit
    (rolloutAuditEntry (control.tlsTrustGeneration + 1) member.nodeId generation none
      (some .prepared) previousFingerprint nextFingerprint command.actor command.reason now)
  consumeJoinChallenge
    { audited with
      certificateRollouts := control.certificateRollouts.insert member.nodeId
        (preparedRollout command member (control.tlsTrustGeneration + 1) generation
          previousFingerprint nextFingerprint prepareExpiresAt now) }
    hash now

variable {rollout : ClusterCertificateRollout}

theorem applyPrepareMemberCertificateRollout_eq_ok {command : PrepareMemberCertificateRollout} :
    applyPrepareMemberCertificateRollout K control command = .ok ((upd, rollout), control') ↔
      ∃ now prepBy hash member previousLeaf nextLeaf,
          PrepareGuard K control command now prepBy hash member previousLeaf nextLeaf ∧
          upd = revisedMember member (member.generation + 1) member.state
            member.tlsServerCertificateFingerprint command.reason now ∧
          rollout = preparedRollout command member (control.tlsTrustGeneration + 1)
            (member.generation + 1) previousLeaf nextLeaf prepBy now ∧
          control' = prepareNext control command now prepBy hash member previousLeaf nextLeaf := by
  simp only [applyPrepareMemberCertificateRollout, requireMembershipAuditCapacity,
    requireCertificateRolloutAuditCapacity, bind_eq_ok, rejectIf_eq_ok, orReject_eq_ok,
    checked_eq_ok, validateText_eq_ok, validateReason_eq_ok, Prod.exists,
    validateChallengedRegistration_eq_ok, appendMemberRevision_eq_ok,
    appendCertificateRolloutAudit_eq_ok, pure_eq_ok, Prod.mk.injEq, exists_and_left,
    exists_const, not_le, not_or, ne_eq, not_not, Bool.not_eq_true,
    OrdMap.toList_any_eq_false, beq_eq_false_iff_ne]
  constructor
  · rintro ⟨hac, hre, ⟨hpr, ho⟩, hcap, hcap', now, hash, _,
      ⟨hc, rfl⟩, member, hf, ha, he, hidle, hunc, prev,
      hp, next, hnext, hd, ⟨hu, hun⟩, expiry, hexp, _, _,
      ⟨-, hr, ht, rfl, rfl⟩, _, _, ⟨-, htr, rfl, rfl⟩, ⟨rfl, rfl⟩, rfl⟩
    exact ⟨now, expiry, hash, member, prev, next,
      ⟨hac, hre, hpr, ho, hcap, hcap', hc, hf, ha, he,
        hidle, hunc, hp, hnext, hd, hu, hun, hexp,
        hr, ht, htr⟩, rfl, rfl, rfl⟩
  · rintro ⟨now, expiry, hash, member, prev, next,
      ⟨hac, hre, hpr, ho, hcap, hcap', hc, hf, ha, he,
        hidle, hunc, hp, hnext, hd, hu, hun, hexp,
        hr, ht, htr⟩, rfl, rfl, rfl⟩
    exact ⟨hac, hre, ⟨hpr, ho⟩, hcap, hcap', now, hash, _,
      ⟨hc, rfl⟩, member, hf, ha, he, hidle, hunc, prev,
      hp, next, hnext, hd, ⟨hu, hun⟩, expiry, hexp, _, _,
      ⟨hcap, hr, ht, rfl, rfl⟩, _, _, ⟨hcap', htr, rfl, rfl⟩, ⟨rfl, rfl⟩, rfl⟩

/-- The phase and deadline that each way to finish a rollout needs. -/
inductive Finishable (now : DateTime) :
    CertificateRolloutFinish → ClusterCertificateRollout → Prop
  | abort {rollout : ClusterCertificateRollout} (phase : rollout.phase = .prepared) :
      Finishable now .abort rollout
  | finalize {rollout : ClusterCertificateRollout} {deadline : DateTime}
      (phase : rollout.phase = .activated)
      (retires : rollout.retirePreviousAfter = some deadline) (reached : deadline ≤ now) :
      Finishable now .finalize rollout

variable {finish : CertificateRolloutFinish}

theorem requireFinishable_eq_ok {u : Unit} :
    requireFinishable finish rollout now = .ok u ↔ Finishable now finish rollout := by
  cases finish with
  | abort =>
    simp only [requireFinishable, rejectIf_eq_ok, ne_eq, not_not]
    constructor
    · exact .abort
    · intro h
      cases h with
      | abort hp => exact hp
  | finalize =>
    simp only [requireFinishable, bind_eq_ok, rejectIf_eq_ok, ne_eq, not_not, exists_and_left,
      exists_const]
    constructor
    · rintro ⟨hp, hd⟩
      cases hr : rollout.retirePreviousAfter with
      | none => simp [hr] at hd
      | some deadline =>
        rw [hr] at hd
        exact .finalize hp hr (by simpa using hd)
    · intro h
      cases h with
      | finalize hp hr hre => exact ⟨hp, by simpa [hr] using hre⟩

/-- The conditions under which the rollout of `member` is finished. -/
structure FinishGuard (control : ReplicatedControlPlaneState) (finish : CertificateRolloutFinish)
    (command : FinishMemberCertificateRollout) (now : DateTime) (member : ClusterMember)
    (rollout : ClusterCertificateRollout) : Prop where
  node : isUuid command.nodeId = true
  actor : ¬ isInvalidText command.actor
  reason : ¬ isInvalidText command.reason
  capacity : control.membershipAudit.length < maxAuditEntries
  rolloutCapacity : control.certificateRolloutAudit.length < maxAuditEntries
  found : control.members[command.nodeId]? = some member
  active : member.state = .active
  expected : member.generation = command.expectedGeneration
  unfinished : control.certificateRollouts[command.nodeId]? = some rollout
  current : rollout.memberGeneration = member.generation
  clock : EffectiveAt control.logicalTime command.proposedAt now
  finishable : Finishable now finish rollout
  revision : member.generation + 1 < 2 ^ 64
  total : control.membershipGeneration + 1 < 2 ^ 64
  trust : control.tlsTrustGeneration + 1 < 2 ^ 64

/-- The control plane after the end of a rollout. -/
def finishNext (control : ReplicatedControlPlaneState)
    (command : FinishMemberCertificateRollout) (now : DateTime) (member : ClusterMember)
    (rollout : ClusterCertificateRollout) : ReplicatedControlPlaneState :=
  let generation := member.generation + 1
  let revised := { control with logicalTime := now }.recordMember member.nodeId
    (revisedMember member generation member.state member.tlsServerCertificateFingerprint
      command.reason now)
    (memberRevisionAudit (control.membershipGeneration + 1) member.nodeId member generation
      member.state member.tlsServerCertificateFingerprint command.actor command.reason now)
  let audited := revised.recordRolloutAudit
    (rolloutAuditEntry (control.tlsTrustGeneration + 1) command.nodeId generation
      (some rollout.phase) none rollout.previousTlsServerCertificateFingerprint
      rollout.nextTlsServerCertificateFingerprint command.actor command.reason now)
  { audited with certificateRollouts := control.certificateRollouts.erase command.nodeId }

theorem applyFinishMemberCertificateRollout_eq_ok {command : FinishMemberCertificateRollout} :
    applyFinishMemberCertificateRollout control finish command = .ok (upd, control') ↔
      ∃ now member rollout, FinishGuard control finish command now member rollout ∧
        upd = revisedMember member (member.generation + 1) member.state
          member.tlsServerCertificateFingerprint command.reason now ∧
        control' = finishNext control command now member rollout := by
  simp only [applyFinishMemberCertificateRollout, requireMembershipAuditCapacity,
    requireCertificateRolloutAuditCapacity, bind_eq_ok, rejectIf_eq_ok, orReject_eq_ok,
    checked_eq_ok, validateText_eq_ok, validateReason_eq_ok, Prod.exists,
    advanceAuthorityTime_eq_ok, requireFinishable_eq_ok, appendMemberRevision_eq_ok,
    appendCertificateRolloutAudit_eq_ok, pure_eq_ok, Prod.mk.injEq, exists_and_left,
    exists_const, not_le, ne_eq, not_not, Bool.not_eq_false]
  constructor
  · rintro ⟨hnode, hac, hre, hcap, hcap', member, hfo, ha, he, rollout,
      hu, hc, now, _, ⟨hcl, rfl⟩, hf, _, _,
      ⟨-, hr, ht, rfl, rfl⟩, _, _, ⟨-, htr, rfl, rfl⟩, rfl, rfl⟩
    exact ⟨now, member, rollout,
      ⟨hnode, hac, hre, hcap, hcap', hfo, ha, he, hu, hc,
        hcl, hf, hr, ht, htr⟩, rfl, rfl⟩
  · rintro ⟨now, member, rollout,
      ⟨hnode, hac, hre, hcap, hcap', hfo, ha, he, hu, hc,
        hcl, hf, hr, ht, htr⟩, rfl, rfl⟩
    exact ⟨hnode, hac, hre, hcap, hcap', member, hfo, ha, he, rollout,
      hu, hc, now, _, ⟨hcl, rfl⟩, hf, _, _,
      ⟨hcap, hr, ht, rfl, rfl⟩, _, _, ⟨hcap', htr, rfl, rfl⟩, rfl, rfl⟩

end Outcome

end AgentOS
