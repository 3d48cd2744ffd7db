import AgentOS.Authority.Handlers

/-!
# Registration and member state

`apply_register_member` and `apply_set_member_state`. Registration is cut at the two decisions it
makes about an existing member: whether it activates a prepared rollout, and which revision it
follows.
-/

namespace AgentOS

open Lib

/-! ## Registration -/

/-- Another member already holds the identity, the endpoint or the TLS leaf. -/
def bindsForeign (member : ClusterMember) (registration : ClusterMemberRegistration) : Bool :=
  member.nodeId != registration.nodeId &&
    (member.fingerprint == registration.fingerprint ||
      member.endpoint == registration.endpoint ||
      registration.tlsServerCertificateFingerprint.any fun fingerprint =>
        member.tlsServerCertificateFingerprint == some fingerprint)

/-- The registration of an active member that activates its prepared rollout. -/
def activatesRollout (member : ClusterMember) (rollout : ClusterCertificateRollout)
    (registration : ClusterMemberRegistration) (now : DateTime) : Prop :=
  member.state = .active ∧
    member.tlsServerCertificateFingerprint ≠ registration.tlsServerCertificateFingerprint ∧
    rollout.phase = .prepared ∧
    rollout.memberGeneration = member.generation ∧
    registration.tlsServerCertificateFingerprint =
      some rollout.nextTlsServerCertificateFingerprint ∧
    now < rollout.prepareExpiresAt

instance (member : ClusterMember) (rollout : ClusterCertificateRollout)
    (registration : ClusterMemberRegistration) (now : DateTime) :
    Decidable (activatesRollout member rollout registration now) :=
  inferInstanceAs (Decidable (_ ∧ _ ∧ _ ∧ _ ∧ _ ∧ _))

variable (control : ReplicatedControlPlaneState)

/-- The rollout that a registration activates, if any: the decision about an existing member. -/
def activatingRollout (existing : Option ClusterMember) (registration : ClusterMemberRegistration)
    (now : DateTime) :
    Except AuthorityError (Option ClusterCertificateRollout) :=
  match existing with
  | none => return none
  | some member =>
    match control.certificateRollouts[member.nodeId]? with
    | some rollout =>
      if activatesRollout member rollout registration now then do
        rejectIf
          (changesRegistration member registration ∨
            member.tlsServerCertificateFingerprint ≠
              some rollout.previousTlsServerCertificateFingerprint)
          (conflict
            "certificate rollout activation may only change the prepared TLS fingerprint")
        requireCertificateRolloutAuditCapacity control
        return some rollout
      else
        .error (conflict
          "cluster member registration conflicts with its unfinished certificate rollout")
    | none => do
        rejectIf
          (member.state = .active ∧
            member.tlsServerCertificateFingerprint ≠
              registration.tlsServerCertificateFingerprint)
          (conflict "active cluster member TLS changes require a prepared certificate rollout")
        return none

/-- The revision that a registration follows: previous state and TLS leaf, new generation and
join instant. -/
structure RegistrationRevision where
  previous : Option ClusterMemberState
  previousTls : Option Text
  generation : Nat
  joinedAt : DateTime

/-- The revision test of `apply_register_member`. -/
def registrationRevision (existing : Option ClusterMember) (command : RegisterMember)
    (now : DateTime) : Except AuthorityError RegistrationRevision :=
  match existing with
  | some member => do
      let expected ← orReject command.expectedGeneration
        (conflict ("cluster member revision conflict: expected generation is required, current " ++
          toString member.generation))
      rejectIf (expected ≠ member.generation) (memberRevisionConflict expected member.generation)
      rejectIf (member.state = .revoked)
        (conflict "revoked cluster member conflict: cannot rejoin")
      rejectIf
        (member.fingerprint ≠ command.registration.fingerprint ∨
          member.publicKey ≠ command.registration.publicKey)
        (conflict "cluster member durable identity cannot change during rejoin")
      rejectIf
        (member.tlsServerCertificateFingerprint.isSome = true ∧
          command.registration.tlsServerCertificateFingerprint = none)
        (conflict "cluster member TLS certificate binding cannot be removed during rejoin")
      let generation ← orReject (checkedSucc member.generation)
        (conflict "cluster member generation overflow")
      return ⟨some member.state, member.tlsServerCertificateFingerprint, generation,
        member.joinedAt⟩
  | none => do
      rejectIf (command.expectedGeneration.isSome = true)
        (conflict "cluster member revision conflict: no current member exists")
      return ⟨none, none, 1, now⟩

/-- The member that a registration stores. -/
def registeredMember (command : RegisterMember) (revision : RegistrationRevision)
    (now : DateTime) : ClusterMember where
  nodeId := command.registration.nodeId
  fingerprint := command.registration.fingerprint
  publicKey := command.registration.publicKey
  tlsServerCertificateFingerprint := command.registration.tlsServerCertificateFingerprint
  endpoint := command.registration.endpoint
  serverVersion := command.registration.serverVersion
  minProtocolVersion := command.registration.minProtocolVersion
  protocolVersion := command.registration.protocolVersion
  state := .active
  generation := revision.generation
  joinedAt := revision.joinedAt
  updatedAt := now
  reason := command.reason

/-- The audit entry that a registration appends. -/
def registrationAudit (command : RegisterMember) (revision : RegistrationRevision)
    (membershipGeneration : Nat) (now : DateTime) : ClusterMembershipAudit where
  membershipGeneration
  nodeId := command.registration.nodeId
  memberGeneration := revision.generation
  previous := revision.previous
  current := .active
  previousTlsServerCertificateFingerprint := revision.previousTls
  currentTlsServerCertificateFingerprint := command.registration.tlsServerCertificateFingerprint
  actor := command.actor
  reason := command.reason
  changedAt := now

/-- The rollout that an activation stores. -/
def activatedRollout (rollout : ClusterCertificateRollout) (command : RegisterMember)
    (trustGeneration memberGeneration : Nat) (retirePreviousAfter now : DateTime) :
    ClusterCertificateRollout :=
  { rollout with
    trustGeneration
    memberGeneration
    phase := .activated
    retirePreviousAfter := some retirePreviousAfter
    updatedAt := now
    reason := command.reason }

/-- The activation of a prepared rollout by the registration of `member`. -/
def activateRollout (member : ClusterMember) (command : RegisterMember) (now : DateTime) :
    Option ClusterCertificateRollout →
      Except AuthorityError ReplicatedControlPlaneState
  | none => return control
  | some rollout => do
      let retirePreviousAfter ← orReject
        (now.checkedAddSigned (seconds rollout.minimumOverlapSeconds))
        (invalidCommand "certificate rollout retirement deadline overflow")
      let (trustGeneration, control) ← appendCertificateRolloutAudit control member.nodeId
        member.generation (some .prepared) (some .activated)
        rollout.previousTlsServerCertificateFingerprint
        rollout.nextTlsServerCertificateFingerprint command.actor command.reason now
      return { control with
        certificateRollouts := control.certificateRollouts.insert member.nodeId
          (activatedRollout rollout command trustGeneration member.generation
            retirePreviousAfter now) }

def applyRegisterMember (K : Crypto) (control : ReplicatedControlPlaneState)
    (command : RegisterMember) :
    Except AuthorityError (ClusterMember × ReplicatedControlPlaneState) := do
  checked (validateText command.actor "cluster-membership actor")
  checked (validateReason command.reason)
  rejectIf
    (command.authorityMinProtocolVersion = 0 ∨
      command.authorityProtocolVersion < command.authorityMinProtocolVersion)
    (invalidCommand "invalid authority protocol window")
  rejectIf
    (command.registration.protocolVersion < command.authorityMinProtocolVersion ∨
      command.authorityProtocolVersion < command.registration.minProtocolVersion)
    (conflict ("incompatible wire-protocol cluster member window: authority v" ++
      toString command.authorityMinProtocolVersion ++ "..=v" ++
      toString command.authorityProtocolVersion ++ ", member v" ++
      toString command.registration.minProtocolVersion ++ "..=v" ++
      toString command.registration.protocolVersion))
  let ((now, challengeHash), control) ← validateChallengedRegistration K control
    command.registration command.challengeHex command.signatureHex command.proposedAt
  rejectIf (control.members.toList.any fun entry => bindsForeign entry.2 command.registration)
    (conflict "cluster member identity, endpoint, or TLS binding already belongs to another node")
  requireMembershipAuditCapacity control
  let existing := control.members[command.registration.nodeId]?
  let activating ← activatingRollout control existing command.registration now
  let revision ← registrationRevision existing command now
  let membershipGeneration ← orReject (checkedSucc control.membershipGeneration)
    (conflict "membership generation overflow")
  let member := registeredMember command revision now
  let control := control.recordMember member.nodeId member
    (registrationAudit command revision membershipGeneration now)
  let control ← activateRollout control member command now activating
  return (member, consumeJoinChallenge control challengeHash now)

/-! ## Leaving and revocation -/

/-- The unexpired active leases of a node, in key order. -/
def activeOwned (nodeId : Text) (now : DateTime) :
    List ClusterAgentOwnership :=
  (control.ownerships.toList.map Prod.snd).filter fun ownership =>
    ownership.ownerNodeId == nodeId && ownership.state == .active &&
      decide (now < ownership.leaseExpiresAt)

variable {now : DateTime}

theorem mem_activeOwned {control : ReplicatedControlPlaneState} {nodeId : Text}
    {own : ClusterAgentOwnership} :
    own ∈ activeOwned control nodeId now ↔
      (∃ agentId : Text, control.ownerships[agentId]? = some own) ∧
        own.ownerNodeId = nodeId ∧ own.state = .active ∧
        now < own.leaseExpiresAt := by
  simp only [activeOwned, List.mem_filter, List.mem_map, Prod.exists, exists_eq_right,
    OrdMap.mem_toList_iff, Bool.and_eq_true, beq_iff_eq, decide_eq_true_eq, and_assoc]

/-- The record that a revocation leaves for a lease. -/
def revokedOwnership (nodeId : Text) (authorityTerm generation : Nat) (reason : Text)
    (now : DateTime) (previous : ClusterAgentOwnership) : ClusterAgentOwnership where
  agentId := previous.agentId
  ownerNodeId := nodeId
  authorityTerm
  fencingToken := previous.fencingToken
  generation
  state := .released
  leaseExpiresAt := now
  updatedAt := now
  reason

/-- The release of one lease by a revocation. -/
def releaseRevoked (nodeId : Text) (authorityTerm : Nat) (actor reason : Text)
    (now : DateTime) (control : ReplicatedControlPlaneState) (previous : ClusterAgentOwnership) :
    Except AuthorityError ReplicatedControlPlaneState := do
  let generation ← orReject (checkedSucc previous.generation)
    (conflict "agent ownership generation overflow")
  return control.recordOwnership previous.agentId
    (revokedOwnership nodeId authorityTerm generation reason now previous)
    (holderAudit previous.agentId nodeId generation authorityTerm previous.fencingToken "release"
      actor reason now)

variable (command : SetMemberState)

/-- The leases of a member that changes state: none may be live when it leaves, and revocation
releases the live ones. -/
def settleLeases (authorityTerm : Nat) (now : DateTime) :
    Except AuthorityError ReplicatedControlPlaneState := do
  let owned := activeOwned control command.nodeId now
  rejectIf (command.state = .left ∧ owned ≠ [])
    (conflict "cluster member leave conflict: active ownership leases must be released first")
  if command.state = .revoked then do
    rejectIf (maxAuditEntries < control.ownershipAudit.length + owned.length)
      (.capacityReached, "replicated ownership audit capacity is exhausted")
    owned.foldlM
      (releaseRevoked command.nodeId authorityTerm command.actor command.reason now) control
  else return control

/-- The end of the rollout of a revoked member. -/
def dropRollout (generation : Nat) (now : DateTime) :
    Option ClusterCertificateRollout →
      Except AuthorityError ReplicatedControlPlaneState
  | none => return control
  | some rollout => do
      let (_, control) ← appendCertificateRolloutAudit control command.nodeId generation
        (some rollout.phase) none rollout.previousTlsServerCertificateFingerprint
        rollout.nextTlsServerCertificateFingerprint command.actor command.reason now
      return { control with
        certificateRollouts := control.certificateRollouts.erase command.nodeId }

/-- A revocation that drops a rollout appends to its audit. -/
def requireDropCapacity (rollout : Option ClusterCertificateRollout) : Except AuthorityError Unit :=
  if command.state = .revoked ∧ rollout.isSome = true then
    requireCertificateRolloutAuditCapacity control
  else return ()

def applySetMemberState (authorityTerm : Nat) :
    Except AuthorityError (ClusterMember × ReplicatedControlPlaneState) := do
  rejectIf (command.state = .active)
    (invalidCommand "invalid active membership transition: a fresh challenged join is required")
  rejectIf (isUuid command.nodeId = false) (invalidCommand "invalid cluster member node id")
  checked (validateText command.actor "cluster-membership actor")
  checked (validateReason command.reason)
  let member ← orReject control.members[command.nodeId]? (conflict "cluster member not found")
  rejectIf (member.generation ≠ command.expectedGeneration)
    (memberRevisionConflict command.expectedGeneration member.generation)
  rejectIf (member.state = .revoked)
    (conflict "revoked cluster member state conflict: revocation is terminal")
  rejectIf (member.state = command.state)
    (conflict "cluster member is already in the requested state")
  requireMembershipAuditCapacity control
  let rollout := control.certificateRollouts[command.nodeId]?
  rejectIf (command.state = .left ∧ rollout.isSome = true)
    (conflict "cluster member leave conflict: finish its certificate rollout first")
  requireDropCapacity control command rollout
  let (now, control) ← advanceAuthorityTime control command.proposedAt
  let control ← settleLeases control command authorityTerm now
  let generation ← orReject (checkedSucc member.generation)
    (conflict "cluster member generation overflow")
  let membershipGeneration ← orReject (checkedSucc control.membershipGeneration)
    (conflict "membership generation overflow")
  let updated := revisedMember member generation command.state
    member.tlsServerCertificateFingerprint command.reason now
  let control := control.recordMember command.nodeId updated
    (memberRevisionAudit membershipGeneration command.nodeId member generation command.state
      member.tlsServerCertificateFingerprint command.actor command.reason now)
  let control ← dropRollout control command updated.generation now rollout
  return (updated, control)

/-! ## When a request succeeds, and what it stores -/

section Outcome

variable {K : Crypto} {control control' : ReplicatedControlPlaneState}

/-- The revision that a registration follows. -/
inductive RevisionFrom (command : RegisterMember) (now : DateTime) :
    Option ClusterMember → RegistrationRevision → Prop
  | first (expected : command.expectedGeneration = none) :
      RevisionFrom command now none ⟨none, none, 1, now⟩
  | rejoin (member : ClusterMember)
      (expected : command.expectedGeneration = some member.generation)
      (admitted : member.state ≠ .revoked)
      (identity : member.fingerprint = command.registration.fingerprint ∧
        member.publicKey = command.registration.publicKey)
      (keepsTls : member.tlsServerCertificateFingerprint.isSome = true →
        command.registration.tlsServerCertificateFingerprint ≠ none)
      (revision : member.generation + 1 < 2 ^ 64) :
      RevisionFrom command now (some member)
        ⟨some member.state, member.tlsServerCertificateFingerprint, member.generation + 1,
          member.joinedAt⟩

theorem registrationRevision_eq_ok {old : Option ClusterMember} {command : RegisterMember}
    {rev : RegistrationRevision} :
    registrationRevision old command now = .ok rev ↔ RevisionFrom command now old rev := by
  cases old with
  | none =>
    simp only [registrationRevision, bind_eq_ok, rejectIf_eq_ok, pure_eq_ok, exists_and_left,
      exists_const, Bool.not_eq_true, Option.isSome_eq_false_iff, Option.isNone_iff_eq_none]
    constructor
    · rintro ⟨he, rfl⟩
      exact .first he
    · intro h
      cases h with
      | first he => exact ⟨he, rfl⟩
  | some member =>
    simp only [registrationRevision, bind_eq_ok, rejectIf_eq_ok, orReject_eq_ok, pure_eq_ok,
      exists_and_left, exists_const, checkedSucc_eq_some, not_or, ne_eq, not_not, not_and]
    constructor
    · rintro ⟨want, he, rfl, ha, hi, hk, gen,
        ⟨hr, rfl⟩, rfl⟩
      exact .rejoin member he ha hi hk hr
    · intro h
      cases h with
      | rejoin _ he ha hi hk hr => exact ⟨_, he, rfl, ha, hi, hk, _, ⟨hr, rfl⟩, rfl⟩

/-- The existing member, if any, has no unfinished rollout, and an active one keeps its leaf. -/
def KeepsLeaf (control : ReplicatedControlPlaneState) (registration : ClusterMemberRegistration) :
    Prop :=
  ∀ member, control.members[registration.nodeId]? = some member →
    control.certificateRollouts[member.nodeId]? = none ∧
      (member.state = .active → member.tlsServerCertificateFingerprint =
        registration.tlsServerCertificateFingerprint)

/-- The existing `member` activates its prepared `rollout`. -/
structure Activates (control : ReplicatedControlPlaneState)
    (registration : ClusterMemberRegistration) (now : DateTime) (member : ClusterMember)
    (rollout : ClusterCertificateRollout) : Prop where
  found : control.members[registration.nodeId]? = some member
  unfinished : control.certificateRollouts[member.nodeId]? = some rollout
  activates : activatesRollout member rollout registration now
  unchanged : ¬ changesRegistration member registration
  previousLeaf : member.tlsServerCertificateFingerprint =
    some rollout.previousTlsServerCertificateFingerprint
  rolloutCapacity : control.certificateRolloutAudit.length < maxAuditEntries

variable {registration : ClusterMemberRegistration}

theorem activates_advanced {time : DateTime} {member : ClusterMember}
    {rollout : ClusterCertificateRollout} :
    Activates { control with logicalTime := time } registration now member rollout ↔
      Activates control registration now member rollout :=
  ⟨fun ⟨h1, h2, h3, h4, h5, h6⟩ => ⟨h1, h2, h3, h4, h5, h6⟩,
    fun ⟨h1, h2, h3, h4, h5, h6⟩ => ⟨h1, h2, h3, h4, h5, h6⟩⟩

variable {activating : Option ClusterCertificateRollout}

theorem activatingRollout_eq_ok :
    activatingRollout control control.members[registration.nodeId]? registration now =
        .ok activating ↔
      (activating = none ∧ KeepsLeaf control registration) ∨
        ∃ member rollout, activating = some rollout ∧
          Activates control registration now member rollout := by
  cases hf : control.members[registration.nodeId]? with
  | none =>
    simp only [activatingRollout, pure_eq_ok]
    constructor
    · rintro rfl
      exact .inl ⟨rfl, fun member h => by simp [hf] at h⟩
    · rintro (⟨rfl, -⟩ | ⟨member, rollout, rfl, h⟩)
      · rfl
      · simpa [hf] using h.found
  | some member =>
    -- the two decisions of the source are the presence of a rollout and its activation
    simp only [activatingRollout]
    cases hr : control.certificateRollouts[member.nodeId]? with
    | none =>
      simp only [bind_eq_ok, rejectIf_eq_ok, pure_eq_ok, exists_and_left, exists_const,
        not_and, ne_eq, not_not]
      constructor
      · rintro ⟨hk, rfl⟩
        refine .inl ⟨rfl, ?_⟩
        intro member' hm'
        obtain rfl : member = member' := by simpa [hf] using hm'
        exact ⟨hr, hk⟩
      · rintro (⟨rfl, hk⟩ | ⟨member', rollout, rfl, h⟩)
        · exact ⟨(hk member hf).2, rfl⟩
        · obtain rfl : member = member' := by simpa [hf] using h.found
          exact absurd (hr.symm.trans h.unfinished) (by simp)
    | some rollout =>
      have hbusy : ¬ KeepsLeaf control registration := fun h =>
        absurd (hr.symm.trans (h member hf).1) (by simp)
      have hself : ∀ {member' rollout'},
          Activates control registration now member' rollout' →
            member' = member ∧ rollout' = rollout := by
        intro member' rollout' h
        obtain rfl : member = member' := by simpa [hf] using h.found
        exact ⟨rfl, Option.some.inj (h.unfinished.symm.trans hr)⟩
      by_cases hd : activatesRollout member rollout registration now
      · simp only [if_pos hd, requireCertificateRolloutAuditCapacity, bind_eq_ok,
          rejectIf_eq_ok, pure_eq_ok, exists_and_left, exists_const, not_or, ne_eq, not_not,
          not_le]
        constructor
        · rintro ⟨⟨hu, hp⟩, hcap, rfl⟩
          exact .inr ⟨member, rollout, rfl, ⟨hf, hr, hd, hu, hp, hcap⟩⟩
        · rintro (⟨rfl, hk⟩ | ⟨member', rollout', rfl, h⟩)
          · exact absurd hk hbusy
          · obtain ⟨rfl, rfl⟩ := hself h
            exact ⟨⟨h.unchanged, h.previousLeaf⟩, h.rolloutCapacity, rfl⟩
      · simp only [if_neg hd, reduceCtorEq, false_iff]
        rintro (⟨rfl, hk⟩ | ⟨member', rollout', rfl, h⟩)
        · exact hbusy hk
        · obtain ⟨rfl, rfl⟩ := hself h
          exact hd h.activates

theorem activateRollout_eq_ok {member : ClusterMember} {command : RegisterMember} :
    activateRollout control member command now activating = .ok control' ↔
      (activating = none ∧ control' = control) ∨
        ∃ rollout retire, activating = some rollout ∧
          now.checkedAddSigned (seconds rollout.minimumOverlapSeconds) =
            some retire ∧
          control.certificateRolloutAudit.length < maxAuditEntries ∧
          control.tlsTrustGeneration + 1 < 2 ^ 64 ∧
          control' = { control.recordRolloutAudit
              (rolloutAuditEntry (control.tlsTrustGeneration + 1) member.nodeId
                member.generation (some .prepared) (some .activated)
                rollout.previousTlsServerCertificateFingerprint
                rollout.nextTlsServerCertificateFingerprint command.actor command.reason now)
            with
            certificateRollouts := control.certificateRollouts.insert member.nodeId
              (activatedRollout rollout command (control.tlsTrustGeneration + 1)
                member.generation retire now) } := by
  cases activating with
  | none =>
    simp only [activateRollout, pure_eq_ok, true_and, reduceCtorEq, false_and, exists_false,
      or_false]
    exact eq_comm
  | some rollout =>
    simp only [activateRollout, bind_eq_ok, orReject_eq_ok, Prod.exists,
      appendCertificateRolloutAudit_eq_ok, pure_eq_ok, reduceCtorEq, false_and, false_or,
      Option.some.injEq]
    constructor
    · rintro ⟨deadline, hd, _, _, ⟨hcap, ht, rfl, rfl⟩, rfl⟩
      exact ⟨rollout, deadline, rfl, hd, hcap, ht, rfl⟩
    · rintro ⟨_, deadline, rfl, hd, hcap, ht, rfl⟩
      exact ⟨deadline, hd, _, _, ⟨hcap, ht, rfl, rfl⟩, rfl⟩

/-- The conditions that every successful registration meets. -/
structure RegisterGuard (K : Crypto) (control : ReplicatedControlPlaneState)
    (command : RegisterMember) (now : DateTime) (hash : Text) (revision : RegistrationRevision) :
    Prop where
  actor : ¬ isInvalidText command.actor
  reason : ¬ isInvalidText command.reason
  window : command.authorityMinProtocolVersion ≠ 0 ∧
    command.authorityMinProtocolVersion ≤ command.authorityProtocolVersion
  compatible : command.authorityMinProtocolVersion ≤ command.registration.protocolVersion ∧
    command.registration.minProtocolVersion ≤ command.authorityProtocolVersion
  challenged : ChallengedGuard K control command.registration command.challengeHex
    command.signatureHex command.proposedAt now hash
  unbound : ∀ (nodeId : Text) (member : ClusterMember), control.members[nodeId]? = some member →
    bindsForeign member command.registration = false
  capacity : control.membershipAudit.length < maxAuditEntries
  revision : RevisionFrom command now control.members[command.registration.nodeId]? revision
  total : control.membershipGeneration + 1 < 2 ^ 64

/-- The control plane after a registration that leaves rollouts alone. -/
def joinNext (control : ReplicatedControlPlaneState) (command : RegisterMember) (now : DateTime)
    (hash : Text) (revision : RegistrationRevision) : ReplicatedControlPlaneState :=
  consumeJoinChallenge
    ({ control with logicalTime := now }.recordMember command.registration.nodeId
      (registeredMember command revision now)
      (registrationAudit command revision (control.membershipGeneration + 1) now))
    hash now

/-- The control plane after a registration that activates `rollout`. -/
def activateNext (control : ReplicatedControlPlaneState) (command : RegisterMember)
    (now : DateTime) (hash : Text) (revision : RegistrationRevision)
    (rollout : ClusterCertificateRollout) (retirePreviousAfter : DateTime) :
    ReplicatedControlPlaneState :=
  let nodeId := command.registration.nodeId
  let registered := { control with logicalTime := now }.recordMember nodeId
    (registeredMember command revision now)
    (registrationAudit command revision (control.membershipGeneration + 1) now)
  let audited := registered.recordRolloutAudit
    (rolloutAuditEntry (control.tlsTrustGeneration + 1) nodeId revision.generation
      (some .prepared) (some .activated) rollout.previousTlsServerCertificateFingerprint
      rollout.nextTlsServerCertificateFingerprint command.actor command.reason now)
  consumeJoinChallenge
    { audited with
      certificateRollouts := control.certificateRollouts.insert nodeId
        (activatedRollout rollout command (control.tlsTrustGeneration + 1) revision.generation
          retirePreviousAfter now) }
    hash now

/-- What a registration does to the rollout of its member. -/
inductive RegisterOutcome (control : ReplicatedControlPlaneState) (command : RegisterMember)
    (now : DateTime) (hash : Text) (revision : RegistrationRevision) :
    ReplicatedControlPlaneState → Prop
  | join (keeps : KeepsLeaf control command.registration) :
      RegisterOutcome control command now hash revision
        (joinNext control command now hash revision)
  | activate (member : ClusterMember) (rollout : ClusterCertificateRollout)
      (retirePreviousAfter : DateTime)
      (activates : Activates control command.registration now member rollout)
      (deadline : now.checkedAddSigned (seconds rollout.minimumOverlapSeconds) =
        some retirePreviousAfter)
      (trust : control.tlsTrustGeneration + 1 < 2 ^ 64) :
      RegisterOutcome control command now hash revision
        (activateNext control command now hash revision rollout retirePreviousAfter)

theorem applyRegisterMember_eq_ok {command : RegisterMember} {upd : ClusterMember} :
    applyRegisterMember K control command = .ok (upd, control') ↔
      ∃ now hash rev, RegisterGuard K control command now hash rev ∧
        upd = registeredMember command rev now ∧
        RegisterOutcome control command now hash rev control' := by
  simp only [applyRegisterMember, requireMembershipAuditCapacity, bind_eq_ok, rejectIf_eq_ok,
    orReject_eq_ok, checked_eq_ok, validateText_eq_ok, validateReason_eq_ok, Prod.exists,
    validateChallengedRegistration_eq_ok, registrationRevision_eq_ok, pure_eq_ok,
    Prod.mk.injEq, exists_and_left, exists_const, not_le, not_or, not_lt,
    checkedSucc_eq_some, OrdMap.toList_any_eq_false, Bool.not_eq_true, activatingRollout_eq_ok,
    activateRollout_eq_ok]
  constructor
  · rintro ⟨hac, hre, hw, hcompatible, now, hash, _, ⟨hc, rfl⟩, hu,
      hcap, activating, hact, rev, hr, _, ⟨ht, rfl⟩, _, hnext, rfl, rfl⟩
    refine ⟨now, hash, rev, ⟨hac, hre, hw, hcompatible, hc, hu, hcap, hr, ht⟩, rfl, ?_⟩
    rcases hact with ⟨rfl, hk⟩ | ⟨member, rollout, rfl, ha⟩
    · rcases hnext with ⟨-, rfl⟩ | ⟨rollout, h, -⟩
      · exact .join hk
      · cases h
    · rcases hnext with ⟨h, -⟩ | ⟨_, ⟨⟩, deadline, hd, -, htr, rfl⟩
      · cases h
      · exact .activate member rollout deadline (activates_advanced.1 ha) hd htr
  · rintro ⟨now, hash, rev, ⟨hac, hre, hw, hcompatible, hc, hu,
      hcap, hr, ht⟩, rfl, ho⟩
    refine ⟨hac, hre, hw, hcompatible, now, hash, _, ⟨hc, rfl⟩, hu, hcap, ?_⟩
    cases ho with
    | join hk => exact ⟨none, .inl ⟨rfl, hk⟩, rev, hr, _, ⟨ht, rfl⟩, _, .inl ⟨rfl, rfl⟩, rfl, rfl⟩
    | activate member rollout deadline ha hd htr =>
      exact ⟨some rollout, .inr ⟨member, rollout, rfl, activates_advanced.2 ha⟩,
        rev, hr, _, ⟨ht, rfl⟩, _, .inr ⟨rollout, rfl, deadline, hd,
          ha.rolloutCapacity, htr, rfl⟩, rfl, rfl⟩

/-- The control plane after a revocation has released the leases `owned`. -/
def releaseLeases (nodeId : Text) (authorityTerm : Nat) (actor reason : Text) (now : DateTime)
    (control : ReplicatedControlPlaneState) (owned : List ClusterAgentOwnership) :
    ReplicatedControlPlaneState :=
  { control with
    ownerships := owned.foldl
      (fun ownerships previous => ownerships.insert previous.agentId
        (revokedOwnership nodeId authorityTerm (previous.generation + 1) reason now previous))
      control.ownerships
    ownershipAudit := control.ownershipAudit ++ owned.map fun previous =>
      holderAudit previous.agentId nodeId (previous.generation + 1) authorityTerm
        previous.fencingToken "release" actor reason now }

variable {authorityTerm : Nat}

theorem foldlM_releaseRevoked_eq_ok {nodeId : Text} {actor reason : Text}
    {owned : List ClusterAgentOwnership} :
    owned.foldlM (releaseRevoked nodeId authorityTerm actor reason now) control = .ok control' ↔
      (∀ prev ∈ owned, prev.generation + 1 < 2 ^ 64) ∧
        control' = releaseLeases nodeId authorityTerm actor reason now control owned := by
  induction owned generalizing control with
  | nil =>
    simp only [List.foldlM_nil, pure_eq_ok, releaseLeases, List.not_mem_nil, List.foldl_nil,
      List.map_nil, List.append_nil, IsEmpty.forall_iff, implies_true, true_and]
    exact eq_comm
  | cons prev owned ih =>
    simp only [List.foldlM_cons, releaseRevoked, bind_eq_ok, orReject_eq_ok,
      checkedSucc_eq_some, pure_eq_ok, List.forall_mem_cons, ih]
    constructor
    · rintro ⟨_, ⟨_, ⟨hg, rfl⟩, rfl⟩, ho, rfl⟩
      refine ⟨⟨hg, ho⟩, ?_⟩
      simp [releaseLeases, ReplicatedControlPlaneState.recordOwnership]
    · rintro ⟨⟨hg, ho⟩, rfl⟩
      refine ⟨_, ⟨_, ⟨hg, rfl⟩, rfl⟩, ho, ?_⟩
      simp [releaseLeases, ReplicatedControlPlaneState.recordOwnership]

/-- The conditions that every successful change of member state meets. -/
structure SetStateGuard (control : ReplicatedControlPlaneState) (command : SetMemberState)
    (now : DateTime) (member : ClusterMember) : Prop where
  node : isUuid command.nodeId = true
  actor : ¬ isInvalidText command.actor
  reason : ¬ isInvalidText command.reason
  found : control.members[command.nodeId]? = some member
  expected : member.generation = command.expectedGeneration
  admitted : member.state ≠ .revoked
  changes : member.state ≠ command.state
  capacity : control.membershipAudit.length < maxAuditEntries
  clock : EffectiveAt control.logicalTime command.proposedAt now
  revision : member.generation + 1 < 2 ^ 64
  total : control.membershipGeneration + 1 < 2 ^ 64

/-- Store the revision of a member that left or was revoked. -/
def recordState (control : ReplicatedControlPlaneState) (command : SetMemberState)
    (now : DateTime) (member : ClusterMember) : ReplicatedControlPlaneState :=
  control.recordMember command.nodeId
    (revisedMember member (member.generation + 1) command.state
      member.tlsServerCertificateFingerprint command.reason now)
    (memberRevisionAudit (control.membershipGeneration + 1) command.nodeId member
      (member.generation + 1) command.state member.tlsServerCertificateFingerprint command.actor
      command.reason now)

/-- The control plane after a member left. -/
def leaveNext (control : ReplicatedControlPlaneState) (command : SetMemberState)
    (now : DateTime) (member : ClusterMember) : ReplicatedControlPlaneState :=
  recordState { control with logicalTime := now } command now member

/-- The control plane after a revocation of a member without an unfinished rollout. -/
def revokeNext (control : ReplicatedControlPlaneState) (command : SetMemberState)
    (authorityTerm : Nat) (now : DateTime) (member : ClusterMember) :
    ReplicatedControlPlaneState :=
  recordState
    (releaseLeases command.nodeId authorityTerm command.actor command.reason now
      { control with logicalTime := now } (activeOwned control command.nodeId now))
    command now member

/-- The control plane after a revocation that drops `rollout`. -/
def revokeDropNext (control : ReplicatedControlPlaneState) (command : SetMemberState)
    (authorityTerm : Nat) (now : DateTime) (member : ClusterMember)
    (rollout : ClusterCertificateRollout) : ReplicatedControlPlaneState :=
  { (revokeNext control command authorityTerm now member).recordRolloutAudit
      (rolloutAuditEntry (control.tlsTrustGeneration + 1) command.nodeId (member.generation + 1)
        (some rollout.phase) none rollout.previousTlsServerCertificateFingerprint
        rollout.nextTlsServerCertificateFingerprint command.actor command.reason now) with
    certificateRollouts := control.certificateRollouts.erase command.nodeId }

/-- What a change of member state does to leases and rollouts. -/
inductive SetStateOutcome (control : ReplicatedControlPlaneState) (command : SetMemberState)
    (authorityTerm : Nat) (now : DateTime) (member : ClusterMember) :
    ReplicatedControlPlaneState → Prop
  | leave (state : command.state = .left)
      (idle : control.certificateRollouts[command.nodeId]? = none)
      (settled : activeOwned control command.nodeId now = []) :
      SetStateOutcome control command authorityTerm now member
        (leaveNext control command now member)
  | revoke (state : command.state = .revoked)
      (idle : control.certificateRollouts[command.nodeId]? = none)
      (room : control.ownershipAudit.length + (activeOwned control command.nodeId now).length ≤
        maxAuditEntries)
      (revisions : ∀ previous ∈ activeOwned control command.nodeId now,
        previous.generation + 1 < 2 ^ 64) :
      SetStateOutcome control command authorityTerm now member
        (revokeNext control command authorityTerm now member)
  | revokeDrop (rollout : ClusterCertificateRollout) (state : command.state = .revoked)
      (unfinished : control.certificateRollouts[command.nodeId]? = some rollout)
      (room : control.ownershipAudit.length + (activeOwned control command.nodeId now).length ≤
        maxAuditEntries)
      (revisions : ∀ previous ∈ activeOwned control command.nodeId now,
        previous.generation + 1 < 2 ^ 64)
      (rolloutCapacity : control.certificateRolloutAudit.length < maxAuditEntries)
      (trust : control.tlsTrustGeneration + 1 < 2 ^ 64) :
      SetStateOutcome control command authorityTerm now member
        (revokeDropNext control command authorityTerm now member rollout)

variable {command : SetMemberState}

theorem settleLeases_eq_ok (hst : command.state ≠ .active) :
    settleLeases control command authorityTerm now = .ok control' ↔
      (command.state = .left ∧ activeOwned control command.nodeId now = [] ∧ control' = control) ∨
        (command.state = .revoked ∧
          control.ownershipAudit.length + (activeOwned control command.nodeId now).length ≤
            maxAuditEntries ∧
          (∀ prev ∈ activeOwned control command.nodeId now, prev.generation + 1 < 2 ^ 64) ∧
          control' = releaseLeases command.nodeId authorityTerm command.actor command.reason now
            control (activeOwned control command.nodeId now)) := by
  cases hs : command.state with
  | active => exact absurd hs hst
  | left =>
    simp only [settleLeases, hs, bind_eq_ok, rejectIf_eq_ok, true_and, ne_eq, not_not,
      reduceCtorEq, if_false, pure_eq_ok, exists_and_left, exists_const, false_and, or_false]
    rw [eq_comm (a := control)]
  | revoked => simp [settleLeases, hs, bind_eq_ok, foldlM_releaseRevoked_eq_ok]

variable {rollout : Option ClusterCertificateRollout}

theorem dropRollout_eq_ok {gen : Nat} :
    dropRollout control command gen now rollout = .ok control' ↔
      (rollout = none ∧ control' = control) ∨
        ∃ r, rollout = some r ∧ control.certificateRolloutAudit.length < maxAuditEntries ∧
          control.tlsTrustGeneration + 1 < 2 ^ 64 ∧
          control' = { control.recordRolloutAudit
              (rolloutAuditEntry (control.tlsTrustGeneration + 1) command.nodeId gen
                (some r.phase) none r.previousTlsServerCertificateFingerprint
                r.nextTlsServerCertificateFingerprint command.actor command.reason now) with
            certificateRollouts := control.certificateRollouts.erase command.nodeId } := by
  cases rollout with
  | none =>
    simp only [dropRollout, pure_eq_ok, true_and, reduceCtorEq, false_and, exists_false, or_false]
    exact eq_comm
  | some r =>
    simp only [dropRollout, bind_eq_ok, Prod.exists, appendCertificateRolloutAudit_eq_ok,
      pure_eq_ok, reduceCtorEq, false_and, false_or, Option.some.injEq]
    constructor
    · rintro ⟨_, _, ⟨hcap, ht, rfl, rfl⟩, rfl⟩
      exact ⟨r, rfl, hcap, ht, rfl⟩
    · rintro ⟨_, rfl, hcap, ht, rfl⟩
      exact ⟨_, _, ⟨hcap, ht, rfl, rfl⟩, rfl⟩

theorem requireDropCapacity_eq_ok {u : Unit} :
    requireDropCapacity control command rollout = .ok u ↔
      (command.state = .revoked → rollout.isSome = true →
        control.certificateRolloutAudit.length < maxAuditEntries) := by
  unfold requireDropCapacity
  split
  · next h => simp [requireCertificateRolloutAuditCapacity, h]
  · next h =>
    simp only [pure_eq_ok, true_iff]
    intro hs hr
    exact absurd ⟨hs, hr⟩ h

theorem applySetMemberState_eq_ok {upd : ClusterMember} :
    applySetMemberState control command authorityTerm = .ok (upd, control') ↔
      ∃ now member, SetStateGuard control command now member ∧
        upd = revisedMember member (member.generation + 1) command.state
          member.tlsServerCertificateFingerprint command.reason now ∧
        SetStateOutcome control command authorityTerm now member control' := by
  simp only [applySetMemberState, requireMembershipAuditCapacity, bind_eq_ok, rejectIf_eq_ok,
    orReject_eq_ok, checked_eq_ok, validateText_eq_ok, validateReason_eq_ok, Prod.exists,
    advanceAuthorityTime_eq_ok, pure_eq_ok, Prod.mk.injEq, exists_and_left, exists_const, not_le,
    checkedSucc_eq_some, Bool.not_eq_false, ne_eq, not_not, not_and, requireDropCapacity_eq_ok,
    Bool.not_eq_true, Option.isSome_eq_false_iff, Option.isNone_iff_eq_none]
  constructor
  · rintro ⟨hst, hnode, hac, hrs, member, hf, he, ha, hch, hcap,
      hl, -, now, _, ⟨hc, rfl⟩, settled, hse, _, ⟨hre, rfl⟩, _,
      ⟨ht, rfl⟩, next, hnext, rfl, rfl⟩
    rcases (settleLeases_eq_ok hst).1 hse with
      ⟨hs, how, rfl⟩ | ⟨hs, hroom, hr, rfl⟩
    · refine ⟨now, member, ⟨hnode, hac, hrs, hf, he, ha, hch, hcap,
        hc, hre, ht⟩, rfl, ?_⟩
      have hidle := hl hs
      rcases dropRollout_eq_ok.1 hnext with ⟨-, rfl⟩ | ⟨rollout, hro, -⟩
      · exact .leave hs hidle how
      · exact absurd (hidle.symm.trans hro) (by simp)
    · refine ⟨now, member, ⟨hnode, hac, hrs, hf, he, ha, hch, hcap,
        hc, hre, ht⟩, rfl, ?_⟩
      rcases dropRollout_eq_ok.1 hnext with ⟨hidle, rfl⟩ | ⟨rollout, hro, hroll, htr, rfl⟩
      · exact .revoke hs hidle hroom hr
      · exact .revokeDrop rollout hs hro hroom hr hroll htr
  · rintro ⟨now, member, ⟨hnode, hac, hrs, hf, he, ha, hch, hcap,
      hc, hre, ht⟩, rfl, ho⟩
    have hst : command.state ≠ .active := by
      cases ho with
      | leave hs _ _ => simp [hs]
      | revoke hs _ _ _ => simp [hs]
      | revokeDrop _ hs _ _ _ _ _ => simp [hs]
    refine ⟨hst, hnode, hac, hrs, member, hf, he, ha, hch, hcap, ?_⟩
    cases ho with
    | leave hs hidle how =>
      exact ⟨fun _ => hidle, by simp [hs], now, _, ⟨hc, rfl⟩, _,
        (settleLeases_eq_ok hst).2 (.inl ⟨hs, how, rfl⟩), _, ⟨hre, rfl⟩, _,
        ⟨ht, rfl⟩, _, dropRollout_eq_ok.2 (.inl ⟨hidle, rfl⟩), rfl, rfl⟩
    | revoke hs hidle hroom hr =>
      exact ⟨fun _ => hidle, by simp [hidle], now, _, ⟨hc, rfl⟩, _,
        (settleLeases_eq_ok hst).2 (.inr ⟨hs, hroom, hr, rfl⟩), _,
        ⟨hre, rfl⟩, _, ⟨ht, rfl⟩, _, dropRollout_eq_ok.2 (.inl ⟨hidle, rfl⟩), rfl,
        rfl⟩
    | revokeDrop rollout hs hro hroom hr hroll htr =>
      exact ⟨by simp [hs], fun _ _ => hroll, now, _, ⟨hc, rfl⟩, _,
        (settleLeases_eq_ok hst).2 (.inr ⟨hs, hroom, hr, rfl⟩), _, ⟨hre, rfl⟩, _, ⟨ht, rfl⟩, _,
        dropRollout_eq_ok.2 (.inr ⟨rollout, hro, hroll, htr, rfl⟩), rfl, rfl⟩

end Outcome

end AgentOS
