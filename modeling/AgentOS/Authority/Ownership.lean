import AgentOS.Authority.Handlers

/-!
# Ownership leases

`apply_claim_ownership`, `apply_renew_ownership` and `apply_release_ownership`.
-/

namespace AgentOS

open Lib

variable (control : ReplicatedControlPlaneState)

def requireReplicatedActiveMember (nodeId : Text) :
    Except AuthorityError Unit :=
  match control.members[nodeId]?.map ClusterMember.state with
  | some .active => return ()
  | some _ => .error
      (conflict "agent ownership denied: owner node is not an active cluster member")
  | none => .error (conflict "agent ownership denied: owner node is not a cluster member")

theorem requireReplicatedActiveMember_eq_ok {control : ReplicatedControlPlaneState}
    {nodeId : Text} {u : Unit} :
    requireReplicatedActiveMember control nodeId = .ok u ↔
      ∃ member, control.members[nodeId]? = some member ∧ member.state = .active := by
  unfold requireReplicatedActiveMember
  cases hm : control.members[nodeId]? with
  | none => simp
  | some member => cases hs : member.state <;> simp [hs, pure_eq_ok]

/-- The capacity test that the three handlers share. -/
def requireOwnershipAuditCapacity :
    Except AuthorityError Unit :=
  rejectIf (maxAuditEntries ≤ control.ownershipAudit.length)
    (.capacityReached, "replicated ownership audit capacity is exhausted")

/-- What a claim takes from the record it replaces. -/
structure OwnershipGrant where
  (fencingToken generation : Nat)
  operation : String
  previousOwnerNodeId : Option Text

/-- The fencing decision of a claim. -/
def ownershipGrant (previous : Option ClusterAgentOwnership) (expectedFencingToken : Option Nat)
    (now : DateTime) : Except AuthorityError OwnershipGrant :=
  match previous with
  | none => do
      rejectIf (expectedFencingToken.isSome = true)
        (conflict "agent ownership conflict: no previous fencing token exists")
      return ⟨1, 1, "claim", none⟩
  | some previous => do
      rejectIf (expectedFencingToken ≠ some previous.fencingToken)
        (conflict ("agent ownership fencing conflict: expected " ++
          debugOption expectedFencingToken ++ ", current " ++ toString previous.fencingToken))
      rejectIf (previous.state = .active ∧ now < previous.leaseExpiresAt)
        (conflict "agent ownership conflict: current lease has not expired")
      let fencingToken ← orReject (checkedSucc previous.fencingToken)
        (conflict "agent ownership fencing token overflow")
      let generation ← orReject (checkedSucc previous.generation)
        (conflict "agent ownership generation overflow")
      return ⟨fencingToken, generation, "transfer", some previous.ownerNodeId⟩

/-- The record that a claim stores. -/
def claimedOwnership (command : ClaimOwnership) (authorityTerm : Nat) (grant : OwnershipGrant)
    (leaseExpiresAt now : DateTime) : ClusterAgentOwnership where
  agentId := command.agentId
  ownerNodeId := command.ownerNodeId
  authorityTerm
  fencingToken := grant.fencingToken
  generation := grant.generation
  state := .active
  leaseExpiresAt
  updatedAt := now
  reason := command.reason

/-- The audit entry of a claim. -/
def claimAudit (command : ClaimOwnership) (authorityTerm : Nat) (grant : OwnershipGrant)
    (now : DateTime) : ClusterAgentOwnershipAudit where
  agentId := command.agentId
  generation := grant.generation
  previousOwnerNodeId := grant.previousOwnerNodeId
  ownerNodeId := command.ownerNodeId
  authorityTerm
  fencingToken := grant.fencingToken
  operation := grant.operation
  actor := command.actor
  reason := command.reason
  changedAt := now

def applyClaimOwnership (command : ClaimOwnership) (authorityTerm : Nat) :
    Except AuthorityError (ClusterAgentOwnership × ReplicatedControlPlaneState) := do
  checked (validateOwnershipRequest command.agentId command.ownerNodeId command.ttlSeconds
    command.actor command.reason)
  requireReplicatedActiveMember control command.ownerNodeId
  rejectIf (maxOwnerships ≤ control.ownerships.size ∧ command.agentId ∉ control.ownerships)
    (.capacityReached, "replicated ownership directory capacity is exhausted")
  requireOwnershipAuditCapacity control
  let (now, control) ← advanceAuthorityTime control command.proposedAt
  let grant ← ownershipGrant control.ownerships[command.agentId]? command.expectedFencingToken now
  let leaseExpiresAt ← checked (ownershipExpiry now command.ttlSeconds)
  let own := claimedOwnership command authorityTerm grant leaseExpiresAt now
  return (own, control.recordOwnership command.agentId own
    (claimAudit command authorityTerm grant now))

variable (previous : ClusterAgentOwnership)

/-- A renewal or release by anyone but the holder of the active token. -/
def isFencedOut (ownerNodeId : Text) (fencingToken : Nat) : Prop :=
  previous.state ≠ .active ∨ previous.ownerNodeId ≠ ownerNodeId ∨
    previous.fencingToken ≠ fencingToken

instance (previous : ClusterAgentOwnership) (ownerNodeId : Text) (fencingToken : Nat) :
    Decidable (isFencedOut previous ownerNodeId fencingToken) :=
  inferInstanceAs (Decidable (_ ∨ _ ∨ _))

theorem not_isFencedOut {previous : ClusterAgentOwnership} {owner : Text} {token : Nat} :
    ¬ isFencedOut previous owner token ↔ previous.state = .active ∧ previous.ownerNodeId = owner ∧
      previous.fencingToken = token := by
  simp [isFencedOut]

/-- The record that a renewal stores. -/
def renewedOwnership (command : RenewOwnership) (authorityTerm generation : Nat)
    (leaseExpiresAt now : DateTime) : ClusterAgentOwnership :=
  { previous with
    authorityTerm
    generation
    leaseExpiresAt
    updatedAt := now
    reason := command.reason }

/-- The record that a release stores. -/
def releasedOwnership (command : ReleaseOwnership) (authorityTerm generation : Nat)
    (now : DateTime) : ClusterAgentOwnership :=
  { previous with
    authorityTerm
    generation
    state := .released
    leaseExpiresAt := now
    updatedAt := now
    reason := command.reason }

def applyRenewOwnership (command : RenewOwnership) (authorityTerm : Nat) :
    Except AuthorityError (ClusterAgentOwnership × ReplicatedControlPlaneState) := do
  checked (validateOwnershipRequest command.agentId command.ownerNodeId command.ttlSeconds
    command.actor command.reason)
  requireReplicatedActiveMember control command.ownerNodeId
  requireOwnershipAuditCapacity control
  let previous ← orReject control.ownerships[command.agentId]?
    (conflict "agent ownership not found")
  let (now, control) ← advanceAuthorityTime control command.proposedAt
  rejectIf (isFencedOut previous command.ownerNodeId command.fencingToken)
    (conflict "agent ownership fencing conflict")
  rejectIf (previous.leaseExpiresAt ≤ now)
    (conflict "agent ownership lease expired before renewal")
  let generation ← orReject (checkedSucc previous.generation)
    (conflict "agent ownership generation overflow")
  let leaseExpiresAt ← checked (ownershipExpiry now command.ttlSeconds)
  let own := renewedOwnership previous command authorityTerm generation leaseExpiresAt now
  return (own, control.recordOwnership command.agentId own
    (holderAudit command.agentId command.ownerNodeId generation authorityTerm
      command.fencingToken "renew" command.actor command.reason now))

def applyReleaseOwnership (command : ReleaseOwnership) (authorityTerm : Nat) :
    Except AuthorityError (ClusterAgentOwnership × ReplicatedControlPlaneState) := do
  checked (validateOwnershipIdentity command.agentId command.ownerNodeId)
  checked (validateText command.actor "cluster-ownership actor")
  checked (validateReason command.reason)
  requireOwnershipAuditCapacity control
  let previous ← orReject control.ownerships[command.agentId]?
    (conflict "agent ownership not found")
  rejectIf (isFencedOut previous command.ownerNodeId command.fencingToken)
    (conflict "agent ownership fencing conflict")
  let (now, control) ← advanceAuthorityTime control command.proposedAt
  let generation ← orReject (checkedSucc previous.generation)
    (conflict "agent ownership generation overflow")
  let own := releasedOwnership previous command authorityTerm generation now
  return (own, control.recordOwnership command.agentId own
    (holderAudit command.agentId command.ownerNodeId generation authorityTerm
      command.fencingToken "release" command.actor command.reason now))

/-! ## When a request succeeds, and what it stores -/

section Outcome

variable {control control' : ReplicatedControlPlaneState} {authorityTerm : Nat}
  {own : ClusterAgentOwnership}

/-- The fencing decision of a claim against the record it finds. -/
inductive GrantFrom (now : DateTime) : Option ClusterAgentOwnership → Option Nat →
    OwnershipGrant → Prop
  | first : GrantFrom now none none ⟨1, 1, "claim", none⟩
  | transfer (previous : ClusterAgentOwnership)
      (ended : previous.state = .active → previous.leaseExpiresAt ≤ now)
      (token : previous.fencingToken + 1 < 2 ^ 64)
      (revision : previous.generation + 1 < 2 ^ 64) :
      GrantFrom now (some previous) (some previous.fencingToken)
        ⟨previous.fencingToken + 1, previous.generation + 1, "transfer",
          some previous.ownerNodeId⟩

theorem ownershipGrant_eq_ok {prev : Option ClusterAgentOwnership} {expToken : Option Nat}
    {now : DateTime} {gr : OwnershipGrant} :
    ownershipGrant prev expToken now = .ok gr ↔ GrantFrom now prev expToken gr := by
  cases prev with
  | none =>
    simp only [ownershipGrant, bind_eq_ok, rejectIf_eq_ok, pure_eq_ok, exists_and_left,
      exists_const, Bool.not_eq_true, Option.isSome_eq_false_iff, Option.isNone_iff_eq_none]
    constructor
    · rintro ⟨rfl, rfl⟩
      exact .first
    · rintro ⟨⟩
      exact ⟨rfl, rfl⟩
  | some prev =>
    simp only [ownershipGrant, bind_eq_ok, rejectIf_eq_ok, orReject_eq_ok, pure_eq_ok,
      exists_and_left, exists_const, checkedSucc_eq_some, not_and, not_lt, ne_eq, not_not]
    constructor
    · rintro ⟨rfl, he, token, ⟨ht, rfl⟩, gen, ⟨hg, rfl⟩, rfl⟩
      exact .transfer prev he ht hg
    · intro h
      cases h with
      | transfer _ he ht hg => exact ⟨rfl, he, _, ⟨ht, rfl⟩, _, ⟨hg, rfl⟩, rfl⟩

/-- The conditions of a successful claim. -/
structure ClaimGuard (control : ReplicatedControlPlaneState) (command : ClaimOwnership)
    (now leaseExpiresAt : DateTime) (grant : OwnershipGrant) : Prop where
  request : OwnershipRequest command.agentId command.ownerNodeId command.ttlSeconds
    command.actor command.reason
  owner : ∃ member, control.members[command.ownerNodeId]? = some member ∧ member.state = .active
  directory : control.ownerships.size < maxOwnerships ∨ command.agentId ∈ control.ownerships
  capacity : control.ownershipAudit.length < maxAuditEntries
  clock : EffectiveAt control.logicalTime command.proposedAt now
  grant : GrantFrom now control.ownerships[command.agentId]? command.expectedFencingToken grant
  expiry : ownershipExpiry now command.ttlSeconds = .ok leaseExpiresAt

/-- The control plane after a claim. -/
def claimNext (control : ReplicatedControlPlaneState) (command : ClaimOwnership)
    (authorityTerm : Nat) (now leaseExpiresAt : DateTime) (grant : OwnershipGrant) :
    ReplicatedControlPlaneState :=
  { control with logicalTime := now }.recordOwnership command.agentId
    (claimedOwnership command authorityTerm grant leaseExpiresAt now)
    (claimAudit command authorityTerm grant now)

theorem applyClaimOwnership_eq_ok {command : ClaimOwnership} :
    applyClaimOwnership control command authorityTerm = .ok (own, control') ↔
      ∃ now expiry gr, ClaimGuard control command now expiry gr ∧
        own = claimedOwnership command authorityTerm gr expiry now ∧
        control' = claimNext control command authorityTerm now expiry gr := by
  simp only [applyClaimOwnership, requireOwnershipAuditCapacity, bind_eq_ok, checked_eq_ok,
    validateOwnershipRequest_eq_ok, requireReplicatedActiveMember_eq_ok, rejectIf_eq_ok,
    exists_and_left, exists_const, Prod.exists, advanceAuthorityTime_eq_ok, pure_eq_ok,
    Prod.mk.injEq, not_and_or, not_le, not_not, ownershipGrant_eq_ok]
  constructor
  · rintro ⟨hreq, ho, hdir, hcap, now, _, ⟨hc, rfl⟩, gr, hg, lease, hl,
      rfl, rfl⟩
    exact ⟨now, lease, gr, ⟨hreq, ho, hdir, hcap, hc, hg, hl⟩, rfl, rfl⟩
  · rintro ⟨now, lease, gr, ⟨hreq, ho, hdir, hcap, hc, hg, hl⟩, rfl, rfl⟩
    exact ⟨hreq, ho, hdir, hcap, now, _, ⟨hc, rfl⟩, gr, hg, lease, hl,
      rfl, rfl⟩

/-- The conditions of a successful renewal of `previous`. -/
structure RenewGuard (control : ReplicatedControlPlaneState) (command : RenewOwnership)
    (now leaseExpiresAt : DateTime) (previous : ClusterAgentOwnership) : Prop where
  request : OwnershipRequest command.agentId command.ownerNodeId command.ttlSeconds
    command.actor command.reason
  owner : ∃ member, control.members[command.ownerNodeId]? = some member ∧ member.state = .active
  capacity : control.ownershipAudit.length < maxAuditEntries
  found : control.ownerships[command.agentId]? = some previous
  clock : EffectiveAt control.logicalTime command.proposedAt now
  holder : ¬ isFencedOut previous command.ownerNodeId command.fencingToken
  unexpired : now < previous.leaseExpiresAt
  revision : previous.generation + 1 < 2 ^ 64
  expiry : ownershipExpiry now command.ttlSeconds = .ok leaseExpiresAt

/-- The control plane after a renewal. -/
def renewNext (control : ReplicatedControlPlaneState) (command : RenewOwnership)
    (authorityTerm : Nat) (now leaseExpiresAt : DateTime) (previous : ClusterAgentOwnership) :
    ReplicatedControlPlaneState :=
  { control with logicalTime := now }.recordOwnership command.agentId
    (renewedOwnership previous command authorityTerm (previous.generation + 1) leaseExpiresAt
      now)
    (holderAudit command.agentId command.ownerNodeId (previous.generation + 1) authorityTerm
      command.fencingToken "renew" command.actor command.reason now)

theorem applyRenewOwnership_eq_ok {command : RenewOwnership} :
    applyRenewOwnership control command authorityTerm = .ok (own, control') ↔
      ∃ now expiry prev, RenewGuard control command now expiry prev ∧
        own = renewedOwnership prev command authorityTerm (prev.generation + 1) expiry now ∧
        control' = renewNext control command authorityTerm now expiry prev := by
  simp only [applyRenewOwnership, requireOwnershipAuditCapacity, bind_eq_ok, checked_eq_ok,
    validateOwnershipRequest_eq_ok, requireReplicatedActiveMember_eq_ok, rejectIf_eq_ok,
    orReject_eq_ok, exists_and_left, exists_const, Prod.exists, advanceAuthorityTime_eq_ok,
    pure_eq_ok, Prod.mk.injEq, not_le, checkedSucc_eq_some]
  constructor
  · rintro ⟨hreq, ho, hcap, prev, hf, now, _, ⟨hc, rfl⟩, hh, hlive,
      generation, ⟨hr, rfl⟩, lease, hl, rfl, rfl⟩
    exact ⟨now, lease, prev, ⟨hreq, ho, hcap, hf, hc, hh, hlive, hr, hl⟩, rfl, rfl⟩
  · rintro ⟨now, lease, prev,
      ⟨hreq, ho, hcap, hf, hc, hh, hlive, hr, hl⟩, rfl, rfl⟩
    exact ⟨hreq, ho, hcap, prev, hf, now, _, ⟨hc, rfl⟩, hh, hlive,
      _, ⟨hr, rfl⟩, lease, hl, rfl, rfl⟩

/-- The conditions of a successful release of `previous`. -/
structure ReleaseGuard (control : ReplicatedControlPlaneState) (command : ReleaseOwnership)
    (now : DateTime) (previous : ClusterAgentOwnership) : Prop where
  agent : isUuid command.agentId = true
  owner : isUuid command.ownerNodeId = true
  actor : ¬ isInvalidText command.actor
  reason : ¬ isInvalidText command.reason
  capacity : control.ownershipAudit.length < maxAuditEntries
  found : control.ownerships[command.agentId]? = some previous
  holder : ¬ isFencedOut previous command.ownerNodeId command.fencingToken
  clock : EffectiveAt control.logicalTime command.proposedAt now
  revision : previous.generation + 1 < 2 ^ 64

/-- The control plane after a release. -/
def releaseNext (control : ReplicatedControlPlaneState) (command : ReleaseOwnership)
    (authorityTerm : Nat) (now : DateTime) (previous : ClusterAgentOwnership) :
    ReplicatedControlPlaneState :=
  { control with logicalTime := now }.recordOwnership command.agentId
    (releasedOwnership previous command authorityTerm (previous.generation + 1) now)
    (holderAudit command.agentId command.ownerNodeId (previous.generation + 1) authorityTerm
      command.fencingToken "release" command.actor command.reason now)

theorem applyReleaseOwnership_eq_ok {command : ReleaseOwnership} :
    applyReleaseOwnership control command authorityTerm = .ok (own, control') ↔
      ∃ now prev, ReleaseGuard control command now prev ∧
        own = releasedOwnership prev command authorityTerm (prev.generation + 1) now ∧
        control' = releaseNext control command authorityTerm now prev := by
  simp only [applyReleaseOwnership, requireOwnershipAuditCapacity, bind_eq_ok, checked_eq_ok,
    validateOwnershipIdentity_eq_ok, validateText_eq_ok, validateReason_eq_ok, rejectIf_eq_ok,
    orReject_eq_ok, exists_and_left, exists_const, Prod.exists, advanceAuthorityTime_eq_ok,
    pure_eq_ok, Prod.mk.injEq, not_le, checkedSucc_eq_some]
  constructor
  · rintro ⟨⟨hag, ho⟩, ha, hre, hcap, prev, hf, hh, now, _,
      ⟨hc, rfl⟩, generation, ⟨hr, rfl⟩, rfl, rfl⟩
    exact ⟨now, prev, ⟨hag, ho, ha, hre, hcap, hf, hh, hc, hr⟩, rfl, rfl⟩
  · rintro ⟨now, prev,
      ⟨hag, ho, ha, hre, hcap, hf, hh, hc, hr⟩, rfl, rfl⟩
    exact ⟨⟨hag, ho⟩, ha, hre, hcap, prev, hf, hh, now, _, ⟨hc, rfl⟩, _, ⟨hr, rfl⟩, rfl, rfl⟩

end Outcome

end AgentOS
