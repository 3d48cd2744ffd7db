import AgentOS.Destination.Fence
import AgentOS.Lib.Run

/-!
# The standalone authority

Without consensus, `ClusterControl` keeps members and ownership records in the tables of one
database: `issue_join_challenge`, `register_member`, `set_member_state`, and the claim, renewal and
release of agent ownership. A call that fails inside its transaction leaves the tables as they
were; a call that commits reads its record back, and that read can still fail. The clock readings
of a call and the random challenge are inputs.

Timestamps are compared in Rust as instants and in SQL as text. `later` is the order of the text.
-/

namespace AgentOS

open Lib

/-- A row of `cluster_join_challenges`. -/
structure JoinChallengeRow where
  expiresAt : DateTime
  consumedAt : Option DateTime
  deriving DecidableEq

/-- The tables of the authority. -/
structure StandaloneStore where
  clusterId : Text
  generation : Nat
  joinChallenges : OrdMap Text JoinChallengeRow
  members : OrdMap Text ClusterMember
  membershipAudit : List ClusterMembershipAudit
  ownerships : OrdMap Text ClusterAgentOwnership
  ownershipAudit : List ClusterAgentOwnershipAudit

/-- The tables of a new node. -/
def StandaloneStore.new (clusterId : Text) : StandaloneStore := ⟨clusterId, 0, ∅, ∅, [], ∅, []⟩

def defaultAuthorityTerm : Nat := 1

/-- A transaction, and what is read after the commit. -/
def transact {α : Type} (store : StandaloneStore)
    (transaction : Except ContextError StandaloneStore)
    (readBack : StandaloneStore → Except ContextError α) :
    Except ContextError α × StandaloneStore :=
  match transaction with
  | .error error => (.error error, store)
  | .ok store' => (readBack store', store')

/-! ## Rows -/

def loadMember (K : Crypto) (store : StandaloneStore) (nodeId : Text) :
    Except ContextError (Option ClusterMember) :=
  match store.members[nodeId]? with
  | none => return none
  | some row => do
      let joinedAt ← parseTimestamp row.joinedAt
      let updatedAt ← parseTimestamp row.updatedAt
      validateMemberRegistration K row.registration
      return some { row with joinedAt, updatedAt }

variable (store : StandaloneStore)

def loadOwnership (agentId : Text) :
    Except ContextError (Option ClusterAgentOwnership) :=
  match store.ownerships[agentId]? with
  | none => return none
  | some row => do
      let leaseExpiresAt ← parseTimestamp row.leaseExpiresAt
      let updatedAt ← parseTimestamp row.updatedAt
      return some { row with leaseExpiresAt, updatedAt }

def agentOwnership (agentId : Text) :
    Except ContextError (Option ClusterAgentOwnership) := do
  rejectIf (isUuid agentId = false) (storageError "invalid cluster ownership agent id")
  loadOwnership store agentId

/-- The `CHECK (length(..) = 36)` constraints of both ownership tables. -/
def checkOwnershipIds (statement : String) (agentId ownerNodeId : Text) :
    Except ContextError Unit := do
  rejectIf (agentId.length ≠ 36)
    (storageError (statement ++ ": CHECK constraint failed: length(agent_id) = 36"))
  rejectIf (ownerNodeId.length ≠ 36)
    (storageError (statement ++ ": CHECK constraint failed: length(owner_node_id) = 36"))

def writeOwnership (ownership : ClusterAgentOwnership) :
    Except ContextError StandaloneStore := do
  sqliteGeneration ownership.authorityTerm "ownership authority term"
  sqliteGeneration ownership.fencingToken "ownership fencing token"
  sqliteGeneration ownership.generation "ownership generation"
  checkOwnershipIds "write agent ownership" ownership.agentId ownership.ownerNodeId
  return { store with ownerships := store.ownerships.insert ownership.agentId ownership }

def writeOwnershipAudit (audit : ClusterAgentOwnershipAudit) :
    Except ContextError StandaloneStore := do
  sqliteGeneration audit.generation "ownership audit generation"
  sqliteGeneration audit.authorityTerm "ownership audit authority term"
  sqliteGeneration audit.fencingToken "ownership audit fencing token"
  checkOwnershipIds "audit agent ownership" audit.agentId audit.ownerNodeId
  rejectIf
    (store.ownershipAudit.any fun entry =>
      entry.agentId == audit.agentId && entry.generation == audit.generation)
    (storageError ("audit agent ownership: UNIQUE constraint failed: " ++
      "cluster_agent_ownership_audit.agent_id, cluster_agent_ownership_audit.generation"))
  return { store with ownershipAudit := store.ownershipAudit ++ [audit] }

/-- A record and its audit row, in the order in which every ownership call writes them. -/
def recordStandaloneOwnership (ownership : ClusterAgentOwnership)
    (previousOwnerNodeId : Option Text) (operation : String) (actor : Text) :
    Except ContextError StandaloneStore := do
  let store ← writeOwnership store ownership
  writeOwnershipAudit store
    { agentId := ownership.agentId
      generation := ownership.generation
      previousOwnerNodeId
      ownerNodeId := ownership.ownerNodeId
      authorityTerm := ownership.authorityTerm
      fencingToken := ownership.fencingToken
      operation
      actor
      reason := ownership.reason
      changedAt := ownership.updatedAt }

/-- The membership generation after one more change, as a column value. -/
def nextMembershipGeneration : Except ContextError Nat :=
  orReject (checkedSucc store.generation) (storageError "membership generation overflow")

/-- The new membership generation and its audit row. -/
def recordMembershipAudit (audit : ClusterMembershipAudit) (statement : String) :
    Except ContextError StandaloneStore := do
  rejectIf
    (store.membershipAudit.any fun entry =>
      entry.membershipGeneration == audit.membershipGeneration)
    (storageError (statement ++ ": UNIQUE constraint failed: " ++
      "cluster_membership_audit.membership_generation"))
  return { store with
    generation := audit.membershipGeneration
    membershipAudit := store.membershipAudit ++ [audit] }

/-! ## Membership -/

/-- `issue_join_challenge`. The prune and the insertion are two statements outside a transaction;
an expiry out of range is a panic in the source and an error here. -/
def issueJoinChallenge (later : DateTime → DateTime → Bool) (K : Crypto) (store : StandaloneStore)
    (challenge : List UInt8) (ttlSeconds : Nat) (issuedAt prunedAt : DateTime) :
    Except ContextError ClusterJoinChallenge × StandaloneStore :=
  if ttlSeconds < minJoinChallengeTtlSeconds ∨ maxJoinChallengeTtlSeconds < ttlSeconds then
    (.error (storageError "invalid join challenge ttl (expected 5..=300 seconds)"), store)
  else
    match issuedAt.checkedAddSigned (seconds ttlSeconds) with
    | none => (.error (storageError "`DateTime + TimeDelta` overflowed"), store)
    | some expiresAt =>
      let challengeHash := K.sha256Hex challenge
      let pruned := { store with
        joinChallenges := store.joinChallenges.filter fun _ row => later row.expiresAt prunedAt }
      if challengeHash ∈ pruned.joinChallenges then
        (.error (storageError ("persist cluster join challenge: UNIQUE constraint failed: " ++
          "cluster_join_challenges.challenge_hash")), pruned)
      else
        (.ok ⟨store.clusterId, hexEncode challenge, expiresAt⟩,
          { pruned with
            joinChallenges := pruned.joinChallenges.insert challengeHash ⟨expiresAt, none⟩ })

/-- The arguments of `register_member`. -/
structure RegistrationRequest where
  registration : ClusterMemberRegistration
  (challengeHex signatureHex : Text)
  expectedGeneration : Option Nat
  (authorityMinProtocolVersion authorityProtocolVersion : Nat)
  (actor reason : Text)
  deriving DecidableEq

/-- The challenge of a registration is known, unused and unexpired. -/
def redeemChallenge (challengeHash : Text) (checkedAt : DateTime) :
    Except ContextError Unit := do
  let row ← orReject store.joinChallenges[challengeHash]?
    (storageError "invalid cluster join challenge: unknown")
  rejectIf (row.consumedAt.isSome = true)
    (storageError "cluster join challenge was already consumed")
  let expiresAt ← parseTimestamp row.expiresAt
  rejectIf (expiresAt ≤ checkedAt) (storageError "invalid cluster join challenge: expired")

/-- The state, leaf, revision and joining instant that a registration continues. -/
def standaloneRevision (existing : Option ClusterMember) (request : RegistrationRequest)
    (now : DateTime) :
    Except ContextError (Option ClusterMemberState × Option Text × Nat × DateTime) :=
  match existing with
  | some member => do
      let expected ← orReject request.expectedGeneration
        (storageError ("cluster member revision conflict: expected generation is required, " ++
          "current " ++ toString member.generation))
      rejectIf (expected ≠ member.generation)
        (storageError ("cluster member revision conflict: expected " ++ toString expected ++
          ", current " ++ toString member.generation))
      rejectIf (member.state = .revoked)
        (storageError "revoked cluster member conflict: cannot rejoin")
      rejectIf
        (member.fingerprint ≠ request.registration.fingerprint ∨
          member.publicKey ≠ request.registration.publicKey)
        (storageError "cluster member durable identity cannot change during rejoin")
      rejectIf
        (member.tlsServerCertificateFingerprint.isSome = true ∧
          request.registration.tlsServerCertificateFingerprint = none)
        (storageError "cluster member TLS certificate binding cannot be removed during rejoin")
      let generation ← orReject (checkedSucc member.generation)
        (storageError "cluster member generation overflow")
      return (some member.state, member.tlsServerCertificateFingerprint, generation,
        member.joinedAt)
  | none => do
      rejectIf (request.expectedGeneration.isSome = true)
        (storageError "cluster member revision conflict: node does not exist")
      return (none, none, 1, now)

/-- The row that a registration stores. -/
def standaloneMember (request : RegistrationRequest) (generation : Nat)
    (joinedAt now : DateTime) : ClusterMember where
  nodeId := request.registration.nodeId
  fingerprint := request.registration.fingerprint
  publicKey := request.registration.publicKey
  tlsServerCertificateFingerprint := request.registration.tlsServerCertificateFingerprint
  endpoint := request.registration.endpoint
  serverVersion := request.registration.serverVersion
  minProtocolVersion := request.registration.minProtocolVersion
  protocolVersion := request.registration.protocolVersion
  state := .active
  generation
  joinedAt
  updatedAt := now
  reason := request.reason

/-- The transaction of `register_member`; the duplicate query reports the first row in key
order. -/
def registerMemberTransaction (K : Crypto) (store : StandaloneStore)
    (request : RegistrationRequest) (checkedAt now : DateTime) :
    Except ContextError StandaloneStore := do
  let registration := request.registration
  validateMemberRegistration K registration
  validateText request.actor "cluster-membership actor"
  validateReason request.reason
  rejectIf
    (request.authorityMinProtocolVersion = 0 ∨
      request.authorityProtocolVersion < request.authorityMinProtocolVersion)
    (storageError "invalid authority protocol window")
  rejectIf
    (registration.protocolVersion < request.authorityMinProtocolVersion ∨
      request.authorityProtocolVersion < registration.minProtocolVersion)
    (storageError ("incompatible wire-protocol cluster member window: authority v" ++
      toString request.authorityMinProtocolVersion ++ "..=v" ++
      toString request.authorityProtocolVersion ++ ", member v" ++
      toString registration.minProtocolVersion ++ "..=v" ++
      toString registration.protocolVersion))
  let challenge ← orReject (hexDecode32 request.challengeHex)
    (storageError "invalid cluster join challenge")
  let signature ← orReject (hexDecode request.signatureHex)
    (storageError "invalid cluster join signature")
  let payload ← membershipJoinPayload K store.clusterId request.challengeHex registration
  rejectIf (K.verifyChallenge registration.publicKey payload signature = false)
    (storageError "cluster member challenged identity proof denied")
  let challengeHash := K.sha256Hex challenge
  redeemChallenge store challengeHash checkedAt
  let existing ← loadMember K store registration.nodeId
  let duplicate := store.members.toList.find? fun entry =>
    (entry.2.fingerprint == registration.fingerprint ||
      entry.2.endpoint == registration.endpoint) && entry.1 != registration.nodeId
  rejectIf (duplicate.isSome = true)
    (storageError ("cluster member identity or endpoint already belongs to node " ++
      String.ofList (duplicate.elim [] Prod.fst)))
  let (previous, previousTls, generation, joinedAt) ← standaloneRevision existing request now
  let membershipGeneration ← nextMembershipGeneration store
  sqliteGeneration generation "cluster member"
  sqliteGeneration membershipGeneration "cluster membership"
  recordMembershipAudit
    { store with
      members := store.members.insert registration.nodeId
        (standaloneMember request generation joinedAt now)
      joinChallenges := store.joinChallenges.modify challengeHash fun row =>
        { row with consumedAt := some now } }
    { membershipGeneration := membershipGeneration
      nodeId := registration.nodeId
      memberGeneration := generation
      previous
      current := .active
      previousTlsServerCertificateFingerprint := previousTls
      currentTlsServerCertificateFingerprint := registration.tlsServerCertificateFingerprint
      actor := request.actor
      reason := request.reason
      changedAt := now }
    "audit cluster member join"

def registerMember (K : Crypto) (store : StandaloneStore) (request : RegistrationRequest)
    (checkedAt now : DateTime) : Except ContextError ClusterMember × StandaloneStore :=
  transact store (registerMemberTransaction K store request checkedAt now) fun store => do
    let member ← loadMember K store request.registration.nodeId
    orReject member (storageError "joined cluster member disappeared")

/-- The arguments of `set_member_state`. -/
structure StateRequest where
  nodeId : Text
  state : ClusterMemberState
  expectedGeneration : Nat
  (actor reason : Text)
  deriving DecidableEq

/-- The active rows of a node, expired or not, in key order. -/
def ownedRows (nodeId : Text) : List ClusterAgentOwnership :=
  (store.ownerships.toList.map Prod.snd).filter fun ownership =>
    ownership.ownerNodeId == nodeId && ownership.state == .active

/-- The row that a revocation leaves for a lease. -/
def revokedRow (nodeId reason : Text) (now : DateTime) (generation : Nat)
    (previous : ClusterAgentOwnership) : ClusterAgentOwnership where
  agentId := previous.agentId
  ownerNodeId := nodeId
  authorityTerm := defaultAuthorityTerm
  fencingToken := previous.fencingToken
  generation
  state := .released
  leaseExpiresAt := now
  updatedAt := now
  reason

/-- The release of one lease by a revocation. -/
def releaseRow (nodeId actor reason : Text) (now : DateTime) (store : StandaloneStore)
    (previous : ClusterAgentOwnership) : Except ContextError StandaloneStore := do
  let generation ← orReject (checkedSucc previous.generation)
    (storageError "agent ownership generation overflow")
  recordStandaloneOwnership store (revokedRow nodeId reason now generation previous) (some nodeId)
    "release" actor

/-- The leases of a member that changes state. -/
def settleRows (later : DateTime → DateTime → Bool) (store : StandaloneStore)
    (request : StateRequest) (now : DateTime) : Except ContextError StandaloneStore :=
  let owned := ownedRows store request.nodeId
  if request.state = .left then do
    rejectIf ((owned.any fun ownership => later ownership.leaseExpiresAt now) = true)
      (storageError
        "cluster member leave conflict: active ownership leases must be released first")
    return store
  else owned.foldlM (releaseRow request.nodeId request.actor request.reason now) store

/-- The transaction of `set_member_state`. -/
def setMemberStateTransaction (later : DateTime → DateTime → Bool) (K : Crypto)
    (store : StandaloneStore) (request : StateRequest) (now : DateTime) :
    Except ContextError StandaloneStore := do
  rejectIf (request.state = .active)
    (storageError "invalid active membership transition: a fresh challenged join is required")
  rejectIf (isUuid request.nodeId = false) (storageError "invalid cluster member node id")
  validateText request.actor "cluster-membership actor"
  validateReason request.reason
  let loaded ← loadMember K store request.nodeId
  let member ← orReject loaded (storageError "cluster member not found")
  rejectIf (member.generation ≠ request.expectedGeneration)
    (storageError ("cluster member revision conflict: expected " ++
      toString request.expectedGeneration ++ ", current " ++ toString member.generation))
  rejectIf (member.state = .revoked)
    (storageError "revoked cluster member state conflict: revocation is terminal")
  rejectIf (member.state = request.state)
    (storageError "cluster member is already in the requested state")
  let generation ← orReject (checkedSucc member.generation)
    (storageError "cluster member generation overflow")
  let membershipGeneration ← nextMembershipGeneration store
  sqliteGeneration generation "cluster member"
  sqliteGeneration membershipGeneration "cluster membership"
  let settled ← settleRows later store request now
  sqliteGeneration request.expectedGeneration "expected cluster member"
  recordMembershipAudit
    { settled with
      members := settled.members.insert request.nodeId
        { member with
          state := request.state
          generation
          updatedAt := now
          reason := request.reason } }
    { membershipGeneration := membershipGeneration
      nodeId := request.nodeId
      memberGeneration := generation
      previous := some member.state
      current := request.state
      previousTlsServerCertificateFingerprint := member.tlsServerCertificateFingerprint
      currentTlsServerCertificateFingerprint := member.tlsServerCertificateFingerprint
      actor := request.actor
      reason := request.reason
      changedAt := now }
    "audit cluster member state"

def setMemberState (later : DateTime → DateTime → Bool) (K : Crypto) (store : StandaloneStore)
    (request : StateRequest) (now : DateTime) :
    Except ContextError ClusterMember × StandaloneStore :=
  transact store (setMemberStateTransaction later K store request now) fun store => do
    let member ← loadMember K store request.nodeId
    orReject member (storageError "updated cluster member disappeared")

/-! ## Ownership -/

def requireActiveMember (nodeId : Text) : Except ContextError Unit :=
  match store.members[nodeId]?.map ClusterMember.state with
  | some .active => return ()
  | some _ => .error
      (storageError "agent ownership denied: owner node is not an active cluster member")
  | none => .error (storageError "agent ownership denied: owner node is not a cluster member")

/-- The arguments of the three ownership calls: a claim may expect a token and takes a time to
live, a renewal names its token and takes a time to live, a release names its token. -/
structure OwnershipCall where
  (agentId ownerNodeId actor reason : Text)
  deriving DecidableEq

/-- What a claim takes from the row it replaces. -/
structure StandaloneGrant where
  (fencingToken generation : Nat)
  operation : String
  previousOwnerNodeId : Option Text

/-- The fencing decision of a claim. -/
def standaloneGrant (previous : Option ClusterAgentOwnership) (expectedFencingToken : Option Nat)
    (now : DateTime) : Except ContextError StandaloneGrant :=
  match previous with
  | none => do
      rejectIf (expectedFencingToken.isSome = true)
        (storageError "agent ownership conflict: no previous fencing token exists")
      return ⟨1, 1, "claim", none⟩
  | some previous => do
      rejectIf (expectedFencingToken ≠ some previous.fencingToken)
        (storageError ("agent ownership fencing conflict: expected " ++
          debugOption expectedFencingToken ++ ", current " ++ toString previous.fencingToken))
      rejectIf (previous.state = .active ∧ now < previous.leaseExpiresAt)
        (storageError "agent ownership conflict: current lease has not expired")
      let fencingToken ← orReject (checkedSucc previous.fencingToken)
        (storageError "agent ownership fencing token overflow")
      let generation ← orReject (checkedSucc previous.generation)
        (storageError "agent ownership generation overflow")
      return ⟨fencingToken, generation, "transfer", some previous.ownerNodeId⟩

variable (call : OwnershipCall)

/-- The row that an ownership call stores. -/
def OwnershipCall.row (fencingToken generation : Nat) (state : ClusterOwnershipState)
    (leaseExpiresAt now : DateTime) : ClusterAgentOwnership where
  agentId := call.agentId
  ownerNodeId := call.ownerNodeId
  authorityTerm := defaultAuthorityTerm
  fencingToken
  generation
  state
  leaseExpiresAt
  updatedAt := now
  reason := call.reason

/-- The transaction of `claim_agent_ownership`. -/
def claimTransaction (ttlSeconds : Nat) (expectedFencingToken : Option Nat) (now : DateTime) :
    Except ContextError StandaloneStore := do
  validateOwnershipRequest call.agentId call.ownerNodeId ttlSeconds call.actor call.reason
  requireActiveMember store call.ownerNodeId
  let previous ← loadOwnership store call.agentId
  let grant ← standaloneGrant previous expectedFencingToken now
  let leaseExpiresAt ← ownershipExpiry now ttlSeconds
  recordStandaloneOwnership store
    (call.row grant.fencingToken grant.generation .active leaseExpiresAt now)
    grant.previousOwnerNodeId grant.operation call.actor

/-- A renewal or release by anyone but the holder of the active token. -/
def isFencedRow (previous : ClusterAgentOwnership) (ownerNodeId : Text) (fencingToken : Nat) :
    Prop :=
  previous.state ≠ .active ∨ previous.ownerNodeId ≠ ownerNodeId ∨
    previous.fencingToken ≠ fencingToken

instance (previous : ClusterAgentOwnership) (ownerNodeId : Text) (fencingToken : Nat) :
    Decidable (isFencedRow previous ownerNodeId fencingToken) :=
  inferInstanceAs (Decidable (_ ∨ _ ∨ _))

/-- The transaction of `renew_agent_ownership`. -/
def renewTransaction (fencingToken : Nat) (ttlSeconds : Nat) (now : DateTime) :
    Except ContextError StandaloneStore := do
  validateOwnershipRequest call.agentId call.ownerNodeId ttlSeconds call.actor call.reason
  requireActiveMember store call.ownerNodeId
  let loaded ← loadOwnership store call.agentId
  let previous ← orReject loaded (storageError "agent ownership not found")
  rejectIf (isFencedRow previous call.ownerNodeId fencingToken)
    (storageError "agent ownership fencing conflict")
  rejectIf (previous.leaseExpiresAt ≤ now)
    (storageError "agent ownership lease expired before renewal")
  let generation ← orReject (checkedSucc previous.generation)
    (storageError "agent ownership generation overflow")
  let leaseExpiresAt ← ownershipExpiry now ttlSeconds
  recordStandaloneOwnership store (call.row fencingToken generation .active leaseExpiresAt now)
    (some call.ownerNodeId) "renew" call.actor

/-- The transaction of `release_agent_ownership`. -/
def releaseTransaction (fencingToken : Nat) (now : DateTime) :
    Except ContextError StandaloneStore := do
  validateOwnershipIdentity call.agentId call.ownerNodeId
  validateText call.actor "cluster-ownership actor"
  validateReason call.reason
  let loaded ← loadOwnership store call.agentId
  let previous ← orReject loaded (storageError "agent ownership not found")
  rejectIf (isFencedRow previous call.ownerNodeId fencingToken)
    (storageError "agent ownership fencing conflict")
  let generation ← orReject (checkedSucc previous.generation)
    (storageError "agent ownership generation overflow")
  recordStandaloneOwnership store (call.row fencingToken generation .released now now)
    (some call.ownerNodeId) "release" call.actor

/-- The record of an ownership call, read back after the commit. -/
def readOwnership (agentId : Text) (disappeared : String) (store : StandaloneStore) :
    Except ContextError ClusterAgentOwnership := do
  let ownership ← agentOwnership store agentId
  orReject ownership (storageError disappeared)

def claimAgentOwnership (ttlSeconds : Nat) (expectedFencingToken : Option Nat) (now : DateTime) :
    Except ContextError ClusterAgentOwnership × StandaloneStore :=
  transact store (claimTransaction store call ttlSeconds expectedFencingToken now)
    (readOwnership call.agentId "claimed agent ownership disappeared")

def renewAgentOwnership (fencingToken : Nat) (ttlSeconds : Nat) (now : DateTime) :
    Except ContextError ClusterAgentOwnership × StandaloneStore :=
  transact store (renewTransaction store call fencingToken ttlSeconds now)
    (readOwnership call.agentId "renewed agent ownership disappeared")

def releaseAgentOwnership (fencingToken : Nat) (now : DateTime) :
    Except ContextError ClusterAgentOwnership × StandaloneStore :=
  transact store (releaseTransaction store call fencingToken now)
    (readOwnership call.agentId "released agent ownership disappeared")

/-! ## What a transaction leaves -/

section Effects

variable {later : DateTime → DateTime → Bool} {K : Crypto} {store store' : StandaloneStore}

variable {transaction : Except ContextError StandaloneStore}

/-- A call leaves the tables alone or commits its transaction. -/
theorem transact_snd {α : Type} {readBack : StandaloneStore → Except ContextError α}
    (P : StandaloneStore → Prop) (hsame : P store)
    (hc : ∀ store', transaction = .ok store' → P store') :
    P (transact store transaction readBack).2 := by
  cases transaction with
  | error error => exact hsame
  | ok store' => exact hc store' rfl

theorem transact_fst_ok {α : Type} {readBack : StandaloneStore → Except ContextError α} {a : α}
    (h : (transact store transaction readBack).1 = .ok a) :
    transaction = .ok (transact store transaction readBack).2 := by
  cases transaction with
  | error error => cases h
  | ok store' => rfl

variable {nodeId : Text}

theorem loadMember_ok {member : Option ClusterMember} (h : loadMember K store nodeId = .ok member) :
    member = store.members[nodeId]? := by
  unfold loadMember at h
  cases hrow : store.members[nodeId]? with
  | none =>
    rw [hrow] at h
    exact (pure_eq_ok.1 h).symm
  | some row =>
    simp only [hrow, bind_eq_ok, parseTimestamp_eq_ok, pure_eq_ok] at h
    obtain ⟨joinedAt, ⟨-, rfl⟩, updatedAt, ⟨-, rfl⟩, -, -, rfl⟩ := h
    rfl

/-- An ownership write stores its row and touches no member. -/
theorem recordStandaloneOwnership_ok {own : ClusterAgentOwnership}
    {previousOwnerNodeId : Option Text} {op : String} {actor : Text}
    (h : recordStandaloneOwnership store own previousOwnerNodeId op actor = .ok store') :
    store'.members = store.members ∧
      store'.ownerships = store.ownerships.insert own.agentId own := by
  simp only [recordStandaloneOwnership, writeOwnership, writeOwnershipAudit, bind_eq_ok,
    pure_eq_ok] at h
  obtain ⟨written, ⟨-, -, -, -, -, -, -, -, rfl⟩, -, -, -, -, -, -, -, -, -, -, rfl⟩ := h
  exact ⟨rfl, rfl⟩

theorem recordMembershipAudit_ok {au : ClusterMembershipAudit} {statement : String}
    (h : recordMembershipAudit store au statement = .ok store') :
    store'.members = store.members ∧ store'.ownerships = store.ownerships := by
  simp only [recordMembershipAudit, bind_eq_ok, pure_eq_ok] at h
  obtain ⟨-, -, rfl⟩ := h
  exact ⟨rfl, rfl⟩

theorem requireActiveMember_ok {u : Unit} (h : requireActiveMember store nodeId = .ok u) :
    ∃ member, store.members[nodeId]? = some member ∧ member.state = .active := by
  unfold requireActiveMember at h
  cases hm : store.members[nodeId]? with
  | none => simp [hm] at h
  | some member =>
    refine ⟨member, rfl, ?_⟩
    cases hs : member.state with
    | active => rfl
    | left => simp [hm, hs] at h
    | revoked => simp [hm, hs] at h

variable {now : DateTime}

/-- A registration stores an active row in place of none or of one that is not revoked. -/
theorem registerMemberTransaction_ok {req : RegistrationRequest} {checkedAt : DateTime}
    (h : registerMemberTransaction K store req checkedAt now = .ok store') :
    (∀ member, store.members[req.registration.nodeId]? = some member → member.state ≠ .revoked) ∧
      (∃ row : ClusterMember, row.state = .active ∧
        store'.members = store.members.insert req.registration.nodeId row) ∧
      store'.ownerships = store.ownerships := by
  simp only [registerMemberTransaction, bind_eq_ok, Prod.exists] at h
  obtain ⟨-, -, -, -, -, -, -, -, -, -, chal, -, -, -, -, -, -, -, -, -, old, he,
    -, -, previous, previousTls, generation, joinedAt, hr, membershipGeneration, -, -, -,
    -, -, hre⟩ := h
  obtain ⟨hm, ho⟩ := recordMembershipAudit_ok hre
  refine ⟨?_, ⟨_, rfl, hm⟩, ho⟩
  intro member hme
  have he := (loadMember_ok he).trans hme
  subst he
  simp only [standaloneRevision, bind_eq_ok, rejectIf_eq_ok] at hr
  obtain ⟨-, -, -, -, -, ha, -⟩ := hr
  exact ha

/-- The releases of a revocation leave no row of the list active. -/
theorem foldlM_releaseRow_ok {actor reason : Text} {owned : List ClusterAgentOwnership}
    (h : owned.foldlM (releaseRow nodeId actor reason now) store = .ok store') :
    store'.members = store.members ∧ ∀ (agentId : Text) (row : ClusterAgentOwnership),
      store'.ownerships[agentId]? = some row → (row.state = .released ∧ row.agentId = agentId) ∨
          (store.ownerships[agentId]? = some row ∧ ∀ prev ∈ owned, prev.agentId ≠ agentId) := by
  induction owned generalizing store with
  | nil =>
    obtain rfl := pure_eq_ok.1 h
    exact ⟨rfl, fun agentId row hrow => .inr ⟨hrow, by simp⟩⟩
  | cons prev owned ih =>
    rw [List.foldlM_cons, bind_eq_ok] at h
    obtain ⟨released, hr, hrest⟩ := h
    simp only [releaseRow, bind_eq_ok] at hr
    obtain ⟨gen, -, hrc⟩ := hr
    obtain ⟨hm, ho⟩ := recordStandaloneOwnership_ok hrc
    obtain ⟨hm', hrows⟩ := ih hrest
    refine ⟨hm'.trans hm, fun agentId row hrow => ?_⟩
    rcases hrows agentId row hrow with hre | ⟨hold, hot⟩
    · exact .inl hre
    · rw [ho, OrdMap.lookup_insert] at hold
      split at hold
      · next heq =>
        obtain rfl := Option.some.inj hold
        exact .inl ⟨rfl, heq⟩
      · next hne =>
        refine .inr ⟨hold, fun prior he => ?_⟩
        rcases List.mem_cons.1 he with rfl | he
        · exact hne
        · exact hot prior he

theorem mem_ownedRows {row : ClusterAgentOwnership} :
    row ∈ ownedRows store nodeId ↔
      (∃ agentId : Text, store.ownerships[agentId]? = some row) ∧ row.ownerNodeId = nodeId ∧
        row.state = .active := by
  simp only [ownedRows, List.mem_filter, List.mem_map, Prod.exists, exists_eq_right,
    OrdMap.mem_toList_iff, Bool.and_eq_true, beq_iff_eq]

/-- What a change of member state stores: the row of a member that was not revoked, and for a
revocation the released rows of its leases. -/
structure StateChange (store store' : StandaloneStore) (request : StateRequest) : Prop where
  admitted : ∃ member, store.members[request.nodeId]? = some member ∧ member.state ≠ .revoked
  member : ∃ row : ClusterMember, row.state = request.state ∧
    store'.members = store.members.insert request.nodeId row
  inactive : request.state ≠ .active
  left : request.state = .left → store'.ownerships = store.ownerships
  revoked : request.state = .revoked → ∀ (agentId : Text) (row : ClusterAgentOwnership),
    store'.ownerships[agentId]? = some row →
      (row.state = .released ∧ row.agentId = agentId) ∨
        (store.ownerships[agentId]? = some row ∧ ∀ previous ∈ ownedRows store request.nodeId,
          previous.agentId ≠ agentId)

theorem setMemberStateTransaction_ok {req : StateRequest}
    (h : setMemberStateTransaction later K store req now = .ok store') :
    StateChange store store' req := by
  simp only [setMemberStateTransaction, bind_eq_ok, rejectIf_eq_ok, orReject_eq_ok] at h
  obtain ⟨-, hi, -, -, -, -, -, -, loaded, hl, member, rfl, -, -, -, ha, -, -,
    generation, -, membershipGeneration, -, -, -, -, -, settled, hs, -, -, hre⟩ := h
  obtain ⟨hm, ho⟩ := recordMembershipAudit_ok hre
  have hf := (loadMember_ok hl).symm
  have hsame : settled.members = store.members := by
    by_cases hleft : req.state = .left
    · simp only [settleRows, if_pos hleft, bind_eq_ok, pure_eq_ok] at hs
      obtain ⟨-, -, rfl⟩ := hs
      rfl
    · simp only [settleRows, if_neg hleft] at hs
      exact (foldlM_releaseRow_ok hs).1
  have hst := hm
  rw [hsame] at hst
  refine ⟨⟨member, hf, ha⟩, ⟨_, ?_, hst⟩, hi, ?_, ?_⟩
  · rfl
  · intro hleft
    simp only [settleRows, if_pos hleft, bind_eq_ok, pure_eq_ok] at hs
    obtain ⟨-, -, rfl⟩ := hs
    exact ho
  · intro hr agentId row hrow
    have hnL : req.state ≠ .left := by
      rw [hr]
      simp
    simp only [settleRows, if_neg hnL] at hs
    rw [ho] at hrow
    exact (foldlM_releaseRow_ok hs).2 agentId row hrow

/-- What an ownership call stores. -/
structure OwnershipWrite (store store' : StandaloneStore) (row : ClusterAgentOwnership) : Prop where
  members : store'.members = store.members
  ownerships : store'.ownerships = store.ownerships.insert row.agentId row

variable {call : OwnershipCall}

/-- A claim or a renewal stores a row of an active owner. -/
theorem claimTransaction_ok {ttl : Nat} {expToken : Option Nat}
    (h : claimTransaction store call ttl expToken now = .ok store') :
    (∃ member, store.members[call.ownerNodeId]? = some member ∧ member.state = .active) ∧
      ∃ row, row.ownerNodeId = call.ownerNodeId ∧ OwnershipWrite store store' row := by
  simp only [claimTransaction, bind_eq_ok] at h
  obtain ⟨-, -, _, ha, -, -, gr, -, expiry, -, hr⟩ := h
  obtain ⟨hm, ho⟩ := recordStandaloneOwnership_ok hr
  exact ⟨requireActiveMember_ok ha, _, rfl, hm, ho⟩

theorem renewTransaction_ok {token ttl : Nat}
    (h : renewTransaction store call token ttl now = .ok store') :
    (∃ member, store.members[call.ownerNodeId]? = some member ∧ member.state = .active) ∧
      ∃ row, row.ownerNodeId = call.ownerNodeId ∧ OwnershipWrite store store' row := by
  simp only [renewTransaction, bind_eq_ok] at h
  obtain ⟨-, -, _, ha, -, -, -, -, -, -, -, -, gen, -, expiry, -, hr⟩ := h
  obtain ⟨hm, ho⟩ := recordStandaloneOwnership_ok hr
  exact ⟨requireActiveMember_ok ha, _, rfl, hm, ho⟩

/-- A release stores a released row. -/
theorem releaseTransaction_ok {token : Nat}
    (h : releaseTransaction store call token now = .ok store') :
    ∃ row, row.state = .released ∧ OwnershipWrite store store' row := by
  simp only [releaseTransaction, bind_eq_ok] at h
  obtain ⟨-, -, -, -, -, -, -, -, -, -, -, -, gen, -, hr⟩ := h
  obtain ⟨hm, ho⟩ := recordStandaloneOwnership_ok hr
  exact ⟨_, rfl, hm, ho⟩

/-- Issuing a challenge touches neither members nor ownership records. -/
theorem issueJoinChallenge_snd (later : DateTime → DateTime → Bool) (K : Crypto)
    (store : StandaloneStore) (chal : List UInt8) (ttl : Nat) (issuedAt prunedAt : DateTime) :
    (issueJoinChallenge later K store chal ttl issuedAt prunedAt).2.members = store.members ∧
      (issueJoinChallenge later K store chal ttl issuedAt prunedAt).2.ownerships =
        store.ownerships := by
  unfold issueJoinChallenge
  split
  · exact ⟨rfl, rfl⟩
  · split
    · exact ⟨rfl, rfl⟩
    · dsimp only
      split
      · exact ⟨rfl, rfl⟩
      · exact ⟨rfl, rfl⟩

end Effects

/-! ## Runs -/

/-- The calls that change the tables, with the clock readings they make. -/
inductive StandaloneCall where
  | issueJoinChallenge (challenge : List UInt8) (ttlSeconds : Nat) (issuedAt prunedAt : DateTime)
  | registerMember (request : RegistrationRequest) (checkedAt now : DateTime)
  | setMemberState (request : StateRequest) (now : DateTime)
  | claim (call : OwnershipCall) (ttlSeconds : Nat) (expectedFencingToken : Option Nat)
      (now : DateTime)
  | renew (call : OwnershipCall) (fencingToken ttlSeconds : Nat) (now : DateTime)
  | release (call : OwnershipCall) (fencingToken : Nat) (now : DateTime)

/-- The tables after a call. -/
def standaloneStep (later : DateTime → DateTime → Bool) (K : Crypto) (store : StandaloneStore) :
    StandaloneCall → StandaloneStore
  | .issueJoinChallenge challenge ttlSeconds issuedAt prunedAt =>
    (issueJoinChallenge later K store challenge ttlSeconds issuedAt prunedAt).2
  | .registerMember request checkedAt now => (registerMember K store request checkedAt now).2
  | .setMemberState request now => (setMemberState later K store request now).2
  | .claim call ttlSeconds expectedFencingToken now =>
    (claimAgentOwnership store call ttlSeconds expectedFencingToken now).2
  | .renew call fencingToken ttlSeconds now =>
    (renewAgentOwnership store call fencingToken ttlSeconds now).2
  | .release call fencingToken now => (releaseAgentOwnership store call fencingToken now).2

/-- The tables after some calls on a new node. -/
def runStandalone (later : DateTime → DateTime → Bool) (K : Crypto) (clusterId : Text)
    (calls : List StandaloneCall) : StandaloneStore :=
  run (standaloneStep later K) (.new clusterId) calls

end AgentOS
