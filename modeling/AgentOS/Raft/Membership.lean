import AgentOS.Lib.Run
import AgentOS.Raft.Configuration

/-!
# Changes of the Raft membership

The operations of the consensus library on the membership (`RaftLibrary`), the decision function
`inspect_durable_membership`, and a round of `ensure_configured_membership`: inspect the durable
membership against the operator's configuration and commit the changes it selects. A round may stop
after any of its commits, and the next one may come with another configuration.
-/

namespace AgentOS

open Lib

/-! ## Membership changes of the consensus library -/

/-- `ChangeMembers`, the variants that the runtime uses. -/
inductive ChangeMembers where
  | replaceAllVoters (voterIds : OrdSet Nat)
  | setNodes (nodes : OrdMap Nat ClusterRaftNode)
  | replaceAllNodes (nodes : OrdMap Nat ClusterRaftNode)

/-- The consensus library's operations on the durable membership. -/
structure RaftLibrary where
  /-- `Raft::initialize` on a node; `none` stands for a refusal. -/
  bootstrap : Nat → OrdMap Nat ClusterRaftNode → Option Membership
  /-- `Raft::change_membership`: the memberships that it commits, in order. -/
  changeMembership : Membership → ChangeMembers → Bool → List Membership
  /-- `Raft::add_learner`; `none` stands for a refusal. -/
  addLearner : Membership → Nat → ClusterRaftNode → Option Membership

/-- What the runtime relies on. Nodes are set, replaced and added without a change of the voters. A
change of the voters that retains the removed ones keeps the nodes, and passes through a joint
configuration unless its goal is one of the configurations. -/
structure RaftLibrary.Lawful (R : RaftLibrary) : Prop where
  bootstrap : ∀ {self nodes next}, R.bootstrap self nodes = some next →
    next.nodes = nodes ∧ ∃ config : OrdSet Nat, next.configs = [config] ∧
      ∀ nodeId, nodeId ∈ config ↔ nodeId ∈ nodes
  setNodes : ∀ {membership nodes retain},
    ∀ next ∈ R.changeMembership membership (.setNodes nodes) retain,
      next = ⟨membership.configs, membership.nodes ∪ nodes⟩
  replaceAllNodes : ∀ {membership nodes retain},
    ∀ next ∈ R.changeMembership membership (.replaceAllNodes nodes) retain,
      next = ⟨membership.configs, nodes⟩
  replaceAllVoters : ∀ {membership goal},
    ∀ next ∈ R.changeMembership membership (.replaceAllVoters goal) true,
      next.nodes = membership.nodes ∧ (next.configs = [goal] ∨
        goal ∉ membership.configs ∧
          ∃ last ∈ membership.configs, next.configs = [last, goal])
  -- a node that is there already keeps its entry
  addLearner : ∀ {membership nodeId node next},
    R.addLearner membership nodeId node = some next →
      next = ⟨membership.configs,
        (∅ : OrdMap Nat ClusterRaftNode).insert nodeId node ∪ membership.nodes⟩

namespace Membership

/-- `voter_ids`: the members of all configurations. -/
def voterIds (membership : Membership) : OrdSet Nat :=
  membership.configs.foldl (· ∪ ·) ∅

theorem mem_voterIds {membership : Membership} {nodeId : Nat} :
    nodeId ∈ membership.voterIds ↔ ∃ config ∈ membership.configs, nodeId ∈ config := by
  have hfold : ∀ (configs : List (OrdSet Nat)) (acc : OrdSet Nat),
      nodeId ∈ configs.foldl (· ∪ ·) acc ↔ nodeId ∈ acc ∨ ∃ config ∈ configs, nodeId ∈ config := by
    intro configs
    induction configs with
    | nil => simp
    | cons config configs ih =>
      intro acc
      rw [List.foldl_cons, ih, Std.ExtTreeSet.mem_union_iff, List.exists_mem_cons_iff, or_assoc]
  rw [voterIds, hfold]
  simp

end Membership

/-! ## `inspect_durable_membership` -/

inductive DurableMembershipProgress where
  | pristine
  | needsCatalog
  | needsTransportTrust
  | settled
  | needsIntent
  | intentCommitted
  | joint
  deriving DecidableEq

def sameTransportIdentity (left right : ClusterRaftNode) : Bool :=
  left.endpoint == right.endpoint && left.serverName == right.serverName &&
    left.tlsCertificateSha256 == right.tlsCertificateSha256 &&
    left.tlsClientCertificateSha256 == right.tlsClientCertificateSha256 &&
    left.tlsCertificateSha256Overlap == right.tlsCertificateSha256Overlap &&
    left.tlsClientCertificateSha256Overlap == right.tlsClientCertificateSha256Overlap &&
    left.identityPublicKey == right.identityPublicKey

def sameTransportTrustEntry (left right : ClusterRaftNode) : Bool :=
  sameTransportIdentity left right &&
    left.transportCatalogSha256 == right.transportCatalogSha256 &&
    left.transportTrustGeneration == right.transportTrustGeneration &&
    left.transportPeerCaSha256 == right.transportPeerCaSha256 &&
    left.transportTrustOverlapNotAfter == right.transportTrustOverlapNotAfter

/-- Every node is in the trusted catalog, where `same` holds between the two entries. -/
def trustedSubset (same : ClusterRaftNode → ClusterRaftNode → Bool)
    (trusted nodes : OrdMap Nat ClusterRaftNode) : Bool :=
  nodes.toList.all fun p => trusted[p.1]?.any fun expected => same expected p.2

/-- The element of a set of values with exactly one element. -/
def agreedOn {α : Type} [DecidableEq α] (values : List α) : Option α :=
  values.head?.filter fun value => values.all (· = value)

variable (K : Crypto) (L : Libraries) (config : ClusterRaftRuntimeConfig)

/-- The check of the durable catalog against its own digest. -/
def checkCatalog (nodes : OrdMap Nat ClusterRaftNode) (catalogSha256 : Text)
    (trustGeneration : Nat) : Except IoError Unit :=
  if catalogSha256 = [] then
    rejectIf
      (¬ (config.transportTrustGeneration = 0 ∧ nodes.size = config.members.size ∧
        trustedSubset sameTransportIdentity config.members nodes))
      (invalidData ("legacy durable Raft node map does not exactly match the trusted transport " ++
        "catalog"))
  else do
    rejectIf (validTlsFingerprint catalogSha256 = false)
      (invalidData "durable transport-catalog digest is not lowercase SHA-256")
    rejectIf
      (configuredTransportCatalogSha256 K L nodes ≠ catalogSha256 ∧
        ¬ (trustGeneration = 0 ∧ config.transportTrustGeneration = 0 ∧
          catalogSha256 = config.transportCatalogSha256 ∧
          trustedSubset sameTransportTrustEntry config.members nodes))
      (invalidData ("durable Raft transport catalog digest does not authenticate its complete " ++
        "node map"))

/-- What all durable nodes agree on. -/
def durableEpoch (nodes : OrdMap Nat ClusterRaftNode) : Except IoError NodeEpoch := do
  let values := nodes.toList.map Prod.snd
  let catalogSha256 ← orReject (agreedOn (values.map ClusterRaftNode.transportCatalogSha256))
    (invalidData "durable Raft nodes disagree on the transport-catalog digest")
  let trust ← orReject
    (agreedOn (values.map fun node => (node.transportTrustGeneration, node.transportPeerCaSha256,
      node.transportTrustOverlapNotAfter)))
    (invalidData ("durable Raft nodes disagree on transport-trust generation, CA roots, or " ++
      "overlap expiration"))
  checkCatalog K L config nodes catalogSha256 trust.1
  let intent ← orReject
    (agreedOn (values.map fun node => (node.voterSetGeneration, node.voterSetSha256)))
    (invalidData "durable Raft nodes disagree on voter-set generation or digest")
  rejectIf (intent.1 = 0 ∧ intent.2 ≠ [])
    (invalidData "durable generation-zero voter set has a non-empty digest")
  rejectIf (intent.1 ≠ 0 ∧ validTlsFingerprint intent.2 = false)
    (invalidData "durable voter-set digest is not lowercase SHA-256")
  return ⟨trust.1, catalogSha256, intent.1, intent.2⟩

/-- A generation plus one, `checked_add(1)`. -/
def nextGeneration (generation : Nat) (overflow : String) : Except IoError Nat := do
  rejectIf (u64Max ≤ generation) (invalidInput overflow)
  return generation + 1

/-- The leaf sets of a node before and after a trust change share a fingerprint. -/
def leafContinuity (prior : Text) (priorOverlap : List Text) (target : Text)
    (targetOverlap : List Text) : Bool :=
  (prior :: priorOverlap).any fun fingerprint =>
    fingerprint == target || targetOverlap.contains fingerprint

/-- The check of one retained node before a trust change. -/
def checkContinuity (trustGeneration : Nat) (entry : Nat × ClusterRaftNode) : Except IoError Unit :=
  let (nodeId, prior) := entry
  match config.members[nodeId]? with
  | none => return ()
  | some target => do
      rejectIf (prior.identityPublicKey ≠ target.identityPublicKey)
        (invalidData ("transport trust cannot replace retained node " ++ toString nodeId ++
          " application identity"))
      rejectIf
        (¬ (leafContinuity prior.tlsCertificateSha256 prior.tlsCertificateSha256Overlap
              target.tlsCertificateSha256 target.tlsCertificateSha256Overlap ∧
            leafContinuity prior.tlsClientCertificateSha256
              prior.tlsClientCertificateSha256Overlap target.tlsClientCertificateSha256
              target.tlsClientCertificateSha256Overlap))
        (invalidData ("transport trust must retain server and client leaf continuity for node " ++
          toString nodeId))
      rejectIf
        (0 < trustGeneration ∧
          prior.transportPeerCaSha256.any target.transportPeerCaSha256.contains = false)
        (invalidData ("transport trust must retain at least one CA root for node " ++
          toString nodeId))

/-- The decision while a joint configuration is durable. -/
def inspectJoint (membership : Membership) (epoch : NodeEpoch) (nodesMatchTrusted : Bool) :
    Except IoError DurableMembershipProgress := do
  rejectIf
    (epoch.trustGeneration ≠ config.transportTrustGeneration ∨
      epoch.catalogSha256 ≠ config.transportCatalogSha256 ∨ nodesMatchTrusted = false ∨
      epoch.voterGeneration ≠ config.voterSetGeneration ∨
      epoch.voterSha256 ≠ config.voterSetSha256 ∨
      membership.configs.getLast? ≠ some config.voterIds)
    (invalidData "durable joint Raft membership conflicts with the configured voter-set intent")
  return .joint

/-- The decision while the durable catalog has no digest. -/
def inspectLegacy (voters : OrdSet Nat) (epoch : NodeEpoch) :
    Except IoError DurableMembershipProgress := do
  rejectIf
    (config.transportTrustGeneration ≠ 0 ∨ config.voterSetGeneration ≠ epoch.voterGeneration ∨
      config.voterSetSha256 ≠ epoch.voterSha256 ∨ config.voterIds ≠ voters)
    (invalidData ("legacy Raft transport catalog must persist its generation-zero digest before " ++
      "any voter or trust change"))
  return .needsCatalog

/-- The decision when the configuration names another trust generation. -/
def inspectTransportTrust (nodes : OrdMap Nat ClusterRaftNode) (voters : OrdSet Nat)
    (epoch : NodeEpoch) : Except IoError DurableMembershipProgress := do
  let next ← nextGeneration epoch.trustGeneration "durable transport-trust generation overflow"
  rejectIf (config.transportTrustGeneration ≠ next)
    (invalidData "configured transport-trust generation is stale or skips a durable generation")
  rejectIf
    (config.voterSetGeneration ≠ epoch.voterGeneration ∨
      config.voterSetSha256 ≠ epoch.voterSha256 ∨ config.voterIds ≠ voters)
    (invalidData "transport trust and voter membership cannot change in the same generation")
  rejectIf (epoch.voterSha256 ≠ configuredVoterSetSha256 K epoch.voterGeneration voters)
    (invalidData "transport trust cannot change while the durable voter intent is unsettled")
  rejectIf (voters.toList.any fun voterId => !config.members.contains voterId)
    (invalidData "transport trust cannot remove a current voter; remove it from voting first")
  nodes.toList.forM (checkContinuity config epoch.trustGeneration)
  return .needsTransportTrust

/-- The decision when the configuration names the durable voter generation. -/
def inspectSameGeneration (voters : OrdSet Nat) (epoch : NodeEpoch)
    (nodesAreTrustedSubset nodesMatchTrusted : Bool) :
    Except IoError DurableMembershipProgress := do
  rejectIf (epoch.voterSha256 ≠ config.voterSetSha256)
    (invalidData "configured voter set reuses a durable generation with a different target")
  if voters = config.voterIds then
    if nodesMatchTrusted then return .settled
    else do
      rejectIf (¬ (epoch.trustGeneration = 0 ∧ nodesAreTrustedSubset))
        (invalidData ("durable voter set is settled without the complete trusted transport " ++
          "catalog"))
      return .needsCatalog
  else do
    rejectIf (epoch.voterGeneration = 0)
      (invalidData ("generation-zero voter set cannot change without advancing " ++
        "voter_set_generation"))
    rejectIf (nodesMatchTrusted = false)
      (invalidData "durable voter intent does not contain the complete trusted transport catalog")
    return .intentCommitted

/-- The decision when the configuration names another voter generation. -/
def inspectNextGeneration (voters : OrdSet Nat) (epoch : NodeEpoch) (nodesMatchTrusted : Bool) :
    Except IoError DurableMembershipProgress := do
  rejectIf (nodesMatchTrusted = false)
    (invalidData ("durable prior voter generation does not contain the complete trusted " ++
      "transport catalog"))
  let next ← nextGeneration epoch.voterGeneration "durable voter-set generation overflow"
  rejectIf (config.voterSetGeneration ≠ next)
    (invalidData "configured voter-set generation is stale or skips a durable generation")
  rejectIf (epoch.voterSha256 ≠ configuredVoterSetSha256 K epoch.voterGeneration voters)
    (invalidData "durable prior voter-set generation is not settled")
  return .needsIntent

/-- The decision on a membership that has been written. -/
def inspectWritten (membership : Membership) : Except IoError DurableMembershipProgress := do
  let nodes := membership.nodes
  let voters := membership.voterIds
  rejectIf (nodes.isEmpty ∨ voters.isEmpty)
    (invalidData "durable Raft membership has a log id but no nodes or voters")
  let nodesAreTrustedSubset := trustedSubset sameTransportTrustEntry config.members nodes
  let nodesMatchTrusted := nodes.size == config.members.size && nodesAreTrustedSubset
  let epoch ← durableEpoch K L config nodes
  rejectIf (membership.configs = [] ∨ 2 < membership.configs.length)
    (invalidData "durable Raft membership has an unsupported joint configuration")
  if membership.configs.length = 2 then
    inspectJoint config membership epoch nodesMatchTrusted
  else if epoch.catalogSha256 = [] then
    inspectLegacy config voters epoch
  else if epoch.trustGeneration ≠ config.transportTrustGeneration then
    inspectTransportTrust K config nodes voters epoch
  else do
    rejectIf (epoch.catalogSha256 ≠ config.transportCatalogSha256)
      (invalidData ("configured Raft transport catalog reuses a durable trust generation with a " ++
        "different target"))
    if epoch.voterGeneration = config.voterSetGeneration then
      inspectSameGeneration config voters epoch nodesAreTrustedSubset nodesMatchTrusted
    else
      inspectNextGeneration K config voters epoch nodesMatchTrusted

/-- `inspect_durable_membership`; `running` is the state of the consensus library. -/
def inspectDurableMembership (running : Except String Unit) (config : ClusterRaftRuntimeConfig)
    (stored : StoredMembership) :
    Except IoError DurableMembershipProgress := do
  running.mapError fun error =>
    (⟨.other, "OpenRaft is not running while membership is validated: " ++ error⟩ : IoError)
  match stored.logId with
  | none => do
      rejectIf (¬ (stored.membership.nodes.isEmpty ∧ stored.membership.voterIds.isEmpty))
        (invalidData "durable Raft membership has no log id but is not empty")
      return .pristine
  | some _ => inspectWritten K L config stored.membership

/-! ## Rounds of `ensure_configured_membership` -/

variable (R : RaftLibrary)

/-- The memberships that adding the voters as learners one after another commits, and the last of
them unless an addition was refused. -/
def addLearners (membership : Membership) : List Nat → List Membership × Option Membership
  | [] => ([], some membership)
  | voterId :: rest =>
    match config.members[voterId]?.bind (R.addLearner membership voterId) with
    | none => ([], none)
    | some next =>
      let (commits, last) := addLearners next rest
      (next :: commits, last)

/-- `ClusterRaftRuntime::initialize`. -/
def initializeRaft : Option Membership :=
  R.bootstrap config.nodeId
    (config.members.filter fun nodeId _ => config.voterIds.contains nodeId)

/-- The memberships that the changes selected by a progress commit, in order. -/
def selectedCommits (bootstrap isLeader : Bool) (membership : Membership) :
    DurableMembershipProgress → List Membership
  | .pristine =>
    if bootstrap ∧ config.voterSetGeneration = 0 ∧ config.transportTrustGeneration = 0 then
      (initializeRaft config R).toList
    else []
  | .settled => []
  | .needsCatalog | .needsIntent =>
    if isLeader then R.changeMembership membership (.setNodes config.members) true else []
  | .needsTransportTrust =>
    if isLeader then R.changeMembership membership (.replaceAllNodes config.members) false else []
  | .intentCommitted =>
    if isLeader then
      let (commits, last) := addLearners config R membership config.voterIds.toList
      commits ++ last.elim [] fun last =>
        R.changeMembership last (.replaceAllVoters config.voterIds) true
    else []
  | .joint =>
    if isLeader then R.changeMembership membership (.replaceAllVoters config.voterIds) true else []

/-- A round: a node inspects the durable membership with its configuration, which passed
`validate`, and commits the selected changes, of which the first `commits` become durable before
the node stops or loses the lead. -/
structure MembershipRound (K : Crypto) (L : Libraries) where
  config : ClusterRaftRuntimeConfig
  validatedAt : DateTime
  valid : config.validate K L validatedAt = .ok ()
  voterIds_le : ∀ voterId ∈ config.voterIds, voterId ≤ u64Max
  running : Except String Unit
  (bootstrap isLeader : Bool)
  commits : Nat
  logId : LogId

/-- The durable membership after a round. -/
def membershipStep (stored : StoredMembership) (round : MembershipRound K L) : StoredMembership :=
  match inspectDurableMembership K L round.running round.config stored with
  | .error _ => stored
  | .ok progress =>
    match ((selectedCommits round.config R round.bootstrap round.isLeader stored.membership
      progress).take round.commits).getLast? with
    | none => stored
    | some membership => ⟨some round.logId, membership⟩

/-- The durable membership after a run of rounds on an empty store. -/
def runMembership (rounds : List (MembershipRound K L)) : StoredMembership :=
  run (membershipStep K L R) .empty rounds

end AgentOS
