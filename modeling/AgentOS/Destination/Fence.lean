import AgentOS.Cluster.Types

/-!
# Destination fences

A workload node keeps, for every agent, the ownership evidence under which it admits mutations:
`install_agent_mutation_fence`, `retire_agent_mutation_fence` and
`verify_loaded_agent_mutation_fence` of `ClusterControl` on one node's database. A call that fails
inside its transaction is rolled back; a call that commits reads the record back, and that read can
still fail.
-/

namespace AgentOS

open Lib

def maxDestinationProofClockSkewSeconds : Nat := 30

inductive AgentMutationFenceState where
  | active
  | retired
  deriving DecidableEq

structure AgentMutationFence where
  (agentId clusterId ownerNodeId : Text)
  (authorityTerm authorityGeneration fencingToken : Nat)
  proofExpiresAt : DateTime
  state : AgentMutationFenceState
  installedAt : DateTime
  reason : Text
  deriving DecidableEq

structure AgentMutationFenceAudit where
  (agentId clusterId ownerNodeId : Text)
  (authorityTerm authorityGeneration fencingToken : Nat)
  proofExpiresAt : DateTime
  state : AgentMutationFenceState
  (actor reason : Text)
  changedAt : DateTime
  deriving DecidableEq

/-- The primary key of `cluster_agent_mutation_fence_audit`. -/
def AgentMutationFenceAudit.key (audit : AgentMutationFenceAudit) :
    Text × Nat × AgentMutationFenceState × Nat × Nat × DateTime :=
  (audit.agentId, audit.fencingToken, audit.state, audit.authorityGeneration,
    audit.authorityTerm, audit.proofExpiresAt)

/-- The arguments of an installation or retirement. -/
structure MutationFenceRequest where
  (agentId clusterId ownerNodeId : Text)
  (authorityTerm authorityGeneration fencingToken : Nat)
  proofExpiresAt : DateTime
  (actor reason : Text)
  deriving DecidableEq

/-- The tables `cluster_agent_mutation_fences` and `cluster_agent_mutation_fence_audit` with their
primary keys. -/
structure FenceStore where
  fences : OrdMap Text AgentMutationFence
  audit : List AgentMutationFenceAudit
  keyed : ∀ (agentId : Text) (fence : AgentMutationFence),
    fences[agentId]? = some fence → fence.agentId = agentId
  unique : (audit.map AgentMutationFenceAudit.key).Nodup

/-- The tables of a new node. -/
def FenceStore.empty : FenceStore := ⟨∅, [], by simp, .nil⟩

/-! ## Source functions -/

variable (request : MutationFenceRequest)

def validateMutationFenceInput : Except ContextError Unit := do
  rejectIf (isUuid request.agentId = false) (storageError "invalid agent mutation fence agent id")
  rejectIf (isUuid request.clusterId = false)
    (storageError "invalid agent mutation fence cluster id")
  rejectIf (isUuid request.ownerNodeId = false)
    (storageError "invalid agent mutation fence owner node id")
  rejectIf (request.authorityTerm = 0)
    (storageError "agent mutation fence authority term must be positive")
  rejectIf (request.authorityGeneration = 0)
    (storageError "agent mutation fence authority generation must be positive")
  rejectIf (request.fencingToken = 0) (storageError "agent mutation fence token must be positive")
  validateText request.actor "agent mutation fence actor"
  validateReason request.reason

variable (store : FenceStore)

def loadMutationFence (agentId : Text) : Except ContextError (Option AgentMutationFence) :=
  match store.fences[agentId]? with
  | none => return none
  | some row => do
      let proofExpiresAt ← parseTimestamp row.proofExpiresAt
      let installedAt ← parseTimestamp row.installedAt
      return some { row with proofExpiresAt, installedAt }

/-- `sqlite_generation`: the value has to fit a signed column. -/
def sqliteGeneration (value : Nat) (field : String) : Except ContextError Unit :=
  rejectIf (maxI64 < value) (storageError (field ++ " generation exceeds SQLite"))

/-- The record that a write stores. -/
def MutationFenceRequest.fence (state : AgentMutationFenceState) (changedAt : DateTime) :
    AgentMutationFence where
  agentId := request.agentId
  clusterId := request.clusterId
  ownerNodeId := request.ownerNodeId
  authorityTerm := request.authorityTerm
  authorityGeneration := request.authorityGeneration
  fencingToken := request.fencingToken
  proofExpiresAt := request.proofExpiresAt
  state
  installedAt := changedAt
  reason := request.reason

/-- The audit row that a write appends. -/
def MutationFenceRequest.fenceAudit (state : AgentMutationFenceState) (changedAt : DateTime) :
    AgentMutationFenceAudit where
  agentId := request.agentId
  clusterId := request.clusterId
  ownerNodeId := request.ownerNodeId
  authorityTerm := request.authorityTerm
  authorityGeneration := request.authorityGeneration
  fencingToken := request.fencingToken
  proofExpiresAt := request.proofExpiresAt
  state
  actor := request.actor
  reason := request.reason
  changedAt

/-- The tables after one row of each. -/
def FenceStore.put (request : MutationFenceRequest) (state : AgentMutationFenceState)
    (changedAt : DateTime)
    (hunique : (request.fenceAudit state changedAt).key ∉
      store.audit.map AgentMutationFenceAudit.key) :
    FenceStore where
  fences := store.fences.insert request.agentId (request.fence state changedAt)
  audit := store.audit ++ [request.fenceAudit state changedAt]
  keyed := by
    intro agentId fence hfence
    rw [OrdMap.lookup_insert] at hfence
    split at hfence
    · next h => rw [← Option.some.inj hfence, ← h]; rfl
    · exact store.keyed agentId fence hfence
  unique := by
    rw [List.map_append, List.map_singleton]
    exact List.nodup_append.2 ⟨store.unique, List.nodup_singleton _, by
      rintro key hkey _ hlast rfl
      exact hunique (List.mem_singleton.1 hlast ▸ hkey)⟩

/-- `write_mutation_fence`. The three identifiers have `CHECK (length(..) = 36)` constraints, and
the audit row has a primary key. -/
def writeMutationFence (request : MutationFenceRequest) (state : AgentMutationFenceState)
    (changedAt : DateTime) :
    Except ContextError FenceStore := do
  sqliteGeneration request.authorityTerm "fence authority term"
  sqliteGeneration request.authorityGeneration "fence authority generation"
  sqliteGeneration request.fencingToken "agent mutation fencing token"
  rejectIf (request.agentId.length ≠ 36)
    (storageError "write agent mutation fence: CHECK constraint failed: length(agent_id) = 36")
  rejectIf (request.clusterId.length ≠ 36)
    (storageError "write agent mutation fence: CHECK constraint failed: length(cluster_id) = 36")
  rejectIf (request.ownerNodeId.length ≠ 36)
    (storageError
      "write agent mutation fence: CHECK constraint failed: length(owner_node_id) = 36")
  if hunique : (request.fenceAudit state changedAt).key ∉
      store.audit.map AgentMutationFenceAudit.key then
    return store.put request state changedAt hunique
  else
    .error (storageError ("audit agent mutation fence: UNIQUE constraint failed: " ++
      "cluster_agent_mutation_fence_audit.agent_id, " ++
      "cluster_agent_mutation_fence_audit.fencing_token, " ++
      "cluster_agent_mutation_fence_audit.state, " ++
      "cluster_agent_mutation_fence_audit.authority_generation, " ++
      "cluster_agent_mutation_fence_audit.authority_term, " ++
      "cluster_agent_mutation_fence_audit.proof_expires_at"))

def agentMutationFence (agentId : Text) :
    Except ContextError (Option AgentMutationFence) := do
  rejectIf (isUuid agentId = false) (storageError "invalid agent mutation fence agent id")
  loadMutationFence store agentId

/-- The last lines of both calls: commit, then read the record back. -/
def commitFence (request : MutationFenceRequest) (state : AgentMutationFenceState) (now : DateTime)
    (disappeared : String) : Except ContextError AgentMutationFence × FenceStore :=
  match writeMutationFence store request state now with
  | .error error => (.error error, store)
  | .ok store' =>
    (do
      let fence ← agentMutationFence store' request.agentId
      orReject fence (storageError disappeared),
    store')

variable (previous : AgentMutationFence)

/-- The request repeats the revision of an active record. -/
def isSameRevision (request : MutationFenceRequest) : Prop :=
  request.authorityTerm = previous.authorityTerm ∧
    request.fencingToken = previous.fencingToken ∧
    request.authorityGeneration = previous.authorityGeneration ∧ previous.state = .active

instance (previous : AgentMutationFence) (request : MutationFenceRequest) :
    Decidable (isSameRevision previous request) :=
  inferInstanceAs (Decidable (_ ∧ _ ∧ _ ∧ _))

/-- What an installation does with the record it finds: `some fence` is the early return of an
installed revision, `none` a request to write. -/
def compareInstalled (request : MutationFenceRequest) :
    Except ContextError (Option AgentMutationFence) := do
  rejectIf
    (previous.clusterId ≠ request.clusterId ∨ previous.ownerNodeId ≠ request.ownerNodeId)
    (storageError "agent mutation fence conflicts with the durable cluster or destination")
  rejectIf
    (request.authorityTerm < previous.authorityTerm ∨
      request.fencingToken < previous.fencingToken ∨
      request.authorityGeneration < previous.authorityGeneration)
    (storageError "stale agent mutation fence rejected by destination")
  rejectIf (previous.state = .retired ∧ request.fencingToken ≤ previous.fencingToken)
    (storageError "retired agent mutation fence cannot become active again")
  if isSameRevision previous request ∧ request.proofExpiresAt = previous.proofExpiresAt then
    return some previous
  else do
    rejectIf (isSameRevision previous request ∧ previous.proofExpiresAt ≠ previous.installedAt)
      (storageError "agent mutation fence proof expiry conflicts with the durable revision")
    rejectIf
      ((previous.authorityTerm < request.authorityTerm ∨
          previous.fencingToken < request.fencingToken) ∧
        request.authorityGeneration ≤ previous.authorityGeneration)
      (storageError "new agent mutation fence requires a newer authority generation")
    return none

variable (nodeId : Text)

/-- The checks that both calls make before they open a transaction. -/
def admitFenceCall (request : MutationFenceRequest) :
    Except ContextError Unit := do
  validateMutationFenceInput request
  rejectIf (request.ownerNodeId ≠ nodeId)
    (storageError "agent mutation fence owner does not match this destination node")

/-- The checks of `install_agent_mutation_fence`. -/
def checkInstall (store : FenceStore) (request : MutationFenceRequest) (now : DateTime) :
    Except ContextError (Option AgentMutationFence) := do
  admitFenceCall nodeId request
  rejectIf (request.proofExpiresAt ≤ now)
    (storageError "expired agent mutation fence proof rejected by destination")
  let maximumProofHorizon ← orReject
    (now.checkedAddSigned
      (seconds (maxOwnershipLeaseTtlSeconds + maxDestinationProofClockSkewSeconds)))
    (storageError "destination proof horizon overflow")
  rejectIf (maximumProofHorizon < request.proofExpiresAt)
    (storageError "agent mutation fence proof exceeds the bounded destination horizon")
  match ← loadMutationFence store request.agentId with
  | none => return none
  | some previous => compareInstalled previous request

/-- `install_agent_mutation_fence` on the node `nodeId` whose clock shows `now`. -/
def installAgentMutationFence (store : FenceStore) (request : MutationFenceRequest)
    (now : DateTime) :
    Except ContextError AgentMutationFence × FenceStore :=
  match checkInstall nodeId store request now with
  | .error error => (.error error, store)
  | .ok (some previous) => (.ok previous, store)
  | .ok none => commitFence store request .active now "installed agent mutation fence disappeared"

/-- The request names exactly the active record. -/
def isExactActive (request : MutationFenceRequest) : Prop :=
  previous.clusterId = request.clusterId ∧ previous.ownerNodeId = request.ownerNodeId ∧
    previous.authorityTerm = request.authorityTerm ∧
    previous.authorityGeneration = request.authorityGeneration ∧
    previous.fencingToken = request.fencingToken ∧
    previous.proofExpiresAt = request.proofExpiresAt ∧ previous.state = .active

instance (previous : AgentMutationFence) (request : MutationFenceRequest) :
    Decidable (isExactActive previous request) :=
  inferInstanceAs (Decidable (_ ∧ _ ∧ _ ∧ _ ∧ _ ∧ _ ∧ _))

/-- The checks of `retire_agent_mutation_fence`. -/
def checkRetire (store : FenceStore) (request : MutationFenceRequest) :
    Except ContextError Unit := do
  admitFenceCall nodeId request
  let loaded ← loadMutationFence store request.agentId
  let previous ← orReject loaded (storageError "agent mutation fence not found")
  rejectIf (¬ isExactActive previous request)
    (storageError "agent mutation fence retirement requires the exact active record")

/-- `retire_agent_mutation_fence` on the node `nodeId` whose clock shows `now`. -/
def retireAgentMutationFence (store : FenceStore) (request : MutationFenceRequest)
    (now : DateTime) :
    Except ContextError AgentMutationFence × FenceStore :=
  match checkRetire nodeId store request with
  | .error error => (.error error, store)
  | .ok () => commitFence store request .retired now "retired agent mutation fence disappeared"

/-- `verify_loaded_agent_mutation_fence` on the node `nodeId`; the actor and reason of the request
are not looked at. -/
def verifyLoadedAgentMutationFence (record : AgentMutationFence) (request : MutationFenceRequest)
    (now : DateTime) : Except ContextError Unit := do
  rejectIf
    (record.agentId ≠ request.agentId ∨ record.state ≠ .active ∨
      record.clusterId ≠ request.clusterId ∨ record.ownerNodeId ≠ request.ownerNodeId ∨
      record.ownerNodeId ≠ nodeId ∨ record.authorityTerm ≠ request.authorityTerm ∨
      record.authorityGeneration ≠ request.authorityGeneration ∨
      record.fencingToken ≠ request.fencingToken ∨
      record.proofExpiresAt ≠ request.proofExpiresAt)
    (storageError "agent mutation rejected by destination ownership fence")
  rejectIf (now < record.installedAt)
    (storageError ("agent mutation rejected because the destination clock moved behind " ++
      "fence installation"))
  rejectIf (record.proofExpiresAt ≤ now)
    (storageError "agent mutation rejected because the ownership proof expired")

/-- `verify_agent_mutation_fence_with_clock`. -/
def verifyAgentMutationFence (store : FenceStore) (request : MutationFenceRequest)
    (now : DateTime) :
    Except ContextError Unit := do
  let loaded ← agentMutationFence store request.agentId
  let record ← orReject loaded (storageError "agent mutation fence is not installed")
  verifyLoadedAgentMutationFence nodeId record request now

end AgentOS
