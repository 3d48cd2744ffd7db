import AgentOS.Authority.Registration
import AgentOS.Authority.Ownership

/-!
# The authority state machine

`apply_authority_command` and the batch loop of `RaftStateMachine::apply`, without the final
validation and write of the computed state, which `AgentOS.Authority.Validator` adds.
-/

namespace AgentOS

open Lib

/-- `control_plane_mut`, and the assignment of the updated clone. -/
def withControlPlane {ρ : Type} (state : AuthorityState)
    (handler : ReplicatedControlPlaneState →
      Except AuthorityError (ρ × ReplicatedControlPlaneState))
    (respond : ρ → AuthorityResponse) : Except AuthorityError (AuthorityResponse × AuthorityState)
    := do
  let control ← orReject state.controlPlane
    (.notInitialized, "replicated authority is not initialized")
  let (result, next) ← handler control
  return (respond result, { state with controlPlane := some next })

/-- `apply_new_authority_command`. The clock command is handled before receipts are consulted and
never reaches this function. -/
def applyNewAuthorityCommand (K : Crypto) (state : AuthorityState) (command : AuthorityCommand)
    (sequence : Nat) (logId : LogId) :
    Except AuthorityError (AuthorityResponse × AuthorityState) :=
  let operationId := command.operationId
  let authorityTerm := logId.leaderId.term
  match command with
  | .initializeAuthority command => do
      rejectIf (state.controlPlane.isSome = true)
        (.conflict, "replicated authority is already initialized")
      let control ← validateAndBuildGenesis K command.genesis command.proposedAt
      return (.controlPlaneInitialized operationId sequence logId false,
        { state with controlPlane := some control })
  | .barrier _ => return (.barrierCommitted operationId sequence logId false, state)
  | .advanceTime _ => .error (.invalidCommand, "unreachable")
  | .issueJoinChallenge command =>
    withControlPlane state (applyIssueJoinChallenge K · command) fun challenge =>
      .joinChallengeIssued operationId challenge sequence logId false
  | .registerMember command =>
    withControlPlane state (applyRegisterMember K · command) fun member =>
      .memberUpdated operationId member sequence logId false
  | .prepareMemberCertificateRollout command =>
    withControlPlane state (applyPrepareMemberCertificateRollout K · command) fun result =>
      .certificateRolloutUpdated operationId result.1 (some result.2) sequence logId false
  | .abortMemberCertificateRollout command =>
    withControlPlane state (applyFinishMemberCertificateRollout · .abort command) fun member =>
      .certificateRolloutUpdated operationId member none sequence logId false
  | .finalizeMemberCertificateRollout command =>
    withControlPlane state (applyFinishMemberCertificateRollout · .finalize command)
      fun member => .certificateRolloutUpdated operationId member none sequence logId false
  | .setMemberState command =>
    withControlPlane state (applySetMemberState · command authorityTerm) fun member =>
      .memberUpdated operationId member sequence logId false
  | .claimOwnership command =>
    withControlPlane state (applyClaimOwnership · command authorityTerm) fun ownership =>
      .ownershipUpdated operationId ownership sequence logId false
  | .renewOwnership command =>
    withControlPlane state (applyRenewOwnership · command authorityTerm) fun ownership =>
      .ownershipUpdated operationId ownership sequence logId false
  | .releaseOwnership command =>
    withControlPlane state (applyReleaseOwnership · command authorityTerm) fun ownership =>
      .ownershipUpdated operationId ownership sequence logId false

def maxAuthorityReceipts : Nat := 4096

/-- The compare-and-set of a barrier. -/
def sequenceMismatch (state : AuthorityState) : AuthorityCommand → Bool
  | .barrier command => command.expectedSequence.any (· != state.sequence)
  | _ => false

/-- A command that has no receipt yet: sequencing, the handler, and the receipt. -/
def sequenceCommand (K : Crypto) (state : AuthorityState) (command : AuthorityCommand)
    (canonicalId : Text) (logId : LogId) :
    Except AuthorityError (AuthorityResponse × AuthorityState) := do
  rejectIf (sequenceMismatch state command = true)
    (.sequenceMismatch, "authority sequence compare-and-set failed")
  rejectIf (maxAuthorityReceipts ≤ state.receipts.size)
    (.receiptCapacityReached, "authority idempotency receipt capacity is exhausted")
  let sequence ← orReject (checkedSucc state.sequence)
    (.sequenceExhausted, "authority sequence is exhausted")
  let (response, next) ← applyNewAuthorityCommand K state command sequence logId
  return (response, { next with
    sequence
    receipts := next.receipts.insert canonicalId ⟨command, response⟩ })

/-- The rejection of a command leaves the state as it was. -/
def orRejected (state : AuthorityState) (operationId : Text) (logId : LogId) :
    Except AuthorityError (AuthorityResponse × AuthorityState) →
      AuthorityResponse × AuthorityState
  | .ok result => result
  | .error (reason, message) => (.rejected operationId state.sequence logId reason message, state)

def applyAuthorityCommand (K : Crypto) (state : AuthorityState) (command : AuthorityCommand)
    (logId : LogId) : AuthorityResponse × AuthorityState :=
  match canonicalOperationId command.operationId with
  | none =>
    (.rejected command.operationId state.sequence logId .invalidOperationId
      "authority operation_id must be a canonical lowercase UUID", state)
  | some canonicalId =>
    match command with
    | .advanceTime clock =>
      match state.controlPlane with
      | none =>
        (.rejected canonicalId state.sequence logId .notInitialized
          "replicated authority is not initialized", state)
      | some control =>
        let logicalTime := max control.logicalTime clock.proposedAt
        (.authorityTimeAdvanced canonicalId logicalTime logId,
          { state with controlPlane := some { control with logicalTime } })
    | command =>
      match state.receipts[canonicalId]? with
      | some receipt =>
        if commandsAreSameRetry receipt.command command then
          (receipt.response.replayResponse, state)
        else
          (.rejected canonicalId state.sequence logId .operationIdConflict
            "authority operation_id is already committed with a different command", state)
      | none =>
        orRejected state canonicalId logId
          (sequenceCommand K state command canonicalId logId)

/-! ## Log entries -/

inductive EntryPayload where
  | blank
  | membership (membership : Membership)
  | normal (command : AuthorityCommand)
  deriving DecidableEq

structure Entry where
  logId : LogId
  payload : EntryPayload
  deriving DecidableEq

structure PersistentState where
  lastApplied : Option LogId
  membership : StoredMembership
  authority : AuthorityState
  snapshotSequence : Nat
  deriving DecidableEq

/-- `PersistentState::default`. -/
def PersistentState.empty : PersistentState := ⟨none, .empty, .empty, 0⟩

/-- One round of the loop of `RaftStateMachine::apply`. -/
def applyEntry (K : Crypto) (state : PersistentState) (entry : Entry) :
    AuthorityResponse × PersistentState :=
  let state := { state with lastApplied := some entry.logId }
  match entry.payload with
  | .blank => (.metadataApplied state.authority.sequence entry.logId, state)
  | .membership membership =>
    (.metadataApplied state.authority.sequence entry.logId,
      { state with membership := ⟨some entry.logId, membership⟩ })
  | .normal command =>
    let (response, authority) := applyAuthorityCommand K state.authority command entry.logId
    (response, { state with authority })

/-- The state that the loop of `RaftStateMachine::apply` computes. -/
def applyEntries (K : Crypto) (state : PersistentState) (entries : List Entry) :
    PersistentState :=
  entries.foldl (fun state entry => (applyEntry K state entry).2) state

/-! ## A small cluster

Values for concrete runs: digests that keep their input, signatures that always verify, and
members named by one digit. -/

namespace Sample

def crypto : Crypto where
  sha256 bytes := (bytes ++ List.replicate 32 0).take 32
  ed25519Verify _ _ _ := true

/-- The registration of a node, named by a digit, with a TLS leaf. -/
def registration (node leaf : Char) : ClusterMemberRegistration :=
  ⟨uuid node, hex node, hex node, some (hex leaf), [node], ['1'], 1, 1⟩

/-- The genesis member of a node with a TLS leaf. -/
def seed (node leaf : Char) : AuthorityGenesisMember :=
  ⟨uuid node, hex node, hex node, some (hex leaf), [node], ['1'], 1, 1⟩

/-- A position of the log in the first term. -/
def logId (index : Nat) : LogId := ⟨⟨1, 1⟩, index⟩

/-- A command at a position of the log. -/
def entry (index : Nat) (command : AuthorityCommand) : Entry := ⟨logId index, .normal command⟩

end Sample

end AgentOS
