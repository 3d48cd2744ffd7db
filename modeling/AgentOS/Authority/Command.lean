import AgentOS.Raft.Types
import AgentOS.Cluster.Types

/-!
# Authority commands and responses

The twelve commands of the replicated authority, the responses of its state machine, and the
comparison of a command with the retained command of the same identifier. The payload of each
variant is a structure of its own.
-/

namespace AgentOS

open Lib

/-! ## Genesis -/

structure AuthorityGenesisMember where
  (nodeId fingerprint publicKey : Text)
  tlsServerCertificateFingerprint : Option Text
  (endpoint serverVersion : Text)
  (minProtocolVersion protocolVersion : Nat)
  deriving DecidableEq

structure AuthorityGenesis where
  clusterId : Text
  members : List AuthorityGenesisMember
  deriving DecidableEq

/-! ## Commands -/

structure Initialize where
  operationId : Text
  genesis : AuthorityGenesis
  proposedAt : DateTime
  deriving DecidableEq

structure Barrier where
  operationId : Text
  expectedSequence : Option Nat
  deriving DecidableEq

structure AdvanceTime where
  operationId : Text
  proposedAt : DateTime
  deriving DecidableEq

structure IssueJoinChallenge where
  (operationId challengeHex : Text)
  ttlSeconds : Nat
  proposedAt : DateTime
  deriving DecidableEq

structure RegisterMember where
  operationId : Text
  registration : ClusterMemberRegistration
  (challengeHex signatureHex : Text)
  expectedGeneration : Option Nat
  (authorityMinProtocolVersion authorityProtocolVersion : Nat)
  (actor reason : Text)
  proposedAt : DateTime
  deriving DecidableEq

structure PrepareMemberCertificateRollout where
  operationId : Text
  registration : ClusterMemberRegistration
  (challengeHex signatureHex : Text)
  (expectedGeneration prepareTtlSeconds minimumOverlapSeconds : Nat)
  (actor reason : Text)
  proposedAt : DateTime
  deriving DecidableEq

/-- The common payload of `AbortMemberCertificateRollout` and
`FinalizeMemberCertificateRollout`. -/
structure FinishMemberCertificateRollout where
  (operationId nodeId : Text)
  expectedGeneration : Nat
  (actor reason : Text)
  proposedAt : DateTime
  deriving DecidableEq

structure SetMemberState where
  (operationId nodeId : Text)
  state : ClusterMemberState
  expectedGeneration : Nat
  (actor reason : Text)
  proposedAt : DateTime
  deriving DecidableEq

structure ClaimOwnership where
  (operationId agentId ownerNodeId : Text)
  ttlSeconds : Nat
  expectedFencingToken : Option Nat
  (actor reason : Text)
  proposedAt : DateTime
  deriving DecidableEq

structure RenewOwnership where
  (operationId agentId ownerNodeId : Text)
  (fencingToken ttlSeconds : Nat)
  (actor reason : Text)
  proposedAt : DateTime
  deriving DecidableEq

structure ReleaseOwnership where
  (operationId agentId ownerNodeId : Text)
  fencingToken : Nat
  (actor reason : Text)
  proposedAt : DateTime
  deriving DecidableEq

inductive AuthorityCommand where
  | initializeAuthority (command : Initialize)
  | barrier (command : Barrier)
  | advanceTime (command : AdvanceTime)
  | issueJoinChallenge (command : IssueJoinChallenge)
  | registerMember (command : RegisterMember)
  | prepareMemberCertificateRollout (command : PrepareMemberCertificateRollout)
  | abortMemberCertificateRollout (command : FinishMemberCertificateRollout)
  | finalizeMemberCertificateRollout (command : FinishMemberCertificateRollout)
  | setMemberState (command : SetMemberState)
  | claimOwnership (command : ClaimOwnership)
  | renewOwnership (command : RenewOwnership)
  | releaseOwnership (command : ReleaseOwnership)
  deriving DecidableEq

namespace AuthorityCommand

/-- `AuthorityCommand::operation_id`. -/
def operationId : AuthorityCommand → Text
  | .initializeAuthority command => command.operationId
  | .barrier command => command.operationId
  | .advanceTime command => command.operationId
  | .issueJoinChallenge command => command.operationId
  | .registerMember command => command.operationId
  | .prepareMemberCertificateRollout command => command.operationId
  | .abortMemberCertificateRollout command => command.operationId
  | .finalizeMemberCertificateRollout command => command.operationId
  | .setMemberState command => command.operationId
  | .claimOwnership command => command.operationId
  | .renewOwnership command => command.operationId
  | .releaseOwnership command => command.operationId

/-- The wall-clock value a command proposes; a barrier proposes none. -/
def proposedAt : AuthorityCommand → Option DateTime
  | .initializeAuthority command => some command.proposedAt
  | .barrier _ => none
  | .advanceTime command => some command.proposedAt
  | .issueJoinChallenge command => some command.proposedAt
  | .registerMember command => some command.proposedAt
  | .prepareMemberCertificateRollout command => some command.proposedAt
  | .abortMemberCertificateRollout command => some command.proposedAt
  | .finalizeMemberCertificateRollout command => some command.proposedAt
  | .setMemberState command => some command.proposedAt
  | .claimOwnership command => some command.proposedAt
  | .renewOwnership command => some command.proposedAt
  | .releaseOwnership command => some command.proposedAt

end AuthorityCommand

/-! ## Responses -/

inductive AuthorityRejection where
  | invalidOperationId
  | operationIdConflict
  | sequenceMismatch
  | receiptCapacityReached
  | sequenceExhausted
  | notInitialized
  | invalidCommand
  | conflict
  | capacityReached
  deriving DecidableEq

/-- The error of a command handler: a rejection and its message. -/
abbrev AuthorityError : Type := AuthorityRejection × String

inductive AuthorityResponse where
  | metadataApplied (sequence : Nat) (logId : LogId)
  | barrierCommitted (operationId : Text) (sequence : Nat) (logId : LogId) (replayed : Bool)
  | authorityTimeAdvanced (operationId : Text) (logicalTime : DateTime) (logId : LogId)
  | controlPlaneInitialized (operationId : Text) (sequence : Nat) (logId : LogId)
      (replayed : Bool)
  | joinChallengeIssued (operationId : Text) (challenge : ClusterJoinChallenge)
      (sequence : Nat) (logId : LogId) (replayed : Bool)
  | memberUpdated (operationId : Text) (member : ClusterMember) (sequence : Nat)
      (logId : LogId) (replayed : Bool)
  | certificateRolloutUpdated (operationId : Text) (member : ClusterMember)
      (rollout : Option ClusterCertificateRollout) (sequence : Nat) (logId : LogId)
      (replayed : Bool)
  | ownershipUpdated (operationId : Text) (ownership : ClusterAgentOwnership)
      (sequence : Nat) (logId : LogId) (replayed : Bool)
  | rejected (operationId : Text) (sequence : Nat) (logId : LogId)
      (reason : AuthorityRejection) (message : String)
  deriving DecidableEq

namespace AuthorityResponse

def successfulResponseMetadata : AuthorityResponse → Option (Text × Nat × LogId × Bool)
  | .barrierCommitted operationId sequence logId replayed
  | .controlPlaneInitialized operationId sequence logId replayed
  | .joinChallengeIssued operationId _ sequence logId replayed
  | .memberUpdated operationId _ sequence logId replayed
  | .certificateRolloutUpdated operationId _ _ sequence logId replayed
  | .ownershipUpdated operationId _ sequence logId replayed =>
    some (operationId, sequence, logId, replayed)
  | .metadataApplied .. | .authorityTimeAdvanced .. | .rejected .. => none

/-- `replay_response`. The source calls it on retained responses only, which are never of the
last three kinds. -/
def replayResponse : AuthorityResponse → AuthorityResponse
  | .barrierCommitted operationId sequence logId _ =>
    .barrierCommitted operationId sequence logId true
  | .controlPlaneInitialized operationId sequence logId _ =>
    .controlPlaneInitialized operationId sequence logId true
  | .joinChallengeIssued operationId challenge sequence logId _ =>
    .joinChallengeIssued operationId challenge sequence logId true
  | .memberUpdated operationId member sequence logId _ =>
    .memberUpdated operationId member sequence logId true
  | .certificateRolloutUpdated operationId member rollout sequence logId _ =>
    .certificateRolloutUpdated operationId member rollout sequence logId true
  | .ownershipUpdated operationId ownership sequence logId _ =>
    .ownershipUpdated operationId ownership sequence logId true
  | response => response

end AuthorityResponse

def responseMatchesCommand : AuthorityCommand → AuthorityResponse → Bool
  | .initializeAuthority _, .controlPlaneInitialized .. => true
  | .barrier _, .barrierCommitted .. => true
  | .advanceTime _, .authorityTimeAdvanced .. => true
  | .issueJoinChallenge _, .joinChallengeIssued .. => true
  | .registerMember _, .memberUpdated .. | .setMemberState _, .memberUpdated .. => true
  | .prepareMemberCertificateRollout _, .certificateRolloutUpdated ..
  | .abortMemberCertificateRollout _, .certificateRolloutUpdated ..
  | .finalizeMemberCertificateRollout _, .certificateRolloutUpdated .. => true
  | .claimOwnership _, .ownershipUpdated ..
  | .renewOwnership _, .ownershipUpdated ..
  | .releaseOwnership _, .ownershipUpdated .. => true
  | _, _ => false

end AgentOS
