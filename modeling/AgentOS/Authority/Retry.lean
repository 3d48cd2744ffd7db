import AgentOS.Authority.Command

/-!
# Retries of a command

`commands_are_same_retry` compares two commands through their JSON values with the field
`proposed_at` removed. Objects here are chains of fields in serialisation order. Two values of one
command type list their keys in the same order, so equal chains are equal objects.
-/

namespace AgentOS

/-- The JSON values that commands serialise to. An instant is a text of its own kind. -/
inductive Json where
  | null
  | number (n : Nat)
  | string (s : Text)
  | instant (t : DateTime)
  | emptyArray
  | item (value rest : Json)
  | emptyObject
  | field (key : String) (value rest : Json)
  deriving DecidableEq

namespace Json

def array (values : List Json) : Json := values.foldr .item .emptyArray

def object (fields : List (String × Json)) : Json :=
  fields.foldr (fun entry rest => .field entry.1 entry.2 rest) .emptyObject

def ofOption {α : Type} (encode : α → Json) : Option α → Json
  | none => .null
  | some a => encode a

end Json

open Json

/-- `Option::is_none` fields that are skipped are absent from the object. -/
def skipNone (key : String) : Option Text → List (String × Json)
  | none => []
  | some value => [(key, .string value)]

def ClusterMemberState.toJson : ClusterMemberState → Json
  | .active => .string "active".toList
  | .left => .string "left".toList
  | .revoked => .string "revoked".toList

def ClusterMemberRegistration.toJson (registration : ClusterMemberRegistration) : Json :=
  object ([("node_id", .string registration.nodeId),
      ("fingerprint", .string registration.fingerprint),
      ("public_key", .string registration.publicKey)] ++
    skipNone "tls_server_certificate_fingerprint" registration.tlsServerCertificateFingerprint ++
    [("endpoint", .string registration.endpoint),
      ("server_version", .string registration.serverVersion),
      ("min_protocol_version", .number registration.minProtocolVersion),
      ("protocol_version", .number registration.protocolVersion)])

def AuthorityGenesisMember.toJson (member : AuthorityGenesisMember) : Json :=
  object [("node_id", .string member.nodeId),
    ("fingerprint", .string member.fingerprint),
    ("public_key", .string member.publicKey),
    ("tls_server_certificate_fingerprint",
      ofOption .string member.tlsServerCertificateFingerprint),
    ("endpoint", .string member.endpoint),
    ("server_version", .string member.serverVersion),
    ("min_protocol_version", .number member.minProtocolVersion),
    ("protocol_version", .number member.protocolVersion)]

def AuthorityGenesis.toJson (genesis : AuthorityGenesis) : Json :=
  object [("cluster_id", .string genesis.clusterId),
    ("members", array (genesis.members.map AuthorityGenesisMember.toJson))]

variable (command : AuthorityCommand)

namespace AuthorityCommand

/-- The tag of the externally tagged JSON object of a command. -/
def variantName : AuthorityCommand → String
  | .initializeAuthority _ => "Initialize"
  | .barrier _ => "Barrier"
  | .advanceTime _ => "AdvanceTime"
  | .issueJoinChallenge _ => "IssueJoinChallenge"
  | .registerMember _ => "RegisterMember"
  | .prepareMemberCertificateRollout _ => "PrepareMemberCertificateRollout"
  | .abortMemberCertificateRollout _ => "AbortMemberCertificateRollout"
  | .finalizeMemberCertificateRollout _ => "FinalizeMemberCertificateRollout"
  | .setMemberState _ => "SetMemberState"
  | .claimOwnership _ => "ClaimOwnership"
  | .renewOwnership _ => "RenewOwnership"
  | .releaseOwnership _ => "ReleaseOwnership"

def finishFields (command : FinishMemberCertificateRollout) : List (String × Json) :=
  [("operation_id", .string command.operationId),
    ("node_id", .string command.nodeId),
    ("expected_generation", .number command.expectedGeneration),
    ("actor", .string command.actor),
    ("reason", .string command.reason)]

/-- The fields of a command before `proposed_at`, which every variant that has it lists last. -/
def payloadFields : AuthorityCommand → List (String × Json)
  | .initializeAuthority command =>
    [("operation_id", .string command.operationId),
      ("genesis", command.genesis.toJson)]
  | .barrier command =>
    [("operation_id", .string command.operationId),
      ("expected_sequence", ofOption .number command.expectedSequence)]
  | .advanceTime command => [("operation_id", .string command.operationId)]
  | .issueJoinChallenge command =>
    [("operation_id", .string command.operationId),
      ("challenge_hex", .string command.challengeHex),
      ("ttl_seconds", .number command.ttlSeconds)]
  | .registerMember command =>
    [("operation_id", .string command.operationId),
      ("registration", command.registration.toJson),
      ("challenge_hex", .string command.challengeHex),
      ("signature_hex", .string command.signatureHex),
      ("expected_generation", ofOption .number command.expectedGeneration),
      ("authority_min_protocol_version", .number command.authorityMinProtocolVersion),
      ("authority_protocol_version", .number command.authorityProtocolVersion),
      ("actor", .string command.actor),
      ("reason", .string command.reason)]
  | .prepareMemberCertificateRollout command =>
    [("operation_id", .string command.operationId),
      ("registration", command.registration.toJson),
      ("challenge_hex", .string command.challengeHex),
      ("signature_hex", .string command.signatureHex),
      ("expected_generation", .number command.expectedGeneration),
      ("prepare_ttl_seconds", .number command.prepareTtlSeconds),
      ("minimum_overlap_seconds", .number command.minimumOverlapSeconds),
      ("actor", .string command.actor),
      ("reason", .string command.reason)]
  | .abortMemberCertificateRollout command => finishFields command
  | .finalizeMemberCertificateRollout command => finishFields command
  | .setMemberState command =>
    [("operation_id", .string command.operationId),
      ("node_id", .string command.nodeId),
      ("state", command.state.toJson),
      ("expected_generation", .number command.expectedGeneration),
      ("actor", .string command.actor),
      ("reason", .string command.reason)]
  | .claimOwnership command =>
    [("operation_id", .string command.operationId),
      ("agent_id", .string command.agentId),
      ("owner_node_id", .string command.ownerNodeId),
      ("ttl_seconds", .number command.ttlSeconds),
      ("expected_fencing_token", ofOption .number command.expectedFencingToken),
      ("actor", .string command.actor),
      ("reason", .string command.reason)]
  | .renewOwnership command =>
    [("operation_id", .string command.operationId),
      ("agent_id", .string command.agentId),
      ("owner_node_id", .string command.ownerNodeId),
      ("fencing_token", .number command.fencingToken),
      ("ttl_seconds", .number command.ttlSeconds),
      ("actor", .string command.actor),
      ("reason", .string command.reason)]
  | .releaseOwnership command =>
    [("operation_id", .string command.operationId),
      ("agent_id", .string command.agentId),
      ("owner_node_id", .string command.ownerNodeId),
      ("fencing_token", .number command.fencingToken),
      ("actor", .string command.actor),
      ("reason", .string command.reason)]

/-- The fields of the JSON object of a command. -/
def variantFields : List (String × Json) :=
  command.payloadFields ++ command.proposedAt.toList.map fun t => ("proposed_at", .instant t)

/-- `semantic_value`: the tagged object with the proposed clock value removed. -/
def semanticValue : Json :=
  object [(command.variantName,
    object (command.variantFields.filter fun entry => entry.1 != "proposed_at"))]

end AuthorityCommand

def commandsAreSameRetry (previous current : AuthorityCommand) : Bool :=
  previous.operationId == current.operationId &&
    previous.semanticValue == current.semanticValue

/-! ## Equal values are equal commands up to the proposed instant -/

namespace AuthorityCommand

end AuthorityCommand

end AgentOS
