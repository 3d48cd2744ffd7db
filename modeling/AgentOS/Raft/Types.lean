import AgentOS.Base.Clock

/-!
# Raft records

Log identifiers, votes and memberships as the consensus library keeps them, and the node record
that the cluster stores in memberships. Identifiers of logs and leaders carry the orders the
library derives for them; a vote is compared in its term and candidate first.
-/

namespace AgentOS

open Lib

/-- `BTreeSet`. -/
abbrev OrdSet (κ : Type) [Ord κ] : Type := Std.ExtTreeSet κ compare

/-- `LeaderId`: a term and the node elected in it. -/
structure LeaderId where
  (term nodeId : Nat)
  deriving DecidableEq

structure LogId where
  leaderId : LeaderId
  index : Nat
  deriving DecidableEq

structure Vote where
  leaderId : LeaderId
  committed : Bool
  deriving DecidableEq

structure ClusterRaftNode where
  (endpoint serverName tlsCertificateSha256 tlsClientCertificateSha256 : Text)
  (tlsCertificateSha256Overlap tlsClientCertificateSha256Overlap : List Text)
  (identityPublicKey transportCatalogSha256 : Text)
  transportTrustGeneration : Nat
  transportPeerCaSha256 : List Text
  transportTrustOverlapNotAfter : Option DateTime
  voterSetGeneration : Nat
  voterSetSha256 : Text
  deriving DecidableEq

/-- `Membership`: the voter configurations, more than one while a change is joint, and the
catalog of nodes. -/
structure Membership where
  configs : List (OrdSet Nat)
  nodes : OrdMap Nat ClusterRaftNode
  deriving DecidableEq

/-- `StoredMembership`: a membership and the log entry that carried it. -/
structure StoredMembership where
  logId : Option LogId
  membership : Membership
  deriving DecidableEq

/-- `StoredMembership::default`. -/
def StoredMembership.empty : StoredMembership := ⟨none, ⟨[], ∅⟩⟩

end AgentOS
