import AgentOS.Authority.Command
import AgentOS.Base.Hex
import AgentOS.Base.Word

/-!
# The operator's Raft configuration

`ClusterRaftRuntimeConfig` and its `validate`: the trusted catalog of nodes, the voter set with
its generation, and the digests that bind both. `valid_facts` collects what later modules use: the
voters are in the catalog, the digests are the configured ones, and every node of the catalog
carries the generations and digests of the configuration.

Server names are parsed, and instants printed, by libraries; both stay parameters.
-/

namespace AgentOS

open Lib

/-! ## Errors and library functions -/

/-- The kinds of `io::Error` that the runtime raises. -/
inductive IoErrorKind where
  | invalidInput
  | invalidData
  | other
  deriving DecidableEq

/-- `io::Error`. -/
structure IoError where
  kind : IoErrorKind
  message : String
  deriving DecidableEq

def invalidInput (message : String) : IoError := ⟨.invalidInput, message⟩

/-- `io::Error::new(io::ErrorKind::InvalidData, message)`. -/
def invalidData (message : String) : IoError := ⟨.invalidData, message⟩

/-- `ServerName::try_from` and `DateTime::to_rfc3339`. -/
structure Libraries where
  serverName : Text → Except String Unit
  toRfc3339 : DateTime → Text

/-! ## Numbers -/

/-- `u64::to_be_bytes`. -/
def toBeBytes64 (n : Nat) : List UInt8 := toBeBytes32 (n / 2 ^ 32) ++ toBeBytes32 n

@[simp] theorem length_toBeBytes64 (n : Nat) : (toBeBytes64 n).length = 8 := by
  rw [toBeBytes64, List.length_append]
  rfl

theorem toBeBytes32_injOn {m n : Nat} (h : toBeBytes32 m = toBeBytes32 n) :
    m % 2 ^ 32 = n % 2 ^ 32 := by
  simp only [toBeBytes32, List.cons.injEq, ← UInt8.toNat_inj, UInt8.toNat_ofNat', and_true] at h
  omega

theorem toBeBytes64_injOn {m n : Nat} (hm : m ≤ u64Max) (hn : n ≤ u64Max)
    (h : toBeBytes64 m = toBeBytes64 n) : m = n := by
  obtain ⟨hhigh, hlow⟩ := List.append_inj h rfl
  have hhigh := toBeBytes32_injOn hhigh
  have hlow := toBeBytes32_injOn hlow
  unfold u64Max at hm hn
  omega

/-- One round of the loop of `u16::from_str`: the digit is read before the overflow is reported. -/
def parseDigit16 (v : Nat) (c : Char) : Except String Nat := do
  rejectIf (c.isDigit = false) "invalid digit found in string"
  rejectIf (2 ^ 16 ≤ 10 * v + (c.toNat - 48)) "number too large to fit in target type"
  return 10 * v + (c.toNat - 48)

variable (v : Text)

/-- `u16::from_str`. -/
def parseU16 : Except String Nat := do
  rejectIf (v = []) "cannot parse integer from empty string"
  rejectIf (v = ['+']) "invalid digit found in string"
  let digits := if v.head? = some '+' then v.tail else v
  digits.foldlM parseDigit16 0

/-! ## The configuration -/

/-- The parts of the consensus library's configuration that are read here: the cluster name, and
the outcome of the library's own check. -/
structure OpenRaftConfig where
  clusterName : Text
  checked : Except String Unit

/-- `ClusterRaftTransportLimits`; durations in nanoseconds. -/
structure ClusterRaftTransportLimits where
  (handshakeTimeout inboundRequestTimeout maxFrameBytes maxInFlightConnections : Nat)

/-- `ClusterRaftRuntimeConfig`, without the listen address, which is not checked. Of the TLS
identities the two leaf fingerprints are kept. -/
structure ClusterRaftRuntimeConfig where
  nodeId : Nat
  members : OrdMap Nat ClusterRaftNode
  transportCatalogSha256 : Text
  transportTrustGeneration : Nat
  transportTrustOverlapNotAfter : Option DateTime
  voterIds : OrdSet Nat
  voterSetGeneration : Nat
  voterSetSha256 : Text
  (authorityGenesis configuredAuthority transportAuthority : AuthorityGenesis)
  (serverCertificateSha256 clientCertificateSha256 : Text)
  raft : OpenRaftConfig
  transport : ClusterRaftTransportLimits

/-! ## Digests -/

/-- `append_digest_field`. -/
def digestField : List UInt8 := toBeBytes64 (byteLength v) ++ asBytes v

/-- A list of digest fields after its length. -/
def digestFields (values : List Text) : List UInt8 :=
  toBeBytes64 values.length ++ values.flatMap digestField

/-- The head of the digest payload of a catalog. -/
def transportCatalogHeader (L : Libraries) (first : Option ClusterRaftNode) : List UInt8 :=
  match first.filter fun node => node.transportTrustGeneration ≠ 0 with
  | none => asBytes "AIagentOS OpenRaft transport catalog v1".toList
  | some node =>
    asBytes "AIagentOS OpenRaft transport trust epoch v2".toList ++
      toBeBytes64 node.transportTrustGeneration ++ digestFields node.transportPeerCaSha256 ++
      match node.transportTrustOverlapNotAfter with
      | some notAfter => 1 :: digestField (L.toRfc3339 notAfter)
      | none => [0]

/-- What a node of the catalog adds to the digest payload. -/
def transportCatalogNode (trustGeneration : Nat) (nodeId : Nat) (node : ClusterRaftNode) :
    List UInt8 :=
  toBeBytes64 nodeId ++ digestField node.endpoint ++ digestField node.serverName ++
    digestField node.tlsCertificateSha256 ++ digestField node.tlsClientCertificateSha256 ++
    (if 0 < trustGeneration then
      digestFields node.tlsCertificateSha256Overlap ++
        digestFields node.tlsClientCertificateSha256Overlap
    else []) ++
    digestField node.identityPublicKey

/-- The digest payload of a catalog. -/
def transportCatalogPayload (L : Libraries) (members : OrdMap Nat ClusterRaftNode) : List UInt8 :=
  let first := members.toList.head?.map Prod.snd
  let trustGeneration := (first.map ClusterRaftNode.transportTrustGeneration).getD 0
  transportCatalogHeader L first ++ toBeBytes64 members.size ++
    members.toList.flatMap fun p => transportCatalogNode trustGeneration p.1 p.2

variable (K : Crypto)

def configuredTransportCatalogSha256 (L : Libraries) (members : OrdMap Nat ClusterRaftNode) :
    Text :=
  K.sha256Hex (transportCatalogPayload L members)

/-- The digest payload of a voter set. -/
def voterSetPayload (generation : Nat) (voters : OrdSet Nat) : List UInt8 :=
  asBytes "AIagentOS OpenRaft voter set v1".toList ++ toBeBytes64 generation ++
    toBeBytes64 voters.size ++ voters.toList.flatMap toBeBytes64

def configuredVoterSetSha256 (generation : Nat) (voters : OrdSet Nat) : Text :=
  if generation = 0 then [] else K.sha256Hex (voterSetPayload generation voters)

/-! ## Checks of single values -/

def validateSha256 (label : String) : Except IoError Unit :=
  rejectIf (validTlsFingerprint v = false)
    (invalidInput (label ++ " fingerprint must be 64 lowercase hexadecimal characters"))

def rsplitOnce (separator : Char) : Option (Text × Text) :=
  if separator ∈ v then
    let after := (v.reverse.takeWhile (· ≠ separator)).reverse
    some (v.take (v.length - after.length - 1), after)
  else none

def validateEndpoint (endpoint : Text) : Except IoError Unit := do
  -- a text with the substring "://" contains '/'
  rejectIf
    (endpoint = [] ∨ 512 < byteLength endpoint ∨ endpoint.any isWhitespace ∨ '/' ∈ endpoint)
    (invalidInput "Raft endpoint must be a bounded host:port value without a URL scheme")
  let (_, port) ← orReject (rsplitOnce endpoint ':')
    (invalidInput "Raft endpoint must include a port")
  let port ← (parseU16 port).mapError invalidInput
  rejectIf (port = 0) (invalidInput "Raft advertised endpoint port cannot be zero")

variable (node : ClusterRaftNode)

/-- The overlap of a certificate set is still open at an instant. -/
def overlapOpen (now : DateTime) : Bool :=
  node.transportTrustOverlapNotAfter.any fun notAfter => now < notAfter

def acceptsServerCertificate (fingerprint : Text) (now : DateTime) : Bool :=
  node.tlsCertificateSha256 == fingerprint ||
    (overlapOpen node now && node.tlsCertificateSha256Overlap.contains fingerprint)

def acceptsClientCertificate (fingerprint : Text) (now : DateTime) : Bool :=
  node.tlsClientCertificateSha256 == fingerprint ||
    (overlapOpen node now && node.tlsClientCertificateSha256Overlap.contains fingerprint)

/-- One round of the loop of `validate_authority_genesis`. -/
def validateGenesisMember (seen : List AuthorityGenesisMember) (member : AuthorityGenesisMember) :
    Except IoError (List AuthorityGenesisMember) := do
  (validateMemberRegistration K
    { nodeId := member.nodeId
      fingerprint := member.fingerprint
      publicKey := member.publicKey
      tlsServerCertificateFingerprint := member.tlsServerCertificateFingerprint
      endpoint := member.endpoint
      serverVersion := member.serverVersion
      minProtocolVersion := member.minProtocolVersion
      protocolVersion := member.protocolVersion }).mapError
    fun error => invalidInput error.toString
  rejectIf
    (seen.any fun other => other.nodeId == member.nodeId || other.fingerprint == member.fingerprint
      || other.endpoint == member.endpoint)
    (invalidInput "authority genesis contains a duplicate application identity or endpoint")
  return member :: seen

def validateAuthorityGenesis (genesis : AuthorityGenesis) : Except IoError Unit := do
  let clusterId ← orReject (Uuid.parseStr genesis.clusterId)
    (invalidInput "authority genesis cluster id must be a UUID")
  rejectIf (clusterId.toString ≠ genesis.clusterId)
    (invalidInput "authority genesis cluster id must use canonical lowercase UUID form")
  rejectIf (genesis.members = [] ∨ 31 < genesis.members.length)
    (invalidInput "authority genesis must contain 1 to 31 application members")
  let _ ← genesis.members.foldlM (validateGenesisMember K) []
  return ()

/-! ## The loop over the catalog -/

/-- The sets that `validate` fills while it walks over the catalog. -/
structure CatalogScan where
  (endpoints serverFingerprints clientFingerprints : List Text)
  certificateOwners : OrdMap Text Nat
  identityKeys : List Text

/-- `windows(2).all(|pair| pair[0] < pair[1])`. -/
def strictlySorted (values : List Text) : Bool :=
  (values.zip values.tail).all fun pair => compare pair.1 pair.2 == .lt

/-- The check of each fingerprint of one member, in which duplicates are refused. -/
def scanFingerprint (label duplicate : String) (seen : List Text) (fingerprint : Text) :
    Except IoError (List Text) := do
  validateSha256 fingerprint label
  rejectIf (fingerprint ∈ seen) (invalidInput duplicate)
  return fingerprint :: seen

/-- The entry of a fingerprint into the set of its kind and the map of owners. -/
def ownFingerprint (nodeId : Nat) (duplicate : String) (acc : List Text × OrdMap Text Nat)
    (fingerprint : Text) : Except IoError (List Text × OrdMap Text Nat) := do
  rejectIf (fingerprint ∈ acc.1) (invalidInput duplicate)
  rejectIf (acc.2[fingerprint]?.any (· ≠ nodeId))
    (invalidInput "Raft certificate fingerprint is assigned to multiple node identities")
  return (fingerprint :: acc.1, acc.2.insert fingerprint nodeId)

/-- `Duration::days(30)`. -/
def maxTransportTrustOverlap : Int := seconds (30 * 86400)

/-- The check of the overlap of a node against the clock. -/
def validateOverlap (now : DateTime) : Except IoError Unit :=
  let hasOverlap := node.tlsCertificateSha256Overlap ≠ [] ∨
    node.tlsClientCertificateSha256Overlap ≠ [] ∨ 1 < node.transportPeerCaSha256.length
  match node.transportTrustOverlapNotAfter with
  | some notAfter =>
    if hasOverlap then
      rejectIf
        (¬ (now < notAfter ∧ notAfter.nanos ≤ now.nanos + maxTransportTrustOverlap))
        (invalidInput "Raft transport trust overlap expiration must be in the next 30 days")
    else .error (invalidInput
      "Raft transport trust overlap expiration exists without overlap credentials")
  | none =>
    rejectIf hasOverlap
      (invalidInput "Raft transport trust overlap requires an absolute expiration")

/-- `duplicate Raft peer .. certificate fingerprint`. -/
def duplicateFingerprint (kind : String) : String :=
  "duplicate Raft peer " ++ kind ++ " certificate fingerprint"

/-- One round of the loop of `validate` over the catalog. -/
def validateNode (L : Libraries) (config : ClusterRaftRuntimeConfig) (now : DateTime)
    (expectedPeerCa : List Text) (scan : CatalogScan) (entry : Nat × ClusterRaftNode) :
    Except IoError CatalogScan := do
  let (nodeId, node) := entry
  rejectIf (nodeId = 0) (invalidInput "Raft node id 0 is reserved")
  validateEndpoint node.endpoint
  (L.serverName node.serverName).mapError invalidInput
  validateSha256 node.tlsCertificateSha256 "server certificate"
  validateSha256 node.tlsClientCertificateSha256 "client certificate"
  rejectIf
    (7 < node.tlsCertificateSha256Overlap.length ∨
      7 < node.tlsClientCertificateSha256Overlap.length)
    (invalidInput
      "Raft transport certificate overlap cannot contain more than 7 additional leaves")
  rejectIf
    (node.transportTrustGeneration = 0 ∧
      (node.tlsCertificateSha256Overlap ≠ [] ∨ node.tlsClientCertificateSha256Overlap ≠ [] ∨
        node.transportPeerCaSha256 ≠ [] ∨ node.transportTrustOverlapNotAfter.isSome))
    (invalidInput ("Raft generation-zero transport trust cannot contain overlap leaves, " ++
      "CA fingerprints, or an overlap expiration"))
  rejectIf
    (0 < node.transportTrustGeneration ∧
      (node.transportPeerCaSha256 = [] ∨ 32 < node.transportPeerCaSha256.length))
    (invalidInput "versioned Raft transport trust must contain 1 to 32 CA fingerprints")
  rejectIf (node.transportPeerCaSha256 ≠ expectedPeerCa)
    (invalidInput "Raft trusted catalog contains inconsistent peer CA fingerprints")
  rejectIf
    (strictlySorted node.transportPeerCaSha256 = false ∨
      strictlySorted node.tlsCertificateSha256Overlap = false ∨
      strictlySorted node.tlsClientCertificateSha256Overlap = false)
    (invalidInput "Raft transport trust fingerprint lists must be sorted and unique")
  validateOverlap node now
  let servers ← (node.tlsCertificateSha256 :: node.tlsCertificateSha256Overlap).foldlM
    (scanFingerprint "server certificate" (duplicateFingerprint "server")) []
  let clients ← (node.tlsClientCertificateSha256 :: node.tlsClientCertificateSha256Overlap).foldlM
    (scanFingerprint "client certificate" (duplicateFingerprint "client")) []
  let _ ← node.transportPeerCaSha256.foldlM
    (scanFingerprint "peer CA certificate" (duplicateFingerprint "CA")) []
  rejectIf (validTlsFingerprint node.identityPublicKey = false)
    (invalidInput "Raft member identity public key must be 64 lowercase hexadecimal characters")
  rejectIf (node.endpoint ∈ scan.endpoints) (invalidInput "duplicate Raft peer endpoint")
  -- the two sets of the member are walked in order of the fingerprints
  let (serverFingerprints, owners) ← (servers.insertionSort (compare · · ≠ .gt)).foldlM
    (ownFingerprint nodeId (duplicateFingerprint "server"))
    (scan.serverFingerprints, scan.certificateOwners)
  let (clientFingerprints, owners) ← (clients.insertionSort (compare · · ≠ .gt)).foldlM
    (ownFingerprint nodeId (duplicateFingerprint "client")) (scan.clientFingerprints, owners)
  rejectIf (node.identityPublicKey ∈ scan.identityKeys)
    (invalidInput "duplicate Raft peer identity public key")
  rejectIf
    (node.voterSetGeneration ≠ config.voterSetGeneration ∨
      node.voterSetSha256 ≠ config.voterSetSha256)
    (invalidInput "Raft trusted catalog contains inconsistent voter-set intent metadata")
  rejectIf (node.transportCatalogSha256 ≠ config.transportCatalogSha256)
    (invalidInput "Raft trusted catalog contains inconsistent transport-catalog metadata")
  rejectIf
    (node.transportTrustGeneration ≠ config.transportTrustGeneration ∨
      node.transportTrustOverlapNotAfter ≠ config.transportTrustOverlapNotAfter)
    (invalidInput "Raft trusted catalog contains inconsistent transport-trust metadata")
  return {
    endpoints := node.endpoint :: scan.endpoints
    serverFingerprints
    clientFingerprints
    certificateOwners := owners
    identityKeys := node.identityPublicKey :: scan.identityKeys }

/-! ## `validate` -/

def minFrameBytes : Nat := 64 * 1024

def absoluteMaxFrameBytes : Nat := 64 * 1024 * 1024

/-- The checks of `validate` on the three application memberships. -/
def validateAuthorities (config : ClusterRaftRuntimeConfig) :
    Except IoError Unit := do
  validateAuthorityGenesis K config.authorityGenesis
  validateAuthorityGenesis K config.configuredAuthority
  validateAuthorityGenesis K config.transportAuthority
  rejectIf
    (config.authorityGenesis.clusterId ≠ config.configuredAuthority.clusterId ∨
      config.authorityGenesis.clusterId ≠ config.transportAuthority.clusterId)
    (invalidInput ("authority genesis, complete membership, and transport membership use " ++
      "different cluster ids"))
  rejectIf
    (config.transportAuthority.members.any fun member =>
      !(config.configuredAuthority.members.contains member))
    (invalidInput
      "transport application identity is absent from the complete authority membership")
  rejectIf
    (config.authorityGenesis.members.any fun seed =>
      !(config.configuredAuthority.members.any fun member =>
        member.nodeId == seed.nodeId && member.fingerprint == seed.fingerprint &&
          member.publicKey == seed.publicKey))
    (invalidInput "immutable authority identity is absent from the complete authority membership")

variable (config : ClusterRaftRuntimeConfig)

/-- The checks of `validate` on the limits. -/
def validateLimits : Except IoError Unit := do
  rejectIf (config.transport.handshakeTimeout = 0 ∨ config.transport.inboundRequestTimeout = 0)
    (invalidInput "Raft transport timeouts must be non-zero")
  rejectIf
    (config.transport.maxFrameBytes < minFrameBytes ∨
      absoluteMaxFrameBytes < config.transport.maxFrameBytes)
    (invalidInput ("Raft max frame bytes must be between " ++ toString minFrameBytes ++ " and " ++
      toString absoluteMaxFrameBytes))
  rejectIf
    (config.transport.maxInFlightConnections = 0 ∨
      16384 < config.transport.maxInFlightConnections)
    (invalidInput "Raft max in-flight connections must be between 1 and 16384")
  config.raft.checked.mapError invalidInput
  rejectIf (trim config.raft.clusterName = [] ∨ 128 < byteLength config.raft.clusterName)
    (invalidInput "Raft cluster name must contain 1 to 128 bytes")

/-- `ClusterRaftRuntimeConfig::validate`. -/
def ClusterRaftRuntimeConfig.validate (L : Libraries) (now : DateTime)
    (config : ClusterRaftRuntimeConfig) : Except IoError Unit := do
  rejectIf (config.nodeId = 0) (invalidInput "Raft node id 0 is reserved")
  rejectIf (config.members.size = 0 ∨ 31 < config.members.size)
    (invalidInput "Raft membership must contain 1 to 31 nodes")
  rejectIf (config.voterIds.toList = []) (invalidInput "Raft voter set cannot be empty")
  rejectIf (config.voterIds.toList.any fun voterId => !config.members.contains voterId)
    (invalidInput "Raft voter set contains a node absent from the trusted catalog")
  rejectIf
    (config.voterSetSha256 ≠ configuredVoterSetSha256 K config.voterSetGeneration config.voterIds)
    (invalidInput "Raft voter-set digest does not match its generation and voter ids")
  rejectIf (config.transportCatalogSha256 ≠ configuredTransportCatalogSha256 K L config.members)
    (invalidInput "Raft transport-catalog digest does not match its trusted members")
  validateAuthorities K config
  let localNode ← orReject config.members[config.nodeId]?
    (invalidInput "local Raft node is absent from membership")
  rejectIf (acceptsServerCertificate localNode config.serverCertificateSha256 now = false)
    (invalidInput "local server certificate fingerprint does not match membership")
  rejectIf (acceptsClientCertificate localNode config.clientCertificateSha256 now = false)
    (invalidInput "local client certificate fingerprint does not match membership")
  validateLimits config
  let expectedPeerCa :=
    (config.members.toList.head?.map fun p => p.2.transportPeerCaSha256).getD []
  let _ ← config.members.toList.foldlM (validateNode L config now expectedPeerCa)
    ⟨[], [], [], ∅, []⟩
  return ()

/-! ## What a validated configuration guarantees -/

/-- The generations and digests that a node of the catalog carries. -/
structure NodeEpoch where
  trustGeneration : Nat
  catalogSha256 : Text
  voterGeneration : Nat
  voterSha256 : Text
  deriving DecidableEq

def ClusterRaftNode.epoch : NodeEpoch :=
  ⟨node.transportTrustGeneration, node.transportCatalogSha256, node.voterSetGeneration,
    node.voterSetSha256⟩

def ClusterRaftRuntimeConfig.epoch : NodeEpoch :=
  ⟨config.transportTrustGeneration, config.transportCatalogSha256, config.voterSetGeneration,
    config.voterSetSha256⟩

/-- What the reconfiguration relies on. -/
structure ClusterRaftRuntimeConfig.Valid (K : Crypto) (L : Libraries)
    (config : ClusterRaftRuntimeConfig) : Prop where
  voters_ne : config.voterIds.toList ≠ []
  voters_mem : ∀ voterId ∈ config.voterIds, voterId ∈ config.members
  voterSha256 :
    config.voterSetSha256 = configuredVoterSetSha256 K config.voterSetGeneration config.voterIds
  catalogSha256 :
    config.transportCatalogSha256 = configuredTransportCatalogSha256 K L config.members
  epoch : ∀ (nodeId : Nat) (node : ClusterRaftNode), config.members[nodeId]? = some node →
    node.epoch = config.epoch

theorem validateNode_epoch {L : Libraries} {config : ClusterRaftRuntimeConfig} {now : DateTime}
    {expectedPeerCa : List Text} {scan scan' : CatalogScan} {e : Nat × ClusterRaftNode}
    (h : validateNode L config now expectedPeerCa scan e = .ok scan') :
    e.2.epoch = config.epoch := by
  simp only [validateNode, bind_eq_ok, rejectIf_eq_ok] at h
  obtain ⟨_, -, _, -, _, -, _, -, _, -, _, -, _, -, _, -, _, -, _, -, _, -, _, -, _, -, _, -, _, -,
    _, -, _, -, _, -, _, -, _, hv, _, hc, _, ht, -⟩ := h
  push Not at hv hc ht
  simp only [ClusterRaftNode.epoch, ClusterRaftRuntimeConfig.epoch, hv.1, hv.2, hc, ht.1]

/-- A configuration that passes `validate` at some instant. -/
theorem valid_facts {K : Crypto} {L : Libraries} {now : DateTime}
    {config : ClusterRaftRuntimeConfig} (h : config.validate K L now = .ok ()) :
    config.Valid K L := by
  simp only [ClusterRaftRuntimeConfig.validate, bind_eq_ok, rejectIf_eq_ok, pure_eq_ok] at h
  obtain ⟨_, -, _, -, _, hne, _, hmem, _, hv, _, hc, _, -, _, -, _, -, _, -, _, -,
    scan, hscan, -⟩ := h
  refine ⟨hne, ?_, not_not.1 hv, not_not.1 hc, ?_⟩
  · intro voterId hvo
    simp only [List.any_eq_true, not_exists, not_and, Bool.not_eq_true, Bool.not_eq_false',
      Std.ExtTreeSet.mem_toList] at hmem
    exact Std.ExtTreeMap.mem_iff_contains.2 (hmem voterId hvo)
  · intro nodeId node hnode
    exact forall_of_foldlM_ok hscan (fun _ _ _ => validateNode_epoch) (nodeId, node)
      (OrdMap.mem_toList_iff.2 hnode)

/-! ## The voter digest determines the voters -/

/-- The digest function behaves as SHA-256 is assumed to: no digest is empty and no two inputs
share one. -/
structure Crypto.CollisionFree (K : Crypto) : Prop where
  nonempty : ∀ bytes, K.sha256 bytes ≠ []
  injective : Function.Injective K.sha256

theorem hexEncode_injective : Function.Injective hexEncode := by
  intro a b h
  have ha := hexDecode_hexEncode a
  rw [h, hexDecode_hexEncode] at ha
  exact (Option.some.inj ha).symm

theorem sha256Hex_ne_nil {K : Crypto} (hK : K.CollisionFree) (bytes : List UInt8) :
    K.sha256Hex bytes ≠ [] := by
  have hne := hK.nonempty bytes
  unfold Crypto.sha256Hex
  cases hb : K.sha256 bytes with
  | nil => exact absurd hb hne
  | cons byte rest => simp [hexEncode]

/-- Lists of 64-bit numbers are read back from their bytes. -/
theorem flatMap_toBeBytes64_injOn {a b : List Nat} (ha : ∀ n ∈ a, n ≤ u64Max)
    (hb : ∀ n ∈ b, n ≤ u64Max) (h : a.flatMap toBeBytes64 = b.flatMap toBeBytes64) : a = b := by
  induction a generalizing b with
  | nil =>
    cases b with
    | nil => rfl
    | cons n b => exact absurd (congrArg List.length h) (by simp; omega)
  | cons m a ih =>
    cases b with
    | nil => exact absurd (congrArg List.length h) (by simp)
    | cons n b =>
      simp only [List.mem_cons, forall_eq_or_imp] at ha hb
      obtain ⟨hf, hrest⟩ := List.append_inj h (by simp)
      rw [toBeBytes64_injOn ha.1 hb.1 hf, ih ha.2 hb.2 hrest]

theorem configuredVoterSetSha256_injOn {K : Crypto} (hK : K.CollisionFree) {gen : Nat}
    (hg : gen ≠ 0) {voters voters' : OrdSet Nat} (hv : ∀ id ∈ voters, id ≤ u64Max)
    (hv' : ∀ id ∈ voters', id ≤ u64Max)
    (h : configuredVoterSetSha256 K gen voters = configuredVoterSetSha256 K gen voters') :
    voters = voters' := by
  rw [configuredVoterSetSha256, configuredVoterSetSha256, if_neg hg, if_neg hg] at h
  have hp := hK.injective (hexEncode_injective h)
  obtain ⟨-, hids⟩ := List.append_inj hp (by simp)
  refine Std.ExtTreeSet.toList_inj.1 (flatMap_toBeBytes64_injOn ?_ ?_ hids)
  · intro id hid
    exact hv id (Std.ExtTreeSet.mem_toList.1 hid)
  · intro id hid
    exact hv' id (Std.ExtTreeSet.mem_toList.1 hid)

end AgentOS
