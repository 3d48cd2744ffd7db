import AgentOS.Authority.RolloutReplay

/-!
# What a valid persistent state is

`ValidControl`, `ValidAuthority` and `ValidPersistent` say in terms of lookups and histories what
the validator computes with its loops; `validatePersistentState_eq_ok` is the equivalence. The
preservation proofs use these structures and never the validator itself.
-/

namespace AgentOS

open Lib ClusterAgentOwnershipAudit GenesisScan OrdMap StoredAuthorityReceipt

/-! ## Ownership -/

namespace ClusterAgentOwnershipAudit

/-- The head that an ownership audit entry leaves behind. -/
def head (audit : ClusterAgentOwnershipAudit) : OwnershipHead where
  generation := audit.generation
  ownerNodeId := audit.ownerNodeId
  authorityTerm := audit.authorityTerm
  fencingToken := audit.fencingToken
  state := (operationState audit.operation).getD .released

/-- The entry continues the newest earlier entry of its agent. -/
def continues (previous : Option ClusterAgentOwnershipAudit) (audit : ClusterAgentOwnershipAudit) :
    Prop :=
  ownershipHistoryIsValid audit (previous.map head) = true

end ClusterAgentOwnershipAudit

variable {audit : ClusterAgentOwnershipAudit}

/-- An entry that continues a history names a known operation. -/
theorem operationState_isSome {head : Option OwnershipHead}
    (h : ownershipHistoryIsValid audit head = true) :
    ∃ state, operationState audit.operation = some state := by
  unfold operationState
  cases head with
  | none =>
    simp only [ownershipHistoryIsValid, Bool.and_eq_true, beq_iff_eq] at h
    simp [h.1.1.1]
  | some head =>
    simp only [ownershipHistoryIsValid, Bool.and_eq_true] at h
    have ho := h.2
    split at ho
    · next hop => rcases hop with hop | hop <;> simp [hop]
    · split at ho
      · next hop => simp [hop]
      · simp at ho

/-- The tests that look at one ownership audit entry alone. -/
structure OwnershipEntryValid (logicalTime : DateTime) (audit : ClusterAgentOwnershipAudit) :
    Prop where
  generation : audit.generation ≠ 0
  term : audit.authorityTerm ≠ 0
  token : audit.fencingToken ≠ 0
  changed : audit.changedAt ≤ logicalTime
  agent : isUuid audit.agentId = true
  owner : isUuid audit.ownerNodeId = true
  previousOwner : ∀ owner, audit.previousOwnerNodeId = some owner → isUuid owner = true
  actor : ¬ isInvalidText audit.actor
  reason : ¬ isInvalidText audit.reason

variable {logicalTime : DateTime}

theorem not_ownershipEntryIsInvalid_iff :
    ¬ ownershipEntryIsInvalid logicalTime audit ↔ OwnershipEntryValid logicalTime audit := by
  have hp : (audit.previousOwnerNodeId.any fun owner => !isUuid owner) = false ↔
      ∀ owner, audit.previousOwnerNodeId = some owner → isUuid owner = true := by
    cases audit.previousOwnerNodeId <;> simp
  simp only [ownershipEntryIsInvalid, not_or, not_lt, Bool.not_eq_false, Bool.not_eq_true,
    hp, isOk_iff, validateOwnershipIdentity_eq_ok, exists_const]
  exact ⟨fun ⟨h1, h2, h3, h4, ⟨h5, h6⟩, h7, h8, h9⟩ => ⟨h1, h2, h3, h4, h5, h6, h7, h8, h9⟩,
    fun ⟨h1, h2, h3, h4, h5, h6, h7, h8, h9⟩ => ⟨h1, h2, h3, h4, ⟨h5, h6⟩, h7, h8, h9⟩⟩

/-- An ownership history that the validator accepts. -/
structure OwnershipHistory (logicalTime : DateTime) (log : List ClusterAgentOwnershipAudit) : Prop
    where
  entries : ∀ audit ∈ log, OwnershipEntryValid logicalTime audit
  chained : Chained ClusterAgentOwnershipAudit.agentId ClusterAgentOwnershipAudit.continues log

variable {log : List ClusterAgentOwnershipAudit} {latest : OrdMap Text OwnershipHead}

theorem ownershipLoop_eq_ok :
    log.foldlM (ownershipRound logicalTime) ∅ = .ok latest ↔ OwnershipHistory logicalTime log ∧
        indexBy agentId head log = latest := by
  have hr : ∀ (scan : OrdMap Text OwnershipHead) (audit : ClusterAgentOwnershipAudit) scan',
      ownershipRound logicalTime scan audit = .ok scan' ↔
      (OwnershipEntryValid logicalTime audit ∧
        ownershipHistoryIsValid audit scan[audit.agentId]? = true) ∧
        scan.insert audit.agentId audit.head = scan' := by
    intro scan audit scan'
    simp only [ownershipRound, bind_eq_ok, rejectIf_eq_ok, orReject_eq_ok, pure_eq_ok,
      exists_and_left, exists_const, Bool.not_eq_false, not_ownershipEntryIsInvalid_iff]
    constructor
    · rintro ⟨he, state, hs, hc, rfl⟩
      refine ⟨⟨he, hc⟩, ?_⟩
      rw [head, hs, Option.getD_some]
    · rintro ⟨⟨he, hc⟩, rfl⟩
      obtain ⟨state, hs⟩ := operationState_isSome hc
      refine ⟨he, state, hs, hc, ?_⟩
      rw [head, hs, Option.getD_some]
  rw [foldlM_eq_ok_iff hr]
  refine and_congr ?_ Iff.rfl
  rw [EachAfter.and_iff, eachAfter_iff_forall_mem]
  -- the map of a prefix is its index
  have hi : ∀ (pre : List ClusterAgentOwnershipAudit) (audit : ClusterAgentOwnershipAudit),
      (pre.foldl (fun m a => m.insert a.agentId a.head) ∅ : OrdMap Text OwnershipHead)[
        audit.agentId]? =
      (lastFor agentId audit.agentId pre).map
        head := fun pre audit => lookup_indexBy _ _ _ _
  simp only [hi]
  exact ⟨fun h => ⟨h.1, h.2⟩, fun h => ⟨h.1, h.2⟩⟩

/-- The lease of an ownership record agrees with its state. -/
def ClusterAgentOwnership.LeaseAgrees (ownership : ClusterAgentOwnership) : Prop :=
  (ownership.state = .active → ownership.updatedAt < ownership.leaseExpiresAt) ∧
    (ownership.state = .released → ownership.leaseExpiresAt = ownership.updatedAt)

/-- An ownership record that the validator accepts on its own. -/
structure OwnershipValid (logicalTime : DateTime) (agentId : Text)
    (ownership : ClusterAgentOwnership) : Prop where
  key : agentId = ownership.agentId
  generation : ownership.generation ≠ 0
  term : ownership.authorityTerm ≠ 0
  token : ownership.fencingToken ≠ 0
  updated : ownership.updatedAt ≤ logicalTime
  lease : ownership.LeaseAgrees
  agent : isUuid ownership.agentId = true
  owner : isUuid ownership.ownerNodeId = true

/-- Ownership records that the validator accepts next to the ownership history. -/
structure OwnershipsValid (logicalTime : DateTime)
    (ownerships : OrdMap Text ClusterAgentOwnership) (log : List ClusterAgentOwnershipAudit) :
    Prop where
  valid : ∀ (agentId : Text) (ownership : ClusterAgentOwnership),
    ownerships[agentId]? = some ownership → OwnershipValid logicalTime agentId ownership
  newest : ∀ (agentId : Text) (ownership : ClusterAgentOwnership),
    ownerships[agentId]? = some ownership →
      (lastFor ClusterAgentOwnershipAudit.agentId agentId log).map
        ClusterAgentOwnershipAudit.head = some ownership.head
  known : ∀ audit ∈ log, audit.agentId ∈ ownerships

theorem ownershipCheck_eq_ok {e : Text × ClusterAgentOwnership} :
    ownershipCheck logicalTime latest e = .ok () ↔
      OwnershipValid logicalTime e.1 e.2 ∧ latest[e.1]? = some e.2.head := by
  simp only [ownershipCheck, bind_eq_ok, rejectIf_eq_ok, mapError_eq_ok, exists_and_left,
    exists_const, not_or, not_and, ne_eq, not_not, not_lt, not_le, validateOwnershipIdentity_eq_ok]
  constructor
  · rintro ⟨⟨hkey, hg, hterm, ht, hu⟩, hl, ⟨ha, ho⟩, hn⟩
    exact ⟨⟨hkey, hg, hterm, ht, hu, hl, ha, ho⟩, hn⟩
  · rintro ⟨⟨hkey, hg, hterm, ht, hu, hl, ha, ho⟩, hn⟩
    exact ⟨⟨hkey, hg, hterm, ht, hu⟩, hl, ⟨ha, ho⟩, hn⟩

theorem ownershipChecks_eq_ok {owns : OrdMap Text ClusterAgentOwnership}
    (hlatest : indexBy agentId head log = latest) :
    (owns.toList.forM (ownershipCheck logicalTime latest) = .ok () ∧ latest.size = owns.size) ↔
      OwnershipsValid logicalTime owns log := by
  subst hlatest
  rw [forM_eq_ok_iff (fun e => ownershipCheck_eq_ok)]
  simp only [lookup_indexBy]
  constructor
  · rintro ⟨hc, hsize⟩
    have hr : ∀ {agent own}, owns[agent]? = some own →
        OwnershipValid logicalTime agent own ∧
          (lastFor agentId agent log).map
            head = some own.head :=
      fun h => hc _ (mem_toList_iff.2 h)
    refine ⟨fun _ _ h => (hr h).1, fun _ _ h => (hr h).2, ?_⟩
    intro audit hau
    refine mem_of_size_eq ?_ hsize (mem_indexBy.2 ⟨audit, hau, rfl⟩)
    intro agent ha
    obtain ⟨own, ho⟩ := exists_lookup ha
    exact mem_of_lookup ((lookup_indexBy _ _ _ _).trans (hr ho).2)
  · rintro ⟨hv, hn, hk⟩
    refine ⟨?_, size_eq_of_keys_iff fun agent => ⟨?_, ?_⟩⟩
    · intro e he
      have hl := mem_toList_iff.1 he
      exact ⟨hv e.1 e.2 hl, hn e.1 e.2 hl⟩
    · intro ha
      obtain ⟨audit, hau, rfl⟩ := mem_indexBy.1 ha
      exact hk audit hau
    · intro ha
      obtain ⟨own, ho⟩ := exists_lookup ha
      exact mem_of_lookup ((lookup_indexBy _ _ _ _).trans (hn _ _ ho))

/-! ## Join challenges -/

/-- A join challenge that the validator accepts. -/
structure ChallengeValid (K : Crypto) (startedAt logicalTime : DateTime) (hash : Text)
    (challenge : ReplicatedJoinChallenge) : Prop where
  hashed : ∃ bytes, hexDecode32 challenge.challengeHex = some bytes ∧ K.sha256Hex bytes = hash
  expires : startedAt < challenge.expiresAt
  consumed : ∀ consumed, challenge.consumedAt = some consumed →
    consumed ≤ logicalTime ∧ consumed < challenge.expiresAt

/-- Join challenges that the validator accepts. -/
def ChallengesValid (K : Crypto) (startedAt logicalTime : DateTime)
    (challenges : OrdMap Text ReplicatedJoinChallenge) : Prop :=
  ∀ (hash : Text) (challenge : ReplicatedJoinChallenge), challenges[hash]? = some challenge →
    ChallengeValid K startedAt logicalTime hash challenge

variable {K : Crypto}

theorem challengeCheck_eq_ok {start : DateTime} {e : Text × ReplicatedJoinChallenge} :
    challengeCheck K start logicalTime e = .ok () ↔ ChallengeValid K start logicalTime e.1 e.2 := by
  have hc : (e.2.consumedAt.any fun used =>
      decide (logicalTime < used) || decide (e.2.expiresAt ≤ used)) = false ↔
        ∀ used, e.2.consumedAt = some used →
          used ≤ logicalTime ∧ used < e.2.expiresAt := by
    cases e.2.consumedAt <;> simp
  simp only [challengeCheck, bind_eq_ok, orReject_eq_ok, rejectIf_eq_ok, not_or, ne_eq, not_not,
    not_le, Bool.not_eq_true, hc]
  constructor
  · rintro ⟨bytes, hb, hhash, he, hused⟩
    exact ⟨⟨bytes, hb, hhash⟩, he, hused⟩
  · rintro ⟨⟨bytes, hb, hhash⟩, he, hused⟩
    exact ⟨bytes, hb, hhash, he, hused⟩

theorem challengeChecks_eq_ok {start : DateTime} {chals : OrdMap Text ReplicatedJoinChallenge} :
    chals.toList.forM (challengeCheck K start logicalTime) = .ok () ↔
      ChallengesValid K start logicalTime chals := by
  rw [forM_eq_ok_iff (fun e => challengeCheck_eq_ok)]
  constructor
  · intro h hash chal hl
    exact h (hash, chal) (mem_toList_iff.2 hl)
  · intro h e he
    exact h e.1 e.2 (mem_toList_iff.1 he)

/-! ## Genesis -/

/-- A genesis that `validate_and_build_genesis` accepts. -/
structure GenesisValid (K : Crypto) (genesis : AuthorityGenesis) : Prop where
  canonical : ∃ clusterId, Uuid.parseStr genesis.clusterId = some clusterId ∧
    clusterId.toString = genesis.clusterId
  inhabited : genesis.members ≠ []
  bounded : genesis.members.length ≤ 31
  registrations : ∀ seed ∈ genesis.members, validateMemberRegistration K seed.registration = .ok ()
  distinct : genesis.members.Pairwise fun seed seed' =>
    ¬ SharesIdentity seed.registration seed'.registration ∧ seed.nodeId ≠ seed'.nodeId

/-- The members that a genesis seeds. -/
def genesisMembers (genesis : AuthorityGenesis) (proposedAt : DateTime) :
    OrdMap Text ClusterMember :=
  indexBy AuthorityGenesisMember.nodeId (AuthorityGenesisMember.member · proposedAt)
    genesis.members

/-- The control plane that a genesis builds. -/
def genesisControl (genesis : AuthorityGenesis) (proposedAt : DateTime) :
    ReplicatedControlPlaneState where
  genesis
  clusterId := genesis.clusterId
  membershipGeneration := (genesisMembers genesis proposedAt).size
  members := genesisMembers genesis proposedAt
  membershipAudit := (genesisMembers genesis proposedAt).toList.mapIdx fun index e =>
    genesisAudit proposedAt index e.2
  tlsTrustGeneration := 0
  certificateRollouts := ∅
  certificateRolloutAudit := []
  joinChallenges := ∅
  ownerships := ∅
  ownershipAudit := []
  logicalTime := proposedAt

/-- The accumulators of the genesis loop after some seeds. -/
def GenesisScan.replay (proposedAt : DateTime) (seeds : List AuthorityGenesisMember) :
    GenesisScan :=
  let earlier := seeds.map AuthorityGenesisMember.registration
  ⟨indexBy AuthorityGenesisMember.nodeId (AuthorityGenesisMember.member · proposedAt) seeds,
    earlier.reverse.map ClusterMemberRegistration.fingerprint,
    earlier.reverse.map ClusterMemberRegistration.endpoint,
    earlier.reverse.flatMap fun r => r.tlsServerCertificateFingerprint.toList⟩

/-- The accumulators after one more seed. -/
def GenesisScan.step (proposedAt : DateTime) (scan : GenesisScan)
    (seed : AuthorityGenesisMember) : GenesisScan where
  members := scan.members.insert seed.nodeId (seed.member proposedAt)
  fingerprints := seed.fingerprint :: scan.fingerprints
  endpoints := seed.endpoint :: scan.endpoints
  tlsFingerprints := seed.tlsServerCertificateFingerprint.toList ++ scan.tlsFingerprints

theorem GenesisScan.foldl_step (proposedAt : DateTime) (seeds : List AuthorityGenesisMember) :
    seeds.foldl (step proposedAt) ⟨∅, [], [], []⟩ = .replay proposedAt seeds := by
  induction seeds using List.reverseRecOn with
  | nil => rfl
  | append_singleton seeds seed ih =>
    rw [List.foldl_append, List.foldl_cons, List.foldl_nil, ih]
    simp [step, replay, indexBy_snoc, AuthorityGenesisMember.registration]

theorem genesisLoop_eq_ok {proposedAt : DateTime} {seeds : List AuthorityGenesisMember}
    {scan : GenesisScan} :
    seeds.foldlM (genesisRound K proposedAt) ⟨∅, [], [], []⟩ = .ok scan ↔
      ((∀ seed ∈ seeds, validateMemberRegistration K seed.registration = .ok ()) ∧
        seeds.Pairwise fun seed seed' =>
          ¬ SharesIdentity seed.registration seed'.registration ∧ seed.nodeId ≠ seed'.nodeId) ∧
        replay proposedAt seeds = scan := by
  have hr : ∀ scan seed scan', genesisRound K proposedAt scan seed = .ok scan' ↔
      (validateMemberRegistration K seed.registration = .ok () ∧
        ¬ (seed.fingerprint ∈ scan.fingerprints ∨ seed.endpoint ∈ scan.endpoints ∨
          (seed.tlsServerCertificateFingerprint.any fun fp =>
            scan.tlsFingerprints.contains fp) = true) ∧ seed.nodeId ∉ scan.members) ∧
        scan.step proposedAt seed = scan' := by
    intro scan seed scan'
    simp only [genesisRound, bind_eq_ok, rejectIf_eq_ok, checked_eq_ok, pure_eq_ok,
      exists_and_left, exists_const]
    constructor
    · rintro ⟨_, hreg, hdup, hnode, rfl⟩
      exact ⟨⟨hreg, hdup, hnode⟩, rfl⟩
    · rintro ⟨⟨hreg, hdup, hnode⟩, rfl⟩
      exact ⟨(), hreg, hdup, hnode, rfl⟩
  rw [foldlM_eq_ok_iff hr, foldl_step]
  refine and_congr_left fun _ => ?_
  rw [EachAfter.and_iff, eachAfter_iff_forall_mem, ← eachAfter_iff_pairwise]
  refine and_congr_right fun _ => ?_
  -- the tests of a round compare with the seeds before it
  have he : ∀ (pre : List AuthorityGenesisMember) (seed : AuthorityGenesisMember),
      ((¬ (seed.fingerprint ∈ (replay proposedAt pre).fingerprints ∨
          seed.endpoint ∈ (replay proposedAt pre).endpoints ∨
          (seed.tlsServerCertificateFingerprint.any fun fp =>
            (replay proposedAt pre).tlsFingerprints.contains fp) = true)) ∧
        seed.nodeId ∉ (replay proposedAt pre).members) ↔
      ∀ prior ∈ pre, ¬ SharesIdentity prior.registration seed.registration ∧
        prior.nodeId ≠ seed.nodeId := by
    intro pre seed
    have hdup := duplicate_iff (pre.map AuthorityGenesisMember.registration) seed.registration
    have hmem : seed.nodeId ∈ (replay proposedAt pre).members ↔
        ∃ prior ∈ pre, prior.nodeId = seed.nodeId := mem_indexBy
    rw [hmem]
    refine (and_congr_left' (not_congr hdup)).trans ?_
    simp only [List.mem_map, exists_exists_and_eq_and, not_exists, not_and, ← forall_and]
  simp only [foldl_step, he]

variable {control : ReplicatedControlPlaneState}

/-- `validate_and_build_genesis` succeeds on the valid geneses, at every instant. -/
theorem validateAndBuildGenesis_eq_ok {genesis : AuthorityGenesis} {proposedAt : DateTime} :
    validateAndBuildGenesis K genesis proposedAt = .ok control ↔
      GenesisValid K genesis ∧ control = genesisControl genesis proposedAt := by
  simp only [validateAndBuildGenesis, bind_eq_ok, orReject_eq_ok, rejectIf_eq_ok, pure_eq_ok,
    exists_and_left, exists_const, not_or, not_lt, ne_eq, not_not, genesisLoop_eq_ok]
  constructor
  · rintro ⟨cid, hp, hc, ⟨hi, hb⟩, _,
      ⟨⟨hr, hd⟩, rfl⟩, rfl⟩
    exact ⟨⟨⟨cid, hp, hc⟩, hi, hb, hr, hd⟩,
      rfl⟩
  · rintro ⟨⟨⟨cid, hp, hc⟩, hi, hb, hr, hd⟩,
      rfl⟩
    exact ⟨cid, hp, hc, ⟨hi, hb⟩, _, ⟨⟨hr, hd⟩, rfl⟩, rfl⟩

/-! ## Control plane -/

/-- The TLS leaves that the two histories of a control plane bind. -/
def ReplicatedControlPlaneState.leafUses (control : ReplicatedControlPlaneState) : List LeafUse :=
  control.membershipAudit.map ClusterMembershipAudit.leafUse ++
    control.certificateRolloutAudit.map ClusterCertificateRolloutAudit.leafUse

/-- A control plane that the validator accepts. -/
structure ValidControl (K : Crypto) (control : ReplicatedControlPlaneState) : Prop where
  genesis : GenesisValid K control.genesis
  cluster : control.genesis.clusterId = control.clusterId
  generation : control.membershipGeneration = control.membershipAudit.length
  capacity : ¬ exceedsCapacity control
  challenges : ∃ first, control.membershipAudit.head? = some first ∧
    ChallengesValid K first.changedAt control.logicalTime control.joinChallenges
  membership : MembershipHistory control.logicalTime control.membershipAudit
  members : MembersValid K control.logicalTime control.members control.membershipAudit
  trust : control.tlsTrustGeneration = control.certificateRolloutAudit.length
  rolloutHistory : RolloutHistory control.logicalTime control.membershipAudit
    control.certificateRolloutAudit
  leaves : LeavesOwned control.leafUses
  candidates : CandidatesAuthorized control.membershipAudit control.certificateRolloutAudit
  rollouts : RolloutsValid control.logicalTime control.members control.certificateRollouts
    control.certificateRolloutAudit
  ownershipHistory : OwnershipHistory control.logicalTime control.ownershipAudit
  ownerships : OwnershipsValid control.logicalTime control.ownerships control.ownershipAudit

theorem leavesOwned_leafUses_iff :
    LeavesOwned control.leafUses ↔
      LeavesOwned (control.membershipAudit.map ClusterMembershipAudit.leafUse) ∧
        EachAfter (fun pre audit => BindsOwnLeaves
          (control.membershipAudit.map ClusterMembershipAudit.leafUse ++
            pre.map ClusterCertificateRolloutAudit.leafUse) audit.leafUse)
          control.certificateRolloutAudit := by
  rw [← leavesOwned_iff_eachAfter, ReplicatedControlPlaneState.leafUses, eachAfter_append,
    leavesOwned_iff_eachAfter, eachAfter_map]

theorem validateControlPlaneState_eq_ok :
    validateControlPlaneState K control = .ok () ↔ ValidControl K control := by
  simp only [validateControlPlaneState, bind_eq_ok, orReject_eq_ok, rejectIf_eq_ok,
    mapError_eq_ok, exists_and_left, exists_and_right, exists_const, ok_unit_iff, ne_eq, not_not,
    challengeChecks_eq_ok, membershipLoop_eq_ok, validateAndBuildGenesis_eq_ok,
    Option.map_eq_some_iff,
    ownershipLoop_eq_ok, Bool.not_eq_true]
  constructor
  · rintro ⟨⟨hge, -⟩, hcl, cid, hp, hca, hg, hcp,
      _, ⟨fst, hf, rfl⟩, hc, _, ⟨⟨hm, ho⟩, rfl⟩, hme, hsize,
      ht, _, hr, hcn, hlive, hs, _, ⟨how, rfl⟩, hch, hk⟩
    obtain ⟨⟨hrH, hb⟩, rfl⟩ := (rolloutLoop_eq_ok hm).1 hr
    exact ⟨hge, hcl, hg, hcp, ⟨fst, hf, hc⟩, hm, memberLoop_eq_ok.1 ⟨hme, hsize⟩, ht, hrH,
      leavesOwned_leafUses_iff.2 ⟨ho, hb⟩, candidates_any_eq_false_iff.1 hcn,
      liveRollouts_eq_ok.1 ⟨hlive, hs⟩, how, (ownershipChecks_eq_ok rfl).1 ⟨hch, hk⟩⟩
  · intro h
    obtain ⟨fst, hf, hc⟩ := h.challenges
    obtain ⟨cid, hp, hca⟩ := h.genesis.canonical
    rw [h.cluster] at hp hca
    obtain ⟨ho, hb⟩ := leavesOwned_leafUses_iff.1 h.leaves
    obtain ⟨hme, hsize⟩ := memberLoop_eq_ok.2 h.members
    obtain ⟨hlive, hs⟩ := liveRollouts_eq_ok.2 h.rollouts
    obtain ⟨hch, hk⟩ := (ownershipChecks_eq_ok rfl).2 h.ownerships
    exact ⟨⟨h.genesis, _, rfl⟩, h.cluster, cid, hp, hca, h.generation,
      h.capacity, _, ⟨fst, hf, rfl⟩, hc, _, ⟨⟨h.membership, ho⟩, rfl⟩,
      hme, hsize, h.trust, _, (rolloutLoop_eq_ok h.membership).2 ⟨⟨h.rolloutHistory, hb⟩,
        rfl⟩, candidates_any_eq_false_iff.2 h.candidates, hlive, hs, _,
      ⟨h.ownershipHistory, rfl⟩, hch, hk⟩

/-! ## Receipts -/

/-- The sequence number and log position that a retained receipt records. -/
def StoredAuthorityReceipt.position (receipt : StoredAuthorityReceipt) : Option (Nat × LogId) :=
  receipt.response.successfulResponseMetadata.map fun metadata => (metadata.2.1, metadata.2.2.1)

/-- A receipt that the validator accepts on its own. -/
structure ReceiptValid (stateSequence : Nat) (operationId : Text)
    (receipt : StoredAuthorityReceipt) : Prop where
  key : operationId = receipt.command.operationId
  canonical : canonicalOperationId operationId ≠ none
  response : ∃ sequence logId, receipt.response.successfulResponseMetadata =
      some (operationId, sequence, logId, false) ∧ sequence ≠ 0 ∧ sequence ≤ stateSequence ∧
    expectedSequenceMatches sequence receipt.command = true
  matching : responseMatchesCommand receipt.command receipt.response = true

/-- Two receipts record different sequence numbers and different log positions. -/
def StoredAuthorityReceipt.apart (a b : StoredAuthorityReceipt) : Prop :=
  ∀ p q, a.position = some p → b.position = some q → p.1 ≠ q.1 ∧ p.2 ≠ q.2

theorem StoredAuthorityReceipt.apart_symm (a b : StoredAuthorityReceipt) (h : a.apart b) :
    b.apart a := by
  intro p q hp hq
  obtain ⟨hs, hlog⟩ := h q p hq hp
  exact ⟨hs.symm, hlog.symm⟩

/-- Receipts that the validator accepts. -/
structure ReceiptsValid (stateSequence : Nat) (receipts : OrdMap Text StoredAuthorityReceipt) :
    Prop where
  valid : ∀ (operationId : Text) (receipt : StoredAuthorityReceipt),
    receipts[operationId]? = some receipt → ReceiptValid stateSequence operationId receipt
  distinct : ∀ (id id' : Text) (receipt receipt' : StoredAuthorityReceipt),
    receipts[id]? = some receipt → receipts[id']? = some receipt' → id ≠ id' →
      receipt.apart receipt'

/-- The accumulators of the receipt loop after some receipts. -/
def ReceiptScan.replay (entries : List (Text × StoredAuthorityReceipt)) : ReceiptScan where
  sequences := (entries.reverse.filterMap fun e => e.2.position).map Prod.fst
  logIds := (entries.reverse.filterMap fun e => e.2.position).map Prod.snd

/-- The accumulators after one more receipt. -/
def ReceiptScan.step (scan : ReceiptScan) (e : Text × StoredAuthorityReceipt) : ReceiptScan
    where
  sequences := (e.2.position.toList.map Prod.fst) ++ scan.sequences
  logIds := (e.2.position.toList.map Prod.snd) ++ scan.logIds

theorem ReceiptScan.foldl_step (es : List (Text × StoredAuthorityReceipt)) :
    es.foldl step ⟨[], []⟩ = .replay es := by
  induction es using List.reverseRecOn with
  | nil => rfl
  | append_singleton es e ih =>
    rw [List.foldl_append, List.foldl_cons, List.foldl_nil, ih]
    cases h : e.2.position with
    | none => simp [step, replay, h]
    | some p => simp [step, replay, h]

variable {e : Text × StoredAuthorityReceipt}

theorem receiptRound_eq_ok {stSeq : Nat} {scan scan' : ReceiptScan} :
    receiptRound stSeq scan e = .ok scan' ↔ (ReceiptValid stSeq e.1 e.2 ∧
        ∀ p, e.2.position = some p → p.1 ∉ scan.sequences ∧ p.2 ∉ scan.logIds) ∧
        scan.step e = scan' := by
  simp only [receiptRound, bind_eq_ok, rejectIf_eq_ok, orReject_eq_ok, pure_eq_ok,
    exists_and_left, exists_const, not_or, ne_eq, not_not, not_lt, Bool.not_eq_true,
    Bool.not_eq_false]
  constructor
  · rintro ⟨⟨hkey, hc⟩, ⟨id, seq, logId, replayed⟩, hm,
      ⟨rfl, hr, hps, hb, he, hma, hs, hlog⟩, rfl⟩
    obtain rfl : replayed = false := hr
    have hpo : e.2.position = some (seq, logId) := by rw [position, hm, Option.map_some]
    refine ⟨⟨⟨hkey, hc, ⟨seq, logId, hm, hps, hb, he⟩, hma⟩, ?_⟩, ?_⟩
    · intro p hp
      obtain rfl := Option.some.inj (hpo.symm.trans hp)
      exact ⟨hs, hlog⟩
    · rw [ReceiptScan.step, hpo]
      rfl
  · rintro ⟨⟨⟨hkey, hc, ⟨seq, logId, hm, hps, hb, he⟩,
      hma⟩, hf⟩, rfl⟩
    have hpo : e.2.position = some (seq, logId) := by rw [position, hm, Option.map_some]
    obtain ⟨hs, hlog⟩ := hf _ hpo
    refine ⟨⟨hkey, hc⟩, _, hm, ⟨rfl, rfl, hps, hb, he, hma, hs, hlog⟩, ?_⟩
    rw [ReceiptScan.step, hpo]
    rfl

theorem receiptLoop_eq_ok {stSeq : Nat} {receipts : OrdMap Text StoredAuthorityReceipt} :
    (∃ scan, receipts.toList.foldlM (receiptRound stSeq) ⟨[], []⟩ = .ok scan) ↔
      ReceiptsValid stSeq receipts := by
  simp only [foldlM_eq_ok_iff (fun _ _ _ => receiptRound_eq_ok), exists_and_left, exists_eq',
    and_true, ReceiptScan.foldl_step]
  -- a position is new when no earlier receipt records either half of it
  have hf : ∀ pre (e : Text × StoredAuthorityReceipt),
      (∀ p, e.2.position = some p →
        p.1 ∉ (ReceiptScan.replay pre).sequences ∧ p.2 ∉ (ReceiptScan.replay pre).logIds) ↔
        ∀ prior ∈ pre, prior.2.apart e.2 := by
    intro pre e
    simp only [ReceiptScan.replay, List.mem_map, List.mem_filterMap, List.mem_reverse, not_exists,
      not_and, StoredAuthorityReceipt.apart]
    constructor
    · intro h prior he p q hp hq
      exact ⟨(h q hq).1 p ⟨prior, he, hp⟩, (h q hq).2 p ⟨prior, he, hp⟩⟩
    · intro h q hq
      exact ⟨fun p ⟨prior, he, hp⟩ => (h prior he p q hp hq).1,
        fun p ⟨prior, he, hp⟩ => (h prior he p q hp hq).2⟩
  simp only [hf, EachAfter.and_iff, eachAfter_iff_pairwise, eachAfter_iff_forall_mem]
  rw [OrdMap.toList_pairwise_iff StoredAuthorityReceipt.apart_symm receipts]
  constructor
  · rintro ⟨hv, hd⟩
    exact ⟨fun id receipt h => hv (id, receipt) (OrdMap.mem_toList_iff.2 h), hd⟩
  · rintro ⟨hv, hd⟩
    exact ⟨fun e h => hv e.1 e.2 (OrdMap.mem_toList_iff.1 h), hd⟩

/-! ## Authority and frontier -/

/-- An authority state that the validator accepts. -/
structure ValidAuthority (K : Crypto) (state : AuthorityState) : Prop where
  capacity : state.receipts.size ≤ maxAuthorityReceipts
  sequence : state.sequence = state.receipts.size
  receipts : ReceiptsValid state.sequence state.receipts
  control : ∀ control, state.controlPlane = some control → ValidControl K control

theorem validateAuthorityState_eq_ok {state : AuthorityState} :
    validateAuthorityState K state = .ok () ↔ ValidAuthority K state := by
  have hc : controlPlaneCheck K state.controlPlane = .ok () ↔
      ∀ control, state.controlPlane = some control → ValidControl K control := by
    cases state.controlPlane with
    | none => simp [controlPlaneCheck, pure_eq_ok]
    | some control => simp [controlPlaneCheck, validateControlPlaneState_eq_ok]
  simp only [validateAuthorityState, bind_eq_ok, rejectIf_eq_ok, exists_and_left,
    exists_and_right, exists_const, not_lt, ne_eq, not_not, receiptLoop_eq_ok, hc]
  exact ⟨fun ⟨h1, h2, h3, h4⟩ => ⟨h1, h2, h3, h4⟩, fun ⟨h1, h2, h3, h4⟩ => ⟨h1, h2, h3, h4⟩⟩

/-- A log position is at or before the frontier. -/
def AtOrBefore (candidate : LogId) (frontier : Option LogId) : Prop :=
  ∃ last, frontier = some last ∧ candidate.index ≤ last.index ∧
    (candidate.index = last.index → candidate = last)

theorem validateLogIdAtOrBefore_eq_ok {cand : LogId} {frontier : Option LogId}
    {label : String} {u : Unit} :
    validateLogIdAtOrBefore cand frontier label = .ok u ↔ AtOrBefore cand frontier := by
  simp only [validateLogIdAtOrBefore, bind_eq_ok, orReject_eq_ok, rejectIf_eq_ok, not_or, not_lt,
    not_and, ne_eq, not_not, AtOrBefore]

/-- A persistent state that the validator accepts. -/
structure ValidPersistent (K : Crypto) (state : PersistentState) : Prop where
  authority : ValidAuthority K state.authority
  membership : ∀ logId, state.membership.logId = some logId → AtOrBefore logId state.lastApplied
  frontier : ∀ (operationId : Text) (receipt : StoredAuthorityReceipt) p,
    state.authority.receipts[operationId]? = some receipt → receipt.position = some p →
      AtOrBefore p.2 state.lastApplied

theorem receiptFrontierCheck_eq_ok {applied : Option LogId} :
    receiptFrontierCheck applied e = .ok () ↔
      ∀ p, e.2.position = some p → AtOrBefore p.2 applied := by
  unfold receiptFrontierCheck position
  cases e.2.response.successfulResponseMetadata with
  | none => simp [pure_eq_ok]
  | some md => simp [validateLogIdAtOrBefore_eq_ok]

/-- The validator accepts exactly the valid persistent states. -/
theorem validatePersistentState_eq_ok {state : PersistentState} :
    validatePersistentState K state = .ok () ↔ ValidPersistent K state := by
  have hm : membershipFrontierCheck state.lastApplied state.membership.logId = .ok () ↔
      ∀ logId, state.membership.logId = some logId → AtOrBefore logId state.lastApplied := by
    cases state.membership.logId with
    | none => simp [membershipFrontierCheck, pure_eq_ok]
    | some logId => simp [membershipFrontierCheck, validateLogIdAtOrBefore_eq_ok]
  simp only [validatePersistentState, bind_eq_ok, exists_and_left, exists_and_right, exists_const,
    ok_unit_iff, hm, validateAuthorityState_eq_ok,
    forM_eq_ok_iff (fun e => receiptFrontierCheck_eq_ok)]
  constructor
  · rintro ⟨ha, hs, hf⟩
    refine ⟨ha, hs, ?_⟩
    intro id receipt p hl
    exact hf (id, receipt) (mem_toList_iff.2 hl) p
  · rintro ⟨ha, hs, hf⟩
    refine ⟨ha, hs, ?_⟩
    intro e he p
    exact hf e.1 e.2 p (mem_toList_iff.1 he)

end AgentOS
