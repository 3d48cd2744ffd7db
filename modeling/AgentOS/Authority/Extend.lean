import AgentOS.Authority.Valid

/-!
# Extending a valid control plane

How each part of a valid control plane survives the updates that the handlers are made of: a later
clock, one more audit entry, one replaced record. The preservation proofs of the handlers are
assembled from these lemmas.
-/

namespace AgentOS

open Lib ClusterCertificateRolloutAudit ClusterMembershipAudit OrdMap

/-! ## A later clock -/

variable {log : List ClusterCertificateRolloutAudit}
  {rollouts : OrdMap Text ClusterCertificateRollout}
  {ownerships : OrdMap Text ClusterAgentOwnership}
  {challenges : OrdMap Text ReplicatedJoinChallenge}

section Clock

variable {K : Crypto} {time time' : DateTime} (hle : time ≤ time')
include hle

theorem MembershipHistory.later {log : List ClusterMembershipAudit}
    (h : MembershipHistory time log) : MembershipHistory time' log := by
  refine ⟨h.entries.mono ?_, h.chained, h.wellFormed⟩
  intro pre audit _ he
  exact { he with changed := he.changed.trans hle }

theorem MembersValid.later {members : OrdMap Text ClusterMember} {log : List ClusterMembershipAudit}
    (h : MembersValid K time members log) : MembersValid K time' members log := by
  refine ⟨?_, h.newest, h.distinct, h.known⟩
  intro nodeId member hm
  have hv := h.valid nodeId member hm
  exact { hv with updated := hv.updated.trans hle }

theorem RolloutHistory.later {membership : List ClusterMembershipAudit}
    (h : RolloutHistory time membership log) : RolloutHistory time' membership log := by
  refine ⟨h.entries.mono ?_, h.chained, h.unique, h.revisions⟩
  intro pre audit _ he
  exact { he with changed := he.changed.trans hle }

theorem RolloutsValid.later {members : OrdMap Text ClusterMember}
    (h : RolloutsValid time members rollouts log) : RolloutsValid time' members rollouts log := by
  refine ⟨?_, h.settled⟩
  intro nodeId rollout hr
  have hlive := h.live nodeId rollout hr
  exact { hlive with clock := hlive.clock.trans hle }

theorem OwnershipHistory.later {log : List ClusterAgentOwnershipAudit}
    (h : OwnershipHistory time log) : OwnershipHistory time' log := by
  refine ⟨?_, h.chained⟩
  intro audit ha
  have he := h.entries audit ha
  exact { he with changed := he.changed.trans hle }

theorem OwnershipsValid.later {log : List ClusterAgentOwnershipAudit}
    (h : OwnershipsValid time ownerships log) : OwnershipsValid time' ownerships log := by
  refine ⟨?_, h.newest, h.known⟩
  intro agentId own ho
  have hv := h.valid agentId own ho
  exact { hv with updated := hv.updated.trans hle }

theorem ChallengesValid.later {start : DateTime} (h : ChallengesValid K start time challenges) :
    ChallengesValid K start time' challenges := by
  intro hash chal hc
  have hv := h hash chal hc
  refine { hv with consumed := ?_ }
  intro consumed hconsumed
  obtain ⟨hpast, hlive⟩ := hv.consumed consumed hconsumed
  exact ⟨hpast.trans hle, hlive⟩

end Clock

variable {K : Crypto} {control : ReplicatedControlPlaneState} {time : DateTime}

/-- A valid control plane stays valid when only its clock moves on. -/
theorem ValidControl.later (h : ValidControl K control) (hle : control.logicalTime ≤ time) :
    ValidControl K { control with logicalTime := time } := by
  obtain ⟨fst, hf, hc⟩ := h.challenges
  exact {
    genesis := h.genesis
    cluster := h.cluster
    generation := h.generation
    capacity := h.capacity
    challenges := ⟨fst, hf, hc.later hle⟩
    membership := h.membership.later hle
    members := h.members.later hle
    trust := h.trust
    rolloutHistory := h.rolloutHistory.later hle
    leaves := h.leaves
    candidates := h.candidates
    rollouts := h.rollouts.later hle
    ownershipHistory := h.ownershipHistory.later hle
    ownerships := h.ownerships.later hle }

/-! ## Capacity -/

theorem MembersValid.size_le {members : OrdMap Text ClusterMember}
    {log : List ClusterMembershipAudit} (h : MembersValid K time members log) :
    members.size ≤ log.length := by
  refine Nat.le_trans ?_
    (size_indexBy_le ClusterMembershipAudit.nodeId ClusterMembershipAudit.head log)
  apply size_le_of_keys_subset
  intro nodeId hnode
  obtain ⟨member, hm⟩ := exists_lookup hnode
  apply mem_of_lookup
  rw [lookup_indexBy]
  exact h.newest nodeId member hm

theorem RolloutsValid.size_le {members : OrdMap Text ClusterMember}
    (h : RolloutsValid time members rollouts log) : rollouts.size ≤ members.size := by
  apply size_le_of_keys_subset
  intro nodeId hnode
  obtain ⟨rollout, hr⟩ := exists_lookup hnode
  obtain ⟨member, hm, -⟩ := (h.live nodeId rollout hr).current
  exact mem_of_lookup hm

/-- The capacities that the other parts of a valid control plane do not bound. -/
structure WithinCapacity (control : ReplicatedControlPlaneState) : Prop where
  challenges : control.joinChallenges.size ≤ maxJoinChallenges
  ownerships : control.ownerships.size ≤ maxOwnerships
  membershipAudit : control.membershipAudit.length ≤ maxAuditEntries
  rolloutAudit : control.certificateRolloutAudit.length ≤ maxAuditEntries
  ownershipAudit : control.ownershipAudit.length ≤ maxAuditEntries

theorem ValidControl.withinCapacity (h : ValidControl K control) : WithinCapacity control := by
  have hc := h.capacity
  simp only [exceedsCapacity, not_or, not_lt] at hc
  obtain ⟨hch, -, -, ho, hm, hr, how⟩ := hc
  exact ⟨hch, ho, hm, hr, how⟩

theorem WithinCapacity.not_exceeds (h : WithinCapacity control)
    (hm : MembersValid K control.logicalTime control.members control.membershipAudit)
    (hr : RolloutsValid control.logicalTime control.members control.certificateRollouts
      control.certificateRolloutAudit) : ¬ exceedsCapacity control := by
  have hsize := hm.size_le
  have ha := h.membershipAudit
  have hl : maxAuditEntries = maxMembers := rfl
  simp only [exceedsCapacity, not_or, not_lt]
  refine ⟨h.challenges, ?_, hr.size_le, h.ownerships, h.membershipAudit, h.rolloutAudit,
    h.ownershipAudit⟩
  omega

/-! ## One more member revision -/

variable {audit : ClusterMembershipAudit}

theorem MembershipHistory.snoc {log : List ClusterMembershipAudit} (h : MembershipHistory time log)
    (he : MembershipEntryValid time log.length audit)
    (hc : audit.continues (lastFor nodeId audit.nodeId log))
    (hl : ∀ fingerprint ∈ audit.fingerprints, validTlsFingerprint fingerprint = true) :
    MembershipHistory time (log ++ [audit]) := by
  refine ⟨eachAfter_snoc.2 ⟨h.entries, he⟩, chained_snoc.2 ⟨h.chained, hc⟩, ?_⟩
  intro a ha
  rw [List.mem_append, List.mem_singleton] at ha
  rcases ha with ha | rfl
  · exact h.wellFormed a ha
  · exact hl

/-- `member`, with its audit entry, is the next revision of its node. -/
structure Revises (K : Crypto) (control : ReplicatedControlPlaneState) (nodeId : Text)
    (member : ClusterMember) (audit : ClusterMembershipAudit) : Prop where
  entry : MembershipEntryValid control.logicalTime control.membershipAudit.length audit
  node : audit.nodeId = nodeId
  continues : audit.continues (lastFor ClusterMembershipAudit.nodeId nodeId
    control.membershipAudit)
  head : audit.head = member.head
  valid : MemberValid K control.logicalTime nodeId member
  wellFormed : ∀ fingerprint ∈ audit.fingerprints, validTlsFingerprint fingerprint = true
  distinct : ∀ (other : Text) (member' : ClusterMember), control.members[other]? = some member' →
    other ≠ nodeId → ¬ SharesIdentity member'.registration member.registration

section Revision

variable {K : Crypto} {control : ReplicatedControlPlaneState} {nodeId : Text}
  {member : ClusterMember} {audit : ClusterMembershipAudit}

theorem Revises.membership (h : Revises K control nodeId member audit)
    (hv : MembershipHistory control.logicalTime control.membershipAudit) :
    MembershipHistory control.logicalTime (control.membershipAudit ++ [audit]) := by
  refine hv.snoc h.entry ?_ h.wellFormed
  rw [h.node]
  exact h.continues

theorem Revises.members (h : Revises K control nodeId member audit)
    (hv : MembersValid K control.logicalTime control.members control.membershipAudit) :
    MembersValid K control.logicalTime (control.members.insert nodeId member)
      (control.membershipAudit ++ [audit]) := by
  refine ⟨?_, ?_, ?_, ?_⟩
  · intro o member' hm
    rw [lookup_insert] at hm
    split at hm
    · next heq =>
      obtain rfl := Option.some.inj hm
      exact heq ▸ h.valid
    · exact hv.valid o member' hm
  · intro o member' hm
    rw [lastFor_snoc, h.node]
    rw [lookup_insert] at hm
    split at hm
    · next heq =>
      obtain rfl := Option.some.inj hm
      rw [if_pos heq, Option.map_some, h.head]
    · next hne =>
      rw [if_neg hne]
      exact hv.newest o member' hm
  · intro o o' mem₁ mem₂ hm₁ hm₂ hne
    rw [lookup_insert] at hm₁ hm₂
    split at hm₁
    · next heq =>
      rw [if_neg (fun heq' => hne (heq.symm.trans heq'))] at hm₂
      obtain rfl := Option.some.inj hm₁
      intro hs
      refine h.distinct o' mem₂ hm₂ ?_ hs.symm
      exact fun heq' => hne (heq.symm.trans heq'.symm)
    · next hne₁ =>
      split at hm₂
      · next heq =>
        obtain rfl := Option.some.inj hm₂
        exact h.distinct o mem₁ hm₁ (Ne.symm hne₁)
      · exact hv.distinct o o' mem₁ mem₂ hm₁ hm₂ hne
  · intro a ha
    rw [mem_insert_iff]
    rw [List.mem_append, List.mem_singleton] at ha
    rcases ha with ha | rfl
    · exact .inr (hv.known a ha)
    · exact .inl h.node.symm

end Revision

variable {nodeId : Text}

/-- The newest audit entry of a member. -/
theorem MembersValid.exists_newest {members : OrdMap Text ClusterMember}
    {log : List ClusterMembershipAudit} (h : MembersValid K time members log)
    {member : ClusterMember} (hm : members[nodeId]? = some member) :
    ∃ audit, lastFor ClusterMembershipAudit.nodeId nodeId log = some audit ∧
      audit.head = member.head :=
  Option.map_eq_some_iff.1 (h.newest nodeId member hm)

theorem ClusterMember.head_eq_iff {member : ClusterMember} :
    audit.head = member.head ↔ audit.memberGeneration = member.generation ∧
      audit.current = member.state ∧
      audit.currentTlsServerCertificateFingerprint = member.tlsServerCertificateFingerprint := by
  simp [ClusterMembershipAudit.head, ClusterMember.head]

/-! ## Leaves -/

variable {fingerprint : Text}

/-- The leaf of a member is bound to it by the membership history. -/
theorem ValidControl.leaf_use (h : ValidControl K control) {member : ClusterMember}
    (hm : control.members[nodeId]? = some member)
    (hleaf : member.tlsServerCertificateFingerprint = some fingerprint) :
    ∃ use ∈ control.leafUses, use.nodeId = nodeId ∧ fingerprint ∈ use.leaves := by
  obtain ⟨audit, ha, hhead⟩ := h.members.exists_newest hm
  obtain ⟨hmem, hnode⟩ := mem_of_lastFor ha
  obtain ⟨-, -, htls⟩ := ClusterMember.head_eq_iff.1 hhead
  refine ⟨audit.leafUse, ?_, hnode, ?_⟩
  · exact List.mem_append_left _ (List.mem_map_of_mem hmem)
  · simp [ClusterMembershipAudit.leafUse, ClusterMembershipAudit.fingerprints, htls, hleaf]

/-- Only a member's own node has ever bound its leaf. -/
theorem ValidControl.leaf_owner (h : ValidControl K control) {member : ClusterMember}
    (hm : control.members[nodeId]? = some member)
    (hleaf : member.tlsServerCertificateFingerprint = some fingerprint) {use : LeafUse}
    (huse : use ∈ control.leafUses) (hb : fingerprint ∈ use.leaves) : use.nodeId = nodeId := by
  obtain ⟨own, hown, rfl, hl⟩ := h.leaf_use hm hleaf
  exact h.leaves use huse own hown fingerprint hb hl

/-- Every leaf that is added to the histories belongs to the node that adds it. -/
theorem LeavesOwned.extend {uses uses' : List LeafUse} (h : LeavesOwned uses) (nodeId : Text)
    (hnew : ∀ use ∈ uses', use ∈ uses ∨ use.nodeId = nodeId ∧ ∀ fingerprint ∈ use.leaves,
      ∀ o ∈ uses, fingerprint ∈ o.leaves → o.nodeId = nodeId) : LeavesOwned uses' := by
  intro a ha b hb fingerprint hfa hfb
  rcases hnew a ha with ha' | ⟨han, hao⟩ <;> rcases hnew b hb with hb' | ⟨hbn, hbo⟩
  · exact h a ha' b hb' fingerprint hfa hfb
  · exact (hbo fingerprint hfb a ha' hfa).trans hbn.symm
  · exact han.trans (hao fingerprint hfa b hb' hfb).symm
  · exact han.trans hbn.symm

/-! ## Candidates -/

/-- An entry that authorises no new leaf leaves first authorisations alone. -/
theorem find?_authorizes_snoc {log : List ClusterMembershipAudit}
    (h : audit.authorizes fingerprint = true → ∃ prior ∈ log, prior.authorizes fingerprint = true) :
    (log ++ [audit]).find? (authorizes fingerprint) = log.find? (authorizes fingerprint) := by
  rw [List.find?_append]
  cases hfind : log.find? (authorizes fingerprint) with
  | some fd => rfl
  | none =>
    have hnone := List.find?_eq_none.1 hfind
    cases hauth : audit.authorizes fingerprint with
    | false => simp [hauth]
    | true =>
      obtain ⟨prior, hmem, he⟩ := h hauth
      exact absurd he (hnone prior hmem)

theorem CandidatesAuthorized.snoc_membership {membership : List ClusterMembershipAudit}
    (h : CandidatesAuthorized membership log)
    (hnew : ∀ fingerprint, audit.authorizes fingerprint = true →
      (∃ prep ∈ log, prep.currentPhase = some .prepared ∧
        prep.nextTlsServerCertificateFingerprint = fingerprint) →
      ∃ prior ∈ membership, prior.authorizes fingerprint = true) :
    CandidatesAuthorized (membership ++ [audit]) log := by
  intro prep hmem hp
  have hf := h prep hmem hp
  rw [FirstAuthorized, find?_authorizes_snoc, ← FirstAuthorized]
  · exact hf
  · intro hauth
    exact hnew _ hauth ⟨prep, hmem, hp, rfl⟩

/-- An entry that neither prepares nor activates leaves the candidates alone. -/
theorem CandidatesAuthorized.snoc_finished {membership : List ClusterMembershipAudit}
    {audit : ClusterCertificateRolloutAudit} (h : CandidatesAuthorized membership log)
    (hf : audit.currentPhase = none) : CandidatesAuthorized membership (log ++ [audit]) := by
  intro prep hmem hp
  rw [List.mem_append, List.mem_singleton] at hmem
  rcases hmem with hmem | rfl
  · rw [FirstAuthorized, lastWith_snoc, if_neg, ← FirstAuthorized]
    · exact h prep hmem hp
    · simp [activates, isActivated,
        hf]
  · rw [hf] at hp
    cases hp

/-! ## Rollout histories -/

variable {membership' : List ClusterMembershipAudit}

theorem RolloutHistory.snoc {membership : List ClusterMembershipAudit}
    {audit : ClusterCertificateRolloutAudit} (h : RolloutHistory time membership log)
    (hsub : ∀ a ∈ membership, a ∈ membership') (hen : RolloutEntryValid time log.length audit)
    (hc : audit.continues (lastFor ClusterCertificateRolloutAudit.nodeId audit.nodeId log))
    (hu : ∀ prior ∈ log, prior.repeatsNot audit) (hr : HasRevision membership' audit) :
    RolloutHistory time membership' (log ++ [audit]) := by
  refine ⟨eachAfter_snoc.2 ⟨h.entries, hen⟩, chained_snoc.2 ⟨h.chained, hc⟩, ?_, ?_⟩
  · rw [List.pairwise_append]
    refine ⟨h.unique, List.pairwise_singleton _ _, ?_⟩
    intro prior he a ha
    obtain rfl := List.mem_singleton.1 ha
    exact hu prior he
  · intro a ha
    rw [List.mem_append, List.mem_singleton] at ha
    rcases ha with ha | rfl
    · exact (h.revisions a ha).mono hsub
    · exact hr

theorem RolloutHistory.extend_membership {membership : List ClusterMembershipAudit}
    (h : RolloutHistory time membership log) (hsub : ∀ a ∈ membership, a ∈ membership') :
    RolloutHistory time membership' log :=
  ⟨h.entries, h.chained, h.unique, fun a ha => (h.revisions a ha).mono hsub⟩

/-- The new newest entry of a node, with the rollout it leaves behind. -/
theorem RolloutsValid.record {members members' : OrdMap Text ClusterMember}
    {rolls' : OrdMap Text ClusterCertificateRollout} {audit : ClusterCertificateRolloutAudit}
    (h : RolloutsValid time members rollouts log) (hnode : audit.nodeId = nodeId)
    (hm : ∀ o, nodeId ≠ o → members'[o]? = members[o]?)
    (hro : ∀ o, nodeId ≠ o → rolls'[o]? = rollouts[o]?)
    (hlive : ∀ rollout, rolls'[nodeId]? = some rollout →
      LiveRollout time nodeId members'[nodeId]? (some audit) rollout)
    (hs : audit.currentPhase ≠ none ↔ nodeId ∈ rolls') :
    RolloutsValid time members' rolls' (log ++ [audit]) := by
  refine ⟨?_, ?_⟩
  · intro o rollout hr
    rw [lastFor_snoc, hnode]
    by_cases heq : nodeId = o
    · subst heq
      rw [if_pos rfl]
      exact hlive rollout hr
    · rw [if_neg heq, hm o heq]
      rw [hro o heq] at hr
      exact h.live o rollout hr
  · intro o a ha
    rw [lastFor_snoc, hnode] at ha
    by_cases heq : nodeId = o
    · subst heq
      rw [if_pos rfl] at ha
      obtain rfl := Option.some.inj ha
      exact hs
    · rw [if_neg heq] at ha
      rw [h.settled o a ha, mem_iff_exists_lookup, mem_iff_exists_lookup,
        hro o heq]

/-- The revision of a member without a rollout leaves the rollouts alone. -/
theorem RolloutsValid.revise_idle {members : OrdMap Text ClusterMember}
    (h : RolloutsValid time members rollouts log) (hidle : rollouts[nodeId]? = none)
    (member : ClusterMember) : RolloutsValid time (members.insert nodeId member) rollouts log := by
  refine ⟨?_, h.settled⟩
  intro o rollout hr
  have hne : nodeId ≠ o := by
    rintro rfl
    exact absurd (hidle.symm.trans hr) (by simp)
  rw [lookup_insert_ne _ _ hne]
  exact h.live o rollout hr

/-! ## Ownership -/

theorem OwnershipHistory.snoc {log : List ClusterAgentOwnershipAudit}
    {audit : ClusterAgentOwnershipAudit} (h : OwnershipHistory time log)
    (he : OwnershipEntryValid time audit)
    (hc : audit.continues (lastFor ClusterAgentOwnershipAudit.agentId audit.agentId log)) :
    OwnershipHistory time (log ++ [audit]) := by
  refine ⟨?_, chained_snoc.2 ⟨h.chained, hc⟩⟩
  intro a ha
  rw [List.mem_append, List.mem_singleton] at ha
  rcases ha with ha | rfl
  · exact h.entries a ha
  · exact he

theorem OwnershipsValid.record {log : List ClusterAgentOwnershipAudit} {agentId : Text}
    {own : ClusterAgentOwnership} {audit : ClusterAgentOwnershipAudit}
    (h : OwnershipsValid time ownerships log) (hag : audit.agentId = agentId)
    (hhead : audit.head = own.head) (hv : OwnershipValid time agentId own) :
    OwnershipsValid time (ownerships.insert agentId own) (log ++ [audit]) := by
  refine ⟨?_, ?_, ?_⟩
  · intro o own' ho
    rw [lookup_insert] at ho
    split at ho
    · next heq =>
      obtain rfl := Option.some.inj ho
      exact heq ▸ hv
    · exact h.valid o own' ho
  · intro o own' ho
    rw [lastFor_snoc, hag]
    rw [lookup_insert] at ho
    split at ho
    · next heq =>
      obtain rfl := Option.some.inj ho
      rw [if_pos heq, Option.map_some, hhead]
    · next hne =>
      rw [if_neg hne]
      exact h.newest o own' ho
  · intro a ha
    rw [mem_insert_iff]
    rw [List.mem_append, List.mem_singleton] at ha
    rcases ha with ha | rfl
    · exact .inr (h.known a ha)
    · exact .inl hag.symm

/-! ## Join challenges -/

theorem ChallengesValid.consume {start : DateTime} {hash : Text}
    {rec : ReplicatedJoinChallenge} (h : ChallengesValid K start time challenges)
    (hr : challenges[hash]? = some rec) (hlive : time < rec.expiresAt) :
    ChallengesValid K start time
      (challenges.modify hash fun chal => { chal with consumedAt := some time }) := by
  intro o chal hc
  rw [lookup_modify] at hc
  split at hc
  · next heq =>
    subst heq
    rw [hr, Option.map_some] at hc
    obtain rfl := Option.some.inj hc
    have hv := h hash rec hr
    refine ⟨hv.hashed, hv.expires, ?_⟩
    intro used hconsumed
    obtain rfl := Option.some.inj hconsumed
    exact ⟨le_rfl, hlive⟩
  · exact h o chal hc

end AgentOS
