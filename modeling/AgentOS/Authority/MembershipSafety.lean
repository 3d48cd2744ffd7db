import AgentOS.Authority.OwnershipSafety

/-!
# Membership commands and the validator

Join challenges, the end of a rollout and departures always leave a valid control plane. A
registration that changes no rollout does so exactly when its leaf is clean (`CleanLeaf`): no other
node has ever bound it, and it is no candidate that was never activated. A preparation does so
exactly when the longest candidate window still fits on the clock.
-/

namespace AgentOS

open Lib ClusterMembershipAudit OrdMap

/-! ## Recording a revision -/

section Record

variable {K : Crypto} {control : ReplicatedControlPlaneState} {nodeId : Text}
  {member : ClusterMember} {au : ClusterMembershipAudit}

variable (h : ValidControl K control)
include h

/-- A revision of a member together with what becomes of the rollouts. -/
theorem ValidControl.revise (hr : Revises K control nodeId member au) {trust : Nat}
    {log : List ClusterCertificateRolloutAudit} {rollouts : OrdMap Text ClusterCertificateRollout}
    (hca : control.membershipAudit.length < maxAuditEntries) (hlen : log.length ≤ maxAuditEntries)
    (ht : trust = log.length)
    (hh : RolloutHistory control.logicalTime (control.membershipAudit ++ [au]) log)
    (hl : LeavesOwned ((control.membershipAudit ++ [au]).map leafUse ++
      log.map ClusterCertificateRolloutAudit.leafUse))
    (hc : CandidatesAuthorized (control.membershipAudit ++ [au]) log)
    (hro : RolloutsValid control.logicalTime (control.members.insert nodeId member) rollouts log) :
    ValidControl K { control.recordMember nodeId member au with
      tlsTrustGeneration := trust, certificateRolloutAudit := log,
      certificateRollouts := rollouts } := by
  have hm := hr.members h.members
  have hlast : (control.membershipAudit ++ [au]).length = control.membershipAudit.length + 1 := by
    simp
  have hw : WithinCapacity { control.recordMember nodeId member au with
      tlsTrustGeneration := trust, certificateRolloutAudit := log,
      certificateRollouts := rollouts } :=
    { h.withinCapacity with membershipAudit := hlast ▸ hca, rolloutAudit := hlen }
  obtain ⟨fst, hf, hch⟩ := h.challenges
  exact {
    genesis := h.genesis
    cluster := h.cluster
    generation := hr.entry.position.trans hlast.symm
    capacity := hw.not_exceeds hm hro
    challenges := ⟨fst, List.head?_append.trans (by rw [hf, Option.some_or]), hch⟩
    membership := hr.membership h.membership
    members := hm
    trust := ht
    rolloutHistory := hh
    leaves := hl
    candidates := hc
    rollouts := hro
    ownershipHistory := h.ownershipHistory
    ownerships := h.ownerships }

/-- A revision of a member without a rollout that binds only leaves of its node and authorises no
pending candidate. -/
theorem ValidControl.recordMember (hr : Revises K control nodeId member au)
    (hidle : control.certificateRollouts[nodeId]? = none)
    (hca : control.membershipAudit.length < maxAuditEntries)
    (hown : ∀ fp ∈ au.fingerprints, ∀ use ∈ control.leafUses, fp ∈ use.leaves → use.nodeId = nodeId)
    (hc : ∀ fp, au.authorizes fp = true →
      (∃ prep ∈ control.certificateRolloutAudit, prep.currentPhase = some .prepared ∧
        prep.nextTlsServerCertificateFingerprint = fp) →
      ∃ prior ∈ control.membershipAudit, prior.authorizes fp = true) :
    ValidControl K (control.recordMember nodeId member au) := by
  refine h.revise hr hca h.withinCapacity.rolloutAudit h.trust
    (h.rolloutHistory.extend_membership fun a ha => List.mem_append_left _ ha)
    (h.leaves.extend nodeId fun use huse => ?_) (h.candidates.snoc_membership hc)
    (h.rollouts.revise_idle hidle member)
  simp only [List.map_append, List.mem_append, List.map_cons, List.map_nil,
    List.mem_singleton] at huse
  rcases huse with (huse | rfl) | huse
  · exact .inl (List.mem_append_left _ huse)
  · exact .inr ⟨hr.node, hown⟩
  · exact .inl (List.mem_append_right _ huse)

/-- A revision of a member together with one step of its rollout. -/
theorem ValidControl.recordRollout (hr : Revises K control nodeId member au)
    (rolloutAudit : ClusterCertificateRolloutAudit)
    (rollouts : OrdMap Text ClusterCertificateRollout)
    (hcp : control.membershipAudit.length < maxAuditEntries)
    (hrC : control.certificateRolloutAudit.length < maxAuditEntries)
    (hnode : rolloutAudit.nodeId = nodeId)
    (hg : au.memberGeneration = rolloutAudit.memberGeneration)
    (hag : RevisionAgrees rolloutAudit au)
    (he : RolloutEntryValid control.logicalTime control.certificateRolloutAudit.length rolloutAudit)
    (hcontinues : rolloutAudit.continues (lastFor ClusterCertificateRolloutAudit.nodeId nodeId
      control.certificateRolloutAudit))
    (hu : ∀ prior ∈ control.certificateRolloutAudit, prior.repeatsNot rolloutAudit)
    (hown : ∀ fp ∈ au.fingerprints ++ rolloutAudit.leafUse.leaves, ∀ use ∈ control.leafUses,
      fp ∈ use.leaves → use.nodeId = nodeId)
    (hc : CandidatesAuthorized (control.membershipAudit ++ [au])
      (control.certificateRolloutAudit ++ [rolloutAudit]))
    (hro : ∀ o, nodeId ≠ o → rollouts[o]? = control.certificateRollouts[o]?)
    (hlive : ∀ rollout, rollouts[nodeId]? = some rollout →
      LiveRollout control.logicalTime nodeId (some member) (some rolloutAudit) rollout)
    (hs : rolloutAudit.currentPhase ≠ none ↔ nodeId ∈ rollouts) :
    ValidControl K { (control.recordMember nodeId member au).recordRolloutAudit rolloutAudit with
      certificateRollouts := rollouts } := by
  have hrV : RolloutsValid control.logicalTime (control.members.insert nodeId member)
      rollouts (control.certificateRolloutAudit ++ [rolloutAudit]) := by
    refine h.rollouts.record hnode ?_ hro ?_ hs
    · intro o hne
      exact lookup_insert_ne _ _ hne
    · rw [lookup_insert_self]
      exact hlive
  have hre : HasRevision (control.membershipAudit ++ [au]) rolloutAudit :=
    ⟨au, by simp, hr.node.trans hnode.symm, hg, hag⟩
  have hlast : (control.certificateRolloutAudit ++ [rolloutAudit]).length =
      control.certificateRolloutAudit.length + 1 := by simp
  refine h.revise hr hcp (hlast ▸ hrC) (he.trust.trans hlast.symm)
    (h.rolloutHistory.snoc (fun a ha => List.mem_append_left _ ha) he (hnode ▸ hcontinues) hu hre)
    (h.leaves.extend nodeId fun use huse => ?_) hc hrV
  -- the two new entries bind leaves of the revised node only
  change use ∈ _ ++ List.map _ (control.certificateRolloutAudit ++ [rolloutAudit]) at huse
  simp only [List.map_append, List.mem_append, List.map_cons, List.map_nil,
    List.mem_singleton] at huse
  rcases huse with (huse | rfl) | huse | rfl
  · exact .inl (List.mem_append_left _ huse)
  · exact .inr ⟨hr.node, fun fp hf => hown fp (List.mem_append_left _ hf)⟩
  · exact .inl (List.mem_append_right _ huse)
  · exact .inr ⟨hnode, fun fp hf => hown fp (List.mem_append_right _ hf)⟩

/-- Redeeming a live join challenge at the current instant. -/
theorem ValidControl.consume {hash : Text} {rec : ReplicatedJoinChallenge}
    (hr : control.joinChallenges[hash]? = some rec) (hlive : control.logicalTime < rec.expiresAt) :
    ValidControl K (consumeJoinChallenge control hash control.logicalTime) := by
  obtain ⟨fst, hf, hc⟩ := h.challenges
  have hw : WithinCapacity (consumeJoinChallenge control hash control.logicalTime) := by
    refine { h.withinCapacity with challenges := ?_ }
    show (control.joinChallenges.modify hash _).size ≤ maxJoinChallenges
    rw [Std.ExtTreeMap.size_modify]
    exact h.withinCapacity.challenges
  exact { h with
    capacity := hw.not_exceeds h.members h.rollouts
    challenges := ⟨fst, hf, hc.consume hr hlive⟩ }

end Record

/-! ## Join challenges -/

theorem IssueGuard.valid {K : Crypto} {control : ReplicatedControlPlaneState}
    {command : IssueJoinChallenge} {now expiry : DateTime} {hash : Text}
    (h : ValidControl K control) (hg : IssueGuard K control command now expiry hash) :
    ValidControl K (issueNext control command now expiry hash) := by
  have hle : control.logicalTime ≤ now := hg.clock.lt.le
  have hl := h.later hle
  obtain ⟨fst, hf, hch⟩ := hl.challenges
  have hw : WithinCapacity (issueNext control command now expiry hash) := by
    refine { hl.withinCapacity with challenges := ?_ }
    exact size_insert_le_of _ hg.capacity.le (.inl hg.capacity)
  -- genesis precedes every later instant, so a new challenge expires after it
  have hs : fst.changedAt < expiry := by
    have hmem : fst ∈ control.membershipAudit := List.mem_of_head? hf
    obtain ⟨pre, post, hsp⟩ := List.append_of_mem hmem
    have he := hl.membership.entries pre fst post hsp
    refine lt_of_le_of_lt he.changed ?_
    have hn := DateTime.checkedAddSigned_eq_some.1 hg.expiry
    have hpos : 0 < seconds command.ttlSeconds := by
      apply seconds_pos
      have hmin := hg.minTtl
      unfold minJoinChallengeTtlSeconds at hmin
      omega
    rw [DateTime.lt_iff]
    show now.nanos < expiry.nanos
    omega
  refine { hl with
    capacity := hw.not_exceeds hl.members hl.rollouts
    challenges := ⟨fst, hf, ?_⟩ }
  intro o chal hc
  rw [issueNext, lookup_insert] at hc
  split at hc
  · next heq =>
    obtain rfl := Option.some.inj hc
    refine ⟨heq ▸ hg.decoded, hs, ?_⟩
    intro used hconsumed
    cases hconsumed
  · rw [retainedChallenges, lookup_filter] at hc
    exact hch o chal (Option.filter_eq_some_iff.1 hc).1

/-! ## Revisions of an existing member -/

section Existing

variable {K : Crypto} {control : ReplicatedControlPlaneState} {nodeId : Text}
  {member : ClusterMember}

theorem ValidControl.isUuid_node (h : ValidControl K control)
    (hm : control.members[nodeId]? = some member) : isUuid nodeId = true := by
  have hv := h.members.valid nodeId member hm
  rw [hv.key]
  exact (validateMemberRegistration_ok hv.registration).1

variable {fp : Text}

theorem ValidControl.validTls_leaf (h : ValidControl K control)
    (hm : control.members[nodeId]? = some member)
    (hleaf : member.tlsServerCertificateFingerprint = some fp) : validTlsFingerprint fp = true :=
  (validateMemberRegistration_ok (h.members.valid nodeId member hm).registration).2
    fp hleaf

variable {actor reason : Text}

/-- A new state of a member that is not revoked is its next revision. -/
theorem ValidControl.revises (h : ValidControl K control)
    (hm : control.members[nodeId]? = some member)
    (ha : member.state ≠ .revoked) (hr : member.generation + 1 < 2 ^ 64)
    (hac : ¬ isInvalidText actor) (hre : ¬ isInvalidText reason) (state : ClusterMemberState) :
    Revises K control nodeId
      (revisedMember member (member.generation + 1) state member.tlsServerCertificateFingerprint
        reason control.logicalTime)
      (memberRevisionAudit (control.membershipGeneration + 1) nodeId member
        (member.generation + 1) state member.tlsServerCertificateFingerprint actor reason
        control.logicalTime) := by
  have hv := h.members.valid nodeId member hm
  obtain ⟨top, hn, hhead⟩ := h.members.exists_newest hm
  have hsucc : checkedSucc member.generation = some (member.generation + 1) :=
    checkedSucc_eq_some.2 ⟨hr, rfl⟩
  refine ⟨⟨?_, Nat.succ_ne_zero _, le_rfl, h.isUuid_node hm, hac, hre⟩, rfl, ?_, rfl,
    ⟨hv.key, hv.registration, Nat.succ_ne_zero _, hv.joined.trans hv.updated,
      le_rfl⟩, ?_, ?_⟩
  · show control.membershipGeneration + 1 = _
    rw [h.generation]
  · rw [ClusterMembershipAudit.continues, hn, Option.map_some, hhead]
    cases htls : member.tlsServerCertificateFingerprint <;>
      simp [membershipTransitionIsValid, ClusterMember.head, memberRevisionAudit, ha, hsucc, htls]
  · intro fp hf
    simp only [ClusterMembershipAudit.fingerprints, memberRevisionAudit, List.mem_append,
      Option.mem_toList, or_self] at hf
    exact h.validTls_leaf hm hf
  · intro o member' ho hne
    exact h.members.distinct o nodeId member' member ho hm hne

/-- A revision that keeps its leaf names no other leaf. -/
theorem leaf_of_memberRevisionAudit {gen total : Nat} {state : ClusterMemberState} {now : DateTime}
    (hf : fp ∈ (memberRevisionAudit total nodeId member gen state
      member.tlsServerCertificateFingerprint actor reason now).fingerprints) :
    member.tlsServerCertificateFingerprint = some fp := by
  simpa [fingerprints, memberRevisionAudit] using hf

/-- The leaf of a member was authorised before. -/
theorem ValidControl.exists_authorizes (h : ValidControl K control)
    (hm : control.members[nodeId]? = some member)
    (hleaf : member.tlsServerCertificateFingerprint = some fp) :
    ∃ prior ∈ control.membershipAudit, prior.authorizes fp = true := by
  obtain ⟨top, hn, hhead⟩ := h.members.exists_newest hm
  obtain ⟨-, -, htls⟩ := ClusterMember.head_eq_iff.1 hhead
  refine ⟨top, (mem_of_lastFor hn).1, ?_⟩
  simp [authorizes, htls, hleaf]

/-- A member without a rollout changes its state. -/
theorem ValidControl.recordIdle (h : ValidControl K control)
    (hm : control.members[nodeId]? = some member)
    (had : member.state ≠ .revoked) (hr : member.generation + 1 < 2 ^ 64)
    (hac : ¬ isInvalidText actor)
    (hre : ¬ isInvalidText reason) (hidle : control.certificateRollouts[nodeId]? = none)
    (hc : control.membershipAudit.length < maxAuditEntries) (state : ClusterMemberState) :
    ValidControl K (control.recordMember nodeId
      (revisedMember member (member.generation + 1) state member.tlsServerCertificateFingerprint
        reason control.logicalTime)
      (memberRevisionAudit (control.membershipGeneration + 1) nodeId member
        (member.generation + 1) state member.tlsServerCertificateFingerprint actor reason
        control.logicalTime)) := by
  refine h.recordMember (h.revises hm had hr hac hre state) hidle hc ?_ ?_
  · intro fp hf use huse hb
    exact h.leaf_owner hm (leaf_of_memberRevisionAudit hf) huse hb
  · intro fp ha _
    refine h.exists_authorizes hm ?_
    simpa [authorizes, memberRevisionAudit] using ha

variable {rollout : ClusterCertificateRollout}

/-- The leaves of an unfinished rollout belong to its node. -/
theorem ValidControl.rollout_leaf_owner (h : ValidControl K control)
    (hr : control.certificateRollouts[nodeId]? = some rollout) {use : LeafUse}
    (huse : use ∈ control.leafUses) (hb : fp ∈ use.leaves)
    (hleaf : fp = rollout.previousTlsServerCertificateFingerprint ∨ fp =
      rollout.nextTlsServerCertificateFingerprint) : use.nodeId = nodeId := by
  obtain ⟨top, hn, hhead⟩ := Option.map_eq_some_iff.1 (h.rollouts.live nodeId rollout hr).newest
  obtain ⟨hmem, hnode⟩ := mem_of_lastFor hn
  have hp : top.previousTlsServerCertificateFingerprint =
      rollout.previousTlsServerCertificateFingerprint :=
    congrArg CertificateRolloutAuditHead.previousFingerprint hhead
  have hnext : top.nextTlsServerCertificateFingerprint =
      rollout.nextTlsServerCertificateFingerprint :=
    congrArg CertificateRolloutAuditHead.nextFingerprint hhead
  have hown : top.leafUse ∈ control.leafUses :=
    List.mem_append_right _ (List.mem_map_of_mem hmem)
  refine (h.leaves use huse top.leafUse hown fp hb ?_).trans hnode
  simpa [ClusterCertificateRolloutAudit.leafUse, hp, hnext] using hleaf

/-- A member ends its rollout and stays active, or is revoked. -/
theorem ValidControl.endRollout (h : ValidControl K control)
    (hme : control.members[nodeId]? = some member) (hact : member.state = .active)
    (hrv : member.generation + 1 < 2 ^ 64) (hac : ¬ isInvalidText actor)
    (hre : ¬ isInvalidText reason)
    (hr : control.certificateRollouts[nodeId]? = some rollout)
    (hc : control.membershipAudit.length < maxAuditEntries)
    (hrC : control.certificateRolloutAudit.length < maxAuditEntries)
    {state : ClusterMemberState} (hs : state = .active ∨ state = .revoked) :
    ValidControl K { (control.recordMember nodeId
        (revisedMember member (member.generation + 1) state member.tlsServerCertificateFingerprint
          reason control.logicalTime)
        (memberRevisionAudit (control.membershipGeneration + 1) nodeId member
          (member.generation + 1) state member.tlsServerCertificateFingerprint actor reason
          control.logicalTime)).recordRolloutAudit
        (rolloutAuditEntry (control.tlsTrustGeneration + 1) nodeId (member.generation + 1)
          (some rollout.phase) none rollout.previousTlsServerCertificateFingerprint
          rollout.nextTlsServerCertificateFingerprint actor reason control.logicalTime) with
      certificateRollouts := control.certificateRollouts.erase nodeId } := by
  have hlive := h.rollouts.live nodeId rollout hr
  have hleaf : member.tlsServerCertificateFingerprint = some rollout.currentLeaf := by
    obtain ⟨m, hm, -, -, hleaf⟩ := hlive.current
    obtain rfl := Option.some.inj (hme.symm.trans hm)
    exact hleaf
  have had : member.state ≠ .revoked := by
    simp [hact]
  refine h.recordRollout (h.revises hme had hrv hac hre state) _ _ hc
    hrC rfl rfl ⟨?_, ?_, rfl⟩ ?_ ?_ ?_ ?_ ?_ ?_ ?_ ?_
  · rcases hs with rfl | rfl
    · exact .inl rfl
    · exact .inr ⟨rfl, rfl⟩
  · show member.tlsServerCertificateFingerprint = _
    rw [hleaf]
    unfold ClusterCertificateRollout.currentLeaf ClusterCertificateRolloutAudit.expectedMemberTls
      rolloutAuditEntry
    cases rollout.phase <;> rfl
  · refine ⟨?_, Nat.succ_ne_zero _, le_rfl, h.isUuid_node hme, hlive.previousLeaf,
      hlive.nextLeaf, hlive.distinct, hac, hre⟩
    show control.tlsTrustGeneration + 1 = _
    rw [h.trust]
  · rw [ClusterCertificateRolloutAudit.continues, hlive.newest]
    cases hp : rollout.phase <;>
      simp [rolloutTransitionIsValid, rolloutTransitionIsValid.sameLeaves,
        ClusterCertificateRollout.head, rolloutAuditEntry, hp]
  · intro prior _ hp
    exact absurd rfl hp
  · intro fp hf use huse hb
    rcases List.mem_append.1 hf with hf | hf
    · exact h.leaf_owner hme (leaf_of_memberRevisionAudit hf) huse hb
    · refine h.rollout_leaf_owner hr huse hb ?_
      simpa [ClusterCertificateRolloutAudit.leafUse, rolloutAuditEntry] using hf
  · refine (h.candidates.snoc_membership ?_).snoc_finished rfl
    intro fp ha _
    refine h.exists_authorizes hme ?_
    simpa [authorizes, memberRevisionAudit] using ha
  · intro o hne
    rw [lookup_erase, if_neg hne]
  · intro rollout' hr'
    rw [lookup_erase, if_pos rfl] at hr'
    cases hr'
  · rw [mem_iff_exists_lookup, lookup_erase, if_pos rfl]
    simp [rolloutAuditEntry]

end Existing

end AgentOS
