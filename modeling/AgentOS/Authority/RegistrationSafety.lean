import AgentOS.Authority.MembershipSafety

/-!
# Registration, preparation and the validator

The two commands that bring a new TLS leaf into the histories, and the changes of member state.
-/

namespace AgentOS

open Lib ClusterCertificateRolloutAudit
open ClusterMembershipAudit (authorizes fingerprints)

/-! ## Candidates of a rollout history -/

variable {au : ClusterCertificateRolloutAudit}

/-- The newest earlier entry that an activation continues is the preparation of its candidate. -/
theorem ClusterCertificateRolloutAudit.continues_activated
    {prev : Option ClusterCertificateRolloutAudit} (h : au.continues prev)
    (ha : au.currentPhase = some .activated) :
    ∃ prepared, prev = some prepared ∧ prepared.currentPhase = some .prepared ∧
      prepared.nextTlsServerCertificateFingerprint = au.nextTlsServerCertificateFingerprint := by
  unfold continues at h
  cases prev with
  | none => simp [rolloutTransitionIsValid, rolloutTransitionIsValid.startsRollout, ha] at h
  | some prepared =>
    refine ⟨prepared, rfl, ?_⟩
    rw [Option.map_some] at h
    cases hp : prepared.currentPhase with
    | none =>
      simp [rolloutTransitionIsValid, rolloutTransitionIsValid.startsRollout, ha, head, hp] at h
    | some ph =>
      cases ph with
      | activated => simp [rolloutTransitionIsValid, ha, head, hp] at h
      | prepared =>
        simp only [rolloutTransitionIsValid, rolloutTransitionIsValid.sameLeaves, head, hp,
          Bool.and_eq_true, beq_iff_eq] at h
        exact ⟨rfl, h.2.2.symm⟩

variable {membership : List ClusterMembershipAudit} {log : List ClusterCertificateRolloutAudit}

/-- A candidate is prepared once. -/
theorem RolloutHistory.prepared_unique {time : DateTime} (h : RolloutHistory time membership log)
    {a b : ClusterCertificateRolloutAudit} (ha : a ∈ log) (hb : b ∈ log)
    (hph : a.currentPhase = some .prepared) (hpha : b.currentPhase = some .prepared)
    (hnext : a.nextTlsServerCertificateFingerprint = b.nextTlsServerCertificateFingerprint) :
    a = b := by
  by_contra hne
  have hsymm : Std.Symm fun a b : ClusterCertificateRolloutAudit =>
      a.currentPhase = some .prepared → b.currentPhase = some .prepared →
        a.nextTlsServerCertificateFingerprint ≠ b.nextTlsServerCertificateFingerprint :=
    ⟨fun _ _ h hb ha heq => h ha hb heq.symm⟩
  have hp : log.Pairwise fun a b => a.currentPhase = some .prepared →
      b.currentPhase = some .prepared →
        a.nextTlsServerCertificateFingerprint ≠ b.nextTlsServerCertificateFingerprint := by
    refine h.unique.imp ?_
    intro a b hr hpa hpb
    exact hr (by simp [hpb]) (hpa.trans hpb.symm)
  exact hp.forall ha hb hne hph hpha hnext

variable {nodeId : Text}

/-- While a node is in the prepared phase, its candidate has not been activated. -/
theorem RolloutHistory.not_activated {time : DateTime} (h : RolloutHistory time membership log)
    {top : ClusterCertificateRolloutAudit}
    (hn : lastFor ClusterCertificateRolloutAudit.nodeId nodeId log = some top)
    (hp : top.currentPhase = some .prepared) (hau : au ∈ log)
    (ha : au.currentPhase = some .activated) :
    au.nextTlsServerCertificateFingerprint ≠ top.nextTlsServerCertificateFingerprint := by
  intro hnext
  obtain ⟨pre, post, rfl⟩ := List.append_of_mem hau
  obtain ⟨hmem, hnode⟩ := mem_of_lastFor hn
  obtain ⟨prep, hlast, hpr, hc⟩ :=
    ClusterCertificateRolloutAudit.continues_activated (h.chained pre au post rfl) ha
  obtain ⟨hpre, hpN⟩ := mem_of_lastFor hlast
  -- the only preparation of the candidate is the newest entry, but the activation follows it
  obtain rfl := h.prepared_unique (List.mem_append_left _ hpre) hmem hpr hp (hc.trans hnext)
  have haN : au.nodeId = nodeId := hpN.symm.trans hnode
  obtain ⟨latest, hl⟩ : ∃ latest,
      lastFor ClusterCertificateRolloutAudit.nodeId nodeId (au :: post) = some latest := by
    rw [← haN]
    exact exists_lastFor ClusterCertificateRolloutAudit.nodeId (List.mem_cons_self ..)
  have hap : lastFor ClusterCertificateRolloutAudit.nodeId nodeId (pre ++ au :: post) =
      some latest := lastFor_append_of_some hl
  obtain rfl := Option.some.inj (hap.symm.trans hn)
  have hlogged := (mem_of_lastFor hl).1
  rcases List.mem_cons.1 hlogged with rfl | hpost
  · exact absurd (ha.symm.trans hp) (by simp)
  · have hu := h.unique
    rw [List.pairwise_append] at hu
    exact hu.2.2 _ hpre _ (List.mem_cons_of_mem _ hpost) (by simp [hp]) rfl rfl

/-! ## Registration -/

/-- A TLS leaf that a registration of `nodeId` may bind: no other node has bound it, and it is no
candidate that the membership history never authorised. -/
structure CleanLeaf (control : ReplicatedControlPlaneState) (nodeId fingerprint : Text) : Prop
    where
  own : ∀ use ∈ control.leafUses, fingerprint ∈ use.leaves → use.nodeId = nodeId
  authorized : (∃ prepared ∈ control.certificateRolloutAudit,
      prepared.currentPhase = some .prepared ∧
        prepared.nextTlsServerCertificateFingerprint = fingerprint) →
    ∃ earlier ∈ control.membershipAudit, earlier.authorizes fingerprint = true

variable {rollout : ClusterCertificateRollout}

section Register

variable {K : Crypto} {control : ReplicatedControlPlaneState} {command : RegisterMember}
  {now : DateTime} {hash : Text} {rev : RegistrationRevision}

/-- The TLS leaf that a registration replaces. -/
theorem RevisionFrom.previousTls_eq {old : Option ClusterMember}
    (h : RevisionFrom command now old rev) :
    rev.previousTls = old.bind ClusterMember.tlsServerCertificateFingerprint := by
  cases h <;> rfl

variable (h : ValidControl K control)
include h

/-- A successful registration is the next revision of its node. -/
theorem RegisterGuard.revises (hg : RegisterGuard K control command now hash rev) :
    Revises K { control with logicalTime := now } command.registration.nodeId
      (registeredMember command rev now)
      (registrationAudit command rev (control.membershipGeneration + 1) now) := by
  have hle : control.logicalTime ≤ now := hg.challenged.clock.lt.le
  have hr := validateMemberRegistration_ok hg.challenged.valid
  have hfrom := hg.revision
  have hp : control.membershipGeneration + 1 = control.membershipAudit.length + 1 := by
    rw [h.generation]
  have hd : ∀ (o : Text) (member' : ClusterMember),
      control.members[o]? = some member' → o ≠ command.registration.nodeId →
        ¬ SharesIdentity member'.registration command.registration := by
    intro o member' ho hne
    have hkey := (h.members.valid o member' ho).key
    refine (bindsForeign_eq_false_iff.1 (hg.unbound o member' ho)).resolve_left ?_
    exact fun hnode => hne (hkey.trans hnode)
  have hwF : ∀ fp ∈ (registrationAudit command rev
      (control.membershipGeneration + 1) now).fingerprints,
      validTlsFingerprint fp = true := by
    intro fp hf
    simp only [fingerprints, registrationAudit, List.mem_append,
      Option.mem_toList] at hf
    rcases hf with hpr | hc
    · rw [hfrom.previousTls_eq] at hpr
      obtain ⟨member, hm, hleaf⟩ := Option.bind_eq_some_iff.1 hpr
      exact h.validTls_leaf hm hleaf
    · exact hr.2 fp hc
  cases he : control.members[command.registration.nodeId]? with
  | none =>
    rw [he] at hfrom
    cases hfrom
    -- no member of this name means no audit entry of this name
    have hnone : lastFor ClusterMembershipAudit.nodeId command.registration.nodeId
        control.membershipAudit = none := by
      rw [lastFor_eq_none]
      intro au hau hnode
      have hk := h.members.known au hau
      rw [hnode] at hk
      exact (OrdMap.not_mem_iff_lookup _ _).2 he hk
    refine ⟨⟨hp, Nat.one_ne_zero, le_rfl, hr.1, hg.actor, hg.reason⟩,
      rfl, ?_, rfl, ⟨rfl, hg.challenged.valid, Nat.one_ne_zero, le_rfl, le_rfl⟩,
      hwF, hd⟩
    show ClusterMembershipAudit.continues (lastFor ClusterMembershipAudit.nodeId _
      control.membershipAudit) _
    rw [hnone]
    rfl
  | some member =>
    rw [he] at hfrom
    cases hfrom with
    | rejoin _ hexp ha hi hke hre =>
      have hv := h.members.valid _ _ he
      obtain ⟨top, hn, hhead⟩ := h.members.exists_newest he
      have hsucc : checkedSucc member.generation = some (member.generation + 1) :=
        checkedSucc_eq_some.2 ⟨hre, rfl⟩
      refine ⟨⟨hp, Nat.succ_ne_zero _, le_rfl, hr.1, hg.actor,
        hg.reason⟩, rfl, ?_, rfl, ⟨rfl, hg.challenged.valid, Nat.succ_ne_zero _,
        hv.joined.trans (hv.updated.trans hle), le_rfl⟩, hwF, hd⟩
      show ClusterMembershipAudit.continues (lastFor ClusterMembershipAudit.nodeId _
        control.membershipAudit) _
      rw [ClusterMembershipAudit.continues, hn, Option.map_some, hhead]
      simp only [membershipTransitionIsValid, ClusterMember.head, registrationAudit, hsucc,
        BEq.rfl, Bool.and_true, Bool.and_eq_true, bne_iff_ne, ne_eq, ha,
        not_false_eq_true, true_and, Bool.not_eq_true', Bool.and_eq_false_iff]
      by_cases hb : member.tlsServerCertificateFingerprint.isSome = true
      · refine .inr ?_
        have hc := hke hb
        cases htls : command.registration.tlsServerCertificateFingerprint with
        | none => exact absurd htls hc
        | some fp => rfl
      · exact .inl (by simpa using hb)

/-- A registration that leaves rollouts alone keeps the control plane valid exactly when its leaf
is clean. -/
theorem RegisterGuard.join_valid_iff (hg : RegisterGuard K control command now hash rev)
    (hk : KeepsLeaf control command.registration) :
    ValidControl K (joinNext control command now hash rev) ↔
      ∀ fp, command.registration.tlsServerCertificateFingerprint = some fp →
        CleanLeaf control command.registration.nodeId fp := by
  have hle : control.logicalTime ≤ now := hg.challenged.clock.lt.le
  have hl := h.later hle
  have hre := hg.revises h
  constructor
  · intro hv fp hleaf
    have hnew : (registrationAudit command rev (control.membershipGeneration + 1) now).leafUse ∈
        (joinNext control command now hash rev).leafUses := by
      simp [joinNext, consumeJoinChallenge, ReplicatedControlPlaneState.recordMember,
        ReplicatedControlPlaneState.leafUses]
    have hb : fp ∈ (registrationAudit command rev
        (control.membershipGeneration + 1) now).leafUse.leaves := by
      simp [ClusterMembershipAudit.leafUse, fingerprints,
        registrationAudit, hleaf]
    refine ⟨?_, ?_⟩
    · intro use huse huB
      refine hv.leaves use ?_ _ hnew fp huB hb
      rcases List.mem_append.1 huse with huse | huse
      · refine List.mem_append_left _ ?_
        show use ∈ (control.membershipAudit ++ [_]).map ClusterMembershipAudit.leafUse
        rw [List.map_append]
        exact List.mem_append_left _ huse
      · exact List.mem_append_right _ huse
    · rintro ⟨prep, hp, hph, rfl⟩
      -- the new entry authorises the candidate, so the validator finds its activation
      have haf : FirstAuthorized (control.membershipAudit ++ [_]) control.certificateRolloutAudit
          prep.nextTlsServerCertificateFingerprint := hv.candidates prep hp hph
      have hbe := h.candidates prep hp hph
      unfold FirstAuthorized at haf hbe
      rw [← hbe] at haf
      cases hfind : control.membershipAudit.find? (authorizes
          prep.nextTlsServerCertificateFingerprint) with
      | some prior => exact ⟨prior, List.mem_of_find?_eq_some hfind, List.find?_some hfind⟩
      | none =>
        rw [List.find?_append, hfind, Option.none_or, Option.map_none, Option.map_eq_none_iff,
          List.find?_eq_none] at haf
        have ha := haf _ (List.mem_singleton_self _)
        simp [authorizes, registrationAudit, hleaf] at ha
  · intro hcl
    have hidle : control.certificateRollouts[command.registration.nodeId]? = none := by
      cases he : control.members[command.registration.nodeId]? with
      | some member =>
        have hkey := (h.members.valid _ _ he).key
        rw [hkey]
        exact (hk member he).1
      | none =>
        cases hro : control.certificateRollouts[command.registration.nodeId]? with
        | none => rfl
        | some rollout =>
          obtain ⟨member, hm, -⟩ := (h.rollouts.live _ _ hro).current
          exact absurd (he.symm.trans hm) (by simp)
    have hr := hl.recordMember hre hidle hg.capacity ?_ ?_
    · obtain ⟨rec, hrc, -, -, hlive⟩ := hg.challenged.unredeemed
      exact hr.consume hrc hlive
    · intro fp hf use huse hb
      simp only [fingerprints, registrationAudit, List.mem_append,
        Option.mem_toList] at hf
      rcases hf with hpr | hc
      · rw [hg.revision.previousTls_eq] at hpr
        obtain ⟨member, hm, hleaf⟩ := Option.bind_eq_some_iff.1 hpr
        exact h.leaf_owner hm hleaf huse hb
      · exact (hcl fp hc).own use huse hb
    · intro fp ha hp
      have hc : command.registration.tlsServerCertificateFingerprint = some fp := by
        simpa [authorizes, registrationAudit] using ha
      exact (hcl fp hc).authorized hp

/-- The newest audit entry of an unfinished rollout. -/
theorem ValidControl.exists_newest_rollout
    (hr : control.certificateRollouts[nodeId]? = some rollout) :
    ∃ top, lastFor ClusterCertificateRolloutAudit.nodeId nodeId
        control.certificateRolloutAudit = some top ∧
      top.currentPhase = some rollout.phase ∧
      top.nextTlsServerCertificateFingerprint = rollout.nextTlsServerCertificateFingerprint := by
  obtain ⟨top, hn, hhead⟩ := Option.map_eq_some_iff.1 (h.rollouts.live nodeId rollout hr).newest
  exact ⟨top, hn, congrArg CertificateRolloutAuditHead.phase hhead,
    congrArg CertificateRolloutAuditHead.nextFingerprint hhead⟩

/-- The activation of a candidate is its first authorisation. -/
theorem ValidControl.candidates_activate (hr : control.certificateRollouts[nodeId]? = some rollout)
    (hph : rollout.phase = .prepared) {au : ClusterMembershipAudit}
    {activation : ClusterCertificateRolloutAudit}
    (hleaf : au.currentTlsServerCertificateFingerprint = some
      rollout.nextTlsServerCertificateFingerprint) (hac : activation.currentPhase = some .activated)
    (hnext : activation.nextTlsServerCertificateFingerprint =
      rollout.nextTlsServerCertificateFingerprint)
    (hsame : au.authorization = activation.authorization) :
    CandidatesAuthorized (control.membershipAudit ++ [au])
      (control.certificateRolloutAudit ++ [activation]) := by
  obtain ⟨top, hn, hp, hc⟩ := h.exists_newest_rollout hr
  rw [hph] at hp
  have hmem := (mem_of_lastFor hn).1
  -- so far the candidate has neither been activated nor authorised
  have hun : lastWith (ClusterCertificateRolloutAudit.activates
      rollout.nextTlsServerCertificateFingerprint) control.certificateRolloutAudit = none := by
    rw [lastWith_eq_none]
    intro prior he
    rw [ClusterCertificateRolloutAudit.activates, Bool.and_eq_false_iff]
    by_cases hact : prior.currentPhase = some .activated
    · refine .inr (decide_eq_false ?_)
      rw [← hc]
      exact h.rolloutHistory.not_activated hn hp he hact
    · exact .inl (decide_eq_false hact)
  have hu : control.membershipAudit.find? (authorizes
      rollout.nextTlsServerCertificateFingerprint) = none := by
    have hf := h.candidates top hmem hp
    rw [FirstAuthorized, hc, hun, Option.map_none, Option.map_eq_none_iff]
      at hf
    exact hf
  intro prep hprep hpP
  rw [List.mem_append, List.mem_singleton] at hprep
  rcases hprep with hprep | rfl
  · by_cases hsL : prep.nextTlsServerCertificateFingerprint =
        rollout.nextTlsServerCertificateFingerprint
    · have ha : au.authorizes rollout.nextTlsServerCertificateFingerprint = true := by
        simp [authorizes, hleaf]
      have hacti : activation.activates rollout.nextTlsServerCertificateFingerprint = true := by
        simp [ClusterCertificateRolloutAudit.activates,
          ClusterCertificateRolloutAudit.isActivated, hac, hnext]
      rw [FirstAuthorized, hsL, List.find?_append, hu, lastWith_snoc, if_pos hacti]
      simp [ha, hsame]
    · have ho := h.candidates prep hprep hpP
      rw [FirstAuthorized, find?_authorizes_snoc, lastWith_snoc, if_neg]
      · exact ho
      · simp only [ClusterCertificateRolloutAudit.activates, hnext, Bool.and_eq_true,
          decide_eq_true_eq, not_and]
        exact fun _ heq => hsL heq.symm
      · intro ha
        simp only [authorizes, hleaf, beq_iff_eq, Option.some.injEq] at ha
        exact absurd ha.symm hsL
  · rw [hac] at hpP
    cases hpP

/-- A registration that activates a rollout keeps the control plane valid. -/
theorem RegisterGuard.activate_valid (hg : RegisterGuard K control command now hash rev)
    {member : ClusterMember} {retire : DateTime}
    (ha : Activates control command.registration now member rollout)
    (hd : now.checkedAddSigned (seconds rollout.minimumOverlapSeconds) = some retire) :
    ValidControl K (activateNext control command now hash rev rollout retire) := by
  have hle : control.logicalTime ≤ now := hg.challenged.clock.lt.le
  have hl := h.later hle
  have hfo := ha.found
  have hkey := (h.members.valid _ _ hfo).key
  have hr : control.certificateRollouts[command.registration.nodeId]? = some rollout := by
    rw [hkey]
    exact ha.unfinished
  have hlive := h.rollouts.live _ _ hr
  obtain ⟨hac, -, hph, hge, hnL, -⟩ := ha.activates
  have hfrom := hg.revision
  rw [hfo] at hfrom
  have hrv : rev.generation ≠ 0 := by
    cases hfrom
    exact Nat.succ_ne_zero _
  have hre := hl.recordRollout (hg.revises h)
    (rolloutAuditEntry (control.tlsTrustGeneration + 1)
      command.registration.nodeId rev.generation (some .prepared) (some .activated)
      rollout.previousTlsServerCertificateFingerprint rollout.nextTlsServerCertificateFingerprint
      command.actor command.reason now)
    (control.certificateRollouts.insert command.registration.nodeId
      (activatedRollout rollout command (control.tlsTrustGeneration + 1) rev.generation
        retire now))
    hg.capacity ha.rolloutCapacity rfl rfl ⟨.inl rfl, hnL, rfl⟩ ?_ ?_ ?_ ?_ ?_
    ?_ ?_ ?_
  · obtain ⟨rec, hrc, -, -, hu⟩ := hg.challenged.unredeemed
    exact hre.consume hrc hu
  · refine ⟨?_, hrv, le_rfl, h.isUuid_node hfo, hlive.previousLeaf, hlive.nextLeaf,
      hlive.distinct, hg.actor, hg.reason⟩
    show control.tlsTrustGeneration + 1 = _
    rw [h.trust]
  · show ClusterCertificateRolloutAudit.continues
      (lastFor ClusterCertificateRolloutAudit.nodeId _ control.certificateRolloutAudit) _
    rw [ClusterCertificateRolloutAudit.continues, hlive.newest]
    simp [rolloutTransitionIsValid, rolloutTransitionIsValid.sameLeaves,
      ClusterCertificateRollout.head, rolloutAuditEntry, hph]
  · intro prior he _ hsame
    obtain ⟨top, hn, hp, hc⟩ := h.exists_newest_rollout hr
    rw [hph] at hp
    have hne := h.rolloutHistory.not_activated hn hp he hsame
    rw [hc] at hne
    exact hne
  · intro fp hf use huse hb
    simp only [fingerprints, registrationAudit,
      ClusterCertificateRolloutAudit.leafUse, rolloutAuditEntry, hfrom.previousTls_eq, hnL,
      Option.bind_some, List.mem_append, Option.mem_toList, List.mem_cons, List.not_mem_nil,
      or_false] at hf
    rcases hf with (hpr | hnext) | hleaf
    · exact h.leaf_owner hfo hpr huse hb
    · exact h.rollout_leaf_owner hr huse hb (.inr (Option.some.inj hnext).symm)
    · exact h.rollout_leaf_owner hr huse hb hleaf
  · exact h.candidates_activate hr hph hnL rfl rfl rfl
  · intro o hne
    exact OrdMap.lookup_insert_ne _ _ hne
  · intro rollout' hr'
    rw [OrdMap.lookup_insert_self] at hr'
    obtain rfl := Option.some.inj hr'
    exact ⟨hlive.key, ⟨_, rfl, rfl, rfl, hnL⟩, Nat.succ_ne_zero _, hlive.overlap,
      hlive.window, hlive.updated.trans (hlive.clock.trans hle), le_rfl, hlive.previousLeaf,
      hlive.nextLeaf, hlive.distinct, hg.reason, ⟨retire, rfl, hd⟩, rfl⟩
  · rw [OrdMap.mem_insert_iff]
    simp [rolloutAuditEntry]

end Register

/-! ## Preparation -/

section Prepare

variable {K : Crypto} {control : ReplicatedControlPlaneState}
  {command : PrepareMemberCertificateRollout} {now prepBy : DateTime} {hash : Text}
  {member : ClusterMember} {previousLeaf nextLeaf : Text}

/-- The validator checks the candidate window against the longest one that fits on the clock. -/
theorem prepareWindowIsValid_iff {trust memGen : Nat}
    (hg : PrepareGuard K control command now prepBy hash member previousLeaf nextLeaf) :
    prepareWindowIsValid (preparedRollout command member trust memGen previousLeaf nextLeaf prepBy
        now) = true ↔
      (now.checkedAddSigned (seconds maxCertificateRolloutSeconds)).isSome = true := by
  have hw := hg.prepareWindow
  simp only [isOutsideRolloutWindow, not_or, not_lt] at hw
  obtain ⟨least, hmi, hle⟩ := DateTime.checkedAddSigned_of_le hg.expiry
    (by simp [seconds, minCertificateRolloutSeconds, nanosPerSecond]) (seconds_le hw.1)
  simp only [prepareWindowIsValid, preparedRollout, hmi, Option.any_some, hle, decide_true,
    Bool.true_and]
  cases hm : now.checkedAddSigned (seconds maxCertificateRolloutSeconds) with
  | none => simp
  | some maximum =>
    have hb : prepBy ≤ maximum := by
      have he := DateTime.checkedAddSigned_eq_some.1 hg.expiry
      have hl := DateTime.checkedAddSigned_eq_some.1 hm
      have hs := seconds_le hw.2
      rw [DateTime.le_iff]
      omega
    simp [hb]

/-- No audit entry names a leaf that was not previously authorised. -/
theorem not_mem_of_unauthorized {fp : Text}
    (h : certificateFingerprintWasPreviouslyAuthorized control fp = false) :
    ∀ use ∈ control.leafUses, fp ∉ use.leaves := by
  simp only [certificateFingerprintWasPreviouslyAuthorized, Bool.or_eq_false_iff,
    List.any_eq_false, Bool.or_eq_true, beq_iff_eq, not_or] at h
  intro use huse hb
  rcases List.mem_append.1 huse with huse | huse
  · obtain ⟨au, ha, rfl⟩ := List.mem_map.1 huse
    have hnot := h.1 au ha
    simp only [ClusterMembershipAudit.leafUse, fingerprints,
      List.mem_append, Option.mem_toList] at hb
    exact hb.elim hnot.1 hnot.2
  · obtain ⟨au, ha, rfl⟩ := List.mem_map.1 huse
    have hnot := h.2 au ha
    simp only [leafUse, List.mem_cons, List.not_mem_nil, or_false] at hb
    exact hb.elim (fun heq => hnot.1 heq.symm) (fun heq => hnot.2 heq.symm)

variable {preparation : ClusterCertificateRolloutAudit}

variable (h : ValidControl K control)
include h

/-- A new candidate is neither activated nor authorised, and the others are left alone. -/
theorem ValidControl.candidates_prepare (hm : control.members[nodeId]? = some member)
    (hp : member.tlsServerCertificateFingerprint = some previousLeaf)
    (hu : certificateFingerprintWasPreviouslyAuthorized control nextLeaf = false)
    (hd : previousLeaf ≠ nextLeaf) {au : ClusterMembershipAudit}
    (hleaf : au.currentTlsServerCertificateFingerprint = some previousLeaf)
    (hph : preparation.currentPhase = some .prepared)
    (hnext : preparation.nextTlsServerCertificateFingerprint = nextLeaf) :
    CandidatesAuthorized (control.membershipAudit ++ [au])
      (control.certificateRolloutAudit ++ [preparation]) := by
  have hun := not_mem_of_unauthorized hu
  have hi : ∀ fp, preparation.activates fp = false := by
    intro fp
    simp [activates, isActivated, hph]
  intro prep hprep hpP
  rw [FirstAuthorized, lastWith_snoc, hi, if_neg Bool.false_ne_true]
  rw [List.mem_append, List.mem_singleton] at hprep
  rcases hprep with hprep | rfl
  · rw [find?_authorizes_snoc]
    · exact h.candidates prep hprep hpP
    · intro ha
      refine h.exists_authorizes hm ?_
      rw [hp, ← hleaf]
      simpa [authorizes] using ha
  · rw [hnext]
    have hfind : (control.membershipAudit ++ [au]).find?
        (authorizes nextLeaf) = none := by
      rw [List.find?_eq_none]
      intro prior he ha
      rw [List.mem_append, List.mem_singleton] at he
      simp only [authorizes, beq_iff_eq] at ha
      rcases he with he | rfl
      · refine hun prior.leafUse
          (List.mem_append_left _ (List.mem_map_of_mem he)) ?_
        simp [ClusterMembershipAudit.leafUse, fingerprints, ha]
      · exact hd (Option.some.inj (hleaf.symm.trans ha))
    have hlast : lastWith (activates nextLeaf)
        control.certificateRolloutAudit = none := by
      rw [lastWith_eq_none]
      intro prior he
      rw [activates, Bool.and_eq_false_iff]
      refine .inr (decide_eq_false ?_)
      rintro rfl
      refine hun prior.leafUse (List.mem_append_right _ (List.mem_map_of_mem he)) ?_
      simp [leafUse]
    rw [hfind, hlast]
    rfl

/-- A node without an unfinished rollout may start one. -/
theorem ValidControl.starts_rollout (hidle : nodeId ∉ control.certificateRollouts)
    (hp : preparation.previousPhase = none) (hph : preparation.currentPhase = some .prepared) :
    preparation.continues (lastFor ClusterCertificateRolloutAudit.nodeId nodeId
      control.certificateRolloutAudit) := by
  have hs : rolloutTransitionIsValid.startsRollout [] preparation = true := by
    simp [rolloutTransitionIsValid.startsRollout, hp, hph]
  unfold ClusterCertificateRolloutAudit.continues
  cases hn : lastFor ClusterCertificateRolloutAudit.nodeId nodeId
      control.certificateRolloutAudit with
  | none => exact hs
  | some top =>
    have hf : top.currentPhase = none := by
      by_contra hu
      exact hidle ((h.rollouts.settled nodeId top hn).1 hu)
    rw [Option.map_some, rolloutTransitionIsValid]
    simp only [ClusterCertificateRolloutAudit.head, hf]
    exact hs

/-- A preparation keeps the control plane valid exactly when the longest candidate window still
fits on the clock. -/
theorem PrepareGuard.valid_iff
    (hg : PrepareGuard K control command now prepBy hash member previousLeaf nextLeaf) :
    ValidControl K (prepareNext control command now prepBy hash member previousLeaf nextLeaf) ↔
      (now.checkedAddSigned (seconds maxCertificateRolloutSeconds)).isSome = true := by
  have hle : control.logicalTime ≤ now := hg.challenged.clock.lt.le
  have hl := h.later hle
  have hm : control.members[member.nodeId]? = some member := by
    have hkey := (h.members.valid _ _ hg.found).key
    rw [← hkey]
    exact hg.found
  have ha : member.state ≠ .revoked := by simp [hg.active]
  have hu := not_mem_of_unauthorized hg.unauthorized
  rw [← prepareWindowIsValid_iff hg]
  constructor
  · intro hv
    refine (hv.rollouts.live member.nodeId _ ?_).window
    exact OrdMap.lookup_insert_self _ _ _
  · intro hw
    have hre := hl.recordRollout
      (hl.revises hm ha hg.revision hg.actor hg.reason member.state)
      (rolloutAuditEntry (control.tlsTrustGeneration + 1) member.nodeId
        (member.generation + 1) none (some .prepared) previousLeaf nextLeaf
        command.actor command.reason now)
      (control.certificateRollouts.insert member.nodeId
        (preparedRollout command member (control.tlsTrustGeneration + 1) (member.generation + 1)
          previousLeaf nextLeaf prepBy now))
      hg.capacity hg.rolloutCapacity rfl rfl
      ⟨.inl hg.active, hg.previousLeaf, rfl⟩ ?_ ?_ ?_ ?_ ?_ ?_ ?_ ?_
    · obtain ⟨rec, hrc, -, -, hun⟩ := hg.challenged.unredeemed
      exact hre.consume hrc hun
    · refine ⟨?_, Nat.succ_ne_zero _, le_rfl, h.isUuid_node hm,
        h.validTls_leaf hm hg.previousLeaf,
        (validateMemberRegistration_ok hg.challenged.valid).2 _ hg.nextLeaf,
        hg.distinct, hg.actor, hg.reason⟩
      show control.tlsTrustGeneration + 1 = _
      rw [h.trust]
    · exact h.starts_rollout hg.idle rfl rfl
    · intro prior he _ _ hnext
      refine hu prior.leafUse (List.mem_append_right _ (List.mem_map_of_mem he)) ?_
      have hleaf : prior.nextTlsServerCertificateFingerprint = nextLeaf := hnext
      simp [ClusterCertificateRolloutAudit.leafUse, hleaf]
    · intro fp hf use huse hb
      rcases List.mem_append.1 hf with hf | hf
      · exact h.leaf_owner hm (leaf_of_memberRevisionAudit hf) huse hb
      · simp only [ClusterCertificateRolloutAudit.leafUse, rolloutAuditEntry, List.mem_cons,
          List.not_mem_nil, or_false] at hf
        rcases hf with rfl | rfl
        · exact h.leaf_owner hm hg.previousLeaf huse hb
        · exact absurd hb (hu use huse)
    · exact h.candidates_prepare hm hg.previousLeaf hg.unauthorized hg.distinct
        hg.previousLeaf rfl rfl
    · intro o hne
      exact OrdMap.lookup_insert_ne _ _ hne
    · intro rollout' hr'
      rw [OrdMap.lookup_insert_self] at hr'
      obtain rfl := Option.some.inj hr'
      exact ⟨rfl, ⟨_, rfl, hg.active, rfl, hg.previousLeaf⟩, Nat.succ_ne_zero _,
        hg.overlapWindow, hw, le_rfl, le_rfl, h.validTls_leaf hm hg.previousLeaf,
        (validateMemberRegistration_ok hg.challenged.valid).2 _ hg.nextLeaf,
        hg.distinct, hg.reason, ⟨rfl, rfl⟩, rfl⟩
    · rw [OrdMap.mem_insert_iff]
      simp [rolloutAuditEntry]

end Prepare

/-! ## The end of a rollout, departure and revocation -/

section Leave

variable {K : Crypto} {control control' : ReplicatedControlPlaneState} {now : DateTime}
  {member : ClusterMember}

/-- Aborting or finalising a rollout keeps the control plane valid. -/
theorem FinishGuard.valid {finish : CertificateRolloutFinish}
    {command : FinishMemberCertificateRollout}
    (h : ValidControl K control) (hg : FinishGuard control finish command now member rollout) :
    ValidControl K (finishNext control command now member rollout) := by
  have hle : control.logicalTime ≤ now := hg.clock.lt.le
  have hkey : command.nodeId = member.nodeId := (h.members.valid _ _ hg.found).key
  have he := (h.later hle).endRollout hg.found hg.active hg.revision hg.actor
    hg.reason hg.unfinished hg.capacity hg.rolloutCapacity (.inl hg.active)
  rw [finishNext, ← hkey]
  exact he

/-- A departure keeps the control plane valid; a revocation does so exactly in a term that is not
older than the terms of the leases it releases. -/
theorem SetStateOutcome.valid_iff {command : SetMemberState} {term : Nat}
    (h : ValidControl K control) (hterm : term ≠ 0) (hg : SetStateGuard control command now member)
    (hou : SetStateOutcome control command term now member control') :
    ValidControl K control' ↔
      (command.state = .revoked → ∀ prev ∈ activeOwned control command.nodeId now,
        prev.authorityTerm ≤ term) := by
  have hle : control.logicalTime ≤ now := hg.clock.lt.le
  have hl := h.later hle
  -- the ownership parts of a revocation do not depend on the member revision stored after them
  have hre : ∀ {control'' : ReplicatedControlPlaneState}, ValidControl K control'' →
      control''.logicalTime = now →
      control''.ownerships = (releaseLeases command.nodeId term command.actor
        command.reason now { control with logicalTime := now }
        (activeOwned control command.nodeId now)).ownerships →
      control''.ownershipAudit = (releaseLeases command.nodeId term command.actor
        command.reason now { control with logicalTime := now }
        (activeOwned control command.nodeId now)).ownershipAudit →
      (∀ prev ∈ activeOwned control command.nodeId now,
        prev.generation + 1 < 2 ^ 64) →
        ∀ prev ∈ activeOwned control command.nodeId now,
          prev.authorityTerm ≤ term := by
    intro control'' hv htime ho hau hr
    have hpart := hv.ownershipPart
    rw [htime, ho, hau] at hpart
    exact (hl.ownershipPart.releaseLeases_iff hterm hg.actor hg.reason
      (leasesOf_activeOwned hl hr)).1 hpart
  cases hou with
  | leave hs hidle hse =>
    refine ⟨fun _ hrv => ?_, fun _ => ?_⟩
    · rw [hs] at hrv
      cases hrv
    · exact hl.recordIdle hg.found hg.admitted hg.revision hg.actor
        hg.reason hidle hg.capacity command.state
  | revoke hs hidle hroom hr =>
    refine ⟨fun hv _ => hre hv rfl rfl rfl hr, fun ht => ?_⟩
    have hbase := (hl.releaseLeases_iff hterm hg.actor hg.reason hroom hr).2 (ht hs)
    exact hbase.recordIdle hg.found hg.admitted hg.revision hg.actor
      hg.reason hidle hg.capacity command.state
  | revokeDrop rollout hs hu hroom hr hrC htr =>
    refine ⟨fun hv _ => hre hv rfl rfl rfl hr, fun ht => ?_⟩
    have hbase := (hl.releaseLeases_iff hterm hg.actor hg.reason hroom hr).2 (ht hs)
    have ha : member.state = .active := by
      obtain ⟨m, hm, ha, -⟩ := (h.rollouts.live _ _ hu).current
      obtain rfl := Option.some.inj (hg.found.symm.trans hm)
      exact ha
    exact hbase.endRollout hg.found ha hg.revision hg.actor hg.reason hu hg.capacity hrC (.inr hs)

end Leave

end AgentOS
