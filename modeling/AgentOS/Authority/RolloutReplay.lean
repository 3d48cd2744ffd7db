import AgentOS.Authority.MembershipReplay

/-!
# What a valid rollout history is

The rollout loop of the validator accepts a history exactly when every entry is well formed,
continues the rollout of its node, names an existing member revision, and neither prepares nor
activates a candidate a second time (`rolloutLoop_eq_ok`). A live rollout is the newest entry of
its node together with the deadlines that entry does not record (`LiveRollout`).
-/

namespace AgentOS

open Lib ClusterCertificateRolloutAudit RolloutScan

/-! ## The rollout loop -/

namespace ClusterCertificateRolloutAudit

variable (audit : ClusterCertificateRolloutAudit)

/-- The node, generation and instant of an entry, as an authorisation of its candidate. -/
def authorization : Authorization :=
  (audit.nodeId, audit.memberGeneration, audit.changedAt)

def isPrepared : Bool :=
  decide (audit.currentPhase = some .prepared)

def isActivated : Bool :=
  decide (audit.currentPhase = some .activated)

/-- The entry activates a candidate. -/
def activates (fingerprint : Text) (audit : ClusterCertificateRolloutAudit) : Bool :=
  audit.isActivated && decide (audit.nextTlsServerCertificateFingerprint = fingerprint)

/-- The entry continues the newest earlier entry of its node. -/
def continues (previous : Option ClusterCertificateRolloutAudit)
    (audit : ClusterCertificateRolloutAudit) : Prop :=
  rolloutTransitionIsValid [] audit (previous.map head) = true

/-- The entry does not repeat the phase of an earlier entry for the same candidate. -/
def repeatsNot (earlier audit : ClusterCertificateRolloutAudit) : Prop :=
  audit.currentPhase ≠ none → earlier.currentPhase = audit.currentPhase →
    earlier.nextTlsServerCertificateFingerprint ≠ audit.nextTlsServerCertificateFingerprint

end ClusterCertificateRolloutAudit

/-- The tests that look at one rollout audit entry alone. -/
structure RolloutEntryValid (logicalTime : DateTime) (index : Nat)
    (audit : ClusterCertificateRolloutAudit) : Prop where
  trust : audit.trustGeneration = index + 1
  generation : audit.memberGeneration ≠ 0
  changed : audit.changedAt ≤ logicalTime
  node : isUuid audit.nodeId = true
  previousLeaf : validTlsFingerprint audit.previousTlsServerCertificateFingerprint = true
  nextLeaf : validTlsFingerprint audit.nextTlsServerCertificateFingerprint = true
  distinct : audit.previousTlsServerCertificateFingerprint ≠
    audit.nextTlsServerCertificateFingerprint
  actor : ¬ isInvalidText audit.actor
  reason : ¬ isInvalidText audit.reason

/-- The candidates named by earlier preparations only matter to a new preparation. -/
theorem rolloutTransitionIsValid_iff (seen : List Text) (audit : ClusterCertificateRolloutAudit)
    (head : Option CertificateRolloutAuditHead) :
    rolloutTransitionIsValid seen audit head = true ↔
      rolloutTransitionIsValid [] audit head = true ∧ (audit.currentPhase = some .prepared →
          audit.nextTlsServerCertificateFingerprint ∉ seen) := by
  have hs : rolloutTransitionIsValid.startsRollout seen audit = true ↔
      rolloutTransitionIsValid.startsRollout [] audit = true ∧
        (audit.currentPhase = some .prepared →
          audit.nextTlsServerCertificateFingerprint ∉ seen) := by
    simp only [rolloutTransitionIsValid.startsRollout, Bool.and_eq_true, beq_iff_eq,
      Bool.not_eq_true', List.contains_eq_mem, decide_eq_false_iff_not, List.not_mem_nil,
      not_false_eq_true, and_true]
    constructor
    · rintro ⟨⟨hpr, hc⟩, hseen⟩
      exact ⟨⟨hpr, hc⟩, fun _ => hseen⟩
    · rintro ⟨⟨hpr, hc⟩, hseen⟩
      exact ⟨⟨hpr, hc⟩, hseen hc⟩
  cases head with
  | none => exact hs
  | some head =>
    cases hph : head.phase with
    | none => simpa only [rolloutTransitionIsValid, hph] using hs
    | some ph =>
      -- a continuation never prepares
      cases ph with
      | prepared =>
        simp only [rolloutTransitionIsValid, hph, Bool.and_eq_true, Bool.or_eq_true,
          beq_iff_eq, Option.isNone_iff_eq_none]
        constructor
        · intro h
          refine ⟨h, fun hp => ?_⟩
          rcases h.1.2 with h' | h' <;> simp [hp] at h'
        · exact fun h => h.1
      | activated =>
        simp only [rolloutTransitionIsValid, hph, Bool.and_eq_true, beq_iff_eq,
          Option.isNone_iff_eq_none]
        constructor
        · intro h
          refine ⟨h, fun hp => ?_⟩
          have hf := h.1.2
          simp [hp] at hf
        · exact fun h => h.1

variable (membership : List ClusterMembershipAudit) (log : List ClusterCertificateRolloutAudit)

/-- The accumulators of the rollout loop after a history. -/
def RolloutScan.replay : RolloutScan where
  index := log.length
  historicalTlsOwners := leafOwners (membership.map ClusterMembershipAudit.leafUse ++
    log.map ClusterCertificateRolloutAudit.leafUse)
  seenRolloutCandidates := (log.filter ClusterCertificateRolloutAudit.isPrepared).reverse.map
    ClusterCertificateRolloutAudit.nextTlsServerCertificateFingerprint
  firstRolloutActivation :=
    indexBy ClusterCertificateRolloutAudit.nextTlsServerCertificateFingerprint
      ClusterCertificateRolloutAudit.authorization
      (log.filter ClusterCertificateRolloutAudit.isActivated)
  latestRolloutAudit := indexBy ClusterCertificateRolloutAudit.nodeId
    ClusterCertificateRolloutAudit.head log

theorem RolloutScan.foldl_next :
    log.foldl next (.init (.replay membership)) = .replay membership log := by
  induction log using List.reverseRecOn with
  | nil => simp [init, replay, MembershipScan.replay, indexBy]
  | append_singleton log audit ih =>
    rw [List.foldl_append, List.foldl_cons, List.foldl_nil, ih]
    simp only [next, replay, List.length_append, List.length_singleton, indexBy_snoc,
      List.filter_append, List.map_append]
    congr 1
    · simp [leafOwners, ownerIndex, bindKeys, ClusterCertificateRolloutAudit.leafUse]
    · by_cases h : audit.currentPhase = some .prepared <;>
        simp [ClusterCertificateRolloutAudit.isPrepared, h]
    · by_cases h : audit.currentPhase = some .activated
      · simp [ClusterCertificateRolloutAudit.isActivated, h, indexBy_snoc,
          ClusterCertificateRolloutAudit.authorization]
      · simp [ClusterCertificateRolloutAudit.isActivated, h]

theorem lookup_firstRolloutActivation (fp : Text) :
    (RolloutScan.replay membership log).firstRolloutActivation[fp]? =
      (lastWith (ClusterCertificateRolloutAudit.activates fp) log).map
        ClusterCertificateRolloutAudit.authorization := by
  simp only [RolloutScan.replay, lookup_indexBy, lastFor, lastWith, ← List.filter_reverse,
    List.find?_filter]
  congr 2
  funext audit
  simp [ClusterCertificateRolloutAudit.activates, Bool.and_comm]

variable {membership : List ClusterMembershipAudit} {log : List ClusterCertificateRolloutAudit}

theorem mem_firstRolloutActivation {fp : Text} :
    fp ∈ (replay membership log).firstRolloutActivation ↔
      ∃ audit ∈ log, audit.currentPhase = some .activated ∧
        audit.nextTlsServerCertificateFingerprint = fp := by
  simp [replay, mem_indexBy, isActivated, and_assoc]

theorem mem_seenRolloutCandidates {fp : Text} :
    fp ∈ (replay membership log).seenRolloutCandidates ↔
      ∃ audit ∈ log, audit.currentPhase = some .prepared ∧
        audit.nextTlsServerCertificateFingerprint = fp := by
  simp [replay, isPrepared, and_assoc]

/-- A rollout history that the validator accepts next to a membership history, apart from the
ownership of its leaves. -/
structure RolloutHistory (logicalTime : DateTime) (membership : List ClusterMembershipAudit)
    (log : List ClusterCertificateRolloutAudit) : Prop where
  entries : EachAfter (fun pre audit => RolloutEntryValid logicalTime pre.length audit) log
  chained : Chained ClusterCertificateRolloutAudit.nodeId
    ClusterCertificateRolloutAudit.continues log
  unique : log.Pairwise ClusterCertificateRolloutAudit.repeatsNot
  revisions : ∀ audit ∈ log, HasRevision membership audit

variable {logicalTime : DateTime} {scan : RolloutScan} {audit : ClusterCertificateRolloutAudit}

theorem not_rolloutEntryIsInvalid_iff {history : MembershipScan} :
    ¬ rolloutEntryIsInvalid logicalTime history scan audit ↔
      (RolloutEntryValid logicalTime scan.index audit ∧
        rolloutTransitionIsValid scan.seenRolloutCandidates audit
          scan.latestRolloutAudit[audit.nodeId]? = true) ∧
        revisionMatches history audit = true ∧
        ∀ fp ∈ audit.leafUse.leaves, ∀ owner,
          scan.historicalTlsOwners[fp]? = some owner → owner = audit.nodeId := by
  have ho : ∀ fp : Text,
      (scan.historicalTlsOwners[fp]?.any fun owner => owner != audit.nodeId) = false ↔
        ∀ owner, scan.historicalTlsOwners[fp]? = some owner → owner = audit.nodeId := by
    intro fp
    cases scan.historicalTlsOwners[fp]? <;> simp
  simp only [rolloutEntryIsInvalid, not_or, ne_eq, not_not, not_lt, Bool.not_eq_false,
    Bool.not_eq_true, ho, ClusterCertificateRolloutAudit.leafUse, List.forall_mem_cons,
    List.not_mem_nil, IsEmpty.forall_iff, implies_true, and_true]
  constructor
  · rintro ⟨htr, hg, hc, hnode, hp, hnext, hd, ha, hre,
      ht, hr, hl⟩
    exact ⟨⟨⟨htr, hg, hc, hnode, hp, hnext, hd, ha, hre⟩, ht⟩, hr, hl⟩
  · rintro ⟨⟨⟨htr, hg, hc, hnode, hp, hnext, hd, ha,
      hre⟩, ht⟩, hr, hl⟩
    exact ⟨htr, hg, hc, hnode, hp, hnext, hd, ha, hre, ht, hr, hl⟩

/-- One round of the rollout loop tests an entry and then updates the accumulators. -/
theorem rolloutRound_eq_ok {history : MembershipScan} {scan' : RolloutScan} :
    rolloutRound logicalTime history scan audit = .ok scan' ↔
      (¬ rolloutEntryIsInvalid logicalTime history scan audit ∧
        (audit.currentPhase = some .activated →
          audit.nextTlsServerCertificateFingerprint ∉ scan.firstRolloutActivation)) ∧
        scan.next audit = scan' := by
  simp only [rolloutRound, bind_eq_ok, rejectIf_eq_ok, pure_eq_ok, exists_and_left, exists_const,
    not_and, and_assoc]

theorem rolloutLoop_eq_ok (hm : MembershipHistory logicalTime membership) :
    log.foldlM (rolloutRound logicalTime (.replay membership)) (.init (.replay membership)) =
        .ok scan ↔
      (RolloutHistory logicalTime membership log ∧
        EachAfter (fun pre audit => BindsOwnLeaves (membership.map ClusterMembershipAudit.leafUse ++
          pre.map ClusterCertificateRolloutAudit.leafUse) audit.leafUse) log) ∧
        RolloutScan.replay membership log = scan := by
  rw [foldlM_eq_ok_iff (fun _ _ _ => rolloutRound_eq_ok), RolloutScan.foldl_next]
  refine and_congr_left fun _ => ?_
  simp only [RolloutScan.foldl_next, not_rolloutEntryIsInvalid_iff, mem_firstRolloutActivation,
    revisionMatches_replay_iff hm]
  constructor
  · intro h
    refine ⟨⟨?_, ?_, ?_, ?_⟩, ?_⟩
    · exact h.mono fun pre audit _ hgood => hgood.1.1.1
    · refine h.mono fun pre audit _ hgood => ?_
      have ht := ((rolloutTransitionIsValid_iff _ _ _).1 hgood.1.1.2).1
      rwa [RolloutScan.replay, lookup_indexBy] at ht
    · refine eachAfter_iff_pairwise.1 (h.mono ?_)
      intro pre audit _ hgood prior he hp hsame hnext
      have hseen := ((rolloutTransitionIsValid_iff _ _ _).1 hgood.1.1.2).2
      cases hc : audit.currentPhase with
      | none => exact hp hc
      | some ph =>
        cases ph with
        | prepared =>
          exact hseen hc (mem_seenRolloutCandidates.2 ⟨prior, he, hsame.trans hc, hnext⟩)
        | activated => exact hgood.2 hc ⟨prior, he, hsame.trans hc, hnext⟩
    · exact eachAfter_iff_forall_mem.1 (h.mono fun pre audit _ hgood => hgood.1.2.1)
    · exact h.mono fun pre audit _ hgood => hgood.1.2.2
  · rintro ⟨hh, ho⟩ pre audit post hlog
    have hu := (eachAfter_iff_pairwise.2 hh.unique) pre audit post hlog
    refine ⟨⟨⟨hh.entries pre audit post hlog, ?_⟩,
      hh.revisions audit (by simp [hlog]), ho pre audit post hlog⟩, ?_⟩
    · refine (rolloutTransitionIsValid_iff _ _ _).2 ⟨?_, ?_⟩
      · rw [RolloutScan.replay, lookup_indexBy]
        exact hh.chained pre audit post hlog
      · intro hpr hseen
        obtain ⟨prior, he, hp, hnext⟩ := mem_seenRolloutCandidates.1 hseen
        exact hu prior he (by simp [hpr]) (hp.trans hpr.symm) hnext
    · rintro ha ⟨prior, he, hp, hnext⟩
      exact hu prior he (by simp [ha]) (hp.trans ha.symm) hnext

/-! ## Candidates -/

/-- The first authorisation of a leaf by the membership history is its activation. -/
def FirstAuthorized (membership : List ClusterMembershipAudit)
    (log : List ClusterCertificateRolloutAudit) (fingerprint : Text) : Prop :=
  (membership.find? (ClusterMembershipAudit.authorizes fingerprint)).map
      ClusterMembershipAudit.authorization =
    (lastWith (ClusterCertificateRolloutAudit.activates fingerprint) log).map
      ClusterCertificateRolloutAudit.authorization

/-- Every candidate was first authorised by its activation. -/
def CandidatesAuthorized (membership : List ClusterMembershipAudit)
    (log : List ClusterCertificateRolloutAudit) : Prop :=
  ∀ audit ∈ log, audit.currentPhase = some .prepared →
    FirstAuthorized membership log audit.nextTlsServerCertificateFingerprint

theorem candidateWasAuthorizedEarly_eq_false_iff {cand : Text} :
    candidateWasAuthorizedEarly (.replay membership) (.replay membership log) cand = false ↔
      FirstAuthorized membership log cand := by
  have hf : (MembershipScan.replay membership).firstMembershipTlsRevision[cand]? = _ :=
    lookup_firstAuthorizations membership cand
  rw [candidateWasAuthorizedEarly, hf, lookup_firstRolloutActivation, FirstAuthorized]
  cases (membership.find? (ClusterMembershipAudit.authorizes cand)).map
      ClusterMembershipAudit.authorization <;>
    cases (lastWith (ClusterCertificateRolloutAudit.activates cand) log).map
      ClusterCertificateRolloutAudit.authorization <;> simp

theorem candidates_any_eq_false_iff :
    (replay membership log).seenRolloutCandidates.any
        (candidateWasAuthorizedEarly (.replay membership) (.replay membership log)) = false ↔
      CandidatesAuthorized membership log := by
  rw [List.any_eq_false]
  simp only [mem_seenRolloutCandidates, Bool.not_eq_true, candidateWasAuthorizedEarly_eq_false_iff]
  constructor
  · intro h audit ha hp
    exact h _ ⟨audit, ha, hp, rfl⟩
  · rintro h _ ⟨audit, ha, hp, rfl⟩
    exact h audit ha hp

/-! ## Live rollouts -/

/-- The TLS leaf that the member of an unfinished rollout carries. -/
def ClusterCertificateRollout.currentLeaf (rollout : ClusterCertificateRollout) : Text :=
  match rollout.phase with
  | .prepared => rollout.previousTlsServerCertificateFingerprint
  | .activated => rollout.nextTlsServerCertificateFingerprint

/-- The retirement deadline of a rollout, by phase. -/
def ClusterCertificateRollout.DeadlineAgrees (rollout : ClusterCertificateRollout) : Prop :=
  match rollout.phase with
  | .prepared => rollout.retirePreviousAfter = none ∧ rollout.updatedAt = rollout.preparedAt
  | .activated => ∃ deadline, rollout.retirePreviousAfter = some deadline ∧
      rollout.updatedAt.checkedAddSigned (seconds rollout.minimumOverlapSeconds) = some deadline

/-- A live rollout that the validator accepts next to its member and its newest audit entry. -/
structure LiveRollout (logicalTime : DateTime) (nodeId : Text) (member : Option ClusterMember)
    (newest : Option ClusterCertificateRolloutAudit) (rollout : ClusterCertificateRollout) :
    Prop where
  key : nodeId = rollout.nodeId
  current : ∃ m, member = some m ∧ m.state = .active ∧ m.generation = rollout.memberGeneration ∧
    m.tlsServerCertificateFingerprint = some rollout.currentLeaf
  trust : rollout.trustGeneration ≠ 0
  overlap : ¬ isOutsideRolloutWindow rollout.minimumOverlapSeconds
  window : prepareWindowIsValid rollout = true
  updated : rollout.preparedAt ≤ rollout.updatedAt
  clock : rollout.updatedAt ≤ logicalTime
  previousLeaf : validTlsFingerprint rollout.previousTlsServerCertificateFingerprint = true
  nextLeaf : validTlsFingerprint rollout.nextTlsServerCertificateFingerprint = true
  distinct : rollout.previousTlsServerCertificateFingerprint ≠
    rollout.nextTlsServerCertificateFingerprint
  reason : ¬ isInvalidText rollout.reason
  deadline : rollout.DeadlineAgrees
  newest : newest.map ClusterCertificateRolloutAudit.head = some rollout.head

variable {rollout : ClusterCertificateRollout}

theorem retirementIsValid_iff {member : Option ClusterMember} :
    retirementIsValid member rollout = true ↔ rollout.DeadlineAgrees ∧
        member.bind ClusterMember.tlsServerCertificateFingerprint = some rollout.currentLeaf := by
  unfold retirementIsValid ClusterCertificateRollout.DeadlineAgrees
    ClusterCertificateRollout.currentLeaf
  cases rollout.phase with
  | prepared => simp [and_assoc]
  | activated => cases rollout.retirePreviousAfter <;> simp

theorem not_rolloutIsInvalid_iff {nodeId : Text} {member : Option ClusterMember}
    {top : Option ClusterCertificateRolloutAudit} :
    ¬ rolloutIsInvalid logicalTime nodeId member (top.map head) rollout ↔
      LiveRollout logicalTime nodeId member top rollout := by
  have hm : (member.all fun m =>
      m.state != .active || m.generation != rollout.memberGeneration) = false ↔
        ∃ m, member = some m ∧ m.state = .active ∧ m.generation = rollout.memberGeneration := by
    cases member <;> simp
  simp only [rolloutIsInvalid, not_or, ne_eq, not_not, not_lt, Bool.not_eq_false,
    Bool.not_eq_true, hm, retirementIsValid_iff]
  constructor
  · rintro ⟨hkey, ⟨m, rfl, hs, hg⟩, ht, ho, hw, hu, hc,
      hp, hnext, hdi, hr, ⟨hd, hleaf⟩, hn⟩
    exact ⟨hkey, ⟨m, rfl, hs, hg, hleaf⟩, ht, ho, hw, hu, hc, hp, hnext, hdi, hr, hd, hn⟩
  · rintro ⟨hkey, ⟨m, rfl, hs, hg, hleaf⟩, ht, ho, hw, hu,
      hc, hp, hnext, hdi, hr, hd, hn⟩
    exact ⟨hkey, ⟨m, rfl, hs, hg⟩, ht, ho, hw, hu, hc, hp, hnext, hdi, hr, ⟨hd, hleaf⟩, hn⟩

/-- Live rollouts that the validator accepts next to the members and the rollout history. -/
structure RolloutsValid (logicalTime : DateTime) (members : OrdMap Text ClusterMember)
    (rollouts : OrdMap Text ClusterCertificateRollout)
    (log : List ClusterCertificateRolloutAudit) : Prop where
  live : ∀ (nodeId : Text) (rollout : ClusterCertificateRollout), rollouts[nodeId]? = some rollout →
    LiveRollout logicalTime nodeId members[nodeId]?
      (lastFor ClusterCertificateRolloutAudit.nodeId nodeId log) rollout
  settled : ∀ (nodeId : Text) (audit : ClusterCertificateRolloutAudit),
    lastFor ClusterCertificateRolloutAudit.nodeId nodeId log = some audit →
      (audit.currentPhase ≠ none ↔ nodeId ∈ rollouts)

theorem liveRollouts_eq_ok {members : OrdMap Text ClusterMember}
    {rolls : OrdMap Text ClusterCertificateRollout} {msg : String} :
    ((rolls.toList.forM fun e => rejectIf (rolloutIsInvalid logicalTime e.1 members[e.1]?
            (replay membership log).latestRolloutAudit[e.1]? e.2)
          msg) = .ok () ∧
      ((replay membership log).latestRolloutAudit.toList.any fun e =>
        e.2.phase.isSome != rolls.contains e.1) = false) ↔
      RolloutsValid logicalTime members rolls log := by
  have hl : ∀ nodeId, (replay membership log).latestRolloutAudit[nodeId]? =
      (lastFor ClusterCertificateRolloutAudit.nodeId nodeId log).map
        ClusterCertificateRolloutAudit.head := fun nodeId => lookup_indexBy _ _ _ _
  rw [forM_eq_ok_iff (fun e => rejectIf_eq_ok), OrdMap.toList_any_eq_false]
  simp only [hl, not_rolloutIsInvalid_iff]
  constructor
  · rintro ⟨hlive, hs⟩
    refine ⟨?_, ?_⟩
    · intro nodeId rollout hr
      exact hlive (nodeId, rollout) (OrdMap.mem_toList_iff.2 hr)
    · intro nodeId audit ha
      have hp := hs nodeId audit.head (by rw [ha, Option.map_some])
      rw [bne_eq_false_iff_eq] at hp
      rw [← Std.ExtTreeMap.contains_iff_mem, ← hp]
      exact Option.isSome_iff_ne_none.symm
  · rintro ⟨hlive, hs⟩
    refine ⟨?_, ?_⟩
    · intro e he
      exact hlive e.1 e.2 (OrdMap.mem_toList_iff.1 he)
    · intro nodeId head hhead
      obtain ⟨audit, ha, rfl⟩ := Option.map_eq_some_iff.1 hhead
      have hp := hs nodeId audit ha
      rw [bne_eq_false_iff_eq, Bool.eq_iff_iff, Std.ExtTreeMap.contains_iff_mem, ← hp]
      exact Option.isSome_iff_ne_none

end AgentOS
