import AgentOS.Lib.History
import AgentOS.Authority.Validator

/-!
# What a valid membership history is

The membership loop of the validator accepts a history exactly when every entry is well formed,
continues the newest earlier entry of its node, and binds only TLS leaves that no other node has
bound before (`membershipLoop_eq_ok`). The member loop then accepts the live members exactly when
each one is the newest revision of its node and no two share an identity (`memberLoop_eq_ok`).
-/

namespace AgentOS

open Lib ClusterMembershipAudit MembershipScan

/-! ## TLS leaves in the histories -/

/-- The TLS leaves that an audit entry binds to a node. -/
structure LeafUse where
  leaves : List Text
  nodeId : Text

variable (audit : ClusterMembershipAudit)

def ClusterMembershipAudit.leafUse : LeafUse :=
  ⟨audit.fingerprints, audit.nodeId⟩

def ClusterCertificateRolloutAudit.leafUse (audit : ClusterCertificateRolloutAudit) : LeafUse :=
  ⟨[audit.previousTlsServerCertificateFingerprint, audit.nextTlsServerCertificateFingerprint],
    audit.nodeId⟩

variable (uses : List LeafUse)

/-- Every TLS leaf of the two histories belongs to one node. -/
abbrev LeavesOwned : Prop :=
  Lib.Owned LeafUse.leaves LeafUse.nodeId uses

/-- The node that the newest entry binding a leaf binds it to. -/
abbrev leafOwners : OrdMap Text Text :=
  ownerIndex LeafUse.leaves LeafUse.nodeId uses

/-- One more entry binds only leaves of its own node. -/
def BindsOwnLeaves (use : LeafUse) : Prop :=
  ∀ fingerprint ∈ use.leaves, ∀ owner, (leafOwners uses)[fingerprint]? = some owner →
    owner = use.nodeId

theorem leavesOwned_iff_eachAfter {uses : List LeafUse} :
    EachAfter BindsOwnLeaves uses ↔ LeavesOwned uses := by
  refine Iff.trans ?_ owned_iff_eachAfter
  constructor
  · intro h pre use post huses fp hf b hb
    refine h pre use post huses fp hf b.nodeId ?_
    rw [lookup_ownerIndex, hb, Option.map_some]
  · intro h pre use post huses fp hf owner ho
    rw [lookup_ownerIndex] at ho
    obtain ⟨b, hb, rfl⟩ := Option.map_eq_some_iff.1 ho
    exact h pre use post huses fp hf b hb

/-! ## The membership loop -/

namespace ClusterMembershipAudit

/-- The head that a membership audit entry leaves behind. -/
def head : MembershipHead :=
  (audit.memberGeneration, audit.current, audit.currentTlsServerCertificateFingerprint)

def evidence : MembershipRevisionEvidence :=
  (audit.current, audit.currentTlsServerCertificateFingerprint, audit.changedAt)

/-- The node, generation and instant that an entry authorises its current leaf with. -/
def authorization : Authorization :=
  (audit.nodeId, audit.memberGeneration, audit.changedAt)

/-- The entry makes a leaf the current one of its node. -/
def authorizes (fingerprint : Text) (audit : ClusterMembershipAudit) : Bool :=
  audit.currentTlsServerCertificateFingerprint == some fingerprint

/-- The entry continues the newest earlier entry of its node. -/
def continues (previous : Option ClusterMembershipAudit) (audit : ClusterMembershipAudit) : Prop :=
  membershipTransitionIsValid audit (previous.map head) = true

end ClusterMembershipAudit

variable (log : List ClusterMembershipAudit)

/-- Keep the first authorisation of every leaf. -/
def firstAuthorizations : OrdMap Text Authorization :=
  log.foldl
    (fun m audit =>
      match audit.currentTlsServerCertificateFingerprint with
      | none => m
      | some fingerprint => insertIfAbsent m fingerprint audit.authorization)
    ∅

theorem lookup_insertIfAbsent {υ : Type} (m : OrdMap Text υ) (key a : Text) (value : υ) :
    (insertIfAbsent m key value)[a]? = m[a]?.or (if key = a then some value else none) := by
  unfold insertIfAbsent
  by_cases hmem : key ∈ m
  · rw [if_pos hmem]
    by_cases hkey : key = a
    · obtain ⟨v, hv⟩ := (OrdMap.mem_iff_exists_lookup m key).1 hmem
      rw [← hkey, hv, Option.some_or]
    · rw [if_neg hkey, Option.or_none]
  · rw [if_neg hmem, OrdMap.lookup_insert]
    by_cases hkey : key = a
    · rw [← hkey, (OrdMap.not_mem_iff_lookup m key).1 hmem]
      simp
    · rw [if_neg hkey, if_neg hkey, Option.or_none]

theorem lookup_firstAuthorizations (log : List ClusterMembershipAudit) (fp : Text) :
    (firstAuthorizations log)[fp]? = (log.find? (authorizes fp)).map authorization := by
  induction log using List.reverseRecOn with
  | nil => simp [firstAuthorizations]
  | append_singleton log audit ih =>
    rw [List.find?_append]
    unfold firstAuthorizations at ih ⊢
    rw [List.foldl_append, List.foldl_cons, List.foldl_nil]
    cases htls : audit.currentTlsServerCertificateFingerprint with
    | none => simp [ih, authorizes, htls]
    | some cur =>
      simp only [lookup_insertIfAbsent, ih]
      by_cases hc : cur = fp
      · simp [authorizes, htls, hc]
      · simp [authorizes, htls, hc]

/-- The accumulators of the membership loop after a history. -/
def MembershipScan.replay : MembershipScan where
  index := log.length
  historicalTlsOwners := leafOwners (log.map ClusterMembershipAudit.leafUse)
  latestMembershipAudit := indexBy ClusterMembershipAudit.nodeId ClusterMembershipAudit.head log
  membershipRevisionAudit := log.reverse.map fun audit =>
    ((audit.nodeId, audit.memberGeneration), audit.evidence)
  firstMembershipTlsRevision := firstAuthorizations log

/-- The accumulators after one more entry. -/
def MembershipScan.step (scan : MembershipScan) (audit : ClusterMembershipAudit) :
    MembershipScan :=
  scan.next (bindKeys scan.historicalTlsOwners audit.fingerprints audit.nodeId) audit

theorem MembershipScan.foldl_step : log.foldl step .init = .replay log := by
  induction log using List.reverseRecOn with
  | nil => rfl
  | append_singleton log audit ih =>
    rw [List.foldl_append, List.foldl_cons, List.foldl_nil, ih]
    simp only [step, next, replay, List.length_append, List.length_singleton, indexBy_snoc,
      List.reverse_append, List.map_append]
    simp only [leafOwners, ownerIndex, firstAuthorizations, List.foldl_append]
    rfl

theorem foldlM_bindHistoricalTls_eq_ok {nodeId : Text} {fingerprints : List Text}
    {owners owners' : OrdMap Text Text} :
    fingerprints.foldlM (bindHistoricalTls nodeId) owners = .ok owners' ↔
      (∀ fp ∈ fingerprints, validTlsFingerprint fp = true ∧
        ∀ owner, owners[fp]? = some owner → owner = nodeId) ∧
        bindKeys owners fingerprints nodeId = owners' := by
  induction fingerprints generalizing owners with
  | nil => simp [pure_eq_ok, bindKeys]
  | cons fp fingerprints ih =>
    have hr : ∀ mid, bindHistoricalTls nodeId owners fp = .ok mid ↔
        (validTlsFingerprint fp = true ∧
          ∀ owner, owners[fp]? = some owner → owner = nodeId) ∧
          owners.insert fp nodeId = mid := by
      intro mid
      simp only [bindHistoricalTls, bind_eq_ok, rejectIf_eq_ok, pure_eq_ok, not_or,
        Bool.not_eq_false, exists_and_left, exists_const]
      cases owners[fp]? <;> simp
    simp only [List.foldlM_cons, bind_eq_ok, hr, ih, List.forall_mem_cons]
    constructor
    · rintro ⟨mid, ⟨hfi, rfl⟩, hrest, hb⟩
      refine ⟨⟨hfi, ?_⟩, hb⟩
      intro f hf
      refine ⟨(hrest f hf).1, ?_⟩
      intro owner ho
      -- a repeated leaf has just been checked against its old owner
      by_cases heq : fp = f
      · exact hfi.2 owner (heq ▸ ho)
      · exact (hrest f hf).2 owner (by rw [OrdMap.lookup_insert_ne _ _ heq]; exact ho)
    · rintro ⟨⟨hfi, hrest⟩, hb⟩
      refine ⟨_, ⟨hfi, rfl⟩, ?_, hb⟩
      intro f hf
      refine ⟨(hrest f hf).1, ?_⟩
      intro owner ho
      rw [OrdMap.lookup_insert] at ho
      split at ho
      · exact (Option.some.inj ho).symm
      · exact (hrest f hf).2 owner ho

/-- The tests that look at one membership audit entry alone. -/
structure MembershipEntryValid (logicalTime : DateTime) (index : Nat)
    (audit : ClusterMembershipAudit) : Prop where
  position : audit.membershipGeneration = index + 1
  generation : audit.memberGeneration ≠ 0
  changed : audit.changedAt ≤ logicalTime
  node : isUuid audit.nodeId = true
  actor : ¬ isInvalidText audit.actor
  reason : ¬ isInvalidText audit.reason

variable {logicalTime : DateTime}

theorem not_membershipEntryIsInvalid_iff {i : Nat} {audit : ClusterMembershipAudit} :
    ¬ membershipEntryIsInvalid logicalTime i audit ↔ MembershipEntryValid logicalTime i audit := by
  simp only [membershipEntryIsInvalid, not_or, ne_eq, not_not, not_lt, Bool.not_eq_false]
  exact ⟨fun ⟨h1, h2, h3, h4, h5, h6⟩ => ⟨h1, h2, h3, h4, h5, h6⟩,
    fun ⟨h1, h2, h3, h4, h5, h6⟩ => ⟨h1, h2, h3, h4, h5, h6⟩⟩

/-- A membership history that the validator accepts, apart from the ownership of its leaves. -/
structure MembershipHistory (logicalTime : DateTime) (log : List ClusterMembershipAudit) : Prop
    where
  entries : EachAfter (fun pre audit => MembershipEntryValid logicalTime pre.length audit) log
  chained : Chained ClusterMembershipAudit.nodeId ClusterMembershipAudit.continues log
  wellFormed : ∀ audit ∈ log, ∀ fingerprint ∈ audit.fingerprints,
    validTlsFingerprint fingerprint = true

variable {log : List ClusterMembershipAudit}

theorem membershipLoop_eq_ok {history : MembershipScan} :
    log.foldlM (membershipRound logicalTime) .init = .ok history ↔
      (MembershipHistory logicalTime log ∧ LeavesOwned (log.map leafUse)) ∧
        replay log = history := by
  have hr : ∀ scan audit scan', membershipRound logicalTime scan audit = .ok scan' ↔
      ((MembershipEntryValid logicalTime scan.index audit ∧
        membershipTransitionIsValid audit scan.latestMembershipAudit[audit.nodeId]? = true) ∧
        ∀ fp ∈ audit.fingerprints, validTlsFingerprint fp = true ∧
          ∀ owner, scan.historicalTlsOwners[fp]? = some owner → owner = audit.nodeId) ∧
        scan.step audit = scan' := by
    intro scan audit scan'
    simp only [membershipRound, bind_eq_ok, rejectIf_eq_ok, pure_eq_ok, exists_and_left,
      exists_const, foldlM_bindHistoricalTls_eq_ok, Bool.not_eq_false,
      not_membershipEntryIsInvalid_iff]
    constructor
    · rintro ⟨he, ht, owners, ⟨hl, rfl⟩, rfl⟩
      exact ⟨⟨⟨he, ht⟩, hl⟩, rfl⟩
    · rintro ⟨⟨⟨he, ht⟩, hl⟩, rfl⟩
      exact ⟨he, ht, _, ⟨hl, rfl⟩, rfl⟩
  rw [foldlM_eq_ok_iff hr, foldl_step]
  refine and_congr_left fun _ => ?_
  -- the accumulators of a prefix are its replay
  simp only [foldl_step, replay, lookup_indexBy]
  rw [← leavesOwned_iff_eachAfter, eachAfter_map]
  constructor
  · intro h
    refine ⟨⟨?_, ?_, ?_⟩, ?_⟩
    · exact h.mono fun pre audit _ hgood => hgood.1.1
    · exact h.mono fun pre audit _ hgood => hgood.1.2
    · exact eachAfter_iff_forall_mem.1 (h.mono fun pre audit _ hgood fp hf => (hgood.2 fp hf).1)
    · exact h.mono fun pre audit _ hgood fp hf => (hgood.2 fp hf).2
  · rintro ⟨hh, ho⟩ pre audit post hlog
    refine ⟨⟨hh.entries pre audit post hlog, hh.chained pre audit post hlog⟩, ?_⟩
    intro fp hf
    exact ⟨hh.wellFormed audit (by simp [hlog]) fp hf, ho pre audit post hlog fp hf⟩

/-! ## Revisions of a node -/

theorem ClusterMembershipAudit.continues_some {prev audit : ClusterMembershipAudit}
    (h : audit.continues (some prev)) :
    prev.current ≠ .revoked ∧ audit.memberGeneration = prev.memberGeneration + 1 := by
  simp only [continues, Option.map_some, head, membershipTransitionIsValid, Bool.and_eq_true,
    bne_iff_ne, beq_iff_eq, checkedSucc_eq_some] at h
  exact ⟨h.1.1.1.1, h.1.1.1.2.2⟩

/-- Node and generation determine the entry of a valid membership history. -/
theorem MembershipHistory.eq_of_generation_eq (h : MembershipHistory logicalTime log)
    {a b : ClusterMembershipAudit} (ha : a ∈ log) (hb : b ∈ log) (hnode : a.nodeId = b.nodeId)
    (hg : a.memberGeneration = b.memberGeneration) : a = b :=
  h.chained.eq_of_rank_eq (fun _ _ hc => (continues_some hc).2) ha hb hnode
    hg

/-- The member revision `revision` agrees with a rollout audit entry. -/
def RevisionAgrees (audit : ClusterCertificateRolloutAudit) (revision : ClusterMembershipAudit) :
    Prop :=
  (revision.current = .active ∨ (audit.currentPhase = none ∧ revision.current = .revoked)) ∧
    revision.currentTlsServerCertificateFingerprint = audit.expectedMemberTls ∧
    revision.changedAt = audit.changedAt

/-- The membership history holds the member revision that a rollout audit entry names. -/
def HasRevision (log : List ClusterMembershipAudit) (audit : ClusterCertificateRolloutAudit) :
    Prop :=
  ∃ revision ∈ log, revision.nodeId = audit.nodeId ∧
    revision.memberGeneration = audit.memberGeneration ∧ RevisionAgrees audit revision

theorem HasRevision.mono {log' : List ClusterMembershipAudit}
    {audit : ClusterCertificateRolloutAudit} (h : HasRevision log audit)
    (hsub : ∀ a ∈ log, a ∈ log') : HasRevision log' audit := by
  obtain ⟨rev, hmem, hr⟩ := h
  exact ⟨rev, hsub rev hmem, hr⟩

theorem revisionMatches_replay_iff (h : MembershipHistory logicalTime log)
    (audit : ClusterCertificateRolloutAudit) :
    revisionMatches (.replay log) audit = true ↔ HasRevision log audit := by
  have ha : ∀ rev : ClusterMembershipAudit,
      ((rev.evidence.1 == .active ||
          (audit.currentPhase.isNone && rev.evidence.1 == .revoked)) &&
        rev.evidence.2.1 == audit.expectedMemberTls &&
        rev.evidence.2.2 == audit.changedAt) = true ↔ RevisionAgrees audit rev := by
    intro rev
    simp [evidence, RevisionAgrees, and_assoc]
  rw [revisionMatches, replay,
    lookup_reverse_map (fun a : ClusterMembershipAudit => (a.nodeId, a.memberGeneration))]
  constructor
  · intro hany
    cases hf : lastFor (fun a : ClusterMembershipAudit => (a.nodeId, a.memberGeneration))
        (audit.nodeId, audit.memberGeneration) log with
    | none => simp [hf] at hany
    | some rev =>
      rw [hf, Option.map_some, Option.any_some, ha] at hany
      obtain ⟨hmem, hkey⟩ := mem_of_lastFor hf
      obtain ⟨hnode, hg⟩ := Prod.mk.inj hkey
      exact ⟨rev, hmem, hnode, hg, hany⟩
  · rintro ⟨rev, hmem, hnode, hg, hr⟩
    obtain ⟨fd, hf⟩ := exists_lastFor
      (fun a : ClusterMembershipAudit => (a.nodeId, a.memberGeneration)) hmem
    obtain ⟨hfmem, hfkey⟩ := mem_of_lastFor hf
    -- no other entry has the same node and generation
    obtain ⟨hfn, hfg⟩ := Prod.mk.inj hfkey
    obtain rfl := h.eq_of_generation_eq hfmem hmem hfn hfg
    rw [hnode, hg] at hf
    rw [hf, Option.map_some, Option.any_some, ha]
    exact hr

/-! ## Members -/

/-- Two registrations claim one identity, endpoint or TLS leaf. -/
def SharesIdentity (a b : ClusterMemberRegistration) : Prop :=
  a.fingerprint = b.fingerprint ∨ a.endpoint = b.endpoint ∨
    ∃ fingerprint, a.tlsServerCertificateFingerprint = some fingerprint ∧
      b.tlsServerCertificateFingerprint = some fingerprint

theorem SharesIdentity.symm {a b : ClusterMemberRegistration} (h : SharesIdentity a b) :
    SharesIdentity b a := by
  rcases h with h | h | ⟨fp, ha, hb⟩
  · exact .inl h.symm
  · exact .inr (.inl h.symm)
  · exact .inr (.inr ⟨fp, hb, ha⟩)

theorem bindsForeign_eq_false_iff {member : ClusterMember} {reg : ClusterMemberRegistration} :
    bindsForeign member reg = false ↔
      member.nodeId = reg.nodeId ∨ ¬ SharesIdentity member.registration reg := by
  unfold bindsForeign SharesIdentity ClusterMember.registration
  cases htls : reg.tlsServerCertificateFingerprint with
  | none => by_cases hnode : member.nodeId = reg.nodeId <;> simp [hnode]
  | some fp => by_cases hnode : member.nodeId = reg.nodeId <;> simp [hnode, and_assoc]

/-- The three duplicate tests of the member and genesis loops find an earlier registration that
shares an identity. -/
theorem duplicate_iff (prior : List ClusterMemberRegistration) (reg : ClusterMemberRegistration) :
    (reg.fingerprint ∈ prior.reverse.map ClusterMemberRegistration.fingerprint ∨
      reg.endpoint ∈ prior.reverse.map ClusterMemberRegistration.endpoint ∨
      (reg.tlsServerCertificateFingerprint.any fun fp =>
        (prior.reverse.flatMap fun r => r.tlsServerCertificateFingerprint.toList).contains
          fp) = true) ↔
      ∃ o ∈ prior, SharesIdentity o reg := by
  simp only [List.mem_map, List.mem_reverse, Option.any_eq_true, List.contains_eq_mem,
    decide_eq_true_eq, List.mem_flatMap, Option.mem_toList, SharesIdentity]
  constructor
  · rintro (⟨o, hmem, h⟩ | ⟨o, hmem, h⟩ | ⟨fp, hr, o, hmem, h⟩)
    · exact ⟨o, hmem, .inl h⟩
    · exact ⟨o, hmem, .inr (.inl h)⟩
    · exact ⟨o, hmem, .inr (.inr ⟨fp, h, hr⟩)⟩
  · rintro ⟨o, hmem, h | h | ⟨fp, h, hr⟩⟩
    · exact .inl ⟨o, hmem, h⟩
    · exact .inr (.inl ⟨o, hmem, h⟩)
    · exact .inr (.inr ⟨fp, hr, o, hmem, h⟩)

/-- The head that a member must have in the membership history. -/
def ClusterMember.head (member : ClusterMember) : MembershipHead :=
  (member.generation, member.state, member.tlsServerCertificateFingerprint)

/-- A member record that the validator accepts on its own. -/
structure MemberValid (K : Crypto) (logicalTime : DateTime) (nodeId : Text)
    (member : ClusterMember) : Prop where
  key : nodeId = member.nodeId
  registration : validateMemberRegistration K member.registration = .ok ()
  generation : member.generation ≠ 0
  joined : member.joinedAt ≤ member.updatedAt
  updated : member.updatedAt ≤ logicalTime

/-- Members that the validator accepts next to a membership history. -/
structure MembersValid (K : Crypto) (logicalTime : DateTime) (members : OrdMap Text ClusterMember)
    (log : List ClusterMembershipAudit) : Prop where
  valid : ∀ (nodeId : Text) (member : ClusterMember), members[nodeId]? = some member →
    MemberValid K logicalTime nodeId member
  newest : ∀ (nodeId : Text) (member : ClusterMember), members[nodeId]? = some member →
    (lastFor ClusterMembershipAudit.nodeId nodeId log).map ClusterMembershipAudit.head =
      some member.head
  distinct : ∀ (nodeId nodeId' : Text) (member member' : ClusterMember),
    members[nodeId]? = some member → members[nodeId']? = some member' → nodeId ≠ nodeId' →
      ¬ SharesIdentity member.registration member'.registration
  known : ∀ audit ∈ log, audit.nodeId ∈ members

variable (entries : List (Text × ClusterMember))

/-- The accumulators of the member loop after some members. -/
def MemberScan.replay : MemberScan :=
  let earlier := entries.map fun entry => entry.2.registration
  ⟨earlier.reverse.map ClusterMemberRegistration.fingerprint,
    earlier.reverse.map ClusterMemberRegistration.endpoint,
    earlier.reverse.flatMap fun r => r.tlsServerCertificateFingerprint.toList⟩

/-- The accumulators after one more member. -/
def MemberScan.step (scan : MemberScan) (entry : Text × ClusterMember) : MemberScan where
  fingerprints := entry.2.fingerprint :: scan.fingerprints
  endpoints := entry.2.endpoint :: scan.endpoints
  tlsFingerprints := entry.2.tlsServerCertificateFingerprint.toList ++ scan.tlsFingerprints

theorem MemberScan.foldl_step : entries.foldl step ⟨[], [], []⟩ = .replay entries := by
  induction entries using List.reverseRecOn with
  | nil => rfl
  | append_singleton entries e ih =>
    rw [List.foldl_append, List.foldl_cons, List.foldl_nil, ih]
    simp [step, replay, ClusterMember.registration]

theorem memberLoop_eq_ok {K : Crypto} {members : OrdMap Text ClusterMember} :
    ((∃ scan, members.toList.foldlM (memberRound K logicalTime (.replay log)) ⟨[], [], []⟩ =
          .ok scan) ∧
        (MembershipScan.replay log).latestMembershipAudit.size = members.size) ↔
      MembersValid K logicalTime members log := by
  have hr : ∀ scan entry scan', memberRound K logicalTime (.replay log) scan entry =
      .ok scan' ↔
      ((MemberValid K logicalTime entry.1 entry.2 ∧
        (lastFor ClusterMembershipAudit.nodeId entry.1 log).map ClusterMembershipAudit.head =
          some entry.2.head) ∧
        ¬ (entry.2.fingerprint ∈ scan.fingerprints ∨ entry.2.endpoint ∈ scan.endpoints ∨
          (entry.2.tlsServerCertificateFingerprint.any fun fp =>
            scan.tlsFingerprints.contains fp) = true)) ∧
        scan.step entry = scan' := by
    intro scan entry scan'
    simp only [memberRound, bind_eq_ok, rejectIf_eq_ok, mapError_eq_ok, pure_eq_ok,
      exists_and_left, exists_const, ne_eq, not_not, MembershipScan.replay, lookup_indexBy]
    constructor
    · rintro ⟨hkey, _, hreg, hdup, htime, hl, rfl⟩
      rw [not_or, not_or, not_lt, not_lt] at htime
      exact ⟨⟨⟨⟨hkey, hreg, htime.1, htime.2.1, htime.2.2⟩, hl⟩, hdup⟩, rfl⟩
    · rintro ⟨⟨⟨⟨hkey, hreg, hg, hj, hu⟩, hl⟩, hdup⟩, rfl⟩
      refine ⟨hkey, (), hreg, hdup, ?_, hl, rfl⟩
      rw [not_or, not_or, not_lt, not_lt]
      exact ⟨hg, hj, hu⟩
  simp only [foldlM_eq_ok_iff hr, exists_and_left, exists_eq', and_true, MemberScan.foldl_step]
  -- the duplicate test of a round compares with the members before it
  have hdup : ∀ pre (entry : Text × ClusterMember),
      (entry.2.fingerprint ∈ (MemberScan.replay pre).fingerprints ∨
        entry.2.endpoint ∈ (MemberScan.replay pre).endpoints ∨
        (entry.2.tlsServerCertificateFingerprint.any fun fp =>
          (MemberScan.replay pre).tlsFingerprints.contains fp) = true) ↔
        ∃ o ∈ pre, SharesIdentity o.2.registration entry.2.registration := by
    intro pre entry
    refine (duplicate_iff (pre.map fun e => e.2.registration) entry.2.registration).trans ?_
    simp
  simp only [hdup, not_exists, not_and, EachAfter.and_iff, eachAfter_iff_pairwise,
    eachAfter_iff_forall_mem]
  have hp := OrdMap.toList_pairwise_iff (fun _ _ h h' => h h'.symm) members
    (R := fun v v' => ¬ SharesIdentity v.registration v'.registration)
  rw [hp]
  constructor
  · rintro ⟨⟨⟨hv, hn⟩, hd⟩, hsize⟩
    have hlo : ∀ {nodeId member}, members[nodeId]? = some member →
        (nodeId, member) ∈ members.toList := fun h => OrdMap.mem_toList_iff.2 h
    refine ⟨fun n m h => hv _ (hlo h), fun n m h => hn _ (hlo h), hd, ?_⟩
    -- every live member has an entry, so equal sizes leave no other node in the history
    intro audit ha
    have hau : audit.nodeId ∈ (MembershipScan.replay log).latestMembershipAudit :=
      mem_indexBy.2 ⟨audit, ha, rfl⟩
    refine OrdMap.mem_of_size_eq ?_ hsize hau
    intro nodeId hnode
    obtain ⟨member, hm⟩ := OrdMap.exists_lookup hnode
    apply OrdMap.mem_of_lookup
    exact (lookup_indexBy _ _ _ _).trans (hn _ (hlo hm))
  · rintro ⟨hv, hn, hd, hk⟩
    refine ⟨⟨⟨?_, ?_⟩, hd⟩, ?_⟩
    · intro entry he
      exact hv entry.1 entry.2 (OrdMap.mem_toList_iff.1 he)
    · intro entry he
      exact hn entry.1 entry.2 (OrdMap.mem_toList_iff.1 he)
    · refine OrdMap.size_eq_of_keys_iff fun nodeId => ⟨?_, ?_⟩
      · intro hnode
        obtain ⟨audit, ha, rfl⟩ := mem_indexBy.1 hnode
        exact hk audit ha
      · intro hnode
        obtain ⟨member, hm⟩ := OrdMap.exists_lookup hnode
        apply OrdMap.mem_of_lookup
        exact (lookup_indexBy _ _ _ _).trans (hn _ _ hm)

end AgentOS
