import AgentOS.Authority.Extend
import AgentOS.Authority.Steps

/-!
# Ownership commands and the validator

A claim, renewal or release of a valid control plane leaves a valid control plane exactly when the
term it is committed in is not below the term of the record it replaces; the same holds for every
lease that a revocation releases.
-/

namespace AgentOS

open Lib OrdMap

/-! ## One ownership record -/

variable {time : DateTime} {ownerships : OrdMap Text ClusterAgentOwnership}
  {log : List ClusterAgentOwnershipAudit}

/-- The newest audit entry of an agent and its record agree, also when neither exists. -/
theorem OwnershipsValid.newest_eq (h : OwnershipsValid time ownerships log) (agentId : Text) :
    (lastFor ClusterAgentOwnershipAudit.agentId agentId log).map ClusterAgentOwnershipAudit.head =
      ownerships[agentId]?.map ClusterAgentOwnership.head := by
  cases hl : ownerships[agentId]? with
  | some own => rw [h.newest agentId own hl, Option.map_some]
  | none =>
    have hnone : lastFor ClusterAgentOwnershipAudit.agentId agentId log = none := by
      rw [lastFor_eq_none]
      rintro au ha rfl
      exact (OrdMap.not_mem_iff_lookup _ _).2 hl (h.known au ha)
    rw [hnone, Option.map_none, Option.map_none]

/-- The two ownership parts of a valid control plane. -/
structure OwnershipPart (time : DateTime) (ownerships : OrdMap Text ClusterAgentOwnership)
    (log : List ClusterAgentOwnershipAudit) : Prop where
  history : OwnershipHistory time log
  records : OwnershipsValid time ownerships log

variable {own : ClusterAgentOwnership} {au : ClusterAgentOwnershipAudit}

theorem OwnershipPart.record_iff {agentId : Text} (h : OwnershipPart time ownerships log)
    (ha : au.agentId = agentId) (hhead : au.head = own.head) (he : OwnershipEntryValid time au)
    (hv : OwnershipValid time agentId own) :
    OwnershipPart time (ownerships.insert agentId own) (log ++ [au]) ↔
      ownershipHistoryIsValid au (ownerships[agentId]?.map ClusterAgentOwnership.head) = true := by
  rw [← h.records.newest_eq agentId, ← ha]
  constructor
  · intro hpart
    exact (chained_snoc.1 hpart.history.chained).2
  · intro hc
    rw [ha]
    exact ⟨h.history.snoc he hc, h.records.record ha hhead hv⟩

variable {K : Crypto} {control : ReplicatedControlPlaneState}

/-- A valid control plane whose ownership parts alone are replaced. -/
theorem ValidControl.with_ownership (h : ValidControl K control)
    (hsize : ownerships.size ≤ maxOwnerships) (hl : log.length ≤ maxAuditEntries) :
    ValidControl K { control with ownerships, ownershipAudit := log } ↔
      OwnershipPart control.logicalTime ownerships log := by
  constructor
  · intro h'
    exact ⟨h'.ownershipHistory, h'.ownerships⟩
  · intro hpart
    have hc : WithinCapacity
        { control with ownerships, ownershipAudit := log } :=
      { h.withinCapacity with ownerships := hsize, ownershipAudit := hl }
    exact { h with
      capacity := hc.not_exceeds h.members h.rollouts
      ownershipHistory := hpart.history
      ownerships := hpart.records }

theorem ValidControl.ownershipPart (h : ValidControl K control) :
    OwnershipPart control.logicalTime control.ownerships control.ownershipAudit :=
  ⟨h.ownershipHistory, h.ownerships⟩

/-- Inserting a record keeps the directory within its capacity. -/
theorem OrdMap.size_insert_le_of {υ : Type} {m : OrdMap Text υ} {key : Text} (value : υ)
    {limit : Nat} (hsize : m.size ≤ limit) (hroom : m.size < limit ∨ key ∈ m) :
    (m.insert key value).size ≤ limit := by
  rcases hroom with hroom | hmem
  · have hi := Std.ExtTreeMap.size_insert_le (t := m) (k := key) (v := value)
    omega
  · rw [Std.ExtTreeMap.size_insert, if_pos (Std.ExtTreeMap.contains_iff_mem.2 hmem)]
    exact hsize

/-- Storing one ownership revision at the current instant. -/
theorem ValidControl.recordOwnership_iff {agentId : Text} (h : ValidControl K control)
    (ha : au.agentId = agentId) (hhead : au.head = own.head)
    (he : OwnershipEntryValid control.logicalTime au)
    (hv : OwnershipValid control.logicalTime agentId own)
    (hc : control.ownershipAudit.length < maxAuditEntries)
    (hroom : control.ownerships.size < maxOwnerships ∨ agentId ∈ control.ownerships) :
    ValidControl K (control.recordOwnership agentId own au) ↔ ownershipHistoryIsValid au
        (control.ownerships[agentId]?.map ClusterAgentOwnership.head) = true := by
  have hsize := OrdMap.size_insert_le_of own h.withinCapacity.ownerships hroom
  have hl : (control.ownershipAudit ++ [au]).length ≤ maxAuditEntries := by
    rw [List.length_append, List.length_singleton]
    omega
  refine (h.with_ownership hsize hl).trans ?_
  exact h.ownershipPart.record_iff ha hhead he hv

/-! ## Claims, renewals and releases -/

variable {reason : Text}

section Commands

variable {K : Crypto} {control : ReplicatedControlPlaneState} {term : Nat}
  {now expiry : DateTime}

variable {previous : ClusterAgentOwnership}

/-- A holder's operation continues the history of its record exactly in a term that is not
older. -/
theorem holderAudit_continues_iff {agentId owner : Text} {token : Nat} {op : String} {actor : Text}
    (hr : previous.generation + 1 < 2 ^ 64) (hs : previous.state = .active)
    (how : previous.ownerNodeId = owner) (ht : previous.fencingToken = token)
    (ho : op = "renew" ∨ op = "release") :
    ownershipHistoryIsValid (holderAudit agentId owner (previous.generation + 1) term token
          op actor reason now) (some previous.head) = true ↔
      previous.authorityTerm ≤ term := by
  have hsucc : checkedSucc previous.generation = some (previous.generation + 1) :=
    checkedSucc_eq_some.2 ⟨hr, rfl⟩
  simp only [ownershipHistoryIsValid, holderAudit, ClusterAgentOwnership.head, hsucc,
    if_pos ho, hs, how, ht]
  simp

variable {gr : OwnershipGrant}

/-- A grant is positive and active, and names the owner of the record it replaces. -/
theorem GrantFrom.spec {previous : Option ClusterAgentOwnership} {want : Option Nat}
    (h : GrantFrom now previous want gr) :
    gr.generation ≠ 0 ∧ gr.fencingToken ≠ 0 ∧ operationState gr.operation = some .active ∧
      gr.previousOwnerNodeId = previous.map ClusterAgentOwnership.ownerNodeId := by
  have hc : operationState "claim" = some .active := by decide
  have ht : operationState "transfer" = some .active := by decide
  cases h with
  | first => exact ⟨Nat.succ_ne_zero _, Nat.succ_ne_zero _, hc, rfl⟩
  | transfer previous => exact ⟨Nat.succ_ne_zero _, Nat.succ_ne_zero _, ht, rfl⟩

/-- A claim continues the history of the record it replaces exactly in a term that is not
older. -/
theorem claimAudit_continues_iff {command : ClaimOwnership}
    {previous : Option ClusterAgentOwnership}
    {want : Option Nat} (h : GrantFrom now previous want gr) :
    ownershipHistoryIsValid (claimAudit command term gr now)
        (previous.map ClusterAgentOwnership.head) = true ↔
      ∀ rec, previous = some rec → rec.authorityTerm ≤ term := by
  cases h with
  | first => simp [ownershipHistoryIsValid, claimAudit]
  | transfer previous he ht hr =>
    have hsucc : checkedSucc previous.generation = some (previous.generation + 1) :=
      checkedSucc_eq_some.2 ⟨hr, rfl⟩
    have hnext : checkedSucc previous.fencingToken = some (previous.fencingToken + 1) :=
      checkedSucc_eq_some.2 ⟨ht, rfl⟩
    simp only [ownershipHistoryIsValid, claimAudit, ClusterAgentOwnership.head, hsucc, hnext,
      Option.map_some, Option.some.injEq, forall_eq', BEq.rfl, Bool.true_and, reduceIte,
      String.reduceEq, or_self, Bool.and_true]
    exact decide_eq_true_iff

variable (h : ValidControl K control)
include h

variable (hterm : term ≠ 0)
include hterm

theorem ClaimGuard.valid_iff {command : ClaimOwnership}
    (hg : ClaimGuard control command now expiry gr) :
    ValidControl K (claimNext control command term now expiry gr) ↔
      ∀ previous, control.ownerships[command.agentId]? = some previous →
        previous.authorityTerm ≤ term := by
  have hle : control.logicalTime ≤ now := hg.clock.lt.le
  have hr := hg.request
  obtain ⟨hge, ht, ha, hp⟩ := hg.grant.spec
  rw [claimNext, (h.later hle).recordOwnership_iff, claimAudit_continues_iff hg.grant]
  · rfl
  · rw [ClusterAgentOwnershipAudit.head, claimAudit, ha]
    rfl
  · refine ⟨hge, hterm, ht, le_rfl, hr.agent, hr.owner, ?_,
      hr.actor, hr.reason⟩
    intro owner ho
    obtain ⟨previous, hl, rfl⟩ := Option.map_eq_some_iff.1 (hp.symm.trans ho)
    exact (h.ownerships.valid _ _ hl).owner
  · refine ⟨rfl, hge, hterm, ht, le_rfl, ⟨fun _ => ?_, fun hs => ?_⟩,
      hr.agent, hr.owner⟩
    · exact lt_of_ownershipExpiry hr hg.expiry
    · cases hs
  · exact hg.capacity
  · exact hg.directory

theorem RenewGuard.valid_iff {command : RenewOwnership}
    (hg : RenewGuard control command now expiry previous) :
    ValidControl K (renewNext control command term now expiry previous) ↔
      previous.authorityTerm ≤ term := by
  have hle : control.logicalTime ≤ now := hg.clock.lt.le
  have hr := hg.request
  have hre := h.ownerships.valid _ _ hg.found
  obtain ⟨hs, ho, ht⟩ := not_isFencedOut.1 hg.holder
  rw [renewNext, (h.later hle).recordOwnership_iff, hg.found, Option.map_some,
    holderAudit_continues_iff hg.revision hs ho ht (.inl rfl)]
  · rfl
  · simp only [ClusterAgentOwnershipAudit.head, holderAudit, renewedOwnership,
      ClusterAgentOwnership.head, hs, ho, ht]
    rfl
  · exact ⟨Nat.succ_ne_zero _, hterm, ht ▸ hre.token, le_rfl, hr.agent,
      hr.owner, fun owner heq => Option.some.inj heq ▸ hr.owner, hr.actor, hr.reason⟩
  · refine ⟨hre.key, Nat.succ_ne_zero _, hterm, hre.token, le_rfl,
      ⟨fun _ => ?_, fun hrl => ?_⟩, hre.agent, hre.owner⟩
    · exact lt_of_ownershipExpiry hr hg.expiry
    · exact absurd (hs.symm.trans hrl) (by simp)
  · exact hg.capacity
  · exact .inr (mem_of_lookup hg.found)

theorem ReleaseGuard.valid_iff {command : ReleaseOwnership}
    (hg : ReleaseGuard control command now previous) :
    ValidControl K (releaseNext control command term now previous) ↔
      previous.authorityTerm ≤ term := by
  have hle : control.logicalTime ≤ now := hg.clock.lt.le
  have hr := h.ownerships.valid _ _ hg.found
  obtain ⟨hs, ho, ht⟩ := not_isFencedOut.1 hg.holder
  rw [releaseNext, (h.later hle).recordOwnership_iff, hg.found, Option.map_some,
    holderAudit_continues_iff hg.revision hs ho ht (.inr rfl)]
  · rfl
  · simp only [ClusterAgentOwnershipAudit.head, holderAudit, releasedOwnership,
      ClusterAgentOwnership.head, ho, ht]
    rfl
  · exact ⟨Nat.succ_ne_zero _, hterm, ht ▸ hr.token, le_rfl, hg.agent,
      hg.owner, fun owner heq => Option.some.inj heq ▸ hg.owner, hg.actor, hg.reason⟩
  · refine ⟨hr.key, Nat.succ_ne_zero _, hterm, hr.token, le_rfl,
      ⟨fun ha => ?_, fun _ => rfl⟩, hr.agent, hr.owner⟩
    cases ha
  · exact hg.capacity
  · exact .inr (mem_of_lookup hg.found)

end Commands

/-! ## Leases released by a revocation -/

theorem OwnershipHistory.of_append {log' : List ClusterAgentOwnershipAudit}
    (h : OwnershipHistory time (log ++ log')) : OwnershipHistory time log :=
  ⟨fun au ha => h.entries au (List.mem_append_left _ ha),
    (eachAfter_append.1 h.chained).1⟩

/-- A list of distinct live leases of a node in the directory. -/
structure LeasesOf (nodeId : Text) (ownerships : OrdMap Text ClusterAgentOwnership)
    (owned : List ClusterAgentOwnership) : Prop where
  found : ∀ previous ∈ owned, ownerships[previous.agentId]? = some previous
  active : ∀ previous ∈ owned, previous.state = .active
  owner : ∀ previous ∈ owned, previous.ownerNodeId = nodeId
  revision : ∀ previous ∈ owned, previous.generation + 1 < 2 ^ 64
  distinct : owned.Pairwise fun a b => a.agentId ≠ b.agentId

variable {nodeId : Text} {term : Nat} {owned : List ClusterAgentOwnership}

theorem OwnershipPart.releaseLeases_iff {actor : Text} (hterm : term ≠ 0)
    (hac : ¬ isInvalidText actor) (hre : ¬ isInvalidText reason)
    (h : OwnershipPart time ownerships log) (ho : LeasesOf nodeId ownerships owned) :
    OwnershipPart time (owned.foldl (fun ownerships previous => ownerships.insert previous.agentId
            (revokedOwnership nodeId term (previous.generation + 1) reason time previous))
          ownerships)
        (log ++ owned.map fun previous =>
          holderAudit previous.agentId nodeId (previous.generation + 1) term
            previous.fencingToken "release" actor reason time) ↔
      ∀ previous ∈ owned, previous.authorityTerm ≤ term := by
  induction owned generalizing ownerships log with
  | nil => simpa using h
  | cons previous owned ih =>
    have hfo := ho.found previous (by simp)
    have ha := ho.active previous (by simp)
    have how := ho.owner previous (by simp)
    have hr := h.records.valid _ _ hfo
    have hone : OwnershipPart time
        (ownerships.insert previous.agentId
          (revokedOwnership nodeId term (previous.generation + 1) reason time previous))
        (log ++ [holderAudit previous.agentId nodeId (previous.generation + 1) term
          previous.fencingToken "release" actor reason time]) ↔
        previous.authorityTerm ≤ term := by
      have hag : (holderAudit previous.agentId nodeId (previous.generation + 1) term
          previous.fencingToken "release" actor reason time).agentId = previous.agentId := rfl
      rw [h.record_iff hag, hfo, Option.map_some,
        holderAudit_continues_iff (ho.revision previous (by simp)) ha how rfl
          (.inr rfl)]
      · rfl
      · exact ⟨Nat.succ_ne_zero _, hterm, hr.token, le_rfl, hr.agent,
          how ▸ hr.owner, fun owner heq => Option.some.inj heq ▸ how ▸ hr.owner, hac, hre⟩
      · refine ⟨rfl, Nat.succ_ne_zero _, hterm, hr.token, le_rfl,
          ⟨fun ha => ?_, fun _ => rfl⟩, hr.agent, how ▸ hr.owner⟩
        cases ha
    -- the remaining leases are untouched by the release of the first one
    have hrest : LeasesOf nodeId
        (ownerships.insert previous.agentId
          (revokedOwnership nodeId term (previous.generation + 1) reason time previous))
        owned := by
      refine ⟨?_, fun p hp => ho.active p (by simp [hp]), fun p hp => ho.owner p (by simp [hp]),
        fun p hp => ho.revision p (by simp [hp]), (List.pairwise_cons.1 ho.distinct).2⟩
      intro p hp
      rw [lookup_insert_ne _ _ ((List.pairwise_cons.1 ho.distinct).1 p hp)]
      exact ho.found p (by simp [hp])
    rw [List.foldl_cons, List.map_cons, List.forall_mem_cons, ← List.singleton_append,
      ← List.append_assoc]
    constructor
    · intro hpart
      -- an audit history is valid up to every entry, so the first release was in order
      have hf : previous.authorityTerm ≤ term := by
        have hpre := hpart.history.of_append
        have hn := h.records.newest_eq previous.agentId
        rw [hfo, Option.map_some] at hn
        have hc : ownershipHistoryIsValid
            (holderAudit previous.agentId nodeId (previous.generation + 1) term
              previous.fencingToken "release" actor reason time) (some previous.head) = true := by
          rw [← hn]
          exact (chained_snoc.1 hpre.chained).2
        exact (holderAudit_continues_iff (ho.revision previous (by simp)) ha how rfl
          (.inr rfl)).1 hc
      exact ⟨hf, (ih (hone.2 hf) hrest).1 hpart⟩
    · rintro ⟨hf, hot⟩
      exact (ih (hone.2 hf) hrest).2 hot

theorem leasesOf_activeOwned {now : DateTime} (h : ValidControl K control)
    (hr : ∀ previous ∈ activeOwned control nodeId now, previous.generation + 1 < 2 ^ 64) :
    LeasesOf nodeId control.ownerships (activeOwned control nodeId now) := by
  have hmem : ∀ previous ∈ activeOwned control nodeId now,
      control.ownerships[previous.agentId]? = some previous ∧ previous.state = .active ∧
        previous.ownerNodeId = nodeId := by
    intro previous hpr
    obtain ⟨⟨agentId, hf⟩, ho, hs, -⟩ := mem_activeOwned.1 hpr
    have hkey := (h.ownerships.valid _ _ hf).key
    exact ⟨hkey ▸ hf, hs, ho⟩
  refine ⟨fun p hp => (hmem p hp).1, fun p hp => (hmem p hp).2.1, fun p hp => (hmem p hp).2.2,
    hr, ?_⟩
  -- records sit under their own agent, so distinct keys are distinct agents
  refine List.Pairwise.filter _ ?_
  rw [List.pairwise_map]
  refine (toList_pairwise_ne control.ownerships).imp_of_mem ?_
  intro a b ha hb hne heq
  have hkeya := (h.ownerships.valid _ _ (mem_toList_iff.1 ha)).key
  have hkeyb := (h.ownerships.valid _ _ (mem_toList_iff.1 hb)).key
  exact hne (hkeya.trans (heq.trans hkeyb.symm))

/-- Releasing leases stores no new agent. -/
theorem size_foldl_release_le (ho : ∀ previous ∈ owned, previous.agentId ∈ ownerships) :
    (owned.foldl (fun ownerships previous => ownerships.insert previous.agentId
        (revokedOwnership nodeId term (previous.generation + 1) reason time previous))
      ownerships).size ≤ ownerships.size := by
  induction owned generalizing ownerships with
  | nil => exact le_rfl
  | cons previous owned ih =>
    rw [List.foldl_cons]
    refine (ih ?_).trans ?_
    · intro p hp
      rw [mem_insert_iff]
      exact .inr (ho p (by simp [hp]))
    · rw [Std.ExtTreeMap.size_insert,
        if_pos (Std.ExtTreeMap.contains_iff_mem.2 (ho previous (by simp)))]

/-- The leases that a revocation releases at the current instant. -/
theorem ValidControl.releaseLeases_iff {actor : Text} (h : ValidControl K control)
    (hterm : term ≠ 0) (ha : ¬ isInvalidText actor) (hre : ¬ isInvalidText reason)
    (hroom : control.ownershipAudit.length +
      (activeOwned control nodeId control.logicalTime).length ≤
      maxAuditEntries)
    (hr : ∀ previous ∈ activeOwned control nodeId control.logicalTime,
      previous.generation + 1 < 2 ^ 64) :
    ValidControl K (releaseLeases nodeId term actor reason control.logicalTime control
        (activeOwned control nodeId control.logicalTime)) ↔
      ∀ previous ∈ activeOwned control nodeId control.logicalTime,
        previous.authorityTerm ≤ term := by
  have ho := leasesOf_activeOwned h hr
  refine (h.with_ownership ?_ ?_).trans ?_
  · refine (size_foldl_release_le ?_).trans h.withinCapacity.ownerships
    intro previous hp
    exact mem_of_lookup (ho.found previous hp)
  · rw [List.length_append, List.length_map]
    exact hroom
  · exact h.ownershipPart.releaseLeases_iff hterm ha hre ho

end AgentOS
