import AgentOS.Authority.Runs
import AgentOS.Lib.History
import AgentOS.Lib.Lease

/-!
# Ownership records as fenced leases

The records that the authority stores for one agent are the versions of an abstract lease: a claim
is a grant, a renewal a renewal, and a release or the revocation of the owner a release
(`ControlStep.lease`). The laws of leases then hold for the records of every agent along every run
(`ownershipHistory_exclusive`).
-/

namespace AgentOS

open Lib

/-- The lease that an ownership record describes. -/
def ClusterAgentOwnership.lease (record : ClusterAgentOwnership) : Lease Text DateTime where
  holder := record.ownerNodeId
  token := record.fencingToken
  revision := record.generation
  live := record.state == .active
  since := record.updatedAt
  expiry := record.leaseExpiresAt

variable {record : ClusterAgentOwnership}

theorem lease_live_iff : record.lease.live = true ↔ record.state = .active := by
  simp [ClusterAgentOwnership.lease]

theorem lease_dead_iff : record.lease.live = false ↔ record.state = .released := by
  cases hs : record.state <;> simp [ClusterAgentOwnership.lease, hs]

/-- The change of a lease that a command can make. -/
def AuthorityCommand.leaseOp : AuthorityCommand → LeaseOp
  | .claimOwnership _ => .grant
  | .renewOwnership _ => .renew
  | _ => .release

variable {command : AuthorityCommand}

theorem leaseOp_ne_grant (h : ∀ claim, command ≠ .claimOwnership claim) :
    command.leaseOp ≠ .grant := by
  cases command with
  | claimOwnership claim => exact absurd rfl (h claim)
  | renewOwnership => simp [AuthorityCommand.leaseOp]
  | _ => simp [AuthorityCommand.leaseOp]

/-- Records sit under their own agent and are not newer than the clock. -/
def OwnershipsFiled (control : ReplicatedControlPlaneState) : Prop :=
  ∀ (agentId : Text) (record : ClusterAgentOwnership),
    control.ownerships[agentId]? = some record →
      record.agentId = agentId ∧ record.updatedAt ≤ control.logicalTime

/-- A record that a transition stores in place of another one. -/
structure StoredBy (command : AuthorityCommand) (now : DateTime) (agentId : Text)
    (previous : Option ClusterAgentOwnership) (record : ClusterAgentOwnership) : Prop where
  agent : record.agentId = agentId
  now : record.updatedAt = now
  lease : LeaseStep command.leaseOp (previous.map ClusterAgentOwnership.lease) record.lease

variable {previous : ClusterAgentOwnership}

variable {proposedAt : DateTime}

section Transitions

variable {K : Crypto} {control control' : ReplicatedControlPlaneState} {authorityTerm : Nat}
  {now leaseExpiresAt : DateTime}

section

variable (h : OwnershipsFiled control)
include h

/-- A record is older than the instant of the next transition. -/
theorem OwnershipsFiled.since_lt {agentId : Text}
    (hc : EffectiveAt control.logicalTime proposedAt now)
    (hf : control.ownerships[agentId]? = some record) : record.lease.since < now :=
  (h agentId record hf).2.trans_lt hc.lt

theorem ClaimGuard.storedBy {command : ClaimOwnership} {gr : OwnershipGrant}
    (hg : ClaimGuard control command now leaseExpiresAt gr) :
    StoredBy (.claimOwnership command) now command.agentId control.ownerships[command.agentId]?
      (claimedOwnership command authorityTerm gr leaseExpiresAt now) := by
  have hp := lt_of_ownershipExpiry hg.request hg.expiry
  refine ⟨rfl, rfl, ?_⟩
  have hgr := hg.grant
  have hs : ∀ record, control.ownerships[command.agentId]? = some record →
      record.lease.since < now := fun _ hf => h.since_lt hg.clock hf
  generalize control.ownerships[command.agentId]? = previous at hgr hs
  generalize command.expectedFencingToken = expected at hgr
  cases hgr with
  | first => exact .first command.ownerNodeId hp
  | transfer previous he _ _ =>
    refine .regrant previous.lease command.ownerNodeId (hs previous rfl) ?_ hp
    exact fun hlive => he (lease_live_iff.1 hlive)

theorem RenewGuard.storedBy {command : RenewOwnership}
    (hg : RenewGuard control command now leaseExpiresAt previous) :
    StoredBy (.renewOwnership command) now command.agentId control.ownerships[command.agentId]?
      (renewedOwnership previous command authorityTerm (previous.generation + 1) leaseExpiresAt
        now) := by
  obtain ⟨ha, -, -⟩ := not_isFencedOut.1 hg.holder
  refine ⟨(h _ _ hg.found).1, rfl, ?_⟩
  rw [hg.found]
  have hstep : LeaseStep .renew (some previous.lease) _ :=
    .renew previous.lease (h.since_lt hg.clock hg.found) (lease_live_iff.2 ha)
      hg.unexpired (lt_of_ownershipExpiry hg.request hg.expiry)
  simpa [AuthorityCommand.leaseOp, ClusterAgentOwnership.lease, renewedOwnership, ha] using hstep

theorem ReleaseGuard.storedBy {command : ReleaseOwnership}
    (hg : ReleaseGuard control command now previous) :
    StoredBy (.releaseOwnership command) now command.agentId control.ownerships[command.agentId]?
      (releasedOwnership previous command authorityTerm (previous.generation + 1) now) := by
  obtain ⟨ha, -, -⟩ := not_isFencedOut.1 hg.holder
  refine ⟨(h _ _ hg.found).1, rfl, ?_⟩
  rw [hg.found]
  exact .release previous.lease (h.since_lt hg.clock hg.found) (lease_live_iff.2 ha)

/-- A revocation replaces the records of the live leases of the node and no others. -/
theorem OwnershipsFiled.lookup_releaseLeases (nodeId actor reason : Text) (agentId : Text) :
    (releaseLeases nodeId authorityTerm actor reason now { control with logicalTime := now }
        (activeOwned control nodeId now)).ownerships[agentId]? =
      control.ownerships[agentId]?.map fun previous =>
        if previous ∈ activeOwned control nodeId now then
          revokedOwnership nodeId authorityTerm (previous.generation + 1) reason now previous
        else previous := by
  rw [releaseLeases, lookup_foldl_insert]
  cases hlast : lastFor ClusterAgentOwnership.agentId agentId (activeOwned control nodeId now) with
  | some previous =>
    obtain ⟨hmem, rfl⟩ := mem_of_lastFor hlast
    obtain ⟨⟨key, hf⟩, -⟩ := mem_activeOwned.1 hmem
    obtain ⟨hkey, -⟩ := h key previous hf
    rw [hkey, hf, Option.map_some, Option.map_some, if_pos hmem]
    rfl
  | none =>
    rw [lastFor_eq_none] at hlast
    cases hf : control.ownerships[agentId]? with
    | none => simp
    | some previous =>
      have hmem : previous ∉ activeOwned control nodeId now :=
        fun hmem => hlast previous hmem (h agentId previous hf).1
      rw [Option.map_some, if_neg hmem]
      rfl

theorem revoked_storedBy {command : SetMemberState} {agentId : Text}
    (hc : EffectiveAt control.logicalTime proposedAt now)
    (hf : control.ownerships[agentId]? = some previous)
    (hmem : previous ∈ activeOwned control command.nodeId now) :
    StoredBy (.setMemberState command) now agentId (some previous)
      (revokedOwnership command.nodeId authorityTerm (previous.generation + 1) command.reason now
        previous) := by
  obtain ⟨-, ho, ha, -⟩ := mem_activeOwned.1 hmem
  refine ⟨(h _ _ hf).1, rfl, ?_⟩
  have hstep : LeaseStep .release (some previous.lease) _ :=
    .release previous.lease (h.since_lt hc hf) (lease_live_iff.2 ha)
  rw [← ho]
  exact hstep

end

/-- What a transition at the instant `now` leaves as the record of an agent. -/
inductive OwnershipChange (control : ReplicatedControlPlaneState) (authorityTerm : Nat)
    (command : AuthorityCommand) (now : DateTime) (agentId : Text) :
    Option ClusterAgentOwnership → Prop
  | kept : OwnershipChange control authorityTerm command now agentId control.ownerships[agentId]?
  | claimed (claim : ClaimOwnership) (leaseExpiresAt : DateTime) (grant : OwnershipGrant)
      (isClaim : command = .claimOwnership claim) (agent : claim.agentId = agentId)
      (guard : ClaimGuard control claim now leaseExpiresAt grant) :
      OwnershipChange control authorityTerm command now agentId
        (some (claimedOwnership claim authorityTerm grant leaseExpiresAt now))
  | renewed (renewal : RenewOwnership) (leaseExpiresAt : DateTime)
      (previous : ClusterAgentOwnership) (isRenewal : command = .renewOwnership renewal)
      (agent : renewal.agentId = agentId)
      (guard : RenewGuard control renewal now leaseExpiresAt previous) :
      OwnershipChange control authorityTerm command now agentId
        (some (renewedOwnership previous renewal authorityTerm (previous.generation + 1)
          leaseExpiresAt now))
  | released (release : ReleaseOwnership) (previous : ClusterAgentOwnership)
      (isRelease : command = .releaseOwnership release) (agent : release.agentId = agentId)
      (guard : ReleaseGuard control release now previous) :
      OwnershipChange control authorityTerm command now agentId
        (some (releasedOwnership previous release authorityTerm (previous.generation + 1) now))
  | revoked (change : SetMemberState) (member : ClusterMember)
      (previous : ClusterAgentOwnership) (isChange : command = .setMemberState change)
      (state : change.state = .revoked) (guard : SetStateGuard control change now member)
      (found : control.ownerships[agentId]? = some previous)
      (live : previous ∈ activeOwned control change.nodeId now) :
      OwnershipChange control authorityTerm command now agentId
        (some (revokedOwnership change.nodeId authorityTerm (previous.generation + 1)
          change.reason now previous))

variable (h : OwnershipsFiled control)
include h

/-- The record of one agent after a revocation. -/
theorem OwnershipsFiled.ownershipChange_revoked {change : SetMemberState} {member : ClusterMember}
    (hs : change.state = .revoked) (hg : SetStateGuard control change now member) (agentId : Text) :
    OwnershipChange control authorityTerm (.setMemberState change) now agentId
      (releaseLeases change.nodeId authorityTerm change.actor change.reason now
        { control with logicalTime := now }
        (activeOwned control change.nodeId now)).ownerships[agentId]? := by
  rw [h.lookup_releaseLeases]
  cases hf : control.ownerships[agentId]? with
  | none =>
    rw [Option.map_none, ← hf]
    exact .kept
  | some previous =>
    rw [Option.map_some]
    split
    · next hlive => exact .revoked change member previous rfl hs hg hf hlive
    · rw [← hf]
      exact .kept

theorem ControlStep.ownershipChange (hstep : ControlStep K authorityTerm control command control')
    (agentId : Text) :
    OwnershipChange control authorityTerm command control'.logicalTime agentId
      control'.ownerships[agentId]? := by
  -- a command for one agent stores its record under the agent of the command
  have hone : ∀ (key : Text) (record : ClusterAgentOwnership) (now : DateTime),
      (key = agentId →
        OwnershipChange control authorityTerm command now agentId (some record)) →
      OwnershipChange control authorityTerm command now agentId
        (control.ownerships.insert key record)[agentId]? := by
    intro key record now hst
    rw [OrdMap.lookup_insert]
    split
    · next heq => exact hst heq
    · exact .kept
  cases hstep with
  | issue => exact .kept
  | register _ ho =>
    cases ho with
    | join => exact .kept
    | activate => exact .kept
  | prepare => exact .kept
  | abort => exact .kept
  | finalize => exact .kept
  | setState hg ho =>
    cases ho with
    | leave => exact .kept
    | revoke hs | revokeDrop _ hs => exact h.ownershipChange_revoked hs hg agentId
  | claim hg => exact hone _ _ _ fun ha => .claimed _ _ _ rfl ha hg
  | renew hg => exact hone _ _ _ fun ha => .renewed _ _ _ rfl ha hg
  | release hg => exact hone _ _ _ fun ha => .released _ _ rfl ha hg

/-- A transition keeps the record of an agent or stores the next version of its lease. -/
theorem ControlStep.lease (hstep : ControlStep K authorityTerm control command control')
    (agentId : Text) :
    control'.ownerships[agentId]? = control.ownerships[agentId]? ∨
      ∃ record, control'.ownerships[agentId]? = some record ∧
        StoredBy command control'.logicalTime agentId control.ownerships[agentId]? record := by
  have hch := hstep.ownershipChange h agentId
  generalize control'.ownerships[agentId]? = result at hch ⊢
  cases hch with
  | kept => exact .inl rfl
  | claimed _ _ _ hc ha hg | renewed _ _ _ hc ha hg
  | released _ _ hc ha hg =>
    subst hc ha
    exact .inr ⟨_, rfl, hg.storedBy h⟩
  | revoked _ _ _ hc _ hg hf hlive =>
    subst hc
    rw [hf]
    exact .inr ⟨_, rfl, revoked_storedBy h hg.clock hf hlive⟩

end Transitions

/-! ## Runs -/

theorem ownershipsFiled_keptBy (K : Crypto) :
    KeptBy K (fun _ _ => True) OwnershipsFiled where
  later control time hle h agentId record hf :=
    ⟨(h agentId record hf).1, (h agentId record hf).2.trans hle⟩
  step term control command control' h _ hstep agentId record hf := by
    rcases hstep.lease h agentId with hsame | ⟨rec', hr', hs⟩
    · obtain ⟨ha, hle⟩ := h agentId record (hsame ▸ hf)
      exact ⟨ha, hle.trans hstep.clock.le⟩
    · obtain rfl := Option.some.inj (hf.symm.trans hr')
      exact ⟨hs.agent, hs.now.le⟩

variable {control : ReplicatedControlPlaneState}

/-- A new control plane has no ownership record. -/
theorem ownerships_of_genesis {K : Crypto} {genesis : AuthorityGenesis}
    (h : validateAndBuildGenesis K genesis proposedAt = .ok control) : control.ownerships = ∅ := by
  simp only [validateAndBuildGenesis, bind_eq_ok, pure_eq_ok, orReject_eq_ok] at h
  obtain ⟨-, -, -, -, -, -, scan, -, rfl⟩ := h
  rfl

theorem ownershipsFiled_genesis {K : Crypto} {genesis : AuthorityGenesis}
    (h : validateAndBuildGenesis K genesis proposedAt = .ok control) : OwnershipsFiled control := by
  intro agentId record hf
  rw [ownerships_of_genesis h] at hf
  simp at hf

/-- The record of an agent, if there is one. -/
def AuthorityState.ownership (state : AuthorityState) (agentId : Text) :
    Option ClusterAgentOwnership :=
  state.controlPlane.bind fun control => control.ownerships[agentId]?

theorem ownership_eq_some {state : AuthorityState} {agentId : Text} :
    state.ownership agentId = some record ↔ ∃ control, state.controlPlane = some control ∧
      control.ownerships[agentId]? = some record :=
  Option.bind_eq_some_iff

/-- The records that a run stores for an agent, each with the command that stored it. -/
def ownershipHistory (K : Crypto) (agentId : Text) (commands : List (AuthorityCommand × LogId)) :
    List ((AuthorityCommand × LogId) × ClusterAgentOwnership) :=
  changes (authorityStep K) (fun state => state.ownership agentId) .empty commands

/-- The history of the records of an agent is a history of an abstract lease that ends with the
present record. -/
theorem ownershipHistory_linked (K : Crypto) (agentId : Text)
    (commands : List (AuthorityCommand × LogId)) :
    Linked (fun (x : AuthorityCommand × LogId) previous record =>
        LeaseStep x.1.leaseOp (previous.map ClusterAgentOwnership.lease) record.lease)
        (ownershipHistory K agentId commands) ∧
      (ownershipHistory K agentId commands).getLast?.map Prod.snd =
        (applyAuthorityCommands K commands).ownership agentId := by
  apply changes_linked (onControl_empty OwnershipsFiled) rfl
  · intro state x hf
    exact hf.step (ownershipsFiled_keptBy K) (fun _ _ _ _ => ownershipsFiled_genesis)
      fun _ _ _ => trivial
  · rintro state ⟨command, logId⟩ hf
    have hmove := applyAuthorityCommand_move K state command logId
    simp only [authorityStep, AuthorityState.ownership]
    generalize (applyAuthorityCommand K state command logId).2.controlPlane = result at hmove
    cases hmove with
    | kept => exact .inl rfl
    | advanced ck control _ hp =>
      rw [hp]
      exact .inl rfl
    | created genesis control _ ha hb =>
      left
      rw [ha, Option.bind_some, ownerships_of_genesis hb]
      simp
    | stepped control control' _ hp hstep =>
      rw [hp, Option.bind_some, Option.bind_some]
      rcases hstep.lease (hf control hp) agentId with hsame | ⟨record, hr, hs⟩
      · exact .inl hsame
      · exact .inr ⟨record, hr, hs.lease⟩

/-- Along every run, the records of an agent have consecutive generations; a claim takes the next
token and every other change keeps the token of an active record; a released token is not used
again; and a grant starts when the last record of every earlier grant has expired or was
released. -/
theorem ownershipHistory_exclusive (K : Crypto) (agentId : Text)
    (commands : List (AuthorityCommand × LogId)) :
    (ownershipHistory K agentId commands).map (fun p => p.2.generation) =
        List.range' 1 (ownershipHistory K agentId commands).length ∧
      (ownershipHistory K agentId commands).IsChain (fun p q =>
        ((∃ command, q.1.1 = .claimOwnership command) →
          q.2.fencingToken = p.2.fencingToken + 1 ∧ q.2.state = .active) ∧
        ((∀ command, q.1.1 ≠ .claimOwnership command) →
          q.2.fencingToken = p.2.fencingToken ∧ p.2.state = .active)) ∧
      (ownershipHistory K agentId commands).Pairwise (fun p q =>
        p.2.fencingToken ≤ q.2.fencingToken ∧ p.2.updatedAt < q.2.updatedAt ∧
          (p.2.state = .released → p.2.fencingToken < q.2.fencingToken)) ∧
      (∀ p ∈ ownershipHistory K agentId commands, ∀ q ∈ ownershipHistory K agentId commands,
        p.2.fencingToken < q.2.fencingToken →
          ∃ last ∈ ownershipHistory K agentId commands,
            last.2.fencingToken = p.2.fencingToken ∧
            (∀ r ∈ ownershipHistory K agentId commands,
              r.2.fencingToken = p.2.fencingToken → r.2.generation ≤ last.2.generation) ∧
            (last.2.state = .released → last.2.leaseExpiresAt = last.2.updatedAt) ∧
            last.2.leaseExpiresAt ≤ q.2.updatedAt) ∧
      (ownershipHistory K agentId commands).getLast?.map Prod.snd =
        (applyAuthorityCommands K commands).ownership agentId := by
  obtain ⟨hlinked, hlast⟩ := ownershipHistory_linked K agentId commands
  generalize ownershipHistory K agentId commands = log at hlinked hlast ⊢
  have hlease := (linked_map (fun input : AuthorityCommand × LogId => input.1.leaseOp)
    ClusterAgentOwnership.lease).2 hlinked
  refine ⟨?_, ?_, ?_, ?_, hlast⟩
  · have hrevisions := Lease.map_revision hlease
    rw [List.map_map, List.length_map] at hrevisions
    exact hrevisions
  · refine hlinked.isChain.imp fun p q hstep => ⟨?_, ?_⟩
    · rintro ⟨command, hclaim⟩
      obtain ⟨htoken, hlive⟩ := hstep.token.1 (by rw [hclaim]; rfl)
      exact ⟨htoken, lease_live_iff.1 hlive⟩
    · intro hother
      obtain ⟨htoken, -, hlive⟩ := hstep.token.2 (leaseOp_ne_grant hother)
      exact ⟨htoken, lease_live_iff.1 hlive⟩
  · refine (List.pairwise_map.1 (Lease.pairwise_before hlease)).imp fun {p q} hbefore => ?_
    exact ⟨hbefore.token, hbefore.since, fun hreleased =>
      hbefore.fenced (lease_dead_iff.2 hreleased)⟩
  · intro p hp q hq htoken
    obtain ⟨last, ⟨⟨op, hmem⟩, hnewest⟩, hlastToken, hexpiry⟩ :=
      Lease.exclusive hlease (List.mem_map_of_mem hp) (List.mem_map_of_mem hq) htoken
    obtain ⟨entry, hentry, heq⟩ := List.mem_map.1 hmem
    obtain rfl : entry.2.lease = last := congrArg Prod.snd heq
    refine ⟨entry, hentry, hlastToken, ?_, ?_, hexpiry⟩
    · intro r hr hrtoken
      exact hnewest _ (List.mem_map_of_mem hr) (hrtoken.trans hlastToken.symm)
    · intro hreleased
      have hperiod := hlinked.forall_mem
        (P := fun record => record.lease.live = false →
          record.lease.expiry = record.lease.since)
        (fun _ _ _ hstep => hstep.period.2) entry hentry
      exact hperiod (lease_dead_iff.2 hreleased)

end AgentOS
