import AgentOS.Authority.Identity
import AgentOS.Destination.Forward

/-!
# One authority and its destinations

The replicated authority together with the fence tables of every workload node, whose clocks show
the logical time of the authority. A node installs a fence only with the evidence of the present
ownership record (`verify_quorum_destination_authority_view`) and files it under the canonical
text of the agent. Releases follow the retirement of the fence, and no owner is revoked.

If no renewal moves the expiry of a lease back and no claim spells the UUID of another record, then
every active fence is backed by the present record or has expired (`FencesBacked`), so that no two
nodes admit mutations of one agent at one instant (`fleet_exclusive`).
-/

namespace AgentOS

open Lib

/-- `verify_quorum_destination_authority_view`, with the texts of its permission errors. -/
def verifyQuorumDestinationAuthorityView (control : ReplicatedControlPlaneState)
    (request : MutationFenceRequest) : Except String Unit := do
  let ownership ← orReject
    ((control.ownerships.toList.map Prod.snd).find? fun ownership =>
      ownership.agentId == request.agentId)
    "destination authority rejected an unknown ownership record"
  rejectIf
    (control.clusterId ≠ request.clusterId ∨ ownership.ownerNodeId ≠ request.ownerNodeId ∨
      ownership.authorityTerm ≠ request.authorityTerm ∨
      ownership.generation ≠ request.authorityGeneration ∨
      ownership.fencingToken ≠ request.fencingToken ∨
      ownership.leaseExpiresAt ≠ request.proofExpiresAt ∨ ownership.state ≠ .active ∨
      request.proofExpiresAt ≤ control.logicalTime)
    ("destination authority rejected ownership evidence that is not the exact active quorum " ++
      "revision")

/-- The authority and the fence tables of every node. -/
structure FleetState where
  authority : AuthorityState
  destinations : Text → FenceStore

/-- Nothing has happened yet. -/
def FleetState.empty : FleetState := ⟨.empty, fun _ => .empty⟩

inductive FleetEvent
  | command (command : AuthorityCommand) (logId : LogId)
  | install (nodeId : Text) (request : MutationFenceRequest)
  | retire (nodeId : Text) (request : MutationFenceRequest)

/-- `Syscall::InstallAgentMutationFence` on a node; the request may have been on its way for any
time. -/
def installAtDestination (control : ReplicatedControlPlaneState) (nodeId : Text)
    (store : FenceStore) (request : MutationFenceRequest) : FenceStore :=
  match verifyQuorumDestinationAuthorityView control request, Uuid.parseStr request.agentId with
  | .ok (), some parsedAgent =>
    (installAgentMutationFence nodeId store
      { request with agentId := parsedAgent.toString } control.logicalTime).2
  | _, _ => store

/-- One event; the clocks of the destinations show the logical time. -/
def fleetStep (K : Crypto) (state : FleetState) : FleetEvent → FleetState
  | .command command logId =>
    { state with authority := authorityStep K state.authority (command, logId) }
  | .install nodeId request =>
    match state.authority.controlPlane with
    | none => state
    | some control =>
      { state with
        destinations := Function.update state.destinations nodeId
          (installAtDestination control nodeId (state.destinations nodeId) request) }
  | .retire nodeId request =>
    match state.authority.controlPlane with
    | none => state
    | some control =>
      { state with
        destinations := Function.update state.destinations nodeId
          (retireAgentMutationFence nodeId (state.destinations nodeId) request
            control.logicalTime).2 }

/-- The state after a run of events from the empty one. -/
def runFleet (K : Crypto) (events : List FleetEvent) : FleetState :=
  run (fleetStep K) .empty events

/-- The node admits a mutation with this evidence at the present instant. -/
def admitsRequest (state : FleetState) (nodeId : Text) (request : MutationFenceRequest) : Bool :=
  state.authority.controlPlane.any fun control =>
    isOk (verifyAgentMutationFence nodeId (state.destinations nodeId) request control.logicalTime)

/-- The node admits mutations of the agent at the present instant. -/
def Admits (state : FleetState) (nodeId agentId : Text) : Prop :=
  ∃ request, request.agentId = agentId ∧ admitsRequest state nodeId request = true

/-! ## Conditions on events -/

/-- The order of retirement and release, and the absence of revocations: a release that passes its
checks is committed when the fence of its owner under the token is not active. -/
def Permitted (state : FleetState) : FleetEvent → Prop
  | .command (.releaseOwnership release) _ => ∀ control now previous uuid row,
      state.authority.controlPlane = some control → ReleaseGuard control release now previous →
      Uuid.parseStr release.agentId = some uuid →
      (state.destinations release.ownerNodeId).fences[uuid.toString]? = some row →
      row.state = .active → row.fencingToken ≠ release.fencingToken
  | .command (.setMemberState change) _ => change.state ≠ .revoked
  | _ => True

/-- A renewal that passes its checks does not move the expiry of the lease back. -/
def ExtendsLease (control : ReplicatedControlPlaneState) : AuthorityCommand → Prop
  | .renewOwnership command => ∀ now leaseExpiresAt previous,
      RenewGuard control command now leaseExpiresAt previous →
      previous.leaseExpiresAt.nanos ≤ now.nanos + seconds command.ttlSeconds
  | _ => True

/-- A condition on the commands among the events. -/
def OnCommand (C : ReplicatedControlPlaneState → AuthorityCommand → Prop) (state : FleetState) :
    FleetEvent → Prop
  | .command command _ => OnStep C state.authority command
  | _ => True

/-! ## Backed fences -/

/-- What the present record says about an active fence of the node `nodeId`: they belong to one
grant and the lease is not shorter than the proof, or the grant is over and so is the proof. -/
def Backs (now : DateTime) (nodeId : Text) (record : ClusterAgentOwnership)
    (row : AgentMutationFence) : Prop :=
  (row.fencingToken = record.fencingToken ∧ record.ownerNodeId = nodeId ∧
      record.state = .active ∧ row.proofExpiresAt ≤ record.leaseExpiresAt) ∨
    (row.fencingToken < record.fencingToken ∧ row.proofExpiresAt ≤ now)

variable {nodeId : Text} {row : AgentMutationFence}

theorem Backs.later {now time : DateTime} {rec : ClusterAgentOwnership}
    (h : Backs now nodeId rec row) (hle : now ≤ time) : Backs time nodeId rec row := by
  rcases h with hc | ⟨ht, hover⟩
  · exact .inl hc
  · exact .inr ⟨ht, hover.trans hle⟩

/-- Every active fence is backed by a record of its agent. -/
def FencesBacked (state : FleetState) : Prop :=
  ∀ (nodeId key : Text) row, (state.destinations nodeId).fences[key]? = some row →
    row.state = .active → ∃ control agentId uuid record,
      state.authority.controlPlane = some control ∧ Uuid.parseStr agentId = some uuid ∧
      uuid.toString = key ∧ control.ownerships[agentId]? = some record ∧
      Backs control.logicalTime nodeId record row

variable {state : FleetState}

/-- An admission is backed by an unexpired record that names the node. -/
theorem Admits.owner {agentId : Text} (h : Admits state nodeId agentId)
    (hb : FencesBacked state) : ∃ control key uuid rec,
      state.authority.controlPlane = some control ∧ Uuid.parseStr key = some uuid ∧
      uuid.toString = agentId ∧ control.ownerships[key]? = some rec ∧
      rec.ownerNodeId = nodeId := by
  obtain ⟨req, rfl, ha⟩ := h
  rw [admitsRequest, Option.any_eq_true] at ha
  obtain ⟨control, hc, hv⟩ := ha
  simp only [isOk_iff, verifyAgentMutationFence, agentMutationFence, verifyLoadedAgentMutationFence,
    bind_eq_ok, rejectIf_eq_ok, exists_const, orReject_eq_ok, loadMutationFence_eq_ok, not_or,
    not_not, ne_eq, not_lt, not_le] at hv
  obtain ⟨_, ⟨-, hl, -⟩, row, rfl, ⟨-, hac, -⟩, -, hu⟩ := hv
  obtain ⟨control', key, uuid, rec, hc', hp, hkey, hf, hba⟩ :=
    hb nodeId req.agentId row hl hac
  obtain rfl := Option.some.inj (hc.symm.trans hc')
  refine ⟨control, key, uuid, rec, hc, hp, hkey, hf, ?_⟩
  rcases hba with ⟨-, ho, -⟩ | ⟨-, hover⟩
  · exact ho
  · exact absurd hu hover.not_gt

/-- With backed fences and one record per UUID, one node at most admits an agent. -/
theorem FencesBacked.exclusive (hb : FencesBacked state)
    (hone : OnControl OneRecordPerUuid state.authority) {agentId nodeId' : Text}
    (h : Admits state nodeId agentId) (h' : Admits state nodeId' agentId) : nodeId = nodeId' := by
  obtain ⟨control, key, uuid, rec, hc, hp, hkey, hf, ho⟩ := h.owner hb
  obtain ⟨control', key', uuid', rec', hc', hp', hkey', hf', ho'⟩ :=
    h'.owner hb
  obtain rfl := Option.some.inj (hc.symm.trans hc')
  obtain rfl : uuid = uuid' := Uuid.toString_injective (hkey.trans hkey'.symm)
  obtain rfl := hone control hc key key' uuid (OrdMap.mem_of_lookup hf)
    (OrdMap.mem_of_lookup hf') hp hp'
  obtain rfl := Option.some.inj (hf.symm.trans hf')
  exact ho.symm.trans ho'

section Steps

variable {K : Crypto} {state : FleetState}

variable {control : ReplicatedControlPlaneState}

/-- The record of an agent after a transition backs what the record before it backed. -/
theorem Backs.step {term : Nat} {control' : ReplicatedControlPlaneState}
    {command : AuthorityCommand}
    {logId : LogId} {agentId : Text} {uuid : Uuid} {rec : ClusterAgentOwnership}
    (hpresent : state.authority.controlPlane = some control) (hfi : OwnershipsFiled control)
    (hstep : ControlStep K term control command control')
    (hp : Permitted state (.command command logId)) (he : ExtendsLease control command)
    (hpa : Uuid.parseStr agentId = some uuid)
    (hrow : (state.destinations nodeId).fences[uuid.toString]? = some row)
    (hac : row.state = .active) (hf : control.ownerships[agentId]? = some rec)
    (h : Backs control.logicalTime nodeId rec row) :
    ∃ rec', control'.ownerships[agentId]? = some rec' ∧
      Backs control'.logicalTime nodeId rec' row := by
  have hl := h.later hstep.clock.le
  have hch := hstep.ownershipChange hfi agentId
  generalize control'.logicalTime = now at hch hl ⊢
  generalize control'.ownerships[agentId]? = result at hch ⊢
  cases hch with
  | kept => exact ⟨rec, hf, hl⟩
  | claimed claim expiry gr _ ha hg =>
    refine ⟨_, rfl, .inr ?_⟩
    -- the lease of the record is over, and with it every proof of its grant
    have hgr := hg.grant
    rw [ha, hf] at hgr
    generalize claim.expectedFencingToken = expected at hgr
    cases hgr with
    | transfer _ hen _ _ =>
      rcases hl with ⟨ht, -, hlive, hpr⟩ | ⟨ht, hover⟩
      · exact ⟨ht.trans_lt (Nat.lt_succ_self _), hpr.trans (hen hlive)⟩
      · exact ⟨ht.trans (Nat.lt_succ_self _), hover⟩
  | renewed renewal expiry prev hc ha hg =>
    obtain rfl : prev = rec :=
      Option.some.inj ((ha ▸ hg.found).symm.trans hf)
    refine ⟨_, rfl, ?_⟩
    rcases hl with ⟨ht, ho, hlive, hpr⟩ | hover
    · refine .inl ⟨ht, ho, hlive, hpr.trans ?_⟩
      subst hc
      rw [DateTime.le_iff]
      show prev.leaseExpiresAt.nanos ≤ expiry.nanos
      rw [ownershipExpiry_eq_ok hg.expiry]
      exact he _ _ _ hg
    · exact .inr hover
  | released release prev hc ha hg =>
    obtain rfl : prev = rec :=
      Option.some.inj ((ha ▸ hg.found).symm.trans hf)
    refine ⟨_, rfl, ?_⟩
    rcases hl with ⟨ht, ho, hlive, hpr⟩ | hover
    · -- the owner has retired its fence under this token
      obtain ⟨-, hh, ht'⟩ := not_isFencedOut.1 hg.holder
      subst hc
      refine absurd (ht.trans ht') (hp control _ prev uuid row hpresent hg (ha ▸ hpa) ?_ hac)
      rw [← hh, ho]
      exact hrow
    · exact .inr hover
  | revoked change _ _ hc hs _ _ _ =>
    subst hc
    exact absurd hs hp

/-- A command of the authority keeps fences backed. -/
theorem FencesBacked.command (h : FencesBacked state)
    (hfi : OnControl OwnershipsFiled state.authority) {command : AuthorityCommand} {logId : LogId}
    (hpe : Permitted state (.command command logId))
    (he : OnStep ExtendsLease state.authority command) :
    FencesBacked (fleetStep K state (.command command logId)) := by
  intro nodeId key row hrow ha
  obtain ⟨control, agentId, uuid, rec, hc, hpa, rfl, hf, hb⟩ :=
    h nodeId key row hrow ha
  have hmove := applyAuthorityCommand_move K state.authority command logId
  show ∃ control agentId uuid rec,
    (applyAuthorityCommand K state.authority command logId).2.controlPlane = some control ∧ _
  generalize (applyAuthorityCommand K state.authority command logId).2.controlPlane = result
    at hmove ⊢
  cases hmove with
  | kept => exact ⟨control, agentId, uuid, rec, hc, hpa, rfl, hf, hb⟩
  | advanced ck control' _ hp =>
    obtain rfl := Option.some.inj (hc.symm.trans hp)
    exact ⟨_, agentId, uuid, rec, rfl, hpa, rfl, hf, hb.later (le_max_left _ _)⟩
  | created _ _ _ hab _ => exact absurd (hab.symm.trans hc) (by simp)
  | stepped control' next hfr hp hstep =>
    obtain rfl := Option.some.inj (hc.symm.trans hp)
    obtain ⟨rec', hf', hb'⟩ :=
      hb.step hc (hfi control hc) hstep hpe (he hfr control hc) hpa hrow ha hf
    exact ⟨next, agentId, uuid, rec', rfl, hpa, rfl, hf', hb'⟩

/-- Evidence that the authority confirms is that of the record of the agent. -/
theorem verifyQuorumDestinationAuthorityView_ok {req : MutationFenceRequest} {u : Unit}
    (hfi : OwnershipsFiled control) (h : verifyQuorumDestinationAuthorityView control req = .ok u) :
    ∃ rec, control.ownerships[req.agentId]? = some rec ∧
      rec.ownerNodeId = req.ownerNodeId ∧ rec.fencingToken = req.fencingToken ∧
      rec.leaseExpiresAt = req.proofExpiresAt ∧ rec.state = .active := by
  simp only [verifyQuorumDestinationAuthorityView, bind_eq_ok, orReject_eq_ok, rejectIf_eq_ok,
    not_or, not_not, ne_eq] at h
  obtain ⟨rec, hfind, -, ho, -, -, ht, he, hac, -⟩ := h
  obtain ⟨⟨key, v⟩, hmem, hv⟩ := List.mem_map.1 (List.mem_of_find?_eq_some hfind)
  obtain rfl : v = rec := hv
  have hf := OrdMap.mem_toList_iff.1 hmem
  have ha : v.agentId = req.agentId := by simpa using List.find?_some hfind
  rw [(hfi key v hf).1] at ha
  exact ⟨v, ha ▸ hf, ho, ht, he, hac⟩

/-- A call on one node keeps fences backed if what it stores is backed or not active. -/
theorem FencesBacked.update (h : FencesBacked state) {store : FenceStore}
    (hs : ∀ (key : Text) row, store.fences[key]? = some row → row.state = .active →
      (state.destinations nodeId).fences[key]? = some row ∨
        ∃ control agentId uuid rec, state.authority.controlPlane = some control ∧
          Uuid.parseStr agentId = some uuid ∧ uuid.toString = key ∧
          control.ownerships[agentId]? = some rec ∧
          Backs control.logicalTime nodeId rec row) :
    FencesBacked { state with
      destinations := Function.update state.destinations nodeId store } := by
  intro nodeId' key row hrow ha
  dsimp only at hrow
  by_cases hnode : nodeId' = nodeId
  · subst hnode
    rw [Function.update_self] at hrow
    rcases hs key row hrow ha with hold | hb
    · exact h nodeId' key row hold ha
    · exact hb
  · rw [Function.update_of_ne hnode] at hrow
    exact h nodeId' key row hrow ha

/-- An active fence after a call was there before it or is the one that an installation stores. -/
theorem fenceCall_active {store : FenceStore} {call : FenceCall} {key : Text}
    (hrow : (fenceCall nodeId store call).2.fences[key]? = some row) (ha : row.state = .active) :
    store.fences[key]? = some row ∨
      (call.state = .active ∧ call.request.agentId = key ∧ call.request.ownerNodeId = nodeId ∧
        row = call.request.fence .active call.now) := by
  by_cases hw : call.Writes nodeId store
  · rw [hw.spec.1] at hrow
    simp only [FenceStore.put, OrdMap.lookup_insert] at hrow
    split at hrow
    · next hkey =>
      obtain rfl := Option.some.inj hrow
      have hs : call.state = .active := ha
      exact .inr ⟨hs, hkey, hw.valid.destination, by rw [hs]⟩
    · exact .inl hrow
  · rw [fenceCall_of_not_writes hw] at hrow
    exact .inl hrow

theorem FencesBacked.install (h : FencesBacked state)
    (hf : OnControl OwnershipsFiled state.authority) (nodeId : Text) (req : MutationFenceRequest) :
    FencesBacked (fleetStep K state (.install nodeId req)) := by
  unfold fleetStep
  cases hc : state.authority.controlPlane with
  | none => exact h
  | some control =>
    refine h.update fun key row hrow ha => ?_
    unfold installAtDestination at hrow
    split at hrow
    · next parsedAgent hv hp =>
      change (fenceCall nodeId (state.destinations nodeId) ⟨.active,
        { req with agentId := parsedAgent.toString },
        control.logicalTime⟩).2.fences[key]? = some row at hrow
      obtain ⟨rec, hfo, ho, ht, he, hlive⟩ :=
        verifyQuorumDestinationAuthorityView_ok (hf control hc) hv
      rcases fenceCall_active hrow ha with hold | ⟨-, hkey, hnode, rfl⟩
      · exact .inl hold
      · exact .inr ⟨control, req.agentId, parsedAgent, rec, hc, hp, hkey,
          hfo, .inl ⟨ht.symm, ho.trans hnode, hlive, he.ge⟩⟩
    · exact .inl hrow

theorem FencesBacked.retire (h : FencesBacked state) (nodeId : Text) (req : MutationFenceRequest) :
    FencesBacked (fleetStep K state (.retire nodeId req)) := by
  unfold fleetStep
  cases hc : state.authority.controlPlane with
  | none => exact h
  | some control =>
    refine h.update fun key row hrow ha => ?_
    change (fenceCall nodeId (state.destinations nodeId) ⟨.retired, req,
      control.logicalTime⟩).2.fences[key]? = some row at hrow
    rcases fenceCall_active hrow ha with hold | ⟨hs, -⟩
    · exact .inl hold
    · cases hs

end Steps

/-! ## Runs -/

/-- Along every run in which releases follow retirements, no owner is revoked, no accepted renewal
moves an expiry back and no accepted claim spells the UUID of another record, at every instant one
node at most admits mutations of an agent. -/
theorem fleet_exclusive {K : Crypto} {events : List FleetEvent}
    (hpermitted : EachAfter (fun pre event => Permitted (runFleet K pre) event) events)
    (hextends : EachAfter (fun pre event => OnCommand ExtendsLease (runFleet K pre) event) events)
    (hclaims : EachAfter (fun pre event => OnCommand ClaimsOwnSpelling (runFleet K pre) event)
      events) :
    ∀ agentId nodeId nodeId', Admits (runFleet K events) nodeId agentId →
      Admits (runFleet K events) nodeId' agentId → nodeId = nodeId' := by
  have hinvariant : FencesBacked (runFleet K events) ∧
      OnControl (fun control => OwnershipsFiled control ∧ OneRecordPerUuid control)
        (runFleet K events).authority := by
    refine run_invariant_of
      (fun state : FleetState => FencesBacked state ∧
        OnControl (fun control => OwnershipsFiled control ∧ OneRecordPerUuid control)
          state.authority)
      (fun state event => Permitted state event ∧ OnCommand ExtendsLease state event ∧
        OnCommand ClaimsOwnSpelling state event)
      ⟨?_, onControl_empty _⟩ ?_
      (EachAfter.and_iff.2 ⟨hpermitted, EachAfter.and_iff.2 ⟨hextends, hclaims⟩⟩)
    · intro nodeId key row hrow
      simp [FleetState.empty, FenceStore.empty] at hrow
    · rintro state event ⟨hbacked, hcontrol⟩ ⟨hpermit, hextend, hclaim⟩
      have hfiled : OnControl OwnershipsFiled state.authority :=
        fun control hpresent => (hcontrol control hpresent).1
      cases event with
      | command command logId =>
        refine ⟨hbacked.command hfiled hpermit hextend, ?_⟩
        exact hcontrol.step (oneRecordPerUuid_keptBy K)
          (fun _ _ _ _ hbuilt => ⟨ownershipsFiled_genesis hbuilt,
            oneRecordPerUuid_genesis hbuilt⟩) hclaim
      | install nodeId request =>
        refine ⟨hbacked.install hfiled nodeId request, ?_⟩
        unfold fleetStep
        cases state.authority.controlPlane <;> exact hcontrol
      | retire nodeId request =>
        refine ⟨hbacked.retire nodeId request, ?_⟩
        unfold fleetStep
        cases state.authority.controlPlane <;> exact hcontrol
  intro agentId nodeId nodeId' h h'
  exact hinvariant.1.exclusive (fun control hpresent => (hinvariant.2 control hpresent).2) h h'

/-! ## A handover and an overlap -/

namespace Sample

/-- The genesis of a cluster of the nodes `a` and `b`. -/
def genesisEvent : FleetEvent :=
  .command (.initializeAuthority
    ⟨uuid '1', ⟨uuid 'c', [seed 'a' '1', seed 'b' '2']⟩, default⟩) (logId 1)

/-- The claim of the agent `d` by the node `a` for five minutes. -/
def claimEvent : FleetEvent :=
  .command (.claimOwnership ⟨uuid '2', uuid 'd', uuid 'a', 300, none, ['o'], ['r'], default⟩)
    (logId 2)

/-- The evidence of a record of the agent `d` that a node presents. -/
def evidence (owner : Char) (generation token : Nat) (expiry : DateTime) : MutationFenceRequest :=
  ⟨uuid 'd', uuid 'c', uuid owner, 1, generation, token, expiry, ['o'], ['r']⟩

end Sample

/-- The node `a` claims the agent, installs its fence, renews its lease, retires the fence and
releases the agent; then the node `b` claims the agent and installs its own fence. -/
def handover : List FleetEvent := [
  Sample.genesisEvent, Sample.claimEvent,
  .install (Sample.uuid 'a') (Sample.evidence 'a' 1 1 ⟨300000001000, by decide⟩),
  .command (.renewOwnership ⟨Sample.uuid '3', Sample.uuid 'd', Sample.uuid 'a', 1, 300, ['o'],
    ['r'], ⟨10000000000, by decide⟩⟩) (Sample.logId 3),
  .retire (Sample.uuid 'a') (Sample.evidence 'a' 1 1 ⟨300000001000, by decide⟩),
  .command (.releaseOwnership ⟨Sample.uuid '4', Sample.uuid 'd', Sample.uuid 'a', 1, ['o'], ['r'],
    ⟨20000000000, by decide⟩⟩) (Sample.logId 4),
  .command (.claimOwnership ⟨Sample.uuid '5', Sample.uuid 'd', Sample.uuid 'b', 300, some 1, ['o'],
    ['r'], ⟨20000000000, by decide⟩⟩) (Sample.logId 5),
  .install (Sample.uuid 'b') (Sample.evidence 'b' 4 2 ⟨320000001000, by decide⟩)]

/-- The node `a` shortens its lease after it installed its fence, and the node `b` claims the agent
when the shortened lease is over. -/
def overlap : List FleetEvent := [
  Sample.genesisEvent, Sample.claimEvent,
  .install (Sample.uuid 'a') (Sample.evidence 'a' 1 1 ⟨300000001000, by decide⟩),
  .command (.renewOwnership ⟨Sample.uuid '3', Sample.uuid 'd', Sample.uuid 'a', 1, 5, ['o'], ['r'],
    default⟩) (Sample.logId 3),
  .command (.claimOwnership ⟨Sample.uuid '4', Sample.uuid 'd', Sample.uuid 'b', 300, some 1, ['o'],
    ['r'], ⟨6000000000, by decide⟩⟩) (Sample.logId 4),
  .install (Sample.uuid 'b') (Sample.evidence 'b' 3 2 ⟨306000000000, by decide⟩)]

theorem Admits.of_request (req : MutationFenceRequest)
    (h : admitsRequest state nodeId req = true) : Admits state nodeId req.agentId :=
  ⟨req, rfl, h⟩

set_option maxRecDepth 100000 in
/-- Both nodes admit mutations of the agent at one instant. -/
theorem overlap_admits_twice :
    EachAfter (fun pre event => Permitted (runFleet Sample.crypto pre) event) overlap ∧
      Sample.uuid 'a' ≠ Sample.uuid 'b' ∧
      Admits (runFleet Sample.crypto overlap) (Sample.uuid 'a') (Sample.uuid 'd') ∧
      Admits (runFleet Sample.crypto overlap) (Sample.uuid 'b') (Sample.uuid 'd') := by
  refine ⟨?_, by decide +kernel,
    .of_request (Sample.evidence 'a' 1 1 ⟨300000001000, by decide⟩) (by decide +kernel),
    .of_request (Sample.evidence 'b' 3 2 ⟨306000000000, by decide⟩) (by decide +kernel)⟩
  simp only [overlap, eachAfter_cons, eachAfter_nil, Sample.genesisEvent, Sample.claimEvent,
    Permitted, and_true]

set_option maxRecDepth 100000 in
theorem handover_permitted :
    EachAfter (fun pre ev => Permitted (runFleet Sample.crypto pre) ev) handover := by
  have hr : ((runFleet Sample.crypto (handover.take 5)).destinations
      (Sample.uuid 'a')).fences[Sample.uuid 'd']?.map AgentMutationFence.state =
      some .retired := by decide +kernel
  have hc : (Uuid.parseStr (Sample.uuid 'd')).map Uuid.toString =
      some (Sample.uuid 'd') := by decide +kernel
  simp only [handover, eachAfter_cons, eachAfter_nil, Sample.genesisEvent, Sample.claimEvent,
    Permitted, and_true, true_and]
  intro control now previous uuid row _ _ hp hrow ha
  rw [hp, Option.map_some] at hc
  rw [Option.some.inj hc] at hrow
  have hs : some row.state = some AgentMutationFenceState.retired := by
    rw [← hr]
    exact (congrArg (Option.map AgentMutationFence.state) hrow).symm
  rw [ha] at hs
  cases hs

set_option maxRecDepth 100000 in
theorem handover_extends :
    EachAfter (fun pre ev => OnCommand ExtendsLease (runFleet Sample.crypto pre) ev) handover := by
  have hl : ((runFleet Sample.crypto (handover.take 3)).authority.ownership
      (Sample.uuid 'd')).map (fun rec => rec.leaseExpiresAt.nanos) =
      some 300000001000 := by decide +kernel
  simp only [handover, eachAfter_cons, eachAfter_nil, Sample.genesisEvent, Sample.claimEvent,
    OnCommand, OnStep, ExtendsLease, implies_true, and_true, true_and]
  intro _ control hpr now expiry prev hg
  have hp : some prev.leaseExpiresAt.nanos = some 300000001000 := by
    rw [← hl]
    exact (congrArg (Option.map fun rec => rec.leaseExpiresAt.nanos)
      (ownership_eq_some.2 ⟨control, hpr, hg.found⟩)).symm
  -- the renewal is proposed ten seconds after the epoch and runs for five minutes
  obtain ⟨least, -, hnow⟩ := hg.clock
  have hlate : (10000000000 : Int) ≤ now.nanos := by
    rw [hnow]
    exact DateTime.le_iff.1 (le_max_left _ _)
  rw [Option.some.inj hp]
  simp only [seconds, nanosPerSecond]
  omega

set_option maxRecDepth 100000 in
theorem handover_claims :
    EachAfter (fun pre ev => OnCommand ClaimsOwnSpelling (runFleet Sample.crypto pre) ev)
      handover := by
  have hkeys : ∀ n, n = 1 ∨ n = 6 →
      ∀ control, (runFleet Sample.crypto (handover.take n)).authority.controlPlane = some control →
        ∀ key ∈ control.ownerships, key = Sample.uuid 'd' := by
    intro n hn control hp key hkey
    have hall : ((runFleet Sample.crypto (handover.take n)).authority.controlPlane.all
        fun control => control.ownerships.keys.all (· == Sample.uuid 'd')) = true := by
      rcases hn with rfl | rfl
      · decide +kernel
      · decide +kernel
    rw [hp, Option.all_some, List.all_eq_true] at hall
    simpa using hall key (Std.ExtTreeMap.mem_keys.2 hkey)
  simp only [handover, eachAfter_cons, eachAfter_nil, Sample.genesisEvent, Sample.claimEvent,
    OnCommand, OnStep, ClaimsOwnSpelling, implies_true, and_true, true_and]
  refine ⟨?_, ?_⟩
  · intro _ control hp _ _ _ _ key hkey _
    exact hkeys 1 (.inl rfl) control hp key hkey
  · intro _ control hp _ _ _ _ key hkey _
    exact hkeys 6 (.inr rfl) control hp key hkey

set_option maxRecDepth 100000 in
/-- After the handover the node `b` admits mutations of the agent, and no other node does. -/
theorem handover_exclusive :
    Admits (runFleet Sample.crypto handover) (Sample.uuid 'b') (Sample.uuid 'd') ∧
      ∀ nodeId, Admits (runFleet Sample.crypto handover) nodeId (Sample.uuid 'd') →
        nodeId = Sample.uuid 'b' := by
  have hb : Admits (runFleet Sample.crypto handover) (Sample.uuid 'b') (Sample.uuid 'd') :=
    .of_request (Sample.evidence 'b' 4 2 ⟨320000001000, by decide⟩) (by decide +kernel)
  refine ⟨hb, fun nodeId h => ?_⟩
  exact fleet_exclusive handover_permitted handover_extends handover_claims _ _ _ h hb

end AgentOS
