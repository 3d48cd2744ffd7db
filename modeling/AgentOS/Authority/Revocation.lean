import AgentOS.Authority.Leases
import AgentOS.Authority.Rollouts
import AgentOS.Standalone.Control
import AgentOS.Lib.Standing

/-!
# Revocation

Both authorities are directories of nodes and leases: no call restores a revoked member, and only
active members are given ownership records or certificate rollouts (`ControlStep.directoryStep`,
`standaloneStep_follows`). A revoked member therefore stays revoked and without a rollout. The
standalone authority releases every record of the member that it revokes. The replicated one
releases the unexpired ones only, so that a member that is revoked after one of its leases expired
keeps an active record (`expiredLease_survives`); it keeps none exactly when no active record of it
has expired (`revocation_terminal`).
-/

namespace AgentOS

open Lib ReplicatedControlPlaneState

def ClusterMemberState.standing : ClusterMemberState → Standing
  | .active => .good
  | .left => .away
  | .revoked => .expelled

/-- The owner of an active record. -/
def activeOwner (record : ClusterAgentOwnership) : Option Text :=
  if record.state = .active then some record.ownerNodeId else none

variable {nodeId : Text}

theorem activeOwner_eq_some {rec : ClusterAgentOwnership} :
    activeOwner rec = some nodeId ↔ rec.state = .active ∧ rec.ownerNodeId = nodeId := by
  by_cases hs : rec.state = .active <;> simp [activeOwner, hs]

/-- The directory of the replicated authority. -/
def ReplicatedControlPlaneState.directory (control : ReplicatedControlPlaneState) :
    Directory Text Text where
  standing nodeId := control.members[nodeId]?.map fun member => member.state.standing
  holder agentId := control.ownerships[agentId]?.bind activeOwner
  busy nodeId := control.certificateRollouts[nodeId]? ≠ none

/-- The directory of the standalone authority, which has no certificate rollouts. -/
def StandaloneStore.directory (store : StandaloneStore) : Directory Text Text where
  standing nodeId := store.members[nodeId]?.map fun member => member.state.standing
  holder agentId := store.ownerships[agentId]?.bind activeOwner
  busy _ := False

section Lookups

variable {members members' : OrdMap Text ClusterMember}

theorem standing_eq_expelled :
    (members[nodeId]?.map fun member => member.state.standing) = some .expelled ↔
      ∃ member, members[nodeId]? = some member ∧ member.state = .revoked := by
  simp only [Option.map_eq_some_iff]
  constructor
  · rintro ⟨member, hm, hst⟩
    refine ⟨member, hm, ?_⟩
    cases hs : member.state with
    | active | left => simp [ClusterMemberState.standing, hs] at hst
    | revoked => rfl
  · rintro ⟨member, hm, hs⟩
    exact ⟨member, hm, by rw [hs]; rfl⟩

theorem standing_of_active {member : ClusterMember} (hm : members[nodeId]? = some member)
    (hs : member.state = .active) :
    (members[nodeId]?.map fun member => member.state.standing) = some .good := by
  rw [hm, Option.map_some, hs]
  rfl

/-- Storing a row for a node that is not revoked restores nobody. -/
theorem standing_insert {row : ClusterMember} (hi : members' = members.insert nodeId row)
    (ha : ∀ member, members[nodeId]? = some member → member.state = .revoked → row.state = .revoked)
    (key : Text) (h : (members[key]?.map fun member => member.state.standing) = some .expelled) :
    (members'[key]?.map fun member => member.state.standing) = some .expelled := by
  obtain ⟨member, hm, hs⟩ := standing_eq_expelled.1 h
  rw [standing_eq_expelled, hi, OrdMap.lookup_insert]
  by_cases hkey : nodeId = key
  · subst hkey
    exact ⟨row, if_pos rfl, ha member hm hs⟩
  · exact ⟨member, (if_neg hkey).trans hm, hs⟩

end Lookups

/-! ## The replicated authority -/

variable {P : Directory Text Text → Prop}

section Replicated

variable {K : Crypto} {control control' : ReplicatedControlPlaneState} {authorityTerm : Nat}
  {command : AuthorityCommand}

theorem ControlStep.terminal (hfi : MembersFiled control)
    (hstep : ControlStep K authorityTerm control command control') (nodeId : Text)
    (h : control.directory.standing nodeId = some .expelled) :
    control'.directory.standing nodeId = some .expelled := by
  -- the revision of an existing member keeps its state
  have hre : ∀ {key : Text} {member row : ClusterMember},
      control.members[key]? = some member → row.state = member.state →
      ∀ fd, control.members[member.nodeId]? = some fd → fd.state = .revoked →
        row.state = .revoked := by
    intro key member row hm hrow fd hf hs
    rw [hfi key member hm, hm] at hf
    obtain rfl := Option.some.inj hf
    exact hrow.trans hs
  cases hstep with
  | issue => exact h
  | claim => exact h
  | renew => exact h
  | release => exact h
  | @register registered now _ revision _ hg ho =>
    have ha : ∀ member : ClusterMember,
        control.members[registered.registration.nodeId]? = some member →
        member.state = .revoked →
        (registeredMember registered revision now).state = .revoked := by
      intro member hm hs
      have hr := hg.revision
      rw [hm] at hr
      cases hr with
      | rejoin _ _ ha => exact absurd hs ha
    cases ho with
    | join => exact standing_insert (joinNext_members ..) ha nodeId h
    | activate => exact standing_insert (activateNext_members ..) ha nodeId h
  | prepare hg => exact standing_insert (prepareNext_members ..) (hre hg.found rfl) nodeId h
  | abort hg | finalize hg =>
    exact standing_insert (finishNext_members ..) (hre hg.found rfl) nodeId h
  | setState hg ho =>
    refine standing_insert ho.members (fun member hm hs => ?_) nodeId h
    obtain rfl := Option.some.inj (hm.symm.trans hg.found)
    exact absurd hs hg.admitted

theorem ControlStep.granted (hf : OwnershipsFiled control)
    (hstep : ControlStep K authorityTerm control command control') (agentId nodeId : Text)
    (h : control'.directory.holder agentId = some nodeId) :
    control.directory.holder agentId = some nodeId ∨
      control.directory.standing nodeId = some .good := by
  obtain ⟨rec, hr, ho⟩ := Option.bind_eq_some_iff.1 h
  obtain ⟨ha, rfl⟩ := activeOwner_eq_some.1 ho
  have hc := hstep.ownershipChange hf agentId
  rw [hr] at hc
  generalize hsome : some rec = result at hc
  cases hc with
  | kept => exact .inl (Option.bind_eq_some_iff.2 ⟨rec, hsome.symm, ho⟩)
  | claimed claim _ _ _ _ hg =>
    obtain rfl := Option.some.inj hsome
    obtain ⟨member, hm, hs⟩ := hg.owner
    exact .inr (standing_of_active hm hs)
  | renewed renewal _ prev _ hag hg =>
    obtain rfl := Option.some.inj hsome
    refine .inl (Option.bind_eq_some_iff.2 ⟨prev, hag ▸ hg.found, ?_⟩)
    exact activeOwner_eq_some.2 ⟨ha, rfl⟩
  | released | revoked =>
    obtain rfl := Option.some.inj hsome
    cases ha

theorem ControlStep.started (hfi : MembersFiled control)
    (hstep : ControlStep K authorityTerm control command control') (nodeId : Text)
    (h : control'.directory.busy nodeId) :
    control.directory.busy nodeId ∨ control.directory.standing nodeId = some .good := by
  have he : ∀ (key : Text), (control.certificateRollouts.erase key)[nodeId]? ≠ none →
      control.certificateRollouts[nodeId]? ≠ none := by
    intro key he
    rw [OrdMap.lookup_erase] at he
    split at he
    · exact absurd rfl he
    · exact he
  cases hstep with
  | issue | claim | renew | release => exact .inl h
  | register hg ho =>
    cases ho with
    | join => exact .inl h
    | activate member rollout _ ha _ _ =>
      replace h : (control.certificateRollouts.insert _ _)[nodeId]? ≠ none := h
      rw [OrdMap.lookup_insert] at h
      split at h
      · next heq =>
        have hu := ha.unfinished
        rw [hfi _ member ha.found, heq] at hu
        exact .inl fun hnone => absurd (hu.symm.trans hnone) (by simp)
      · exact .inl h
  | prepare hg =>
    replace h : (control.certificateRollouts.insert _ _)[nodeId]? ≠ none := h
    rw [OrdMap.lookup_insert] at h
    split at h
    · next heq =>
      have hf := hg.found
      rw [← hfi _ _ hf, heq] at hf
      exact .inr (standing_of_active hf hg.active)
    · exact .inl h
  | abort | finalize => exact .inl (he _ h)
  | setState hg ho =>
    cases ho with
    | leave | revoke => exact .inl h
    | revokeDrop _ _ _ _ _ _ _ => exact .inl (he _ h)

/-- The invariants that the directory rests on. -/
structure DirectoryFiled (control : ReplicatedControlPlaneState) : Prop where
  members : MembersFiled control
  ownerships : OwnershipsFiled control

theorem directoryFiled_keptBy (K : Crypto) : KeptBy K (fun _ _ => True) DirectoryFiled where
  later control time hle h := ⟨h.members, (ownershipsFiled_keptBy K).later control time hle
    h.ownerships⟩
  step term control command control' h _ hstep := ⟨h.members.step hstep,
    (ownershipsFiled_keptBy K).step term control command control' h.ownerships trivial hstep⟩

theorem directoryFiled_run (K : Crypto) (commands : List (AuthorityCommand × LogId)) :
    OnControl DirectoryFiled (applyAuthorityCommands K commands) :=
  onControl_run (directoryFiled_keptBy K)
    (fun _ _ _ hb => ⟨(rolloutsSound_genesis hb).filed, ownershipsFiled_genesis hb⟩)
    fun _ _ _ _ _ _ _ => trivial

theorem ControlStep.directoryStep (hf : DirectoryFiled control)
    (hstep : ControlStep K authorityTerm control command control') :
    DirectoryStep control.directory control'.directory :=
  ⟨hstep.terminal hf.members, hstep.granted hf.ownerships, hstep.started hf.members⟩

/-- A property that every step of the directory keeps. -/
theorem keptBy_of_directory (K : Crypto) (hP : ∀ d d', P d → DirectoryStep d d' → P d') :
    KeptBy K (fun _ _ => True) fun control => DirectoryFiled control ∧ P control.directory where
  later control time hle h := ⟨(directoryFiled_keptBy K).later control time hle h.1, h.2⟩
  step term control command control' h _ hstep :=
    ⟨(directoryFiled_keptBy K).step term control command control' h.1 trivial hstep,
      hP _ _ h.2 (hstep.directoryStep h.1)⟩

/-- No active record of the member that a command revokes has expired. -/
def NoExpiredLease (control : ReplicatedControlPlaneState) (command : SetMemberState) : Prop :=
  ∀ now, EffectiveAt control.logicalTime command.proposedAt now →
    ∀ (agentId : Text) (record : ClusterAgentOwnership),
      control.ownerships[agentId]? = some record → record.ownerNodeId = command.nodeId →
      record.state = .active → now < record.leaseExpiresAt

variable {change : SetMemberState} {now : DateTime} {member : ClusterMember}

/-- The records after a revocation, whether or not it drops a rollout. -/
theorem SetStateOutcome.ownerships_of_revoked (hr : change.state = .revoked)
    (ho : SetStateOutcome control change authorityTerm now member control') :
    control'.ownerships = (releaseLeases change.nodeId authorityTerm change.actor change.reason now
        { control with logicalTime := now }
        (activeOwned control change.nodeId now)).ownerships := by
  cases ho with
  | leave hleft => exact absurd (hr.symm.trans hleft) (by simp)
  | revoke => rfl
  | revokeDrop => rfl

theorem SetStateOutcome.expelled (hr : change.state = .revoked)
    (ho : SetStateOutcome control change authorityTerm now member control') :
    Expelled control'.directory change.nodeId := by
  refine ⟨?_, ?_⟩
  · have hs := OrdMap.lookup_insert_self control.members change.nodeId
      (revisedMember member (member.generation + 1) change.state
        member.tlsServerCertificateFingerprint change.reason now)
    rw [← ho.members] at hs
    exact standing_eq_expelled.2 ⟨_, hs, hr⟩
  · cases ho with
    | leave hleft => exact absurd (hr.symm.trans hleft) (by simp)
    | revoke _ hidle => exact fun hbusy => hbusy hidle
    | revokeDrop =>
      intro hbusy
      replace hbusy : (control.certificateRollouts.erase change.nodeId)[change.nodeId]? ≠ none :=
        hbusy
      rw [OrdMap.lookup_erase, if_pos rfl] at hbusy
      exact hbusy rfl

/-- A revocation leaves no active record exactly when no active record has expired. -/
theorem SetStateGuard.evicted_iff (hf : OwnershipsFiled control)
    (hg : SetStateGuard control change now member) (hre : change.state = .revoked)
    (ho : SetStateOutcome control change authorityTerm now member control') :
    Evicted control'.directory change.nodeId ↔ NoExpiredLease control change := by
  have hl : ∀ agentId : Text, control'.ownerships[agentId]? = _ := fun agentId =>
    (congrArg (·[agentId]?) (ho.ownerships_of_revoked hre)).trans
      (hf.lookup_releaseLeases change.nodeId change.actor change.reason agentId)
  constructor
  · intro he now' hnow agentId rec hr how ha
    obtain rfl := hg.clock.unique hnow
    by_contra hexp
    -- the record is not among the released ones, so it is still there
    have hkept : rec ∉ activeOwned control change.nodeId now :=
      fun hmem => hexp (mem_activeOwned.1 hmem).2.2.2
    apply he.holder agentId
    refine Option.bind_eq_some_iff.2 ⟨rec, ?_, activeOwner_eq_some.2 ⟨ha, how⟩⟩
    rw [hl, hr, Option.map_some, if_neg hkept]
  · intro hlive
    refine ⟨ho.expelled hre, fun agentId hh => ?_⟩
    obtain ⟨rec, hr, how⟩ := Option.bind_eq_some_iff.1 hh
    obtain ⟨ha, hown⟩ := activeOwner_eq_some.1 how
    rw [hl] at hr
    obtain ⟨prev, hp, hs⟩ := Option.map_eq_some_iff.1 hr
    split at hs
    · obtain rfl := hs
      cases ha
    · next hkept =>
      obtain rfl := hs
      exact hkept (mem_activeOwned.2 ⟨⟨agentId, hp⟩, hown, ha,
        hlive now hg.clock agentId prev hp hown ha⟩)

end Replicated

/-! ## The standalone authority -/

section Standalone

variable {later : DateTime → DateTime → Bool} {K : Crypto} {store store' : StandaloneStore}

/-- Rows sit under their own agent. -/
def RowsFiled (store : StandaloneStore) : Prop :=
  ∀ (agentId : Text) (row : ClusterAgentOwnership),
    store.ownerships[agentId]? = some row → row.agentId = agentId

theorem OwnershipWrite.rowsFiled {row : ClusterAgentOwnership} (h : RowsFiled store)
    (hw : OwnershipWrite store store' row) : RowsFiled store' := by
  intro agentId sto hs
  rw [hw.ownerships, OrdMap.lookup_insert] at hs
  split at hs
  · next heq =>
    obtain rfl := Option.some.inj hs
    exact heq
  · exact h agentId sto hs

variable {request : StateRequest}

theorem StateChange.rowsFiled (h : RowsFiled store) (hc : StateChange store store' request) :
    RowsFiled store' := by
  intro agentId row hrow
  cases hs : request.state with
  | active => exact absurd hs hc.inactive
  | left =>
    rw [hc.left hs] at hrow
    exact h agentId row hrow
  | revoked =>
    rcases hc.revoked hs agentId row hrow with ⟨-, ha⟩ | ⟨hold, -⟩
    · exact ha
    · exact h agentId row hold

/-- The steps of a store that changes neither members nor records. -/
theorem directoryStep_of_eq (hm : store'.members = store.members)
    (ho : store'.ownerships = store.ownerships) :
    DirectoryStep store.directory store'.directory := by
  refine ⟨fun nodeId h => ?_, fun agentId nodeId h => .inl ?_, fun _ h => .inl h⟩
  · show Option.map _ store'.members[nodeId]? = _
    rw [hm]
    exact h
  · show Option.bind store.ownerships[agentId]? _ = _
    rw [← ho]
    exact h

theorem OwnershipWrite.directoryStep {row : ClusterAgentOwnership}
    (hw : OwnershipWrite store store' row)
    (ho : row.state = .active → ∃ member, store.members[row.ownerNodeId]? = some member ∧
      member.state = .active) : DirectoryStep store.directory store'.directory := by
  refine ⟨fun nodeId h => ?_, fun agentId nodeId h => ?_, fun _ h => .inl h⟩
  · show Option.map _ store'.members[nodeId]? = _
    rw [hw.members]
    exact h
  · replace h : store'.ownerships[agentId]?.bind activeOwner = some nodeId := h
    rw [hw.ownerships, OrdMap.lookup_insert] at h
    split at h
    · obtain ⟨ha, rfl⟩ := activeOwner_eq_some.1 h
      obtain ⟨member, hm, hs⟩ := ho ha
      exact .inr (standing_of_active hm hs)
    · exact .inl h

theorem StateChange.directoryStep (hc : StateChange store store' request) :
    DirectoryStep store.directory store'.directory := by
  obtain ⟨row, -, hst⟩ := hc.member
  obtain ⟨member, hm, ha⟩ := hc.admitted
  refine ⟨fun nodeId h => standing_insert hst (fun fd hf hs => ?_) nodeId h,
    fun agentId nodeId h => .inl ?_, fun _ h => .inl h⟩
  · obtain rfl := Option.some.inj (hf.symm.trans hm)
    exact absurd hs ha
  · obtain ⟨rec, hr, ho⟩ := Option.bind_eq_some_iff.1 h
    refine Option.bind_eq_some_iff.2 ⟨rec, ?_, ho⟩
    cases hs : request.state with
    | active => exact absurd hs hc.inactive
    | left =>
      rw [hc.left hs] at hr
      exact hr
    | revoked =>
      rcases hc.revoked hs agentId rec hr with ⟨hre, -⟩ | ⟨hold, -⟩
      · obtain ⟨hac, -⟩ := activeOwner_eq_some.1 ho
        exact absurd (hac.symm.trans hre) (by simp)
      · exact hold

/-- A store that follows another one: its rows are filed, and the directory takes a step. -/
structure Follows (store store' : StandaloneStore) : Prop where
  filed : RowsFiled store'
  step : DirectoryStep store.directory store'.directory

theorem follows_of_eq (h : RowsFiled store) (hm : store'.members = store.members)
    (ho : store'.ownerships = store.ownerships) : Follows store store' := by
  refine ⟨fun agentId row hrow => ?_, directoryStep_of_eq hm ho⟩
  rw [ho] at hrow
  exact h agentId row hrow

/-- Every call leads to a store that follows. -/
theorem standaloneStep_follows (later : DateTime → DateTime → Bool) (K : Crypto)
    (call : StandaloneCall) (h : RowsFiled store) :
    Follows store (standaloneStep later K store call) := by
  have hsame : Follows store store := follows_of_eq h rfl rfl
  cases call with
  | issueJoinChallenge chal ttl issuedAt prunedAt =>
    obtain ⟨hm, ho⟩ :=
      issueJoinChallenge_snd later K store chal ttl issuedAt prunedAt
    exact follows_of_eq h hm ho
  | registerMember =>
    refine transact_snd (Follows store) hsame fun store' hok => ?_
    obtain ⟨had, ⟨row, -, hm⟩, ho⟩ := registerMemberTransaction_ok hok
    refine ⟨fun agentId row hrow => h agentId row (ho ▸ hrow), ?_, ?_, fun _ hbusy => .inl hbusy⟩
    · exact standing_insert hm fun member hme hs =>
        absurd hs (had member hme)
    · intro agentId nodeId hh
      replace hh : store'.ownerships[agentId]?.bind activeOwner = some nodeId := hh
      rw [ho] at hh
      exact .inl hh
  | setMemberState =>
    refine transact_snd (Follows store) hsame fun store' hok => ?_
    have hc := setMemberStateTransaction_ok hok
    exact ⟨hc.rowsFiled h, hc.directoryStep⟩
  | claim =>
    refine transact_snd (Follows store) hsame fun store' hok => ?_
    obtain ⟨ha, row, how, hw⟩ := claimTransaction_ok hok
    exact ⟨hw.rowsFiled h, hw.directoryStep fun _ => how ▸ ha⟩
  | renew =>
    refine transact_snd (Follows store) hsame fun store' hok => ?_
    obtain ⟨ha, row, how, hw⟩ := renewTransaction_ok hok
    exact ⟨hw.rowsFiled h, hw.directoryStep fun _ => how ▸ ha⟩
  | release =>
    refine transact_snd (Follows store) hsame fun store' hok => ?_
    obtain ⟨row, hr, hw⟩ := releaseTransaction_ok hok
    exact ⟨hw.rowsFiled h, hw.directoryStep fun ha =>
      absurd (ha.symm.trans hr) (by simp)⟩

theorem rowsFiled_run (later : DateTime → DateTime → Bool) (K : Crypto) (cid : Text)
    (cs : List StandaloneCall) : RowsFiled (runStandalone later K cid cs) := by
  refine run_invariant (P := RowsFiled) ?_ (fun store call h => ?_) cs
  · intro agentId row hrow
    simp [StandaloneStore.new] at hrow
  · exact (standaloneStep_follows later K call h).filed

/-- A revocation releases every record of its node. -/
theorem StateChange.evicted (h : RowsFiled store) (hc : StateChange store store' request)
    (hr : request.state = .revoked) : Evicted store'.directory request.nodeId := by
  obtain ⟨row, hst, hs⟩ := hc.member
  have hf : store'.members[request.nodeId]? = some row := by rw [hs, OrdMap.lookup_insert_self]
  refine ⟨⟨standing_eq_expelled.2 ⟨row, hf, hst.trans hr⟩, fun hbusy => hbusy⟩,
    fun agentId hh => ?_⟩
  obtain ⟨rec, hrc, hown⟩ := Option.bind_eq_some_iff.1 hh
  obtain ⟨ha, how⟩ := activeOwner_eq_some.1 hown
  rcases hc.revoked hr agentId rec hrc with ⟨hre, -⟩ | ⟨hold, ho⟩
  · exact absurd (ha.symm.trans hre) (by simp)
  · exact ho rec (mem_ownedRows.2 ⟨⟨agentId, hold⟩, how, ha⟩) (h agentId rec hold)

/-- An evicted node stays evicted in every later state. -/
theorem evicted_runStandalone (h : RowsFiled store) (he : Evicted store.directory nodeId)
    (cs : List StandaloneCall) :
    Evicted (run (standaloneStep later K) store cs).directory nodeId := by
  have hboth : RowsFiled store ∧ Evicted store.directory nodeId := ⟨h, he⟩
  refine (run_invariant (P := fun store => RowsFiled store ∧ Evicted store.directory nodeId) hboth
    (fun store call hs => ?_) cs).2
  have hf := standaloneStep_follows later K call hs.1
  exact ⟨hf.filed, hs.2.step hf.step⟩

end Standalone

/-! ## Both authorities -/

/-- A property of directories that every step keeps holds in every state after a command that
established it. -/
theorem directory_run_after {K : Crypto} (hP : ∀ d d', P d → DirectoryStep d d' → P d')
    {commands : List (AuthorityCommand × LogId)} {x : AuthorityCommand × LogId}
    {control' : ReplicatedControlPlaneState}
    (ha : (authorityStep K (applyAuthorityCommands K commands) x).controlPlane = some control')
    (hs : P control'.directory) (after : List (AuthorityCommand × LogId)) :
    OnControl (fun control => P control.directory)
      (applyAuthorityCommands K (commands ++ x :: after)) := by
  have hf := directoryFiled_run K (commands ++ [x])
  rw [applyAuthorityCommands_snoc] at hf
  have hst : OnControl (fun control => DirectoryFiled control ∧ P control.directory)
      (authorityStep K (applyAuthorityCommands K commands) x) := by
    intro control hc
    obtain rfl := Option.some.inj (ha.symm.trans hc)
    exact ⟨hf _ hc, hs⟩
  intro control hc
  exact (onControl_run_after (keptBy_of_directory K hP) (by simp [ha]) hst after control hc).2

/-- After a revocation the member stays revoked and without a rollout on both authorities. The
standalone authority leaves it no active record, now and in every later state; the replicated one
exactly when no active record of the member had expired. -/
theorem revocation_terminal (K : Crypto) :
    (∀ commands change logId control updated control',
      (applyAuthorityCommands K commands).controlPlane = some control →
      Fresh (applyAuthorityCommands K commands) (.setMemberState change) →
      change.state = .revoked →
      applySetMemberState control change logId.leaderId.term = .ok (updated, control') →
      (∀ after, OnControl (fun control => Expelled control.directory change.nodeId)
        (applyAuthorityCommands K (commands ++ (.setMemberState change, logId) :: after))) ∧
      ((∀ after, OnControl (fun control => Evicted control.directory change.nodeId)
          (applyAuthorityCommands K (commands ++ (.setMemberState change, logId) :: after))) ↔
        NoExpiredLease control change)) ∧
    (∀ later clusterId calls request now member, request.state = .revoked →
      (setMemberState later K (runStandalone later K clusterId calls) request now).1 =
        .ok member →
      ∀ after, Evicted
        (runStandalone later K clusterId
          (calls ++ .setMemberState request now :: after)).directory request.nodeId) := by
  constructor
  · intro commands change logId control updated control' hcontrol hfresh hrevoked happly
    obtain ⟨now, member, hguard, -, houtcome⟩ := applySetMemberState_eq_ok.1 happly
    have hfiled := directoryFiled_run K commands control hcontrol
    have hstep : ControlStep K logId.leaderId.term control (.setMemberState change) control' :=
      .setState hguard houtcome
    -- the command commits, so the run goes on from the new control plane
    have hafter : (authorityStep K (applyAuthorityCommands K commands)
        (.setMemberState change, logId)).controlPlane = some control' := by
      obtain ⟨response, -, hcommit⟩ := applyAuthorityCommand_of_newStep logId hfresh
        (.control (K := K) hcontrol hstep)
      rw [authorityStep, hcommit]
      rfl
    refine ⟨directory_run_after (P := fun d => Expelled d change.nodeId) (fun _ _ h hd => h.step hd)
      hafter (houtcome.expelled hrevoked), ?_⟩
    rw [← hguard.evicted_iff hfiled.ownerships hrevoked houtcome]
    constructor
    · intro hall
      have hfirst := hall []
      rw [applyAuthorityCommands_snoc] at hfirst
      exact hfirst control' hafter
    · exact fun hevicted => directory_run_after (P := fun d => Evicted d change.nodeId)
        (fun _ _ h hd => h.step hd) hafter hevicted
  · intro later clusterId calls request now member hrevoked hok after
    have hfiled := rowsFiled_run later K clusterId calls
    have hchange := setMemberStateTransaction_ok (transact_fst_ok hok)
    have hsplit : runStandalone later K clusterId
        (calls ++ .setMemberState request now :: after) =
        run (standaloneStep later K)
          (setMemberState later K (runStandalone later K clusterId calls) request now).2 after := by
      rw [runStandalone, List.append_cons, run_append, run_snoc]
      rfl
    rw [hsplit]
    exact evicted_runStandalone (hchange.rowsFiled hfiled) (hchange.evicted hfiled hrevoked) after

/-! ## An expired lease -/

theorem tenSeconds_inRange : minUtc ≤ 10000000000 ∧ 10000000000 ≤ maxUtc := by decide

/-- Node `a` claims an agent for a number of seconds. -/
def claimedBriefly (ttlSeconds : Nat) : List (AuthorityCommand × LogId) := [
  (.initializeAuthority
    ⟨Sample.uuid '1', ⟨Sample.uuid 'c', [Sample.seed 'a' '1']⟩, default⟩, Sample.logId 1),
  (.claimOwnership ⟨Sample.uuid '2', Sample.uuid 'd', Sample.uuid 'a', ttlSeconds, none, ['o'],
    ['r'], default⟩, Sample.logId 2),
  (.advanceTime ⟨Sample.uuid '3', ⟨10000000000, tenSeconds_inRange⟩⟩, Sample.logId 3)]

/-- The revocation of node `a`, ten seconds later. -/
def revocation : SetMemberState :=
  ⟨Sample.uuid '4', Sample.uuid 'a', .revoked, 1, ['o'], ['r'], default⟩

set_option maxRecDepth 100000 in
/-- The lease of five seconds has expired, and the revocation leaves its record active. -/
theorem expiredLease_survives :
    ((applyAuthorityCommands Sample.crypto (claimedBriefly 5)).controlPlane.any fun control =>
      isOk (applySetMemberState control revocation (Sample.logId 4).leaderId.term)) = true ∧
    ((applyAuthorityCommands Sample.crypto
        (claimedBriefly 5 ++ [(.setMemberState revocation, Sample.logId 4)])).controlPlane.any
      fun control =>
        control.members[Sample.uuid 'a']?.map ClusterMember.state == some .revoked &&
        control.ownerships[Sample.uuid 'd']?.map (fun record => (record.ownerNodeId, record.state))
          == some (Sample.uuid 'a', .active)) = true := by
  decide +kernel

/-- Node `a` joins the standalone authority and claims an agent. -/
def standaloneClaim : List StandaloneCall := [
  .issueJoinChallenge (List.replicate 32 34) 300 default default,
  .registerMember ⟨Sample.registration 'a' '1', Sample.hex '2', [], none, 1, 1, ['o'], ['r']⟩
    default default,
  .claim ⟨Sample.uuid 'd', Sample.uuid 'a', ['o'], ['r']⟩ 5 none default]

set_option maxRecDepth 100000 in
/-- Both authorities revoke `a` while its lease is live. -/
theorem liveLease_revoked :
    (∃ control, (applyAuthorityCommands Sample.crypto (claimedBriefly 300)).controlPlane =
        some control ∧
      ((∀ after, OnControl (fun control => Evicted control.directory (Sample.uuid 'a'))
          (applyAuthorityCommands Sample.crypto
            (claimedBriefly 300 ++ (.setMemberState revocation, Sample.logId 4) :: after))) ↔
        NoExpiredLease control revocation)) ∧
    ∀ after, Evicted
      (runStandalone (fun a b => decide (b < a)) Sample.crypto (Sample.uuid 'c')
        (standaloneClaim ++ .setMemberState
          ⟨Sample.uuid 'a', .revoked, 1, ['o'], ['r']⟩ ⟨10000000000, by decide⟩ :: after)).directory
      (Sample.uuid 'a') := by
  constructor
  · have hok : ((applyAuthorityCommands Sample.crypto (claimedBriefly 300)).controlPlane.any
        fun control =>
          isOk (applySetMemberState control revocation (Sample.logId 4).leaderId.term)) = true := by
      decide +kernel
    obtain ⟨control, hcontrol, happly⟩ := (Option.any_eq_true _ _).1 hok
    obtain ⟨⟨updated, control'⟩, happly⟩ := isOk_iff.1 happly
    have hfresh : Fresh (applyAuthorityCommands Sample.crypto (claimedBriefly 300))
        (.setMemberState revocation) :=
      ⟨by decide +kernel, fun _ => by simp, by decide +kernel, by decide +kernel,
        by decide +kernel, by decide +kernel⟩
    exact ⟨control, hcontrol, ((revocation_terminal Sample.crypto).1 (claimedBriefly 300)
      revocation (Sample.logId 4) control updated control' hcontrol hfresh rfl happly).2⟩
  · have hok : isOk (setMemberState (fun a b => decide (b < a)) Sample.crypto
        (runStandalone (fun a b => decide (b < a)) Sample.crypto (Sample.uuid 'c')
          standaloneClaim)
        ⟨Sample.uuid 'a', .revoked, 1, ['o'], ['r']⟩ ⟨10000000000, by decide⟩).1 = true := by
      decide +kernel
    obtain ⟨member, hmember⟩ := isOk_iff.1 hok
    exact (revocation_terminal Sample.crypto).2 _ (Sample.uuid 'c') standaloneClaim _ _ member rfl
      hmember

end AgentOS
