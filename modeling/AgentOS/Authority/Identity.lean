import AgentOS.Authority.Leases

/-!
# One ownership record per agent

The directory of ownership records is keyed by the text of the request, and `Uuid::parse_str`
accepts several texts for one UUID. The keys of a directory spell pairwise different UUIDs along a
run exactly when every accepted claim that adds a key is for a UUID that no key spells yet
(`oneRecordPerUuid_iff`).
-/

namespace AgentOS

open Lib

/-- No two keys of the directory spell one UUID. -/
def OneRecordPerUuid (control : ReplicatedControlPlaneState) : Prop :=
  ∀ (agentId agentId' : Text) (uuid : Uuid), agentId ∈ control.ownerships →
    agentId' ∈ control.ownerships → Uuid.parseStr agentId = some uuid →
    Uuid.parseStr agentId' = some uuid → agentId = agentId'

/-- A claim that passes its checks does not spell the UUID of another key. -/
def ClaimsOwnSpelling (control : ReplicatedControlPlaneState) : AuthorityCommand → Prop
  | .claimOwnership command => ∀ now leaseExpiresAt grant,
      ClaimGuard control command now leaseExpiresAt grant →
      ∀ key ∈ control.ownerships, Uuid.parseStr key = Uuid.parseStr command.agentId →
        key = command.agentId
  | _ => True

variable {K : Crypto} {control control' : ReplicatedControlPlaneState}

/-- Only a claim adds a key to the directory. -/
theorem ControlStep.mem_ownerships {term : Nat} {command : AuthorityCommand}
    (h : OwnershipsFiled control) (hstep : ControlStep K term control command control')
    {key : Text} (hkey : key ∈ control'.ownerships) :
    key ∈ control.ownerships ∨ ∃ claim now expiry gr,
      command = .claimOwnership claim ∧ key = claim.agentId ∧
        ClaimGuard control claim now expiry gr := by
  rw [OrdMap.mem_iff_exists_lookup] at hkey
  have hc := hstep.ownershipChange h key
  generalize control'.ownerships[key]? = result at hc hkey
  obtain ⟨rec, rfl⟩ := hkey
  generalize hsome : some rec = result at hc
  cases hc with
  | kept => exact .inl (OrdMap.mem_of_lookup hsome.symm)
  | claimed claim expiry gr hcommand ha hg =>
    exact .inr ⟨claim, _, expiry, gr, hcommand, ha.symm, hg⟩
  | renewed _ _ prev _ ha hg | released _ prev _ ha hg =>
    exact .inl (OrdMap.mem_of_lookup (ha ▸ hg.found))
  | revoked _ _ prev _ _ _ hf _ => exact .inl (OrdMap.mem_of_lookup hf)

/-- A transition that meets the condition keeps the spellings apart. -/
theorem OneRecordPerUuid.step {term : Nat} {command : AuthorityCommand}
    (hf : OwnershipsFiled control)
    (h : OneRecordPerUuid control) (hcl : ClaimsOwnSpelling control command)
    (hstep : ControlStep K term control command control') : OneRecordPerUuid control' := by
  -- a new key is the agent of the claim, and no other key spells its UUID
  have hnew : ∀ (key o : Text) (uuid : Uuid), key ∈ control.ownerships →
      (∃ claim now expiry gr, command = .claimOwnership claim ∧
        o = claim.agentId ∧ ClaimGuard control claim now expiry gr) →
      Uuid.parseStr key = some uuid → Uuid.parseStr o = some uuid → key = o := by
    rintro key _ uuid hkey ⟨claim, now, expiry, gr, rfl, rfl, hg⟩ hp hp'
    exact hcl now expiry gr hg key hkey (hp.trans hp'.symm)
  intro agentId agentId' uuid ha ha' hp hp'
  rcases hstep.mem_ownerships hf ha with hold | hc
  · rcases hstep.mem_ownerships hf ha' with hold' | hc'
    · exact h agentId agentId' uuid hold hold' hp hp'
    · exact hnew agentId agentId' uuid hold hc' hp hp'
  · rcases hstep.mem_ownerships hf ha' with hold' | hc'
    · exact (hnew agentId' agentId uuid hold' hc hp' hp).symm
    · obtain ⟨claim, _, _, _, rfl, rfl, -⟩ := hc
      obtain ⟨claim', _, _, _, heq, rfl, -⟩ := hc'
      rw [AuthorityCommand.claimOwnership.inj heq]

theorem oneRecordPerUuid_keptBy (K : Crypto) :
    KeptBy K ClaimsOwnSpelling fun control =>
      OwnershipsFiled control ∧ OneRecordPerUuid control where
  later control time hle h := ⟨(ownershipsFiled_keptBy K).later control time hle h.1, h.2⟩
  step term control command control' h hc hstep :=
    ⟨(ownershipsFiled_keptBy K).step term control command control' h.1 trivial hstep,
      h.2.step h.1 hc hstep⟩

theorem oneRecordPerUuid_genesis {genesis : AuthorityGenesis} {proposedAt : DateTime}
    (h : validateAndBuildGenesis K genesis proposedAt = .ok control) :
    OneRecordPerUuid control := by
  intro agentId agentId' uuid ha
  rw [ownerships_of_genesis h] at ha
  simp at ha

/-- An accepted claim is applied. -/
theorem controlPlane_of_claimGuard {state : AuthorityState} {command : ClaimOwnership}
    {logId : LogId}
    {now expiry : DateTime} {gr : OwnershipGrant} (hf : Fresh state (.claimOwnership command))
    (hp : state.controlPlane = some control) (hg : ClaimGuard control command now expiry gr) :
    (authorityStep K state (.claimOwnership command, logId)).controlPlane =
      some (claimNext control command logId.leaderId.term now expiry gr) := by
  obtain ⟨resp, -, ha⟩ :=
    applyAuthorityCommand_of_newStep logId hf (.control (K := K) hp (.claim hg))
  rw [authorityStep, ha]
  rfl

/-- One command keeps the spellings apart exactly when it meets the condition. -/
theorem oneRecordPerUuid_step_iff {state : AuthorityState} {x : AuthorityCommand × LogId}
    (hf : OnControl OwnershipsFiled state) (h : OnControl OneRecordPerUuid state) :
    OnControl OneRecordPerUuid (authorityStep K state x) ↔ OnStep ClaimsOwnSpelling state x.1 := by
  obtain ⟨command, logId⟩ := x
  constructor
  · intro hr hfr control hp
    cases command with
    | claimOwnership command =>
      intro now expiry gr hg key hkey hpa
      have hnext := hr _ (controlPlane_of_claimGuard hfr hp hg)
      obtain ⟨uuid, huuid⟩ := Option.isSome_iff_exists.1 hg.request.agent
      exact hnext key command.agentId uuid ((OrdMap.mem_insert_iff _ _ _ _).2 (.inr hkey))
        ((OrdMap.mem_insert_iff _ _ _ _).2 (.inl rfl)) (hpa.trans huuid) huuid
    | _ => trivial
  · intro hi
    have hboth : OnControl (fun control => OwnershipsFiled control ∧ OneRecordPerUuid control)
        state := fun control hp => ⟨hf control hp, h control hp⟩
    have hstep := hboth.step (oneRecordPerUuid_keptBy K)
      (fun _ _ _ _ hb => ⟨ownershipsFiled_genesis hb, oneRecordPerUuid_genesis hb⟩) hi
    exact fun control hp => (hstep control hp).2

theorem ownershipsFiled_run (K : Crypto) (commands : List (AuthorityCommand × LogId)) :
    OnControl OwnershipsFiled (applyAuthorityCommands K commands) := by
  apply onControl_run (ownershipsFiled_keptBy K)
  · exact fun _ _ _ => ownershipsFiled_genesis
  · exact fun _ _ _ _ _ _ _ => trivial

/-- At every point of a run every UUID has at most one record exactly when no accepted claim
spells the UUID of another key. -/
theorem oneRecordPerUuid_iff (K : Crypto) (commands : List (AuthorityCommand × LogId)) :
    (∀ pre, pre <+: commands → OnControl OneRecordPerUuid (applyAuthorityCommands K pre)) ↔
      EachAfter (fun pre input => OnStep ClaimsOwnSpelling (applyAuthorityCommands K pre) input.1)
        commands := by
  refine run_prefixes_iff (onControl_empty _) ?_
  intro pre input post _ hpre
  exact oneRecordPerUuid_step_iff (ownershipsFiled_run K pre) hpre

/-! ## Two spellings of one agent -/

/-- Node `a` claims an agent in lower case and node `b` the same agent in upper case. -/
def twoSpellings : List (AuthorityCommand × LogId) := [
  (.initializeAuthority ⟨Sample.uuid '1',
    ⟨Sample.uuid 'c', [Sample.seed 'a' '1', Sample.seed 'b' '2']⟩, default⟩, Sample.logId 1),
  (.claimOwnership ⟨Sample.uuid '2', Sample.uuid 'd', Sample.uuid 'a', 300, none, ['o'], ['r'],
    default⟩, Sample.logId 2),
  (.claimOwnership ⟨Sample.uuid '3', Sample.uuid 'D', Sample.uuid 'b', 300, none, ['o'], ['r'],
    default⟩, Sample.logId 3)]

set_option maxRecDepth 100000 in
/-- Both claims are granted: one UUID has two active owners. -/
theorem twoSpellings_granted :
    Uuid.parseStr (Sample.uuid 'd') = Uuid.parseStr (Sample.uuid 'D') ∧
      ((applyAuthorityCommands Sample.crypto twoSpellings).ownership (Sample.uuid 'd')).map
          (fun record => (record.ownerNodeId, record.state, record.leaseExpiresAt.nanos)) =
        some (Sample.uuid 'a', .active, 300000001000) ∧
      ((applyAuthorityCommands Sample.crypto twoSpellings).ownership (Sample.uuid 'D')).map
          (fun record => (record.ownerNodeId, record.state, record.leaseExpiresAt.nanos)) =
        some (Sample.uuid 'b', .active, 300000002000) ∧
      ¬ OnControl OneRecordPerUuid (applyAuthorityCommands Sample.crypto twoSpellings) := by
  have hlower : ((applyAuthorityCommands Sample.crypto twoSpellings).ownership
      (Sample.uuid 'd')).map
        (fun record => (record.ownerNodeId, record.state, record.leaseExpiresAt.nanos)) =
      some (Sample.uuid 'a', .active, 300000001000) := by decide +kernel
  have hupper : ((applyAuthorityCommands Sample.crypto twoSpellings).ownership
      (Sample.uuid 'D')).map
        (fun record => (record.ownerNodeId, record.state, record.leaseExpiresAt.nanos)) =
      some (Sample.uuid 'b', .active, 300000002000) := by decide +kernel
  refine ⟨by decide +kernel, hlower, hupper, fun h => ?_⟩
  obtain ⟨record, hrecord, -⟩ := Option.map_eq_some_iff.1 hlower
  obtain ⟨record', hrecord', -⟩ := Option.map_eq_some_iff.1 hupper
  obtain ⟨control, hcontrol, hfound⟩ := ownership_eq_some.1 hrecord
  obtain ⟨control', hcontrol', hfound'⟩ := ownership_eq_some.1 hrecord'
  obtain rfl := Option.some.inj (hcontrol.symm.trans hcontrol')
  have heq := h control hcontrol (Sample.uuid 'd') (Sample.uuid 'D')
    ⟨List.replicate 32 13, rfl⟩ (OrdMap.mem_of_lookup hfound)
    (OrdMap.mem_of_lookup hfound') (by decide +kernel) (by decide +kernel)
  exact absurd heq (by decide +kernel)

end AgentOS
