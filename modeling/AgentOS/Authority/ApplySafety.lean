import AgentOS.Authority.RegistrationSafety
import AgentOS.Lib.Run

/-!
# Applied batches and the validator

A genesis is valid, and an accepted command keeps a valid state valid exactly when it is safe
(`CommandSafe`). A committed batch therefore never produces a state that the store refuses to
write exactly when each of its entries is safe in the state it is applied to
(`raftApply_prefixes_iff`).
-/

namespace AgentOS

open Lib ClusterMembershipAudit OrdMap

/-! ## Genesis -/

section Genesis

variable {K : Crypto} {genesis : AuthorityGenesis} {proposedAt : DateTime}

theorem exists_seed {nodeId : Text} {member : ClusterMember}
    (h : (genesisMembers genesis proposedAt)[nodeId]? = some member) :
    ∃ seed ∈ genesis.members, seed.nodeId = nodeId ∧ member = seed.member proposedAt := by
  rw [genesisMembers, lookup_indexBy] at h
  obtain ⟨seed, hseed, rfl⟩ := Option.map_eq_some_iff.1 h
  obtain ⟨hmem, hnode⟩ := mem_of_lastFor hseed
  exact ⟨seed, hmem, hnode, rfl⟩

theorem mem_genesisAudit {au : ClusterMembershipAudit}
    (h : au ∈ (genesisControl genesis proposedAt).membershipAudit) :
    ∃ i member, (genesisMembers genesis proposedAt)[au.nodeId]? = some member ∧
      au = genesisAudit proposedAt i member := by
  obtain ⟨i, hi, rfl⟩ := List.mem_mapIdx.1 h
  have hmem := List.getElem_mem hi
  generalize (genesisMembers genesis proposedAt).toList[i] = entry at hmem ⊢
  obtain ⟨nodeId, member⟩ := entry
  have hl := mem_toList_iff.1 hmem
  obtain ⟨seed, -, rfl, rfl⟩ := exists_seed hl
  exact ⟨i, _, hl, rfl⟩

theorem genesisAudit_nodup (genesis : AuthorityGenesis) (proposedAt : DateTime) :
    ((genesisControl genesis proposedAt).membershipAudit.map nodeId).Nodup := by
  have hn : (genesisControl genesis proposedAt).membershipAudit.map
      nodeId = (genesisMembers genesis proposedAt).toList.map Prod.fst := by
    refine List.ext_getElem? fun i => ?_
    simp only [genesisControl, List.getElem?_map, List.getElem?_mapIdx, Option.map_map]
    cases he : (genesisMembers genesis proposedAt).toList[i]? with
    | none => rfl
    | some =>
      have hl := mem_toList_iff.1 (List.mem_of_getElem? he)
      obtain ⟨seed, -, hnode, hm⟩ := exists_seed hl
      simp only [Option.map_some, Function.comp_apply, genesisAudit, hm, ← hnode]
      rfl
  rw [hn, List.Nodup, List.pairwise_map]
  exact toList_pairwise_ne _

/-- An entry of the genesis history has no predecessor. -/
theorem genesisAudit_first {pre post : List ClusterMembershipAudit} {au : ClusterMembershipAudit}
    (hlog : (genesisControl genesis proposedAt).membershipAudit = pre ++ au :: post) :
    lastFor nodeId au.nodeId pre = none := by
  have hn := genesisAudit_nodup genesis proposedAt
  rw [hlog, List.map_append, List.map_cons, List.nodup_append] at hn
  rw [lastFor_eq_none]
  intro prior he hnode
  exact hn.2.2 _ (List.mem_map_of_mem he) _ (List.mem_cons_self ..) hnode

theorem genesis_newest {node : Text} {member : ClusterMember}
    (h : (genesisMembers genesis proposedAt)[node]? = some member) :
    (lastFor nodeId node (genesisControl genesis proposedAt).membershipAudit).map head =
      some member.head := by
  obtain ⟨seed, hseed, rfl, rfl⟩ := exists_seed h
  obtain ⟨i, hi, he⟩ := List.mem_iff_getElem.1 (mem_toList_iff.2 h)
  have hmem : genesisAudit proposedAt i (seed.member proposedAt) ∈
      (genesisControl genesis proposedAt).membershipAudit :=
    List.mem_mapIdx.2 ⟨i, hi, by rw [he]⟩
  obtain ⟨top, hn⟩ := exists_lastFor nodeId hmem
  have hnode : (genesisAudit proposedAt i (seed.member proposedAt)).nodeId = seed.nodeId := rfl
  rw [hnode] at hn
  obtain ⟨hnM, hnN⟩ := mem_of_lastFor hn
  obtain ⟨i', member', hl, rfl⟩ := mem_genesisAudit hnM
  rw [hnN, h] at hl
  obtain rfl := Option.some.inj hl
  rw [hn]
  rfl

/-- The control plane that a genesis builds is valid. -/
theorem GenesisValid.control (h : GenesisValid K genesis) :
    ValidControl K (genesisControl genesis proposedAt) := by
  have hd : ∀ (nodeId nodeId' : Text) (member member' : ClusterMember),
      (genesisMembers genesis proposedAt)[nodeId]? = some member →
      (genesisMembers genesis proposedAt)[nodeId']? = some member' → nodeId ≠ nodeId' →
        ¬ SharesIdentity member.registration member'.registration := by
    intro nodeId nodeId' member member' hm hm' hne
    obtain ⟨seed, hseed, rfl, rfl⟩ := exists_seed hm
    obtain ⟨seed', hseed', rfl, rfl⟩ := exists_seed hm'
    have hsymm : Std.Symm fun seed seed' : AuthorityGenesisMember =>
        ¬ SharesIdentity seed.registration seed'.registration :=
      ⟨fun _ _ hap hsh => hap hsh.symm⟩
    refine (h.distinct.imp fun hpair => hpair.1).forall hseed hseed' ?_
    rintro rfl
    exact hne rfl
  have hme : MembersValid K proposedAt (genesisMembers genesis proposedAt)
      (genesisControl genesis proposedAt).membershipAudit := by
    refine ⟨?_, fun _ _ hm => genesis_newest hm, hd, ?_⟩
    · intro nodeId member hm
      obtain ⟨seed, hseed, rfl, rfl⟩ := exists_seed hm
      exact ⟨rfl, h.registrations seed hseed, Nat.one_ne_zero, le_rfl, le_rfl⟩
    · intro au hau
      obtain ⟨i, member, hm, -⟩ := mem_genesisAudit hau
      exact mem_of_lookup hm
  have hmm : MembershipHistory proposedAt
      (genesisControl genesis proposedAt).membershipAudit := by
    refine ⟨?_, ?_, ?_⟩
    · intro pre au post hlog
      have hget : (genesisControl genesis proposedAt).membershipAudit[pre.length]? = some au := by
        simp [hlog]
      obtain ⟨i, member, hm, hau⟩ := mem_genesisAudit (List.mem_of_getElem? hget)
      obtain ⟨seed, hseed, hnode, rfl⟩ := exists_seed hm
      have huuid : isUuid au.nodeId = true :=
        hnode ▸ (validateMemberRegistration_ok (h.registrations seed hseed)).1
      -- the position of an entry is its index in the iteration over the members
      have hp : au.membershipGeneration = pre.length + 1 := by
        simp only [genesisControl, List.getElem?_mapIdx, Option.map_eq_some_iff] at hget
        obtain ⟨e, -, rfl⟩ := hget
        rfl
      have hac : ¬ isInvalidText "system:raft-genesis".toList := by decide +kernel
      have hre : ¬ isInvalidText "replicated authority genesis".toList := by decide +kernel
      subst hau
      exact ⟨hp, Nat.one_ne_zero, le_rfl, huuid, hac, hre⟩
    · intro pre au post hlog
      have hmem : au ∈ (genesisControl genesis proposedAt).membershipAudit := by simp [hlog]
      obtain ⟨i, member, -, hau⟩ := mem_genesisAudit hmem
      rw [genesisAudit_first hlog, hau]
      rfl
    · intro au hau fp hf
      obtain ⟨i, member, hm, rfl⟩ := mem_genesisAudit hau
      obtain ⟨seed, hseed, -, rfl⟩ := exists_seed hm
      simp only [fingerprints, genesisAudit, Option.toList_none,
        List.nil_append, Option.mem_toList] at hf
      exact (validateMemberRegistration_ok (h.registrations seed hseed)).2 _ hf
  have hle : LeavesOwned (genesisControl genesis proposedAt).leafUses := by
    intro a ha b hb fp hfa hfb
    simp only [ReplicatedControlPlaneState.leafUses, genesisControl, List.map_nil,
      List.append_nil] at ha hb
    obtain ⟨au, hau, rfl⟩ := List.mem_map.1 ha
    obtain ⟨au', hau', rfl⟩ := List.mem_map.1 hb
    obtain ⟨i, member, hm, hau⟩ := mem_genesisAudit hau
    obtain ⟨i', member', hm', hau'⟩ := mem_genesisAudit hau'
    by_contra hne
    refine hd _ _ _ _ hm hm' hne (.inr (.inr ⟨fp, ?_, ?_⟩))
    · rw [hau] at hfa
      simpa [leafUse, fingerprints, genesisAudit, ClusterMember.registration] using hfa
    · rw [hau'] at hfb
      simpa [leafUse, fingerprints, genesisAudit, ClusterMember.registration] using hfb
  have hl : (genesisControl genesis proposedAt).membershipAudit.length =
      (genesisMembers genesis proposedAt).size := by
    rw [genesisControl, List.length_mapIdx, Std.ExtTreeMap.length_toList]
  have hsize : (genesisMembers genesis proposedAt).size ≤ 31 :=
    (size_indexBy_le _ _ _).trans h.bounded
  have hr : RolloutsValid proposedAt (genesisMembers genesis proposedAt) ∅ [] := by
    refine ⟨fun nodeId rollout hro => ?_, fun nodeId au hau => ?_⟩
    · simp at hro
    · simp at hau
  have hw : WithinCapacity (genesisControl genesis proposedAt) := by
    refine ⟨Nat.zero_le _, Nat.zero_le _, ?_, Nat.zero_le _, Nat.zero_le _⟩
    rw [hl]
    unfold maxAuditEntries
    omega
  obtain ⟨seed, hseed⟩ := List.exists_mem_of_ne_nil _ h.inhabited
  have hs : (genesisControl genesis proposedAt).membershipAudit ≠ [] := by
    intro hnil
    have hmem : seed.nodeId ∈ genesisMembers genesis proposedAt :=
      mem_indexBy.2 ⟨seed, hseed, rfl⟩
    obtain ⟨member, hm⟩ := exists_lookup hmem
    have hn := genesis_newest hm
    rw [hnil] at hn
    simp at hn
  obtain ⟨fst, hfi⟩ := Option.isSome_iff_exists.1 (List.isSome_head?.2 hs)
  exact {
    genesis := h
    cluster := rfl
    generation := hl.symm
    capacity := hw.not_exceeds hme hr
    challenges := ⟨fst, hfi, fun hash chal hc => by
      simp [genesisControl] at hc⟩
    membership := hmm
    members := hme
    trust := rfl
    rolloutHistory := ⟨eachAfter_nil, eachAfter_nil, List.Pairwise.nil, by simp [genesisControl]⟩
    leaves := hle
    candidates := fun au hau => by simp [genesisControl] at hau
    rollouts := hr
    ownershipHistory := ⟨by simp [genesisControl], eachAfter_nil⟩
    ownerships := ⟨fun _ _ ho => by simp [genesisControl] at ho, fun _ _ ho => by
      simp [genesisControl] at ho, fun au hau => by simp [genesisControl] at hau⟩ }

end Genesis

/-! ## Safe commands -/

/-- What a revocation needs beyond the checks of every change of state. -/
structure RevocationRoom (control : ReplicatedControlPlaneState) (command : SetMemberState)
    (now : DateTime) : Prop where
  room : control.ownershipAudit.length + (activeOwned control command.nodeId now).length ≤
    maxAuditEntries
  revisions : ∀ previous ∈ activeOwned control command.nodeId now, previous.generation + 1 < 2 ^ 64
  rollout : ∀ rollout, control.certificateRollouts[command.nodeId]? = some rollout →
    control.certificateRolloutAudit.length < maxAuditEntries ∧
      control.tlsTrustGeneration + 1 < 2 ^ 64

/-- A command that, if it passes the checks of its handler, produces nothing that the validator
refuses. -/
def CommandSafe (K : Crypto) (authorityTerm : Nat) (control : ReplicatedControlPlaneState) :
    AuthorityCommand → Prop
  | .registerMember command => ∀ now hash revision,
      RegisterGuard K control command now hash revision →
      KeepsLeaf control command.registration →
      ∀ fingerprint, command.registration.tlsServerCertificateFingerprint = some fingerprint →
        CleanLeaf control command.registration.nodeId fingerprint
  | .prepareMemberCertificateRollout command =>
    ∀ now prepareExpiresAt hash member previousFingerprint nextFingerprint,
    PrepareGuard K control command now prepareExpiresAt hash member previousFingerprint
      nextFingerprint →
    (now.checkedAddSigned (seconds maxCertificateRolloutSeconds)).isSome = true
  | .setMemberState command => ∀ now member, SetStateGuard control command now member →
      command.state = .revoked → RevocationRoom control command now →
      ∀ previous ∈ activeOwned control command.nodeId now,
        previous.authorityTerm ≤ authorityTerm
  | .claimOwnership command => ∀ now leaseExpiresAt grant,
      ClaimGuard control command now leaseExpiresAt grant →
      ∀ previous, control.ownerships[command.agentId]? = some previous →
        previous.authorityTerm ≤ authorityTerm
  | .renewOwnership command => ∀ now leaseExpiresAt previous,
      RenewGuard control command now leaseExpiresAt previous →
      previous.authorityTerm ≤ authorityTerm
  | .releaseOwnership command => ∀ now previous, ReleaseGuard control command now previous →
      previous.authorityTerm ≤ authorityTerm
  | _ => True

variable {K : Crypto} {command : AuthorityCommand}

/-- A command is safe exactly when each of its transitions keeps the control plane valid. -/
theorem commandSafe_iff {term : Nat} {control : ReplicatedControlPlaneState}
    (h : ValidControl K control) (hterm : term ≠ 0) :
    CommandSafe K term control command ↔ ∀ control', ControlStep K term control command control' →
        ValidControl K control' := by
  constructor
  · intro hsafe control' hstep
    cases hstep with
    | issue hg | abort hg | finalize hg => exact hg.valid h
    | register hg ho =>
      cases ho with
      | join hk => exact (hg.join_valid_iff h hk).2 (hsafe _ _ _ hg hk)
      | activate member rollout deadline ha hd => exact hg.activate_valid h ha hd
    | prepare hg => exact (hg.valid_iff h).2 (hsafe _ _ _ _ _ _ hg)
    | setState hg ho =>
      refine (ho.valid_iff h hterm hg).2 ?_
      intro hr
      refine hsafe _ _ hg hr ?_
      cases ho with
      | leave hst => exact absurd (hst.symm.trans hr) (by simp)
      | revoke _ hidle hroom hre =>
        refine ⟨hroom, hre, fun rollout hro => ?_⟩
        exact absurd (hidle.symm.trans hro) (by simp)
      | revokeDrop _ _ _ hroom hre hc ht => exact ⟨hroom, hre, fun _ _ => ⟨hc, ht⟩⟩
    | claim hg | renew hg => exact (hg.valid_iff h hterm).2 (hsafe _ _ _ hg)
    | release hg => exact (hg.valid_iff h hterm).2 (hsafe _ _ hg)
  · intro hs
    cases command with
    | registerMember =>
      intro now hash rev hg hk
      exact (hg.join_valid_iff h hk).1 (hs _ (.register hg (.join hk)))
    | prepareMemberCertificateRollout =>
      intro now expiry hash member prev next hg
      exact (hg.valid_iff h).1 (hs _ (.prepare hg))
    | setMemberState command =>
      intro now member hg hr hroom
      cases hro : control.certificateRollouts[command.nodeId]? with
      | none =>
        have ho : SetStateOutcome control command term now member _ :=
          .revoke hr hro hroom.room hroom.revisions
        exact (ho.valid_iff h hterm hg).1 (hs _ (.setState hg ho)) hr
      | some rollout =>
        obtain ⟨hc, ht⟩ := hroom.rollout rollout hro
        have ho : SetStateOutcome control command term now member _ :=
          .revokeDrop rollout hr hro hroom.room hroom.revisions hc ht
        exact (ho.valid_iff h hterm hg).1 (hs _ (.setState hg ho)) hr
    | claimOwnership =>
      intro now lease gr hg
      exact (hg.valid_iff h hterm).1 (hs _ (.claim hg))
    | renewOwnership =>
      intro now lease prev hg
      exact (hg.valid_iff h hterm).1 (hs _ (.renew hg))
    | releaseOwnership =>
      intro now prev hg
      exact (hg.valid_iff h hterm).1 (hs _ (.release hg))
    | _ => trivial

/-! ## Authority states -/

/-- Every retained receipt lies before `logId`. -/
def ReceiptsBefore (receipts : OrdMap Text StoredAuthorityReceipt) (logId : LogId) : Prop :=
  ∀ (operationId : Text) (receipt : StoredAuthorityReceipt) p,
    receipts[operationId]? = some receipt → receipt.position = some p → p.2.index < logId.index

variable {logId : LogId}

theorem CommitResponse.position {state : AuthorityState} {resp : AuthorityResponse}
    (h : CommitResponse state command logId resp) :
    (StoredAuthorityReceipt.mk command resp).position = some (state.sequence + 1, logId) := by
  rw [StoredAuthorityReceipt.position, h.metadata, Option.map_some]

/-- Committing a command leaves valid receipts. -/
theorem ValidAuthority.receipts_commit {state next : AuthorityState} {resp : AuthorityResponse}
    (h : ValidAuthority K state) (hbe : ReceiptsBefore state.receipts logId)
    (hf : Fresh state command) (ha : CommitResponse state command logId resp) :
    ReceiptsValid (commitNext state next command resp).sequence
      (commitNext state next command resp).receipts := by
  have he : expectedSequenceMatches (state.sequence + 1) command = true := by
    have hmat := hf.inSequence
    cases command with
    | barrier command =>
      simp only [sequenceMismatch] at hmat
      simp only [expectedSequenceMatches, Nat.add_sub_cancel]
      cases hseq : command.expectedSequence <;> simp_all
    | _ => rfl
  -- the new receipt has the largest sequence number and the newest log position
  have hap : ∀ (id : Text) (receipt : StoredAuthorityReceipt),
      state.receipts[id]? = some receipt → receipt.apart ⟨command, resp⟩ := by
    intro id receipt hr p q hp hq
    obtain rfl := Option.some.inj (ha.position.symm.trans hq)
    obtain ⟨seq, logId', hm, -, hb, -⟩ :=
      (h.receipts.valid id receipt hr).response
    have hpo : receipt.position = some (seq, logId') := by
      rw [StoredAuthorityReceipt.position, hm, Option.map_some]
    obtain rfl := Option.some.inj (hpo.symm.trans hp)
    have hi := hbe id receipt _ hr hp
    refine ⟨?_, ?_⟩
    · show seq ≠ state.sequence + 1
      omega
    · rintro rfl
      exact absurd hi (lt_irrefl _)
  refine ⟨?_, ?_⟩
  · intro id receipt hr
    rw [commitNext, OrdMap.lookup_insert] at hr
    split at hr
    · next heq =>
      subst heq
      obtain rfl := Option.some.inj hr
      refine ⟨rfl, ?_, ⟨_, _, ha.metadata, Nat.succ_ne_zero _, le_rfl, he⟩, ha.matching⟩
      rw [hf.canonical]
      simp
    · obtain ⟨hkey, hc, ⟨seq, logId', hm, hps, hb, hmt⟩,
        hma⟩ := h.receipts.valid id receipt hr
      exact ⟨hkey, hc, ⟨seq, logId', hm, hps, hb.trans (Nat.le_succ _), hmt⟩, hma⟩
  · intro id id' receipt receipt' hr hr' hne
    rw [commitNext, OrdMap.lookup_insert] at hr hr'
    split at hr
    · next heq =>
      rw [if_neg fun heq' => hne (heq.symm.trans heq')] at hr'
      obtain rfl := Option.some.inj hr
      exact StoredAuthorityReceipt.apart_symm _ _ (hap id' receipt' hr')
    · split at hr'
      · obtain rfl := Option.some.inj hr'
        exact hap id receipt hr
      · exact h.receipts.distinct id id' receipt receipt' hr hr' hne

/-- A command that is safe if it is fresh and finds a control plane. -/
def AuthoritySafe (K : Crypto) (state : AuthorityState) (command : AuthorityCommand)
    (logId : LogId) : Prop :=
  Fresh state command → ∀ control, state.controlPlane = some control →
    CommandSafe K logId.leaderId.term control command

theorem applyAuthorityCommand_valid_iff {state : AuthorityState} (command : AuthorityCommand)
    (h : ValidAuthority K state) (hterm : logId.leaderId.term ≠ 0)
    (hb : ReceiptsBefore state.receipts logId) :
    ValidAuthority K (applyAuthorityCommand K state command logId).2 ↔
      AuthoritySafe K state command logId := by
  constructor
  · intro hv hf control hc
    rw [commandSafe_iff (h.control control hc) hterm]
    intro control' hstep
    obtain ⟨resp, -, hr⟩ :=
      applyAuthorityCommand_of_newStep logId hf (NewStep.control hc hstep)
    rw [hr] at hv
    exact hv.control control' rfl
  · intro hsafe
    have ho := applyAuthorityCommand_outcome (K := K) state command logId
    generalize (applyAuthorityCommand K state command logId).1 = resp at ho
    generalize (applyAuthorityCommand K state command logId).2 = result at ho
    cases ho with
    | rejected => exact h
    | replayed => exact h
    | advanced ck control hcl hc =>
      refine ⟨h.capacity, h.sequence, h.receipts, ?_⟩
      intro control' hc'
      obtain rfl := Option.some.inj hc'
      exact (h.control control hc).later (le_max_left _ _)
    | committed next resp hf hstep ha =>
      have hsize : (state.receipts.insert command.operationId ⟨command, resp⟩).size =
          state.receipts.size + 1 := by
        rw [Std.ExtTreeMap.size_insert, if_neg]
        rw [Std.ExtTreeMap.contains_iff_mem]
        exact (not_mem_iff_lookup _ _).2 hf.unknown
      refine ⟨?_, ?_, h.receipts_commit hb hf ha, ?_⟩
      · show (state.receipts.insert command.operationId ⟨command, resp⟩).size ≤ _
        rw [hsize]
        exact hf.capacity
      · show state.sequence + 1 =
          (state.receipts.insert command.operationId ⟨command, resp⟩).size
        rw [hsize, h.sequence]
      · intro control' hc'
        cases hstep with
        | initializeAuthority hab hbu =>
          obtain rfl := Option.some.inj hc'
          obtain ⟨hg, rfl⟩ := validateAndBuildGenesis_eq_ok.1 hbu
          exact hg.control
        | barrier => exact h.control control' hc'
        | control hc hstep =>
          obtain rfl := Option.some.inj hc'
          have hv := h.control _ hc
          exact (commandSafe_iff hv hterm).1 (hsafe hf _ hc) _ hstep

/-! ## Log entries -/

/-- An entry whose command, if any, is safe. -/
def EntrySafe (K : Crypto) (state : PersistentState) (entry : Entry) : Prop :=
  ∀ command, entry.payload = .normal command →
    AuthoritySafe K state.authority command entry.logId

/-- A log position that follows everything applied so far. -/
def Above (lastApplied : Option LogId) (logId : LogId) : Prop :=
  ∀ last, lastApplied = some last → last.index < logId.index

theorem AtOrBefore.lt {cand : LogId} {applied : Option LogId} (h : AtOrBefore cand applied)
    (ha : Above applied logId) : cand.index < logId.index := by
  obtain ⟨last, hlast, hle, -⟩ := h
  exact lt_of_le_of_lt hle (ha last hlast)

theorem atOrBefore_of_lt {cand : LogId} (h : cand.index < logId.index) :
    AtOrBefore cand (some logId) :=
  ⟨logId, rfl, h.le, fun heq => absurd heq h.ne⟩

theorem atOrBefore_self (logId : LogId) : AtOrBefore logId (some logId) :=
  ⟨logId, rfl, le_rfl, fun _ => rfl⟩

/-- A receipt after a command is an old one or records the position of the command. -/
theorem position_of_applyAuthorityCommand {state : AuthorityState} {opId : Text}
    {receipt : StoredAuthorityReceipt} {p : Nat × LogId}
    (hr : (applyAuthorityCommand K state command logId).2.receipts[opId]? = some receipt)
    (hp : receipt.position = some p) : state.receipts[opId]? = some receipt ∨ p.2 = logId := by
  have ho := applyAuthorityCommand_outcome (K := K) state command logId
  generalize (applyAuthorityCommand K state command logId).1 = resp at ho
  generalize (applyAuthorityCommand K state command logId).2 = result at ho hr
  cases ho with
  | committed next resp _ _ ha =>
    rw [commitNext, lookup_insert] at hr
    split at hr
    · obtain rfl := Option.some.inj hr
      rw [← Option.some.inj (ha.position.symm.trans hp)]
      exact .inr rfl
    · exact .inl hr
  | _ => exact .inl hr

variable {state : PersistentState}

/-- One entry above the frontier keeps a valid state valid exactly when it is safe. -/
theorem applyEntry_valid_iff {e : Entry} (h : ValidPersistent K state)
    (hab : Above state.lastApplied e.logId) (hterm : e.logId.leaderId.term ≠ 0) :
    ValidPersistent K (applyEntry K state e).2 ↔ EntrySafe K state e := by
  have hb : ReceiptsBefore state.authority.receipts e.logId := by
    intro id receipt p hr hp
    exact (h.frontier id receipt p hr hp).lt hab
  have hm : ∀ logId, state.membership.logId = some logId →
      AtOrBefore logId (some e.logId) := by
    intro logId hlog
    exact atOrBefore_of_lt ((h.membership logId hlog).lt hab)
  have hf : ∀ (id : Text) (receipt : StoredAuthorityReceipt) p,
      state.authority.receipts[id]? = some receipt → receipt.position = some p →
        AtOrBefore p.2 (some e.logId) := by
    intro id receipt p hr hp
    exact atOrBefore_of_lt (hb id receipt p hr hp)
  unfold applyEntry EntrySafe
  cases hpa : e.payload with
  | blank =>
    refine ⟨fun _ command hc => ?_, fun _ => ⟨h.authority, hm, hf⟩⟩
    cases hc
  | membership =>
    refine ⟨fun _ command hc => ?_, fun _ => ⟨h.authority, ?_, hf⟩⟩
    · cases hc
    · intro logId hlog
      obtain rfl := Option.some.inj hlog
      exact atOrBefore_self _
  | normal command =>
    have ha := applyAuthorityCommand_valid_iff command h.authority hterm hb
    constructor
    · intro hv cmd' hc'
      obtain rfl : command = cmd' := EntryPayload.normal.inj hc'
      exact ha.1 hv.authority
    · intro hsafe
      refine ⟨ha.2 (hsafe command rfl), hm, ?_⟩
      intro id receipt p hr hp
      rcases position_of_applyAuthorityCommand hr hp with hold | hnew
      · exact hf id receipt p hold hp
      · rw [hnew]
        exact atOrBefore_self _

/-! ## Batches -/

/-- A batch of entries that a Raft log can deliver to a state: consecutive indices above the last
applied one, and non-decreasing positive terms. -/
structure AdmissibleBatch (state : PersistentState) (entries : List Entry) : Prop where
  above : ∀ first, entries.head? = some first → Above state.lastApplied first.logId
  consecutive : entries.IsChain fun a b => b.logId.index = a.logId.index + 1
  terms : entries.IsChain fun a b => a.logId.leaderId.term ≤ b.logId.leaderId.term
  positive : ∀ entry ∈ entries, entry.logId.leaderId.term ≠ 0
  bounded : ∀ entry ∈ entries, entry.logId.index < 2 ^ 64

variable {entries : List Entry}

section

variable (h : AdmissibleBatch state entries)
include h

theorem AdmissibleBatch.initial {b : List Entry}
    (hb : b <+: entries) : AdmissibleBatch state b := by
  obtain ⟨rest, rfl⟩ := hb
  refine ⟨?_, (List.isChain_append.1 h.consecutive).1, (List.isChain_append.1 h.terms).1,
    fun e he => h.positive e (List.mem_append_left _ he),
    fun e he => h.bounded e (List.mem_append_left _ he)⟩
  intro fst hf
  exact h.above fst (by rw [List.head?_append, hf, Option.some_or])

theorem AdmissibleBatch.nonConsecutive_eq_none : nonConsecutive entries = none := by
  have hc := h.consecutive
  have hbo := h.bounded
  clear h
  induction entries with
  | nil => rfl
  | cons a rest ih =>
    cases rest with
    | nil => rfl
    | cons b =>
      rw [List.isChain_cons_cons] at hc
      have hb := hbo b (by simp)
      have hnext : ¬ b.logId.index ≠ min (a.logId.index + 1) (2 ^ 64 - 1) := by
        rw [hc.1] at hb ⊢
        omega
      rw [nonConsecutive, if_neg hnext]
      exact ih hc.2 fun e he => hbo e (by simp [he])

theorem AdmissibleBatch.raftApply_eq_ok_iff :
    raftApply K state entries = .ok (applyEntries K state entries) ↔
      ValidPersistent K (applyEntries K state entries) := by
  have hc : requireConsecutive entries = .ok () := by
    rw [requireConsecutive, h.nonConsecutive_eq_none]
    rfl
  have ha : requireAbove state.lastApplied entries.head? = .ok () := by
    cases hlast : state.lastApplied with
    | none => rfl
    | some last =>
      cases hf : entries.head? with
      | none => rfl
      | some fst =>
        have hlt := h.above fst hf last hlast
        simpa [requireAbove] using hlt
  simp only [raftApply, bind_eq_ok, exists_const, ok_unit_iff, validatePersistentState_eq_ok,
    pure_eq_ok, and_true, hc, ha, true_and]

end

theorem applyEntries_snoc (K : Crypto) (state : PersistentState) (entries : List Entry)
    (e : Entry) :
    applyEntries K state (entries ++ [e]) = (applyEntry K (applyEntries K state entries) e).2 := by
  simp [applyEntries]

theorem lastApplied_applyEntry (K : Crypto) (state : PersistentState) (e : Entry) :
    (applyEntry K state e).2.lastApplied = some e.logId := by
  unfold applyEntry
  cases e.payload <;> rfl

/-- The next entry of an admissible batch lies above everything applied so far. -/
theorem AdmissibleBatch.above_snoc {e : Entry} (h : AdmissibleBatch state (entries ++ [e])) :
    Above (applyEntries K state entries).lastApplied e.logId := by
  rcases List.eq_nil_or_concat entries with rfl | ⟨prior, prev, rfl⟩
  · exact h.above e rfl
  · rw [List.concat_eq_append] at h ⊢
    rw [applyEntries_snoc, lastApplied_applyEntry]
    intro last hlast
    obtain rfl := Option.some.inj hlast
    have hnext := (List.isChain_append.1 h.consecutive).2.2 prev (by simp) e (by simp)
    omega

/-- Applying an admissible batch to a valid state is never refused, up to any entry of the batch,
exactly when every entry is safe in the state that it is applied to. -/
theorem raftApply_prefixes_iff {K : Crypto} {state : PersistentState} {entries : List Entry}
    (hstate : validatePersistentState K state = .ok ()) (hbatch : AdmissibleBatch state entries) :
    (∀ batch, batch <+: entries →
        raftApply K state batch = .ok (applyEntries K state batch)) ↔
      EachAfter (fun applied entry => EntrySafe K (applyEntries K state applied) entry)
        entries := by
  have hvalid : (∀ batch, batch <+: entries →
      raftApply K state batch = .ok (applyEntries K state batch)) ↔
      ∀ batch, batch <+: entries → ValidPersistent K (applyEntries K state batch) :=
    forall₂_congr fun batch hpre => (hbatch.initial hpre).raftApply_eq_ok_iff
  rw [hvalid]
  refine run_prefixes_iff (validatePersistentState_eq_ok.1 hstate) ?_
  -- every entry acts on the valid state that the entries before it leave behind
  rintro applied entry rest rfl happlied
  have hentry : AdmissibleBatch state (applied ++ [entry]) :=
    hbatch.initial ⟨rest, by simp⟩
  exact applyEntry_valid_iff happlied hentry.above_snoc (hentry.positive entry (by simp))

/-! ## A committed batch that every replica refuses -/

/-- Node `a` leaves, returns with a new TLS leaf, and node `b` registers the old leaf of `a`. -/
def foreignLeafBatch : List Entry := [
  Sample.entry 1 (.initializeAuthority
    ⟨Sample.uuid '1', ⟨Sample.uuid 'c', [Sample.seed 'a' '1']⟩, default⟩),
  Sample.entry 2 (.setMemberState
    ⟨Sample.uuid '2', Sample.uuid 'a', .left, 1, ['o'], ['r'], default⟩),
  Sample.entry 3 (.issueJoinChallenge ⟨Sample.uuid '3', Sample.hex '3', 300, default⟩),
  Sample.entry 4 (.registerMember
    ⟨Sample.uuid '4', Sample.registration 'a' '2', Sample.hex '3', [], some 2, 1, 1, ['o'], ['r'],
      default⟩),
  Sample.entry 5 (.issueJoinChallenge ⟨Sample.uuid '5', Sample.hex '5', 300, default⟩),
  Sample.entry 6 (.registerMember
    ⟨Sample.uuid '6', Sample.registration 'b' '1', Sample.hex '5', [], none, 1, 1, ['o'], ['r'],
      default⟩)]

theorem admissible_foreignLeafBatch : AdmissibleBatch .empty foreignLeafBatch := by
  refine ⟨?_, by decide, by decide, by decide, by decide⟩
  intro fst _ last hlast
  cases hlast

set_option maxRecDepth 100000 in
/-- The handler accepts the registration of `b`, and the validator then refuses the state. -/
theorem raftApply_foreignLeafBatch :
    validatePersistentState Sample.crypto .empty = .ok () ∧
      AdmissibleBatch .empty foreignLeafBatch ∧
      isOk (raftApply Sample.crypto .empty (foreignLeafBatch.take 5)) = true ∧
      isOk (raftApply Sample.crypto .empty foreignLeafBatch) = false ∧
      validatePersistentState Sample.crypto
          (applyEntries Sample.crypto .empty foreignLeafBatch) =
        .error "replicated membership audit reuses an invalid or foreign TLS binding" := by
  refine ⟨by decide +kernel, admissible_foreignLeafBatch, by decide +kernel, by decide +kernel,
    by decide +kernel⟩

set_option maxRecDepth 100000 in
/-- The entries before the last one are safe, and the last one is not. -/
theorem raftApply_prefixes_foreignLeafBatch :
    let Safe := fun applied entry =>
      EntrySafe Sample.crypto (applyEntries Sample.crypto .empty applied) entry
    EachAfter Safe (foreignLeafBatch.take 5) ∧ ¬ EachAfter Safe foreignLeafBatch := by
  intro Safe
  have hempty : validatePersistentState Sample.crypto .empty = .ok () := by decide +kernel
  have hstart := admissible_foreignLeafBatch.initial (List.take_prefix 5 foreignLeafBatch)
  constructor
  · refine (raftApply_prefixes_iff hempty hstart).1 fun batch hbatch => ?_
    have hvalid : ∀ batch ∈ (foreignLeafBatch.take 5).inits,
        validatePersistentState Sample.crypto (applyEntries Sample.crypto .empty batch) =
          .ok () := by decide +kernel
    exact (hstart.initial hbatch).raftApply_eq_ok_iff.2
      (validatePersistentState_eq_ok.1 (hvalid batch ((List.mem_inits _ _).2 hbatch)))
  · intro hsafe
    have hall := (raftApply_prefixes_iff hempty admissible_foreignLeafBatch).2 hsafe
    have hrefused : isOk (raftApply Sample.crypto .empty foreignLeafBatch) = false := by
      decide +kernel
    rw [hall _ (List.prefix_refl _)] at hrefused
    cases hrefused

end AgentOS
