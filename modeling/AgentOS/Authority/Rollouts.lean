import AgentOS.Authority.ApplySafety
import AgentOS.Authority.Runs
import AgentOS.Lib.Rotation

/-!
# Certificate rollouts as rotations

The TLS leaves of the members and their rollouts form an abstract rotation of credentials: a
registration binds a node to a leaf or activates its rollout, a preparation starts one, and an
abort, a finalisation or a revocation ends it (`ControlStep.trustStep`). Along every run the
rollout audit of a node is therefore made of complete rollouts, and an unfinished rollout adds at
most one leaf to the one that the member carries. A leaf that a rollout retired stays untrusted
only while registrations outside rollouts bind fresh leaves (`rollout_trust`): the registration of
a member that left may take a retired leaf again (`retiredLeaf_accepted`).
-/

namespace AgentOS

open Lib

/-! ## The rotation of a control plane -/

def ClusterCertificateRolloutPhase.rotation : ClusterCertificateRolloutPhase → RotationPhase
  | .prepared => .prepared
  | .activated => .activated

def ClusterCertificateRollout.rotation (rollout : ClusterCertificateRollout) : Rotation Text where
  phase := rollout.phase.rotation
  previous := rollout.previousTlsServerCertificateFingerprint
  next := rollout.nextTlsServerCertificateFingerprint

def ClusterCertificateRolloutAudit.rotation (audit : ClusterCertificateRolloutAudit) :
    RotationEntry Text Text where
  subject := audit.nodeId
  move := (audit.previousPhase.map ClusterCertificateRolloutPhase.rotation,
    audit.currentPhase.map ClusterCertificateRolloutPhase.rotation)
  previous := audit.previousTlsServerCertificateFingerprint
  next := audit.nextTlsServerCertificateFingerprint

variable (control : ReplicatedControlPlaneState)

/-- Members sit under their own node. -/
def MembersFiled : Prop :=
  ∀ (nodeId : Text) (member : ClusterMember),
    control.members[nodeId]? = some member → member.nodeId = nodeId

variable {nodeId fingerprint : Text} {member : ClusterMember}
  {control' : ReplicatedControlPlaneState}

namespace ReplicatedControlPlaneState

/-- The TLS leaf of a node. -/
def leaf (nodeId : Text) : Option Text :=
  control.members[nodeId]?.bind ClusterMember.tlsServerCertificateFingerprint

/-- The leaves and the rollouts of the members, as a rotation of credentials. -/
def trust : Trust Text Text where
  bound := control.leaf
  rotation nodeId := control.certificateRollouts[nodeId]?.map ClusterCertificateRollout.rotation
  log := control.certificateRolloutAudit.map ClusterCertificateRolloutAudit.rotation
  seen fingerprint := certificateFingerprintWasPreviouslyAuthorized control fingerprint = true

variable {control : ReplicatedControlPlaneState}

theorem leaf_of_lookup (h : control.members[nodeId]? = some member) :
    control.leaf nodeId = member.tlsServerCertificateFingerprint := by
  rw [leaf, h, Option.bind_some]

theorem leaf_eq_some :
    control.leaf nodeId = some fingerprint ↔ ∃ member, control.members[nodeId]? = some member ∧
      member.tlsServerCertificateFingerprint = some fingerprint :=
  Option.bind_eq_some_iff

/-- Storing a member changes the leaf of its node. -/
theorem leaf_insert (h : control'.members = control.members.insert nodeId member) :
    control'.leaf = Function.update control.leaf nodeId member.tlsServerCertificateFingerprint := by
  funext key
  rw [leaf, h, OrdMap.lookup_insert, Function.update_apply]
  by_cases hkey : nodeId = key
  · rw [if_pos hkey, if_pos hkey.symm, Option.bind_some]
  · rw [if_neg hkey, if_neg (Ne.symm hkey)]
    rfl

/-- Storing a member with the leaf of its node changes no leaf. -/
theorem leaf_insert_same (h : control'.members = control.members.insert nodeId member)
    (hsame : control.leaf nodeId = member.tlsServerCertificateFingerprint) :
    control'.leaf = control.leaf := by
  rw [leaf_insert h, ← hsame, Function.update_eq_self]

theorem rotation_insert (rolls : OrdMap Text ClusterCertificateRollout) (nodeId : Text)
    (rollout : ClusterCertificateRollout) :
    (fun key => (rolls.insert nodeId rollout)[key]?.map ClusterCertificateRollout.rotation) =
      Function.update (fun key => rolls[key]?.map ClusterCertificateRollout.rotation) nodeId
        (some rollout.rotation) := by
  funext key
  rw [OrdMap.lookup_insert, Function.update_apply]
  by_cases hkey : nodeId = key
  · rw [if_pos hkey, if_pos hkey.symm, Option.map_some]
  · rw [if_neg hkey, if_neg (Ne.symm hkey)]

theorem rotation_erase (rolls : OrdMap Text ClusterCertificateRollout) (nodeId : Text) :
    (fun key => (rolls.erase nodeId)[key]?.map ClusterCertificateRollout.rotation) =
      Function.update (fun key => rolls[key]?.map ClusterCertificateRollout.rotation) nodeId
        none := by
  funext key
  rw [OrdMap.lookup_erase, Function.update_apply]
  by_cases hkey : nodeId = key
  · rw [if_pos hkey, if_pos hkey.symm, Option.map_none]
  · rw [if_neg hkey, if_neg (Ne.symm hkey)]

/-- The parts of the rotation of a control plane. -/
theorem trust_eq (control : ReplicatedControlPlaneState) {bound : Text → Option Text}
    {rotation : Text → Option (Rotation Text)} {log : List (RotationEntry Text Text)}
    (hb : control.leaf = bound) (hr : control.trust.rotation = rotation)
    (hlog : control.trust.log = log) :
    control.trust = ⟨bound, rotation, log, control.trust.seen⟩ := by
  subst hb hr hlog
  rfl

/-- Longer histories authorise more leaves. -/
theorem seen_mono (hm : control.membershipAudit ⊆ control'.membershipAudit)
    (hr : control.certificateRolloutAudit ⊆ control'.certificateRolloutAudit) (fingerprint : Text)
    (h : control.trust.seen fingerprint) : control'.trust.seen fingerprint := by
  simp only [trust, certificateFingerprintWasPreviouslyAuthorized, Bool.or_eq_true,
    List.any_eq_true] at h ⊢
  rcases h with ⟨au, ha, h⟩ | ⟨au, ha, h⟩
  · exact .inl ⟨au, hm ha, h⟩
  · exact .inr ⟨au, hr ha, h⟩

theorem seen_of_membership {au : ClusterMembershipAudit} (ha : au ∈ control.membershipAudit)
    (h : au.currentTlsServerCertificateFingerprint = some fingerprint) :
    control.trust.seen fingerprint := by
  simp only [trust, certificateFingerprintWasPreviouslyAuthorized, Bool.or_eq_true,
    List.any_eq_true]
  exact .inl ⟨au, ha, by simp [h]⟩

theorem seen_of_rollout {au : ClusterCertificateRolloutAudit}
    (ha : au ∈ control.certificateRolloutAudit) :
    control.trust.seen au.nextTlsServerCertificateFingerprint := by
  simp only [trust, certificateFingerprintWasPreviouslyAuthorized, Bool.or_eq_true,
    List.any_eq_true]
  exact .inr ⟨au, ha, by simp⟩

end ReplicatedControlPlaneState

open ReplicatedControlPlaneState

/-! ## Transitions -/

section Members

variable (control : ReplicatedControlPlaneState) (now : DateTime) (hash : Text)
  (member : ClusterMember)

theorem joinNext_members (command : RegisterMember) (rev : RegistrationRevision) :
    (joinNext control command now hash rev).members =
      control.members.insert command.registration.nodeId (registeredMember command rev now) :=
  rfl

theorem activateNext_members (command : RegisterMember) (rev : RegistrationRevision)
    (rollout : ClusterCertificateRollout) (retire : DateTime) :
    (activateNext control command now hash rev rollout retire).members =
      control.members.insert command.registration.nodeId (registeredMember command rev now) :=
  rfl

theorem prepareNext_members (command : PrepareMemberCertificateRollout) (prepBy : DateTime)
    (previousLeaf nextLeaf : Text) :
    (prepareNext control command now prepBy hash member previousLeaf nextLeaf).members =
      control.members.insert member.nodeId
        (revisedMember member (member.generation + 1) member.state
          member.tlsServerCertificateFingerprint command.reason now) :=
  rfl

theorem finishNext_members (command : FinishMemberCertificateRollout)
    (rollout : ClusterCertificateRollout) :
    (finishNext control command now member rollout).members = control.members.insert member.nodeId
        (revisedMember member (member.generation + 1) member.state
          member.tlsServerCertificateFingerprint command.reason now) :=
  rfl

/-- A change of state stores one revision of its member. -/
theorem SetStateOutcome.members {command : SetMemberState} {authorityTerm : Nat}
    (h : SetStateOutcome control command authorityTerm now member control') :
    control'.members = control.members.insert command.nodeId
      (revisedMember member (member.generation + 1) command.state
        member.tlsServerCertificateFingerprint command.reason now) := by
  cases h <;> rfl

end Members

variable {command : AuthorityCommand}

section Transitions

variable {K : Crypto} {control control' : ReplicatedControlPlaneState} {authorityTerm : Nat}

variable {now : DateTime}

/-- A registration outside a rollout binds its node to its leaf. -/
theorem RegisterGuard.trustStep_join {command : RegisterMember} {hash : Text}
    {rev : RegistrationRevision} (hfi : MembersFiled control) (hs : control.trust.Sound)
    (hg : RegisterGuard K control command now hash rev)
    (hk : KeepsLeaf control command.registration) :
    TrustStep control.trust (joinNext control command now hash rev).trust := by
  rw [trust_eq _ (leaf_insert (joinNext_members ..)) rfl rfl]
  refine .bind command.registration.nodeId _
    (seen_mono (List.subset_append_left _ _) (List.Subset.refl _)) ?_ ?_ ?_
  · -- without a member there is no rollout, since the member of a rollout has a leaf
    cases hfo : control.members[command.registration.nodeId]? with
    | some member =>
      obtain ⟨hidle, -⟩ := hk member hfo
      rw [hfi _ member hfo] at hidle
      show Option.map _ control.certificateRollouts[command.registration.nodeId]? = none
      rw [hidle, Option.map_none]
    | none =>
      cases hro : control.trust.rotation command.registration.nodeId with
      | none => rfl
      | some rotation =>
        have hleaf := (hs.subject _).carries rotation hro
        obtain ⟨member, hm, -⟩ := leaf_eq_some.1 hleaf
        exact absurd (hfo.symm.trans hm) (by simp)
  · intro fingerprint nodeId hf hne hleaf
    obtain ⟨member, hm, hmL⟩ := leaf_eq_some.1 hleaf
    have hfr := hg.unbound nodeId member hm
    have hnode : member.nodeId ≠ command.registration.nodeId := by
      rw [hfi nodeId member hm]
      exact hne
    have hr : command.registration.tlsServerCertificateFingerprint = some fingerprint := hf
    simp [bindsForeign, hnode, hr, hmL] at hfr
  · intro fingerprint hf
    exact seen_of_membership (List.mem_append_right _ (List.mem_singleton_self _)) hf

/-- A registration may activate the rollout of its node. -/
theorem Activates.trustStep {command : RegisterMember} {hash : Text} {rev : RegistrationRevision}
    {rollout : ClusterCertificateRollout} (retire : DateTime) (hf : MembersFiled control)
    (ha : Activates control command.registration now member rollout) :
    TrustStep control.trust (activateNext control command now hash rev rollout retire).trust := by
  obtain ⟨-, -, hp, -, hleaf, -⟩ := ha.activates
  have hu := ha.unfinished
  rw [hf _ member ha.found] at hu
  have hfo : control.trust.rotation command.registration.nodeId = some rollout.rotation := by
    show Option.map _ control.certificateRollouts[command.registration.nodeId]? = _
    rw [hu, Option.map_some]
  let after := activateNext control command now hash rev rollout retire
  have hb : after.leaf = Function.update control.leaf command.registration.nodeId
      (some rollout.nextTlsServerCertificateFingerprint) := by
    rw [← hleaf]
    exact leaf_insert (activateNext_members ..)
  have hlog : after.trust.log = control.trust.log ++
      [⟨command.registration.nodeId, (some .prepared, some .activated),
        rollout.previousTlsServerCertificateFingerprint,
        rollout.nextTlsServerCertificateFingerprint⟩] := List.map_append ..
  rw [trust_eq after hb (rotation_insert _ _ _) hlog]
  exact .activate command.registration.nodeId rollout.rotation
    (seen_mono (List.subset_append_left _ _) (List.subset_append_left _ _)) hfo
    (by rw [ClusterCertificateRollout.rotation, hp]; rfl)

/-- A preparation starts a rollout to a leaf that was never authorised. -/
theorem PrepareGuard.trustStep {command : PrepareMemberCertificateRollout} {prepBy : DateTime}
    {hash : Text} {previousLeaf nextLeaf : Text} (hf : MembersFiled control)
    (hg : PrepareGuard K control command now prepBy hash member previousLeaf nextLeaf) :
    TrustStep control.trust (prepareNext control command now prepBy hash member
      previousLeaf nextLeaf).trust := by
  let after := prepareNext control command now prepBy hash member previousLeaf
    nextLeaf
  have hfo : control.members[member.nodeId]? = some member := by
    rw [hf _ member hg.found]
    exact hg.found
  have hleaf : control.leaf member.nodeId = member.tlsServerCertificateFingerprint :=
    leaf_of_lookup hfo
  have hlog : after.trust.log = control.trust.log ++
      [⟨member.nodeId, (none, some .prepared), previousLeaf, nextLeaf⟩] :=
    List.map_append ..
  have hidle : control.trust.rotation member.nodeId = none := by
    show Option.map _ control.certificateRollouts[member.nodeId]? = none
    rw [(OrdMap.not_mem_iff_lookup _ _).1 hg.idle, Option.map_none]
  rw [trust_eq after (leaf_insert_same (prepareNext_members ..) hleaf) (rotation_insert _ _ _) hlog]
  refine .prepare member.nodeId previousLeaf nextLeaf
    (seen_mono (List.subset_append_left _ _) (List.subset_append_left _ _)) hidle
    (hleaf.trans hg.previousLeaf) hg.distinct ?_ ?_
  · show ¬ certificateFingerprintWasPreviouslyAuthorized control nextLeaf = true
    rw [hg.unauthorized]
    simp
  · have ha : rolloutAuditEntry (control.tlsTrustGeneration + 1) member.nodeId
        (member.generation + 1) none (some .prepared) previousLeaf nextLeaf
        command.actor command.reason now ∈ after.certificateRolloutAudit :=
      List.mem_append_right _ (List.mem_singleton_self _)
    exact seen_of_rollout ha

/-- An abort or a finalisation ends the rollout of its node. -/
theorem FinishGuard.trustStep {finish : CertificateRolloutFinish}
    {command : FinishMemberCertificateRollout} {rollout : ClusterCertificateRollout}
    (hf : MembersFiled control) (hg : FinishGuard control finish command now member rollout) :
    TrustStep control.trust (finishNext control command now member rollout).trust := by
  let after := finishNext control command now member rollout
  have hnode := hf _ member hg.found
  have hleaf : control.leaf member.nodeId = member.tlsServerCertificateFingerprint := by
    rw [hnode]
    exact leaf_of_lookup hg.found
  have hlog : after.trust.log = control.trust.log ++
      [⟨command.nodeId, (some rollout.rotation.phase, none), rollout.rotation.previous,
        rollout.rotation.next⟩] := List.map_append ..
  have hfo : control.trust.rotation command.nodeId = some rollout.rotation := by
    show Option.map _ control.certificateRollouts[command.nodeId]? = _
    rw [hg.unfinished, Option.map_some]
  rw [trust_eq after (leaf_insert_same (finishNext_members ..) hleaf) (rotation_erase _ _) hlog]
  exact .finish command.nodeId rollout.rotation
    (seen_mono (List.subset_append_left _ _) (List.subset_append_left _ _)) hfo

/-- A member that leaves or is revoked keeps its leaf; a revocation ends its rollout. -/
theorem SetStateGuard.trustStep {command : SetMemberState}
    (hg : SetStateGuard control command now member)
    (ho : SetStateOutcome control command authorityTerm now member control') :
    TrustStep control.trust control'.trust := by
  have hc := leaf_of_lookup hg.found
  have hleaf : control'.leaf = control.leaf := leaf_insert_same ho.members hc
  cases ho with
  | leave _ _ _ =>
    rw [trust_eq (leaveNext control command now member) hleaf rfl rfl]
    exact .keep (seen_mono (List.subset_append_left _ _) (List.Subset.refl _))
  | revoke _ _ _ _ =>
    rw [trust_eq (revokeNext control command authorityTerm now member) hleaf rfl rfl]
    exact .keep (seen_mono (List.subset_append_left _ _) (List.Subset.refl _))
  | revokeDrop rollout _ hu _ _ _ _ =>
    let after := revokeDropNext control command authorityTerm now member rollout
    have hlog : after.trust.log = control.trust.log ++
        [⟨command.nodeId, (some rollout.rotation.phase, none), rollout.rotation.previous,
          rollout.rotation.next⟩] := List.map_append ..
    have hf : control.trust.rotation command.nodeId = some rollout.rotation := by
      show Option.map _ control.certificateRollouts[command.nodeId]? = _
      rw [hu, Option.map_some]
    rw [trust_eq after hleaf (rotation_erase _ _) hlog]
    exact .finish command.nodeId rollout.rotation
      (seen_mono (List.subset_append_left _ _) (List.subset_append_left _ _)) hf

/-- Every transition is a step of the rotation. -/
theorem ControlStep.trustStep (hf : MembersFiled control) (hs : control.trust.Sound)
    (hstep : ControlStep K authorityTerm control command control') :
    TrustStep control.trust control'.trust := by
  cases hstep with
  | issue _ | claim _ | renew _ | release _ => exact .keep fun _ h => h
  | register hg ho =>
    cases ho with
    | join hk => exact hg.trustStep_join hf hs hk
    | activate _ _ retire ha => exact ha.trustStep retire hf
  | prepare hg | abort hg | finalize hg => exact hg.trustStep hf
  | setState hg ho => exact hg.trustStep ho

/-- A transition stores at most one member, under its own node. -/
theorem MembersFiled.insert (h : MembersFiled control) {sto : ClusterMember}
    (ha : control'.members = control.members.insert nodeId sto)
    (hs : sto.nodeId = nodeId) : MembersFiled control' := by
  intro key member hf
  rw [ha, OrdMap.lookup_insert] at hf
  split at hf
  · next heq =>
    obtain rfl := Option.some.inj hf
    exact hs.trans heq
  · exact h key member hf

theorem MembersFiled.step (h : MembersFiled control)
    (hstep : ControlStep K authorityTerm control command control') : MembersFiled control' := by
  cases hstep with
  | issue => exact h
  | claim => exact h
  | renew => exact h
  | release => exact h
  | register hg ho =>
    cases ho with
    | join => exact h.insert (joinNext_members ..) rfl
    | activate => exact h.insert (activateNext_members ..) rfl
  | prepare => exact h.insert (prepareNext_members ..) rfl
  | abort | finalize => exact h.insert (finishNext_members ..) rfl
  | setState hg ho =>
    have hnode := h _ _ hg.found
    exact h.insert ho.members hnode

end Transitions

/-! ## Runs -/

/-- Members under their own node, and rollouts that follow the rules of rotations. -/
structure RolloutsSound (control : ReplicatedControlPlaneState) : Prop where
  filed : MembersFiled control
  sound : control.trust.Sound

theorem rolloutsSound_keptBy (K : Crypto) :
    KeptBy K (fun _ _ => True) RolloutsSound where
  later _ _ _ h := ⟨h.filed, h.sound⟩
  step _ _ _ _ h _ hstep := ⟨h.filed.step hstep, h.sound.step (hstep.trustStep h.filed h.sound)⟩

section Genesis

variable {K : Crypto} {genesis : AuthorityGenesis} {proposedAt : DateTime}
  {control : ReplicatedControlPlaneState}

variable (h : validateAndBuildGenesis K genesis proposedAt = .ok control)
include h

theorem validControl_of_genesis :
    ValidControl K control ∧ control.certificateRollouts = ∅ ∧
      control.certificateRolloutAudit = [] := by
  obtain ⟨hg, rfl⟩ := validateAndBuildGenesis_eq_ok.1 h
  exact ⟨hg.control, rfl, rfl⟩

/-- A new control plane has no rollout and no retired leaf. -/
theorem trust_of_genesis :
    (∀ nodeId, control.trust.rotation nodeId = none) ∧ control.trust.log = [] := by
  obtain ⟨-, hr, ha⟩ := validControl_of_genesis h
  refine ⟨fun nodeId => ?_, ?_⟩
  · show Option.map _ control.certificateRollouts[nodeId]? = none
    simp [hr]
  · show List.map _ control.certificateRolloutAudit = []
    simp [ha]

theorem rolloutsSound_genesis : RolloutsSound control := by
  obtain ⟨hv, -, -⟩ := validControl_of_genesis h
  obtain ⟨hidle, hlog⟩ := trust_of_genesis h
  refine ⟨fun nodeId member hm => (hv.members.valid nodeId member hm).key.symm, ?_⟩
  refine ⟨fun nodeId => .idle (hidle nodeId)
    ⟨[], by simp, by simp [Trust.moves, hlog, openChain]⟩ ?_,
    ?_⟩
  · intro fingerprint hleaf
    obtain ⟨member, hm, hf⟩ := leaf_eq_some.1 hleaf
    have hn := hv.members.newest nodeId member hm
    obtain ⟨au, ha, hhead⟩ := Option.map_eq_some_iff.1 hn
    refine seen_of_membership (mem_of_lastFor ha).1 ?_
    have htls := congrArg (fun head : MembershipHead => head.2.2) hhead
    exact htls.trans hf
  · rintro fingerprint ⟨e, he, -⟩
    rw [hlog] at he
    cases he

theorem exclusive_genesis : control.trust.Exclusive := by
  obtain ⟨hv, -, -⟩ := validControl_of_genesis h
  obtain ⟨hidle, hlog⟩ := trust_of_genesis h
  have hn : ∀ nodeId fingerprint, control.trust.Names nodeId fingerprint →
      control.leaf nodeId = some fingerprint := by
    rintro nodeId fingerprint (hleaf | ⟨rotation, hr, -⟩)
    · exact hleaf
    · exact absurd ((hidle nodeId).symm.trans hr) (by simp)
  refine ⟨fun nodeId nodeId' fingerprint hnode hnode' => ?_, ?_⟩
  · obtain ⟨member, hm, hleaf⟩ := leaf_eq_some.1 (hn _ _ hnode)
    obtain ⟨member', hm', hleaf'⟩ := leaf_eq_some.1 (hn _ _ hnode')
    by_contra hne
    exact hv.members.distinct _ _ member member' hm hm' hne
      (.inr (.inr ⟨fingerprint, hleaf, hleaf'⟩))
  · rintro nodeId fingerprint ⟨e, he, -⟩
    rw [hlog] at he
    cases he

end Genesis

theorem rolloutsSound_run (K : Crypto) (commands : List (AuthorityCommand × LogId)) :
    OnControl RolloutsSound (applyAuthorityCommands K commands) :=
  onControl_run (rolloutsSound_keptBy K) (fun _ _ _ => rolloutsSound_genesis)
    fun _ _ _ _ _ _ _ => trivial

/-! ## Accepted leaves -/

def tlsBindingIsAuthorized (observed current : Option Text)
    (rollout : Option ClusterCertificateRollout) (authorityTime : Option DateTime) : Bool :=
  observed == current ||
    observed.any fun fingerprint => rollout.any fun rollout => authorityTime.any fun time =>
      rollout.acceptsFingerprint fingerprint time

/-- A leaf that is accepted for a node at an instant. -/
def ReplicatedControlPlaneState.acceptsLeaf (nodeId fingerprint : Text) (time : DateTime) : Bool :=
  control.members[nodeId]?.any fun member =>
    tlsBindingIsAuthorized (some fingerprint) member.tlsServerCertificateFingerprint
      control.certificateRollouts[nodeId]? (some time)

/-- The leaf that the end of a rollout retires: the candidate before the activation, the previous
leaf after it. -/
def ClusterCertificateRollout.retiredLeaf (rollout : ClusterCertificateRollout) : Text :=
  match rollout.phase with
  | .prepared => rollout.nextTlsServerCertificateFingerprint
  | .activated => rollout.previousTlsServerCertificateFingerprint

theorem ClusterCertificateRollout.retiredLeaf_eq (rollout : ClusterCertificateRollout) :
    rollout.retiredLeaf = rollout.rotation.fading := by
  cases hp : rollout.phase <;>
    simp [retiredLeaf, rotation, Rotation.fading, ClusterCertificateRolloutPhase.rotation, hp]

theorem ClusterCertificateRollout.names_of_acceptsFingerprint {rollout : ClusterCertificateRollout}
    {time : DateTime} (h : rollout.acceptsFingerprint fingerprint time = true) :
    rollout.rotation.Names fingerprint := by
  cases hp : rollout.phase with
  | prepared =>
    simp only [acceptsFingerprint, hp, Bool.or_eq_true, Bool.and_eq_true, beq_iff_eq] at h
    exact h.imp_right And.right
  | activated =>
    simp only [acceptsFingerprint, hp, Bool.or_eq_true, Bool.and_eq_true, beq_iff_eq] at h
    exact (h.imp_right And.right).symm

section Accepted

variable {control : ReplicatedControlPlaneState} {nodeId fingerprint : Text} {time : DateTime}

theorem acceptsLeaf_iff : control.acceptsLeaf nodeId fingerprint time = true ↔
    ∃ member, control.members[nodeId]? = some member ∧
      (member.tlsServerCertificateFingerprint = some fingerprint ∨
        ∃ rollout, control.certificateRollouts[nodeId]? = some rollout ∧
          rollout.acceptsFingerprint fingerprint time = true) := by
  simp only [acceptsLeaf, tlsBindingIsAuthorized, Option.any_eq_true, Option.any_some,
    Bool.or_eq_true, beq_iff_eq, eq_comm (a := some fingerprint)]

/-- An accepted leaf is carried by the member or named by its rollout. -/
theorem names_of_acceptsLeaf (h : control.acceptsLeaf nodeId fingerprint time = true) :
    control.trust.Names nodeId fingerprint := by
  obtain ⟨member, hm, hleaf | ⟨rollout, hr, ha⟩⟩ := acceptsLeaf_iff.1 h
  · exact .inl (leaf_eq_some.2 ⟨member, hm, hleaf⟩)
  · refine .inr ⟨rollout.rotation, ?_, rollout.names_of_acceptsFingerprint ha⟩
    show Option.map _ control.certificateRollouts[nodeId]? = _
    rw [hr, Option.map_some]

/-- The leaves accepted for a node with an unfinished rollout: at most two, one of them the leaf of
the member. -/
structure AcceptsAtMostTwo (control : ReplicatedControlPlaneState) (nodeId : Text)
    (time : DateTime) : Prop where
  current : ∃ member leaf, control.members[nodeId]? = some member ∧
    member.tlsServerCertificateFingerprint = some leaf ∧
    control.acceptsLeaf nodeId leaf time = true
  bound : {leaf | control.acceptsLeaf nodeId leaf time = true}.encard ≤ 2

theorem RolloutsSound.acceptsAtMostTwo (h : RolloutsSound control)
    {rollout : ClusterCertificateRollout}
    (hro : control.certificateRollouts[nodeId]? = some rollout)
    (time : DateTime) : AcceptsAtMostTwo control nodeId time := by
  have hr : control.trust.rotation nodeId = some rollout.rotation := by
    show Option.map _ control.certificateRollouts[nodeId]? = _
    rw [hro, Option.map_some]
  have hc := (h.sound.subject nodeId).carries _ hr
  obtain ⟨member, hm, hleaf⟩ := leaf_eq_some.1 hc
  refine ⟨⟨member, rollout.rotation.current, hm, hleaf,
    acceptsLeaf_iff.2 ⟨member, hm, .inl hleaf⟩⟩, ?_⟩
  have hs : {leaf | control.acceptsLeaf nodeId leaf time = true} ⊆
      {rollout.rotation.current, rollout.rotation.fading} := by
    intro leaf ha
    rcases names_of_acceptsLeaf ha with hb | ⟨rotation, hf, hn⟩
    · exact .inl (Option.some.inj (hb.symm.trans hc))
    · obtain rfl := Option.some.inj (hf.symm.trans hr)
      exact (rollout.rotation.names_iff leaf).1 hn
  refine (Set.encard_le_encard hs).trans ((Set.encard_insert_le _ _).trans ?_)
  rw [Set.encard_singleton, one_add_one_eq_two]

end Accepted

/-! ## Retired leaves -/

/-- The unfinished rollout of a node. -/
def AuthorityState.rollout (state : AuthorityState) (nodeId : Text) :
    Option ClusterCertificateRollout :=
  state.controlPlane.bind fun control => control.certificateRollouts[nodeId]?

theorem rollout_eq_some {state : AuthorityState} {rollout : ClusterCertificateRollout} :
    state.rollout nodeId = some rollout ↔ ∃ control, state.controlPlane = some control ∧
        control.certificateRollouts[nodeId]? = some rollout :=
  Option.bind_eq_some_iff

/-- A leaf that an abort, a finalisation or a revocation of the run retired. -/
def RetiredIn (K : Crypto) (commands : List (AuthorityCommand × LogId)) (fingerprint : Text) :
    Prop :=
  ∃ pre input post, commands = pre ++ input :: post ∧ ∃ nodeId rollout,
    (applyAuthorityCommands K pre).rollout nodeId = some rollout ∧
      (applyAuthorityCommands K (pre ++ [input])).rollout nodeId = none ∧
      fingerprint = rollout.retiredLeaf

/-- The audit keeps every retired leaf. -/
theorem retired_keptBy (K : Crypto) (fingerprint : Text) :
    KeptBy K (fun _ _ => True) fun control =>
      RolloutsSound control ∧ control.trust.Retired fingerprint where
  later control time hle h := ⟨(rolloutsSound_keptBy K).later control time hle h.1, h.2⟩
  step term control command control' h _ hstep := by
    refine ⟨(rolloutsSound_keptBy K).step term control command control' h.1 trivial hstep, ?_⟩
    obtain ⟨e, he, hr⟩ := h.2
    exact ⟨e, (Trust.log_of_step (hstep.trustStep h.1.filed h.1.sound)).subset he, hr⟩

/-- A command that ends a rollout records its retired leaf. -/
theorem retired_of_ended {K : Crypto} {state : AuthorityState} {x : AuthorityCommand × LogId}
    (h : OnControl RolloutsSound state) {rollout : ClusterCertificateRollout}
    (hf : state.rollout nodeId = some rollout)
    (he : (authorityStep K state x).rollout nodeId = none) :
    OnControl (fun control => control.trust.Retired rollout.retiredLeaf)
      (authorityStep K state x) := by
  obtain ⟨control, hc, hr⟩ := rollout_eq_some.1 hf
  obtain ⟨command, logId⟩ := x
  have hmove := applyAuthorityCommand_move K state command logId
  intro r hre
  rw [authorityStep] at hre he
  rw [AuthorityState.rollout, hre, Option.bind_some] at he
  rw [hre] at hmove
  generalize hsome : some r = moved at hmove
  cases hmove with
  | kept =>
    obtain rfl := Option.some.inj (hsome.trans hc)
    exact absurd (hr.symm.trans he) (by simp)
  | advanced ck before _ hp =>
    obtain rfl := Option.some.inj hsome
    obtain rfl := Option.some.inj (hp.symm.trans hc)
    exact absurd (hr.symm.trans he) (by simp)
  | created genesis built _ ha => exact absurd (ha.symm.trans hc) (by simp)
  | stepped before after _ hp hstep =>
    obtain rfl := Option.some.inj hsome
    obtain rfl := Option.some.inj (hp.symm.trans hc)
    have hs := h before hp
    rw [rollout.retiredLeaf_eq]
    refine Trust.retired_of_step (n := nodeId) (hstep.trustStep hs.filed hs.sound) ?_ ?_
    · show Option.map _ before.certificateRollouts[nodeId]? = _
      rw [hr, Option.map_some]
    · show Option.map _ r.certificateRollouts[nodeId]? = _
      rw [he, Option.map_none]

variable {commands : List (AuthorityCommand × LogId)}

theorem RetiredIn.retired {K : Crypto} (h : RetiredIn K commands fingerprint) :
    OnControl (fun control => control.trust.Retired fingerprint)
      (applyAuthorityCommands K commands) := by
  obtain ⟨pre, x, post, rfl, nodeId, rollout, hf, he, rfl⟩ := h
  have hb := rolloutsSound_run K pre
  have ha := rolloutsSound_run K (pre ++ [x])
  rw [applyAuthorityCommands_snoc] at he ha
  have hr := retired_of_ended hb hf he
  obtain ⟨control, hc, -⟩ := rollout_eq_some.1 hf
  have hp : (authorityStep K (applyAuthorityCommands K pre) x).controlPlane ≠ none :=
    authorityStep_controlPlane_ne_none (by simp [hc])
  intro control hc
  exact (onControl_run_after (retired_keptBy K rollout.retiredLeaf) hp
    (fun control hc => ⟨ha control hc, hr control hc⟩) post control hc).2

/-- A registration that passes its checks and gives a node another leaf outside a rollout takes a
fresh one: a leaf that no rollout retired and that no unfinished rollout of another node names. -/
def BindsFreshLeaf (K : Crypto) (control : ReplicatedControlPlaneState) : AuthorityCommand → Prop
  | .registerMember command => ∀ now hash revision,
      RegisterGuard K control command now hash revision →
      KeepsLeaf control command.registration →
      ∀ fingerprint, command.registration.tlsServerCertificateFingerprint = some fingerprint →
        control.leaf command.registration.nodeId ≠ some fingerprint →
        control.trust.Fresh command.registration.nodeId fingerprint
  | _ => True

section Fresh

variable {K : Crypto} {control control' : ReplicatedControlPlaneState} {authorityTerm : Nat}

/-- Only a registration changes a leaf, and it activates the rollout of its node or is outside
one. -/
theorem ControlStep.leaf (hfi : MembersFiled control)
    (hstep : ControlStep K authorityTerm control command control') :
    control'.leaf = control.leaf ∨ ∃ registered now hash revision,
      command = .registerMember registered ∧
      RegisterGuard K control registered now hash revision ∧
      (control.certificateRollouts[registered.registration.nodeId]? = none →
        KeepsLeaf control registered.registration) ∧
      control'.leaf = Function.update control.leaf registered.registration.nodeId
        registered.registration.tlsServerCertificateFingerprint := by
  -- the revision of a member keeps its leaf
  have hr : ∀ {nodeId : Text} {member : ClusterMember},
      control.members[nodeId]? = some member →
      control.leaf member.nodeId = member.tlsServerCertificateFingerprint := by
    intro nodeId member hf
    rw [hfi nodeId member hf]
    exact leaf_of_lookup hf
  cases hstep with
  | issue | claim | renew | release => exact .inl rfl
  | @register registered now hash revision _ hg ho =>
    refine .inr ⟨registered, now, hash, revision, rfl, hg, ?_⟩
    cases ho with
    | join hkeeps => exact ⟨fun _ => hkeeps, leaf_insert (joinNext_members ..)⟩
    | activate member rollout _ hactivates =>
      refine ⟨fun hidle => ?_, leaf_insert (activateNext_members ..)⟩
      have hunfinished := hactivates.unfinished
      rw [hfi _ member hactivates.found, hidle] at hunfinished
      cases hunfinished
  | prepare hg => exact .inl (leaf_insert_same (prepareNext_members ..) (hr hg.found))
  | abort hg | finalize hg => exact .inl (leaf_insert_same (finishNext_members ..) (hr hg.found))
  | setState hg ho =>
    have hc := leaf_of_lookup hg.found
    exact .inl (leaf_insert_same ho.members hc)

end Fresh

theorem exclusive_keptBy (K : Crypto) : KeptBy K (BindsFreshLeaf K) fun control =>
    RolloutsSound control ∧ control.trust.Exclusive where
  later control time hle h := ⟨(rolloutsSound_keptBy K).later control time hle h.1, h.2⟩
  step term control command control' h hf hstep := by
    refine ⟨(rolloutsSound_keptBy K).step term control command control' h.1 trivial hstep, ?_⟩
    refine h.2.step h.1.sound (hstep.trustStep h.1.filed h.1.sound) ?_
    intro nodeId fingerprint hidle hleaf ho
    replace hleaf : control'.leaf nodeId = some fingerprint := hleaf
    rcases hstep.leaf h.1.filed with hsame |
      ⟨registered, now, hash, revision, rfl, hguard, hkeeps, hu⟩
    · rw [hsame] at hleaf
      exact absurd hleaf ho
    · rw [hu] at hleaf
      by_cases hnode : nodeId = registered.registration.nodeId
      · subst hnode
        rw [Function.update_self] at hleaf
        exact hf now hash revision hguard (hkeeps (Option.map_eq_none_iff.1 hidle)) fingerprint
          hleaf ho
      · rw [Function.update_of_ne hnode] at hleaf
        exact absurd hleaf ho

/-- Along every run the rollouts of a node are prepared, possibly activated and finished, one after
the other; an unfinished rollout accepts at most two leaves, one of them the leaf of the member; and
a finalisation waits for the retirement deadline. A leaf that a rollout retired is never accepted
again if the accepted registrations outside rollouts bind fresh leaves. -/
theorem rollout_trust (K : Crypto) (commands : List (AuthorityCommand × LogId)) :
    OnControl (fun control => ∀ nodeId,
        Chains (control.trust.moves nodeId)
          ((control.trust.rotation nodeId).map Rotation.phase) ∧
        ∀ rollout, control.certificateRollouts[nodeId]? = some rollout →
          ∀ time, AcceptsAtMostTwo control nodeId time)
      (applyAuthorityCommands K commands) ∧
    (∀ control command updated control',
      applyFinishMemberCertificateRollout control .finalize command = .ok (updated, control') →
      ∃ rollout deadline, control.certificateRollouts[command.nodeId]? = some rollout ∧
        rollout.retirePreviousAfter = some deadline ∧ deadline ≤ control'.logicalTime) ∧
    (EachAfter
        (fun pre input => OnStep (BindsFreshLeaf K) (applyAuthorityCommands K pre) input.1)
        commands →
      ∀ fingerprint, RetiredIn K commands fingerprint →
        OnControl (fun control => ∀ nodeId time,
          control.acceptsLeaf nodeId fingerprint time = false)
        (applyAuthorityCommands K commands)) := by
  refine ⟨?_, ?_, ?_⟩
  · intro control hcontrol nodeId
    have hsound := rolloutsSound_run K commands control hcontrol
    exact ⟨(hsound.sound.subject nodeId).chains,
      fun rollout hrollout time => hsound.acceptsAtMostTwo hrollout time⟩
  · intro control command updated control' happly
    obtain ⟨now, member, rollout, hguard, -, rfl⟩ :=
      applyFinishMemberCertificateRollout_eq_ok.1 happly
    have hfinishable := hguard.finishable
    cases hfinishable with
    | finalize _ hretires hreached => exact ⟨rollout, _, hguard.unfinished, hretires, hreached⟩
  · intro hfresh fingerprint hretired control hcontrol nodeId time
    have hexclusive := onControl_run (exclusive_keptBy K)
      (fun _ _ _ hbuilt => ⟨rolloutsSound_genesis hbuilt, exclusive_genesis hbuilt⟩) hfresh
      control hcontrol
    rw [Bool.eq_false_iff]
    intro haccepts
    exact hexclusive.2.untrusted nodeId fingerprint (hretired.retired control hcontrol)
      (names_of_acceptsLeaf haccepts)

/-- Node `a` replaces the leaf `1` by the leaf `2` and finalises the rollout. -/
def rotatedLeaf : List (AuthorityCommand × LogId) := [
  (.initializeAuthority
    ⟨Sample.uuid '1', ⟨Sample.uuid 'c', [Sample.seed 'a' '1']⟩, default⟩, Sample.logId 1),
  (.issueJoinChallenge ⟨Sample.uuid '2', Sample.hex '2', 300, default⟩, Sample.logId 2),
  (.prepareMemberCertificateRollout ⟨Sample.uuid '3', Sample.registration 'a' '2', Sample.hex '2',
    [], 1, 300, 300, ['o'], ['r'], default⟩, Sample.logId 3),
  (.issueJoinChallenge ⟨Sample.uuid '4', Sample.hex '4', 300, default⟩, Sample.logId 4),
  (.registerMember ⟨Sample.uuid '5', Sample.registration 'a' '2', Sample.hex '4', [], some 2, 1, 1,
    ['o'], ['r'], default⟩, Sample.logId 5),
  (.advanceTime ⟨Sample.uuid '6', ⟨1000000000000, by decide⟩⟩, Sample.logId 6),
  (.finalizeMemberCertificateRollout
    ⟨Sample.uuid '7', Sample.uuid 'a', 3, ['o'], ['r'], default⟩, Sample.logId 7)]

/-- Node `a` then leaves and registers with the leaf `1`. -/
def returningMember : List (AuthorityCommand × LogId) := [
  (.setMemberState ⟨Sample.uuid '8', Sample.uuid 'a', .left, 4, ['o'], ['r'], default⟩,
    Sample.logId 8),
  (.issueJoinChallenge ⟨Sample.uuid '9', Sample.hex '9', 300, default⟩, Sample.logId 9),
  (.registerMember ⟨Sample.uuid 'b', Sample.registration 'a' '1', Sample.hex '9', [], some 5, 1, 1,
    ['o'], ['r'], default⟩, Sample.logId 10)]

/-- Node `a` prepares the leaf `2`, aborts the rollout, leaves and registers with the leaf `2`. -/
def abortedCandidate : List (AuthorityCommand × LogId) := [
  (.initializeAuthority
    ⟨Sample.uuid '1', ⟨Sample.uuid 'c', [Sample.seed 'a' '1']⟩, default⟩, Sample.logId 1),
  (.issueJoinChallenge ⟨Sample.uuid '2', Sample.hex '2', 300, default⟩, Sample.logId 2),
  (.prepareMemberCertificateRollout ⟨Sample.uuid '3', Sample.registration 'a' '2', Sample.hex '2',
    [], 1, 300, 300, ['o'], ['r'], default⟩, Sample.logId 3),
  (.abortMemberCertificateRollout
    ⟨Sample.uuid '4', Sample.uuid 'a', 2, ['o'], ['r'], default⟩, Sample.logId 4),
  (.setMemberState ⟨Sample.uuid '5', Sample.uuid 'a', .left, 3, ['o'], ['r'], default⟩,
    Sample.logId 5),
  (.issueJoinChallenge ⟨Sample.uuid '6', Sample.hex '6', 300, default⟩, Sample.logId 6),
  (.registerMember ⟨Sample.uuid '7', Sample.registration 'a' '2', Sample.hex '6', [], some 4, 1, 1,
    ['o'], ['r'], default⟩, Sample.logId 7)]

/-- A run that ends the rollout of a node retires its leaf. -/
theorem retiredIn_of_take {K : Crypto} (i : Nat) (nodeId : Text)
    (hf : ((applyAuthorityCommands K (commands.take i)).rollout nodeId).map
      ClusterCertificateRollout.retiredLeaf = some fingerprint)
    (he : (applyAuthorityCommands K (commands.take (i + 1))).rollout nodeId = none) :
    RetiredIn K commands fingerprint := by
  obtain ⟨rollout, hr, hleaf⟩ := Option.map_eq_some_iff.1 hf
  -- the run goes on after the index, since the rollout ends there
  have hi : i < commands.length := by
    by_contra hge
    rw [List.take_of_length_le (by omega)] at hr he
    exact absurd (hr.symm.trans he) (by simp)
  rw [List.take_succ_eq_append_getElem hi] at he
  refine ⟨commands.take i, commands[i], commands.drop (i + 1), ?_, nodeId, rollout, hr, he,
    hleaf.symm⟩
  rw [← List.drop_eq_getElem_cons hi, List.take_append_drop]

set_option maxRecDepth 100000 in
theorem rotatedLeaf_retired : RetiredIn Sample.crypto rotatedLeaf (Sample.hex '1') :=
  retiredIn_of_take 6 (Sample.uuid 'a') (by decide +kernel) (by decide +kernel)

set_option maxRecDepth 100000 in
/-- A leaf that a finalisation retired is accepted again, in a state that the validator accepts,
and so is an aborted candidate. -/
theorem retiredLeaf_accepted :
    (RetiredIn Sample.crypto (rotatedLeaf ++ returningMember) (Sample.hex '1') ∧
      validateAuthorityState Sample.crypto
        (applyAuthorityCommands Sample.crypto (rotatedLeaf ++ returningMember)) = .ok () ∧
      ((applyAuthorityCommands Sample.crypto (rotatedLeaf ++ returningMember)).controlPlane.any
        fun control => control.acceptsLeaf (Sample.uuid 'a') (Sample.hex '1')
          control.logicalTime) = true) ∧
    RetiredIn Sample.crypto abortedCandidate (Sample.hex '2') ∧
      ((applyAuthorityCommands Sample.crypto abortedCandidate).controlPlane.any
        fun control => control.acceptsLeaf (Sample.uuid 'a') (Sample.hex '2')
          control.logicalTime) = true :=
  ⟨⟨retiredIn_of_take 6 (Sample.uuid 'a') (by decide +kernel) (by decide +kernel),
      by decide +kernel, by decide +kernel⟩,
    retiredIn_of_take 3 (Sample.uuid 'a') (by decide +kernel) (by decide +kernel),
    by decide +kernel⟩

set_option maxRecDepth 100000 in
theorem rotatedLeaf_fresh :
    EachAfter (fun pre input => OnStep (BindsFreshLeaf Sample.crypto)
      (applyAuthorityCommands Sample.crypto pre) input.1) rotatedLeaf := by
  -- the only registration activates the rollout of its node
  have hbusy : ((applyAuthorityCommands Sample.crypto (rotatedLeaf.take 4)).controlPlane.any
      fun control => control.members[Sample.uuid 'a']?.any fun member =>
        control.certificateRollouts[member.nodeId]?.isSome) = true := by decide +kernel
  refine eachAfter_cons.2 ⟨fun _ _ _ => trivial, eachAfter_cons.2 ⟨fun _ _ _ => trivial,
    eachAfter_cons.2 ⟨fun _ _ _ => trivial, eachAfter_cons.2 ⟨fun _ _ _ => trivial,
    eachAfter_cons.2 ⟨?_, eachAfter_cons.2 ⟨fun _ _ _ => trivial,
    eachAfter_cons.2 ⟨fun _ _ _ => trivial, eachAfter_nil⟩⟩⟩⟩⟩⟩⟩
  intro _ control hcontrol now hash revision _ hkeeps
  obtain ⟨before, hbefore, hany⟩ := (Option.any_eq_true _ _).1 hbusy
  obtain rfl := Option.some.inj (hcontrol.symm.trans hbefore)
  obtain ⟨member, hmember, hsome⟩ := (Option.any_eq_true _ _).1 hany
  rw [(hkeeps member hmember).1] at hsome
  cases hsome

theorem rotatedLeaf_trust :
    RetiredIn Sample.crypto rotatedLeaf (Sample.hex '1') ∧
      OnControl (fun control => ∀ nodeId time,
        control.acceptsLeaf nodeId (Sample.hex '1') time = false)
        (applyAuthorityCommands Sample.crypto rotatedLeaf) :=
  ⟨rotatedLeaf_retired,
    (rollout_trust Sample.crypto rotatedLeaf).2.2 rotatedLeaf_fresh _ rotatedLeaf_retired⟩

end AgentOS
