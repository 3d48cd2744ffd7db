import AgentOS.Authority.Apply

/-!
# Transitions of the authority

`ControlStep` is everything an accepted command can do to the control plane, one constructor per
handler; `applyAuthorityCommand_outcome` says that a command is rejected or replayed with the
state unchanged, advances the clock, or commits one such step together with its receipt.
-/

namespace AgentOS

open Lib

/-- The transitions of an existing control plane, committed in `authorityTerm`. -/
inductive ControlStep (K : Crypto) (authorityTerm : Nat)
    (control : ReplicatedControlPlaneState) :
    AuthorityCommand → ReplicatedControlPlaneState → Prop
  | issue {command : IssueJoinChallenge} {now expiresAt : DateTime} {hash : Text}
      (guard : IssueGuard K control command now expiresAt hash) :
      ControlStep K authorityTerm control (.issueJoinChallenge command)
        (issueNext control command now expiresAt hash)
  | register {command : RegisterMember} {now : DateTime} {hash : Text}
      {revision : RegistrationRevision} {control' : ReplicatedControlPlaneState}
      (guard : RegisterGuard K control command now hash revision)
      (outcome : RegisterOutcome control command now hash revision control') :
      ControlStep K authorityTerm control (.registerMember command) control'
  | prepare {command : PrepareMemberCertificateRollout} {now prepareExpiresAt : DateTime}
      {hash : Text} {member : ClusterMember} {previousFingerprint nextFingerprint : Text}
      (guard : PrepareGuard K control command now prepareExpiresAt hash member
        previousFingerprint nextFingerprint) :
      ControlStep K authorityTerm control (.prepareMemberCertificateRollout command)
        (prepareNext control command now prepareExpiresAt hash member previousFingerprint
          nextFingerprint)
  | abort {command : FinishMemberCertificateRollout} {now : DateTime} {member : ClusterMember}
      {rollout : ClusterCertificateRollout}
      (guard : FinishGuard control .abort command now member rollout) :
      ControlStep K authorityTerm control (.abortMemberCertificateRollout command)
        (finishNext control command now member rollout)
  | finalize {command : FinishMemberCertificateRollout} {now : DateTime}
      {member : ClusterMember} {rollout : ClusterCertificateRollout}
      (guard : FinishGuard control .finalize command now member rollout) :
      ControlStep K authorityTerm control (.finalizeMemberCertificateRollout command)
        (finishNext control command now member rollout)
  | setState {command : SetMemberState} {now : DateTime} {member : ClusterMember}
      {control' : ReplicatedControlPlaneState}
      (guard : SetStateGuard control command now member)
      (outcome : SetStateOutcome control command authorityTerm now member control') :
      ControlStep K authorityTerm control (.setMemberState command) control'
  | claim {command : ClaimOwnership} {now leaseExpiresAt : DateTime} {grant : OwnershipGrant}
      (guard : ClaimGuard control command now leaseExpiresAt grant) :
      ControlStep K authorityTerm control (.claimOwnership command)
        (claimNext control command authorityTerm now leaseExpiresAt grant)
  | renew {command : RenewOwnership} {now leaseExpiresAt : DateTime}
      {previous : ClusterAgentOwnership}
      (guard : RenewGuard control command now leaseExpiresAt previous) :
      ControlStep K authorityTerm control (.renewOwnership command)
        (renewNext control command authorityTerm now leaseExpiresAt previous)
  | release {command : ReleaseOwnership} {now : DateTime} {previous : ClusterAgentOwnership}
      (guard : ReleaseGuard control command now previous) :
      ControlStep K authorityTerm control (.releaseOwnership command)
        (releaseNext control command authorityTerm now previous)

/-- The transitions of a command that has no receipt yet, before the receipt is stored. -/
inductive NewStep (K : Crypto) (authorityTerm : Nat) (state : AuthorityState) :
    AuthorityCommand → AuthorityState → Prop
  | initializeAuthority {command : Initialize} {control : ReplicatedControlPlaneState}
      (absent : state.controlPlane = none)
      (built : validateAndBuildGenesis K command.genesis command.proposedAt = .ok control) :
      NewStep K authorityTerm state (.initializeAuthority command)
        { state with controlPlane := some control }
  | barrier {command : Barrier} : NewStep K authorityTerm state (.barrier command) state
  | control {command : AuthorityCommand} {control control' : ReplicatedControlPlaneState}
      (present : state.controlPlane = some control)
      (step : ControlStep K authorityTerm control command control') :
      NewStep K authorityTerm state command { state with controlPlane := some control' }

section Inversion

variable {K : Crypto} {state state' : AuthorityState}

variable {response : AuthorityResponse}

theorem withControlPlane_eq_ok {ρ : Type}
    {ha : ReplicatedControlPlaneState → Except AuthorityError (ρ × ReplicatedControlPlaneState)}
    {respond : ρ → AuthorityResponse} :
    withControlPlane state ha respond = .ok (response, state') ↔
      ∃ control r control', state.controlPlane = some control ∧ ha control = .ok (r, control') ∧
        response = respond r ∧ state' = { state with controlPlane := some control' } := by
  simp only [withControlPlane, bind_eq_ok, orReject_eq_ok, Prod.exists, pure_eq_ok, Prod.mk.injEq]
  constructor
  · rintro ⟨control, hc, r, control', hh, rfl, rfl⟩
    exact ⟨control, r, control', hc, hh, rfl, rfl⟩
  · rintro ⟨control, r, control', hc, hh, rfl, rfl⟩
    exact ⟨control, hc, r, control', hh, rfl, rfl⟩

theorem withControlPlane_ok {ρ : Type}
    {ha : ReplicatedControlPlaneState → Except AuthorityError (ρ × ReplicatedControlPlaneState)}
    (respond : ρ → AuthorityResponse) {control control' : ReplicatedControlPlaneState} {r : ρ}
    (hc : state.controlPlane = some control) (hh : ha control = .ok (r, control')) :
    ∃ response, withControlPlane state ha respond =
      .ok (response, { state with controlPlane := some control' }) :=
  ⟨respond r,
    withControlPlane_eq_ok.2 ⟨control, r, control', hc, hh, rfl, rfl⟩⟩

variable {command : AuthorityCommand} {logId : LogId}

/-- The transition of a command whose handler succeeds. -/
theorem newStep_of_withControlPlane {ρ : Type} {term : Nat}
    {ha : ReplicatedControlPlaneState → Except AuthorityError (ρ × ReplicatedControlPlaneState)}
    {respond : ρ → AuthorityResponse}
    (h : withControlPlane state ha respond = .ok (response, state'))
    (hstep : ∀ control r control', ha control = .ok (r, control') →
      ControlStep K term control command control') :
    NewStep K term state command state' := by
  obtain ⟨control, r, control', hc, hh, -, rfl⟩ := withControlPlane_eq_ok.1 h
  exact .control hc (hstep control r control' hh)

/-- A new command that succeeds takes the transition of its kind. -/
theorem newStep_of_applyNewAuthorityCommand {seq : Nat}
    (h : applyNewAuthorityCommand K state command seq logId = .ok (response, state')) :
    NewStep K logId.leaderId.term state command state' := by
  unfold applyNewAuthorityCommand at h
  cases command with
  | initializeAuthority =>
    simp only [bind_eq_ok, rejectIf_eq_ok, pure_eq_ok,
      Prod.mk.injEq, exists_and_left, exists_const, Bool.not_eq_true,
      Option.isSome_eq_false_iff, Option.isNone_iff_eq_none] at h
    obtain ⟨ha, control, hb, -, rfl⟩ := h
    exact .initializeAuthority ha hb
  | barrier =>
    simp only [pure_eq_ok, Prod.mk.injEq] at h
    obtain ⟨-, rfl⟩ := h
    exact .barrier
  | advanceTime => cases h
  | issueJoinChallenge =>
    refine newStep_of_withControlPlane h fun control r control' hh => ?_
    obtain ⟨now, expiresAt, hash, hg, -, rfl⟩ := applyIssueJoinChallenge_eq_ok.1 hh
    exact .issue hg
  | registerMember =>
    refine newStep_of_withControlPlane h fun control r control' hh => ?_
    obtain ⟨now, hash, rev, hg, -, ho⟩ := applyRegisterMember_eq_ok.1 hh
    exact .register hg ho
  | prepareMemberCertificateRollout =>
    refine newStep_of_withControlPlane h fun control r control' hh => ?_
    obtain ⟨now, expiry, hash, member, prev, next, hg, -, -, rfl⟩ :=
      applyPrepareMemberCertificateRollout_eq_ok.1 hh
    exact .prepare hg
  | abortMemberCertificateRollout =>
    refine newStep_of_withControlPlane h fun control r control' hh => ?_
    obtain ⟨now, member, rollout, hg, -, rfl⟩ :=
      applyFinishMemberCertificateRollout_eq_ok.1 hh
    exact .abort hg
  | finalizeMemberCertificateRollout =>
    refine newStep_of_withControlPlane h fun control r control' hh => ?_
    obtain ⟨now, member, rollout, hg, -, rfl⟩ :=
      applyFinishMemberCertificateRollout_eq_ok.1 hh
    exact .finalize hg
  | setMemberState =>
    refine newStep_of_withControlPlane h fun control r control' hh => ?_
    obtain ⟨now, member, hg, -, ho⟩ := applySetMemberState_eq_ok.1 hh
    exact .setState hg ho
  | claimOwnership =>
    refine newStep_of_withControlPlane h fun control r control' hh => ?_
    obtain ⟨now, lease, gr, hg, -, rfl⟩ := applyClaimOwnership_eq_ok.1 hh
    exact .claim hg
  | renewOwnership =>
    refine newStep_of_withControlPlane h fun control r control' hh => ?_
    obtain ⟨now, lease, prev, hg, -, rfl⟩ := applyRenewOwnership_eq_ok.1 hh
    exact .renew hg
  | releaseOwnership =>
    refine newStep_of_withControlPlane h fun control r control' hh => ?_
    obtain ⟨now, prev, hg, -, rfl⟩ := applyReleaseOwnership_eq_ok.1 hh
    exact .release hg

/-- The handler of a command succeeds on every control plane from which a transition of the
command exists. -/
theorem applyNewAuthorityCommand_of_newStep (seq : Nat) (logId : LogId)
    (h : NewStep K logId.leaderId.term state command state') :
    ∃ response, applyNewAuthorityCommand K state command seq logId = .ok (response, state') := by
  unfold applyNewAuthorityCommand
  cases h with
  | initializeAuthority ha hb =>
    exact ⟨_, by
      simp only [bind_eq_ok, rejectIf_eq_ok, pure_eq_ok,
        Prod.mk.injEq, exists_const, ha, Option.isSome_none,
        Bool.false_eq_true, not_false_eq_true, true_and]
      exact ⟨_, hb, rfl, rfl⟩⟩
  | barrier => exact ⟨_, rfl⟩
  | control hc hstep =>
    cases hstep with
    | issue hg =>
      exact withControlPlane_ok _ hc (applyIssueJoinChallenge_eq_ok.2 ⟨_, _, _, hg, rfl, rfl⟩)
    | register hg ho =>
      exact withControlPlane_ok _ hc (applyRegisterMember_eq_ok.2 ⟨_, _, _, hg, rfl, ho⟩)
    | prepare hg =>
      exact withControlPlane_ok _ hc
        (applyPrepareMemberCertificateRollout_eq_ok.2
          ⟨_, _, _, _, _, _, hg, rfl, rfl, rfl⟩)
    | abort hg | finalize hg =>
      exact withControlPlane_ok _ hc
        (applyFinishMemberCertificateRollout_eq_ok.2 ⟨_, _, _, hg, rfl, rfl⟩)
    | setState hg ho =>
      exact withControlPlane_ok _ hc (applySetMemberState_eq_ok.2 ⟨_, _, hg, rfl, ho⟩)
    | claim hg =>
      exact withControlPlane_ok _ hc (applyClaimOwnership_eq_ok.2 ⟨_, _, _, hg, rfl, rfl⟩)
    | renew hg =>
      exact withControlPlane_ok _ hc (applyRenewOwnership_eq_ok.2 ⟨_, _, _, hg, rfl, rfl⟩)
    | release hg =>
      exact withControlPlane_ok _ hc (applyReleaseOwnership_eq_ok.2 ⟨_, _, hg, rfl, rfl⟩)

/-- The response of a new command that succeeds carries its identifier, sequence and log
position. -/
theorem applyNewAuthorityCommand_response {seq : Nat}
    (h : applyNewAuthorityCommand K state command seq logId = .ok (response, state')) :
    response.successfulResponseMetadata = some (command.operationId, seq, logId, false) ∧
      responseMatchesCommand command response = true := by
  cases command with
  | initializeAuthority =>
    simp only [applyNewAuthorityCommand, bind_eq_ok, rejectIf_eq_ok, pure_eq_ok,
      Prod.mk.injEq, exists_and_left, exists_const] at h
    obtain ⟨-, control, -, rfl, -⟩ := h
    exact ⟨rfl, rfl⟩
  | barrier =>
    simp only [applyNewAuthorityCommand, pure_eq_ok, Prod.mk.injEq] at h
    obtain ⟨rfl, -⟩ := h
    exact ⟨rfl, rfl⟩
  | advanceTime => simp [applyNewAuthorityCommand] at h
  | _ =>
    simp only [applyNewAuthorityCommand, withControlPlane_eq_ok] at h
    obtain ⟨control, r, control', -, -, rfl, -⟩ := h
    exact ⟨rfl, rfl⟩

theorem NewStep.receipts_eq {term : Nat}
    (h : NewStep K term state command state') : state'.receipts = state.receipts := by
  cases h <;> rfl

/-- A command that is neither a clock command nor known, and that can still be sequenced. -/
structure Fresh (state : AuthorityState) (command : AuthorityCommand) : Prop where
  canonical : canonicalOperationId command.operationId = some command.operationId
  ordinary : ∀ clock, command ≠ .advanceTime clock
  unknown : state.receipts[command.operationId]? = none
  inSequence : sequenceMismatch state command = false
  capacity : state.receipts.size < maxAuthorityReceipts
  bounded : state.sequence + 1 < 2 ^ 64

/-- The state after a new command is committed. -/
def commitNext (state next : AuthorityState) (command : AuthorityCommand)
    (response : AuthorityResponse) : AuthorityState where
  sequence := state.sequence + 1
  receipts := state.receipts.insert command.operationId ⟨command, response⟩
  controlPlane := next.controlPlane

/-- The response of a committed command. -/
structure CommitResponse (state : AuthorityState) (command : AuthorityCommand) (logId : LogId)
    (response : AuthorityResponse) : Prop where
  metadata : response.successfulResponseMetadata =
    some (command.operationId, state.sequence + 1, logId, false)
  matching : responseMatchesCommand command response = true

/-- What the state machine does with one command. -/
inductive AuthorityOutcome (K : Crypto) (state : AuthorityState) (command : AuthorityCommand)
    (logId : LogId) : AuthorityResponse → AuthorityState → Prop
  | rejected (operationId : Text) (reason : AuthorityRejection) (message : String) :
      AuthorityOutcome K state command logId
        (.rejected operationId state.sequence logId reason message) state
  | replayed (receipt : StoredAuthorityReceipt)
      (ordinary : ∀ clock, command ≠ .advanceTime clock)
      (known : state.receipts[command.operationId]? = some receipt)
      (retry : commandsAreSameRetry receipt.command command = true) :
      AuthorityOutcome K state command logId receipt.response.replayResponse state
  | advanced (clock : AdvanceTime) (control : ReplicatedControlPlaneState)
      (isClock : command = .advanceTime clock)
      (present : state.controlPlane = some control) :
      AuthorityOutcome K state command logId
        (.authorityTimeAdvanced clock.operationId (max control.logicalTime clock.proposedAt)
          logId)
        { state with
          controlPlane := some { control with
            logicalTime := max control.logicalTime clock.proposedAt } }
  | committed (next : AuthorityState) (response : AuthorityResponse)
      (fresh : Fresh state command)
      (step : NewStep K logId.leaderId.term state command next)
      (answer : CommitResponse state command logId response) :
      AuthorityOutcome K state command logId response
        (commitNext state next command response)

theorem sequenceCommand_eq_ok {canonicalId : Text} :
    sequenceCommand K state command canonicalId logId = .ok (response, state') ↔
      sequenceMismatch state command = false ∧ state.receipts.size < maxAuthorityReceipts ∧
        state.sequence + 1 < 2 ^ 64 ∧
        ∃ next, applyNewAuthorityCommand K state command (state.sequence + 1) logId =
            .ok (response, next) ∧
          state' = { next with
            sequence := state.sequence + 1
            receipts := next.receipts.insert canonicalId ⟨command, response⟩ } := by
  simp only [sequenceCommand, bind_eq_ok, rejectIf_eq_ok, orReject_eq_ok, checkedSucc_eq_some,
    Prod.exists, pure_eq_ok, Prod.mk.injEq, exists_and_left, exists_const, Bool.not_eq_true, not_le]
  constructor
  · rintro ⟨hs, hcap, _, ⟨hb, rfl⟩, _, next, ha, rfl, rfl⟩
    exact ⟨hs, hcap, hb, next, ha, rfl⟩
  · rintro ⟨hs, hcap, hb, next, ha, rfl⟩
    exact ⟨hs, hcap, _, ⟨hb, rfl⟩, _, next, ha, rfl, rfl⟩

/-- `apply_authority_command` on an ordinary command with a canonical identifier. -/
theorem applyAuthorityCommand_ordinary
    (hc : canonicalOperationId command.operationId = some command.operationId)
    (ho : ∀ ck, command ≠ .advanceTime ck) :
    applyAuthorityCommand K state command logId =
      match state.receipts[command.operationId]? with
      | some receipt =>
        if commandsAreSameRetry receipt.command command then
          (receipt.response.replayResponse, state)
        else
          (.rejected command.operationId state.sequence logId .operationIdConflict
            "authority operation_id is already committed with a different command", state)
      | none =>
        orRejected state command.operationId logId
          (sequenceCommand K state command command.operationId logId) := by
  rw [applyAuthorityCommand, hc]
  cases command with
  | advanceTime ck => exact absurd rfl (ho ck)
  | _ => rfl

/-- Every command is rejected, replayed, a clock advance or a commit. -/
theorem applyAuthorityCommand_outcome (state : AuthorityState) (command : AuthorityCommand)
    (logId : LogId) :
    AuthorityOutcome K state command logId (applyAuthorityCommand K state command logId).1
      (applyAuthorityCommand K state command logId).2 := by
  cases hc : canonicalOperationId command.operationId with
  | none =>
    rw [applyAuthorityCommand, hc]
    exact .rejected _ _ _
  | some canonicalId =>
    obtain rfl := canonicalOperationId_eq_some hc
    by_cases hcl : ∃ ck, command = .advanceTime ck
    · obtain ⟨ck, rfl⟩ := hcl
      rw [applyAuthorityCommand, hc]
      cases hcontrol : state.controlPlane with
      | none => exact .rejected _ _ _
      | some control => exact .advanced ck control rfl hcontrol
    · have ho : ∀ ck, command ≠ .advanceTime ck :=
        fun ck h => hcl ⟨ck, h⟩
      rw [applyAuthorityCommand_ordinary hc ho]
      cases hr : state.receipts[command.operationId]? with
      | some receipt =>
        by_cases hre : commandsAreSameRetry receipt.command command = true
        · simp only [hre, if_true]
          exact .replayed receipt ho hr hre
        · simp only [hre, Bool.false_eq_true, if_false]
          exact .rejected _ _ _
      | none =>
        dsimp only
        cases hs : sequenceCommand K state command command.operationId logId with
        | error => exact .rejected _ _ _
        | ok r =>
          obtain ⟨response, state'⟩ := r
          obtain ⟨hin, hcap, hb, next, ha, rfl⟩ := sequenceCommand_eq_ok.1 hs
          have hstep := newStep_of_applyNewAuthorityCommand ha
          obtain ⟨hme, hm⟩ := applyNewAuthorityCommand_response ha
          have hrs := AuthorityOutcome.committed next response ⟨hc, ho, hr, hin, hcap, hb⟩ hstep
            ⟨hme, hm⟩
          rwa [commitNext, ← hstep.receipts_eq] at hrs

/-- A fresh command with a transition commits it. -/
theorem applyAuthorityCommand_of_newStep (logId : LogId) (hf : Fresh state command)
    (hstep : NewStep K logId.leaderId.term state command state') :
    ∃ response, CommitResponse state command logId response ∧
      applyAuthorityCommand K state command logId =
        (response, commitNext state state' command response) := by
  obtain ⟨response, ha⟩ :=
    applyNewAuthorityCommand_of_newStep (state.sequence + 1) logId hstep
  obtain ⟨hme, hm⟩ := applyNewAuthorityCommand_response ha
  refine ⟨response, ⟨hme, hm⟩, ?_⟩
  have hs : sequenceCommand K state command command.operationId logId =
      .ok (response, commitNext state state' command response) := by
    rw [sequenceCommand_eq_ok]
    refine ⟨hf.inSequence, hf.capacity, hf.bounded, state', ha, ?_⟩
    rw [commitNext, hstep.receipts_eq]
  rw [applyAuthorityCommand_ordinary hf.canonical hf.ordinary, hf.unknown]
  dsimp only
  rw [hs]
  rfl

end Inversion

end AgentOS
