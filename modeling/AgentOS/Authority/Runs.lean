import AgentOS.Authority.Steps
import AgentOS.Lib.Run

/-!
# Runs of the authority

A run is a list of commands with their log positions, applied one after the other to the empty
state. Rejected and replayed commands leave the control plane alone, so a command either keeps it,
moves its clock, creates it, or takes one transition (`applyAuthorityCommand_move`). A property of
control planes that the genesis establishes and that clock advances and transitions keep therefore
holds along every run (`OnControl.step`, `onControl_run`).
-/

namespace AgentOS

open Lib

/-- One command of a run. -/
def authorityStep (K : Crypto) (state : AuthorityState) (x : AuthorityCommand × LogId) :
    AuthorityState :=
  (applyAuthorityCommand K state x.1 x.2).2

/-- The state after a run of commands from the empty state. -/
def applyAuthorityCommands (K : Crypto) (commands : List (AuthorityCommand × LogId)) :
    AuthorityState :=
  run (authorityStep K) .empty commands

theorem applyAuthorityCommands_snoc (K : Crypto) (commands : List (AuthorityCommand × LogId))
    (x : AuthorityCommand × LogId) :
    applyAuthorityCommands K (commands ++ [x]) =
      authorityStep K (applyAuthorityCommands K commands) x :=
  run_snoc _ _ _ _

/-- What a command does to the control plane. -/
inductive ControlMove (K : Crypto) (state : AuthorityState) (command : AuthorityCommand)
    (logId : LogId) : Option ReplicatedControlPlaneState → Prop
  | kept : ControlMove K state command logId state.controlPlane
  | advanced (clock : AdvanceTime) (control : ReplicatedControlPlaneState)
      (isClock : command = .advanceTime clock) (present : state.controlPlane = some control) :
      ControlMove K state command logId
        (some { control with logicalTime := max control.logicalTime clock.proposedAt })
  | created (genesis : Initialize) (control : ReplicatedControlPlaneState)
      (isGenesis : command = .initializeAuthority genesis) (absent : state.controlPlane = none)
      (built : validateAndBuildGenesis K genesis.genesis genesis.proposedAt = .ok control) :
      ControlMove K state command logId (some control)
  | stepped (control control' : ReplicatedControlPlaneState) (fresh : Fresh state command)
      (present : state.controlPlane = some control)
      (step : ControlStep K logId.leaderId.term control command control') :
      ControlMove K state command logId (some control')

theorem applyAuthorityCommand_move (K : Crypto) (state : AuthorityState)
    (command : AuthorityCommand) (logId : LogId) :
    ControlMove K state command logId
      (applyAuthorityCommand K state command logId).2.controlPlane := by
  have ho := applyAuthorityCommand_outcome (K := K) state command logId
  generalize (applyAuthorityCommand K state command logId).1 = response at ho
  generalize (applyAuthorityCommand K state command logId).2 = result at ho ⊢
  cases ho with
  | rejected => exact .kept
  | replayed => exact .kept
  | advanced ck control hc hp => exact .advanced ck control hc hp
  | committed next _ hf hstep _ =>
    show ControlMove K state command logId next.controlPlane
    cases hstep with
    | initializeAuthority ha hb => exact .created _ _ rfl ha hb
    | barrier => exact .kept
    | control hp hstep => exact .stepped _ _ hf hp hstep

variable {state : AuthorityState} {x : AuthorityCommand × LogId}

/-- The control plane is never removed. -/
theorem authorityStep_controlPlane_ne_none {K : Crypto} (h : state.controlPlane ≠ none) :
    (authorityStep K state x).controlPlane ≠ none := by
  have hmove := applyAuthorityCommand_move K state x.1 x.2
  rw [authorityStep]
  generalize (applyAuthorityCommand K state x.1 x.2).2.controlPlane = result at hmove ⊢
  cases hmove with
  | kept => exact h
  | advanced => simp
  | created => simp
  | stepped => simp

/-! ## Properties of the control plane -/

/-- A property of the control plane, if there is one. -/
def OnControl (P : ReplicatedControlPlaneState → Prop) (state : AuthorityState) : Prop :=
  ∀ control, state.controlPlane = some control → P control

theorem onControl_empty (P : ReplicatedControlPlaneState → Prop) : OnControl P .empty := by
  intro control hc
  cases hc

/-- A condition on the transitions that a command may take from a state. -/
def OnStep (C : ReplicatedControlPlaneState → AuthorityCommand → Prop) (state : AuthorityState)
    (command : AuthorityCommand) : Prop :=
  Fresh state command → ∀ control, state.controlPlane = some control → C control command

/-- A property of control planes that clock advances, and transitions that meet a condition,
preserve. -/
structure KeptBy (K : Crypto) (C : ReplicatedControlPlaneState → AuthorityCommand → Prop)
    (P : ReplicatedControlPlaneState → Prop) : Prop where
  later : ∀ control time, control.logicalTime ≤ time → P control →
    P { control with logicalTime := time }
  step : ∀ term control command control', P control → C control command →
    ControlStep K term control command control' → P control'

section Invariant

variable {K : Crypto} {C : ReplicatedControlPlaneState → AuthorityCommand → Prop}
  {P : ReplicatedControlPlaneState → Prop}

/-- One command preserves a property of the control plane. -/
theorem OnControl.step (hkept : KeptBy K C P)
    (hg : ∀ genesis proposedAt control, state.controlPlane = none →
      validateAndBuildGenesis K genesis proposedAt = .ok control → P control)
    (h : OnControl P state) (hi : OnStep C state x.1) :
    OnControl P (authorityStep K state x) := by
  obtain ⟨command, logId⟩ := x
  have hmove := applyAuthorityCommand_move K state command logId
  intro r hr
  rw [authorityStep] at hr
  rw [hr] at hmove
  generalize hsome : some r = moved at hmove
  cases hmove with
  | kept => exact h r hsome.symm
  | advanced ck control _ hp =>
    obtain rfl := Option.some.inj hsome
    exact hkept.later _ _ (le_max_left _ _) (h control hp)
  | created genesis control _ ha hb =>
    obtain rfl := Option.some.inj hsome
    exact hg _ _ _ ha hb
  | stepped control control' hf hp hstep =>
    obtain rfl := Option.some.inj hsome
    exact hkept.step _ _ _ _ (h control hp) (hi hf control hp) hstep

variable {commands : List (AuthorityCommand × LogId)}

/-- A property that the genesis establishes holds along every run that meets the condition. -/
theorem onControl_run (hkept : KeptBy K C P)
    (hg : ∀ genesis proposedAt control,
      validateAndBuildGenesis K genesis proposedAt = .ok control → P control)
    (h : EachAfter (fun pre x => OnStep C (applyAuthorityCommands K pre) x.1) commands) :
    OnControl P (applyAuthorityCommands K commands) := by
  refine run_invariant_of (OnControl P)
    (fun state (x : AuthorityCommand × LogId) => OnStep C state x.1) (onControl_empty P) ?_ h
  intro state x hs hi
  exact hs.step hkept (fun genesis proposedAt control _ => hg genesis proposedAt control) hi

/-- A property of a control plane holds along every run that starts from one with it and meets the
condition. -/
theorem onControl_run_from (hkept : KeptBy K C P) (hp : state.controlPlane ≠ none)
    (hs : OnControl P state)
    (h : EachAfter (fun pre x => OnStep C (run (authorityStep K) state pre) x.1) commands) :
    OnControl P (run (authorityStep K) state commands) ∧
      (run (authorityStep K) state commands).controlPlane ≠ none := by
  refine run_invariant_of (fun state => OnControl P state ∧ state.controlPlane ≠ none)
    (fun state (x : AuthorityCommand × LogId) => OnStep C state x.1) ⟨hs, hp⟩ ?_ h
  rintro state x ⟨hc, hp⟩ hi
  exact ⟨hc.step hkept (fun _ _ _ ha => absurd ha hp) hi, authorityStep_controlPlane_ne_none hp⟩

/-- A property that every transition keeps holds in every state after a command that established
it. -/
theorem onControl_run_after (hkept : KeptBy K (fun _ _ => True) P)
    (hp : (authorityStep K (applyAuthorityCommands K commands) x).controlPlane ≠ none)
    (hst : OnControl P (authorityStep K (applyAuthorityCommands K commands) x))
    (after : List (AuthorityCommand × LogId)) :
    OnControl P (applyAuthorityCommands K (commands ++ x :: after)) := by
  have hs : applyAuthorityCommands K (commands ++ x :: after) =
      run (authorityStep K) (authorityStep K (applyAuthorityCommands K commands) x) after := by
    rw [← applyAuthorityCommands_snoc, List.append_cons]
    exact run_append _ _ _ _
  rw [hs]
  exact (onControl_run_from hkept hp hst fun _ _ _ _ _ _ _ => trivial).1

end Invariant

/-! ## The clock -/

/-- Every transition happens at a later instant. -/
theorem ControlStep.clock {K : Crypto} {term : Nat} {control control' : ReplicatedControlPlaneState}
    {command : AuthorityCommand} (h : ControlStep K term control command control') :
    control.logicalTime < control'.logicalTime := by
  cases h with
  | issue hg | abort hg | finalize hg | claim hg | renew hg | release hg => exact hg.clock.lt
  | register hg ho =>
    cases ho with
    | join | activate => exact hg.challenged.clock.lt
  | prepare hg => exact hg.challenged.clock.lt
  | setState hg ho =>
    cases ho with
    | leave | revoke | revokeDrop => exact hg.clock.lt

end AgentOS
