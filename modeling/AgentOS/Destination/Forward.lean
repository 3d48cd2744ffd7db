import AgentOS.Destination.Fence
import AgentOS.Lib.Run

/-!
# Fences move forward

`FenceCall.Writes` is the condition under which a call stores a record. Over every sequence of
calls the stored terms, tokens and generations never go back and a retired token is never active
again (`AgentMutationFence.Forward`). A call that fails leaves the tables alone exactly when no
call stores an instant that cannot be read back (`fencesMoveForward_iff`).
-/

namespace AgentOS

open Lib

/-! ## When a call writes -/

/-- A request with well-formed fields for the node `nodeId`. -/
structure FenceRequestValid (nodeId : Text) (request : MutationFenceRequest) : Prop where
  agent : isUuid request.agentId = true
  cluster : isUuid request.clusterId = true
  owner : isUuid request.ownerNodeId = true
  term : request.authorityTerm ≠ 0
  generation : request.authorityGeneration ≠ 0
  token : request.fencingToken ≠ 0
  actor : ¬ isInvalidText request.actor
  reason : ¬ isInvalidText request.reason
  destination : request.ownerNodeId = nodeId

/-- A request that replaces the record `previous`. -/
structure Supersedes (previous : AgentMutationFence) (request : MutationFenceRequest) : Prop where
  cluster : previous.clusterId = request.clusterId
  owner : previous.ownerNodeId = request.ownerNodeId
  term : previous.authorityTerm ≤ request.authorityTerm
  token : previous.fencingToken ≤ request.fencingToken
  generation : previous.authorityGeneration ≤ request.authorityGeneration
  fenced : previous.state = .retired → previous.fencingToken < request.fencingToken
  legacy : isSameRevision previous request →
    request.proofExpiresAt ≠ previous.proofExpiresAt ∧
      previous.proofExpiresAt = previous.installedAt
  newer : previous.authorityTerm < request.authorityTerm ∨
      previous.fencingToken < request.fencingToken →
    previous.authorityGeneration < request.authorityGeneration

/-- A request that the constraints of the tables admit. -/
structure Storable (store : FenceStore) (request : MutationFenceRequest)
    (state : AgentMutationFenceState) (changedAt : DateTime) : Prop where
  term : request.authorityTerm ≤ maxI64
  generation : request.authorityGeneration ≤ maxI64
  token : request.fencingToken ≤ maxI64
  agent : request.agentId.length = 36
  cluster : request.clusterId.length = 36
  owner : request.ownerNodeId.length = 36
  unique : (request.fenceAudit state changedAt).key ∉ store.audit.map AgentMutationFenceAudit.key

/-- A call with the reading of the clock; `state` is what it asks for, so that `active` is an
installation and `retired` a retirement. -/
structure FenceCall where
  state : AgentMutationFenceState
  request : MutationFenceRequest
  now : DateTime

/-- One call on the node `nodeId`. -/
def fenceCall (nodeId : Text) (store : FenceStore) (call : FenceCall) :
    Except ContextError AgentMutationFence × FenceStore :=
  match call.state with
  | .active => installAgentMutationFence nodeId store call.request call.now
  | .retired => retireAgentMutationFence nodeId store call.request call.now

/-- The conditions under which a call on `nodeId` reaches its commit. -/
structure FenceCall.Writes (nodeId : Text) (store : FenceStore) (call : FenceCall) : Prop where
  valid : FenceRequestValid nodeId call.request
  storable : Storable store call.request call.state call.now
  readable : ∀ row, store.fences[call.request.agentId]? = some row →
    row.proofExpiresAt.hasFourDigitYear ∧ row.installedAt.hasFourDigitYear
  installs : call.state = .active → call.now < call.request.proofExpiresAt ∧
    (∃ horizon, call.now.checkedAddSigned
        (seconds (maxOwnershipLeaseTtlSeconds + maxDestinationProofClockSkewSeconds)) =
          some horizon ∧ call.request.proofExpiresAt ≤ horizon) ∧
    ∀ previous, store.fences[call.request.agentId]? = some previous →
      Supersedes previous call.request
  retires : call.state = .retired →
    ∃ previous, store.fences[call.request.agentId]? = some previous ∧
      isExactActive previous call.request

/-- The instants that a call stores can be read back. -/
def FenceCall.Readable (call : FenceCall) : Prop :=
  call.request.proofExpiresAt.hasFourDigitYear ∧ call.now.hasFourDigitYear

section Calls

variable {nodeId : Text} {store : FenceStore} {request : MutationFenceRequest}

theorem admitFenceCall_eq_ok {u : Unit} :
    admitFenceCall nodeId request = .ok u ↔ FenceRequestValid nodeId request := by
  simp only [admitFenceCall, validateMutationFenceInput, bind_eq_ok, rejectIf_eq_ok,
    validateText_eq_ok, validateReason_eq_ok, exists_and_left, exists_const,
    Bool.not_eq_false, ne_eq, not_not]
  constructor
  · rintro ⟨⟨hag, hc, ho, hterm, hg, ht, ha, hr⟩, hnode⟩
    exact ⟨hag, hc, ho, hterm, hg, ht, ha, hr, hnode⟩
  · rintro ⟨hag, hc, ho, hterm, hg, ht, ha, hr, hnode⟩
    exact ⟨⟨hag, hc, ho, hterm, hg, ht, ha, hr⟩, hnode⟩

theorem loadMutationFence_eq_ok {agentId : Text} {loaded : Option AgentMutationFence} :
    loadMutationFence store agentId = .ok loaded ↔ store.fences[agentId]? = loaded ∧
      ∀ row, loaded = some row →
        row.proofExpiresAt.hasFourDigitYear ∧ row.installedAt.hasFourDigitYear := by
  unfold loadMutationFence
  cases store.fences[agentId]? with
  | none =>
    rw [pure_eq_ok]
    constructor
    · rintro rfl
      exact ⟨rfl, fun row hrow => absurd hrow (by simp)⟩
    · exact And.left
  | some row =>
    simp only [bind_eq_ok, parseTimestamp_eq_ok, pure_eq_ok]
    constructor
    · rintro ⟨_, ⟨hp, rfl⟩, _, ⟨hi, rfl⟩, rfl⟩
      refine ⟨rfl, fun row' h => ?_⟩
      obtain rfl := Option.some.inj h
      exact ⟨hp, hi⟩
    · rintro ⟨rfl, hr⟩
      obtain ⟨hp, hi⟩ := hr row rfl
      exact ⟨_, ⟨hp, rfl⟩, _, ⟨hi, rfl⟩, rfl⟩

theorem compareInstalled_eq_ok_none {prev : AgentMutationFence} :
    compareInstalled prev request = .ok none ↔ Supersedes prev request := by
  unfold compareInstalled
  simp only [bind_eq_ok, rejectIf_eq_ok, exists_and_left, exists_const, not_or, ne_eq, not_not,
    not_lt, not_and, not_le]
  split
  · next hsame =>
    simp only [pure_eq_ok, reduceCtorEq, and_false, false_iff]
    intro h
    exact (h.legacy hsame.1).1 hsame.2
  · next hsame =>
    simp only [bind_eq_ok, rejectIf_eq_ok, exists_and_left, exists_const, pure_eq_ok,
      not_and, not_not, not_le, and_true]
    constructor
    · rintro ⟨⟨hc, ho⟩, ⟨hterm, ht, hg⟩, hf, hl, hn⟩
      exact ⟨hc, ho, hterm, ht, hg, hf, fun h => ⟨fun heq => hsame ⟨h, heq⟩, hl h⟩, hn⟩
    · rintro ⟨hc, ho, hterm, ht, hg, hf, hl, hn⟩
      exact ⟨⟨hc, ho⟩, ⟨hterm, ht, hg⟩, hf, fun h => (hl h).2, hn⟩

variable {state : AgentMutationFenceState} {now : DateTime}

theorem writeMutationFence_eq_ok {store' : FenceStore} :
    writeMutationFence store request state now = .ok store' ↔
      ∃ h : Storable store request state now, store.put request state now h.unique = store' := by
  simp only [writeMutationFence, sqliteGeneration, bind_eq_ok, rejectIf_eq_ok, exists_and_left,
    exists_const, not_lt, ne_eq, not_not]
  constructor
  · rintro ⟨hterm, hg, ht, ha, hc, ho, hput⟩
    split at hput
    · next hu =>
      rw [pure_eq_ok] at hput
      exact ⟨⟨hterm, hg, ht, ha, hc, ho, hu⟩, hput⟩
    · cases hput
  · rintro ⟨⟨hterm, hg, ht, ha, hc, ho, hu⟩, hput⟩
    refine ⟨hterm, hg, ht, ha, hc, ho, ?_⟩
    rw [dif_pos hu, pure_eq_ok]
    exact hput

/-- A storable record is committed, and read back if its instants can be read. -/
theorem commitFence_of_storable (ha : isUuid request.agentId = true)
    (h : Storable store request state now) (disappeared : String) :
    (commitFence store request state now disappeared).2 = store.put request state now h.unique ∧
      (isOk (commitFence store request state now disappeared).1 = true ↔
        request.proofExpiresAt.hasFourDigitYear ∧ now.hasFourDigitYear) := by
  have hw := writeMutationFence_eq_ok.2 ⟨h, rfl⟩
  have hl : (store.put request state now h.unique).fences[request.agentId]? =
      some (request.fence state now) := OrdMap.lookup_insert_self _ _ _
  rw [commitFence, hw]
  refine ⟨rfl, ?_⟩
  simp only [isOk_iff, agentMutationFence, bind_eq_ok, rejectIf_eq_ok, exists_and_left,
    exists_const, orReject_eq_ok, loadMutationFence_eq_ok, hl, ha]
  constructor
  · rintro ⟨fence, loaded, ⟨-, rfl, hr⟩, -⟩
    exact hr _ rfl
  · intro hr
    refine ⟨_, _, ⟨by simp, rfl, fun row hrow => ?_⟩, rfl⟩
    obtain rfl := Option.some.inj hrow
    exact hr

theorem commitFence_of_not_storable (h : ¬ Storable store request state now)
    (disappeared : String) : (commitFence store request state now disappeared).2 = store := by
  unfold commitFence
  cases hw : writeMutationFence store request state now with
  | error error => rfl
  | ok store' =>
    obtain ⟨hs, -⟩ := writeMutationFence_eq_ok.1 hw
    exact absurd hs h

theorem checkInstall_eq_ok_none :
    checkInstall nodeId store request now = .ok none ↔ FenceRequestValid nodeId request ∧
        (∀ row, store.fences[request.agentId]? = some row →
          row.proofExpiresAt.hasFourDigitYear ∧ row.installedAt.hasFourDigitYear) ∧
        now < request.proofExpiresAt ∧
        (∃ ho, now.checkedAddSigned
            (seconds (maxOwnershipLeaseTtlSeconds + maxDestinationProofClockSkewSeconds)) =
              some ho ∧ request.proofExpiresAt ≤ ho) ∧
        ∀ prev, store.fences[request.agentId]? = some prev → Supersedes prev request := by
  simp only [checkInstall, bind_eq_ok, admitFenceCall_eq_ok, rejectIf_eq_ok, orReject_eq_ok,
    exists_and_left, exists_const, not_le, not_lt, loadMutationFence_eq_ok]
  constructor
  · rintro ⟨hv, hnow, ho, hh, hle, loaded, ⟨rfl, hr⟩, hc⟩
    refine ⟨hv, hr, hnow, ⟨ho, hh, hle⟩, fun prev hp => ?_⟩
    rw [hp] at hc
    exact compareInstalled_eq_ok_none.1 hc
  · rintro ⟨hv, hr, hnow, ⟨ho, hh, hle⟩, hs⟩
    refine ⟨hv, hnow, ho, hh, hle, _, ⟨rfl, hr⟩, ?_⟩
    cases hp : store.fences[request.agentId]? with
    | none => rfl
    | some prev => exact compareInstalled_eq_ok_none.2 (hs prev hp)

theorem checkRetire_eq_ok {u : Unit} :
    checkRetire nodeId store request = .ok u ↔ FenceRequestValid nodeId request ∧
        ∃ prev, store.fences[request.agentId]? = some prev ∧
          prev.proofExpiresAt.hasFourDigitYear ∧ prev.installedAt.hasFourDigitYear ∧
          isExactActive prev request := by
  simp only [checkRetire, bind_eq_ok, admitFenceCall_eq_ok, rejectIf_eq_ok, orReject_eq_ok,
    exists_and_left, exists_const, not_not, loadMutationFence_eq_ok]
  constructor
  · rintro ⟨hv, loaded, ⟨rfl, hr⟩, prev, hp, he⟩
    obtain ⟨hpr, hi⟩ := hr prev hp
    exact ⟨hv, prev, hp, hpr, hi, he⟩
  · rintro ⟨hv, prev, hp, hpr, hi, he⟩
    refine ⟨hv, _, ⟨rfl, fun row hrow => ?_⟩, prev, hp, he⟩
    obtain rfl := Option.some.inj (hp.symm.trans hrow)
    exact ⟨hpr, hi⟩

variable {call : FenceCall}

/-- A call whose checks pass commits, and succeeds if its instants can be read back. -/
theorem FenceCall.Writes.spec (h : call.Writes nodeId store) :
    (fenceCall nodeId store call).2 = store.put call.request call.state call.now h.storable.unique ∧
      (isOk (fenceCall nodeId store call).1 = true ↔ call.Readable) := by
  obtain ⟨state, request, now⟩ := call
  have hcommit := commitFence_of_storable h.valid.agent h.storable
  cases state with
  | active =>
    obtain ⟨hnow, hh, hs⟩ := h.installs rfl
    have hc : checkInstall nodeId store request now = .ok none :=
      checkInstall_eq_ok_none.2 ⟨h.valid, h.readable, hnow, hh, hs⟩
    simp only [fenceCall, installAgentMutationFence, hc]
    exact hcommit _
  | retired =>
    obtain ⟨prev, hp, he⟩ := h.retires rfl
    have hr := h.readable prev hp
    have hc : checkRetire nodeId store request = .ok () :=
      checkRetire_eq_ok.2 ⟨h.valid, prev, hp, hr.1, hr.2, he⟩
    simp only [fenceCall, retireAgentMutationFence, hc]
    exact hcommit _

/-- Every other call leaves the tables alone. -/
theorem fenceCall_of_not_writes (h : ¬ call.Writes nodeId store) :
    (fenceCall nodeId store call).2 = store := by
  obtain ⟨state, request, now⟩ := call
  cases state with
  | active =>
    simp only [fenceCall, installAgentMutationFence]
    cases hc : checkInstall nodeId store request now with
    | error error => rfl
    | ok installed =>
      cases installed with
      | some prev => rfl
      | none =>
        obtain ⟨hv, hr, hin⟩ := checkInstall_eq_ok_none.1 hc
        apply commitFence_of_not_storable
        intro hs
        exact h ⟨hv, hs, hr, fun _ => hin, nofun⟩
  | retired =>
    simp only [fenceCall, retireAgentMutationFence]
    cases hc : checkRetire nodeId store request with
    | error error => rfl
    | ok u =>
      obtain ⟨hv, prev, hp, hpr, hi, he⟩ :=
        checkRetire_eq_ok.1 hc
      apply commitFence_of_not_storable
      intro hs
      refine h ⟨hv, hs, fun row hrow => ?_, nofun, fun _ => ⟨prev, hp, he⟩⟩
      obtain rfl := Option.some.inj (hp.symm.trans hrow)
      exact ⟨hpr, hi⟩

end Calls

/-! ## What one call preserves -/

/-- What holds between an earlier and a later record of one agent. -/
structure AgentMutationFence.Forward (earlier later : AgentMutationFence) : Prop where
  term : earlier.authorityTerm ≤ later.authorityTerm
  token : earlier.fencingToken ≤ later.fencingToken
  generation : earlier.authorityGeneration ≤ later.authorityGeneration
  newer : earlier.authorityTerm < later.authorityTerm ∨
      earlier.fencingToken < later.fencingToken →
    earlier.authorityGeneration < later.authorityGeneration
  fenced : earlier.state = .retired → later.state = .active →
    earlier.fencingToken < later.fencingToken
  /-- A revision that stays active keeps its record, unless its proof was a legacy one. -/
  proof : earlier.authorityTerm = later.authorityTerm →
    earlier.fencingToken = later.fencingToken →
    earlier.authorityGeneration = later.authorityGeneration →
    earlier.state = .active → later.state = .active →
    later = earlier ∨ earlier.proofExpiresAt = earlier.installedAt

namespace AgentMutationFence

variable {fence earlier middle later : AgentMutationFence}

theorem Forward.refl (fence : AgentMutationFence) : fence.Forward fence where
  term := le_rfl
  token := le_rfl
  generation := le_rfl
  newer h := by omega
  fenced hr ha := absurd (hr.symm.trans ha) (by simp)
  proof _ _ _ _ _ := .inl rfl

theorem Forward.trans (h : earlier.Forward middle) (h' : middle.Forward later) :
    earlier.Forward later := by
  have hterm := h.term
  have hterm' := h'.term
  have ht := h.token
  have ht' := h'.token
  have hg := h.generation
  have hg' := h'.generation
  refine ⟨by omega, by omega, by omega, ?_, ?_, ?_⟩
  · intro hlt
    have hn := h.newer
    have hn' := h'.newer
    omega
  · intro hr ha
    cases hm : middle.state with
    | active =>
      have := h.fenced hr hm
      omega
    | retired =>
      have := h'.fenced hm ha
      omega
  · intro heqT heT heG ha ha'
    -- the revision in between is the same one, and it cannot have been retired
    have hm : middle.state = .active := by
      cases hs : middle.state with
      | active => rfl
      | retired =>
        have := h'.fenced hs ha'
        omega
    rcases h.proof (by omega) (by omega) (by omega) ha hm with rfl | hl
    · exact h'.proof (by omega) (by omega) (by omega) ha ha'
    · exact .inr hl

end AgentMutationFence

variable {row : AgentMutationFence}

/-- A record that a call replaces is behind the one that it stores. -/
theorem FenceCall.Writes.forward {nodeId : Text} {store : FenceStore} {call : FenceCall}
    (h : call.Writes nodeId store) (hrow : store.fences[call.request.agentId]? = some row) :
    row.Forward (call.request.fence call.state call.now) := by
  cases hst : call.state with
  | active =>
    obtain ⟨-, -, hs⟩ := h.installs hst
    obtain ⟨-, -, hterm, ht, hg, hf, hl, hn⟩ := hs row hrow
    refine ⟨hterm, ht, hg, hn, fun hr _ => hf hr, ?_⟩
    intro heqT heT heG ha _
    exact .inr (hl ⟨heqT.symm, heT.symm, heG.symm, ha⟩).2
  | retired =>
    obtain ⟨prev, hp, -, -, hterm, hg, ht, -, ha⟩ :=
      h.retires hst
    obtain rfl := Option.some.inj (hp.symm.trans hrow)
    refine ⟨hterm.le, ht.le, hg.le, ?_, ?_, ?_⟩
    · rintro (hlt | hlt)
      · exact absurd hterm hlt.ne
      · exact absurd ht hlt.ne
    · intro hr _
      exact absurd (ha.symm.trans hr) (by simp)
    · intro _ _ _ _ hlapse
      cases hlapse

theorem fenceCall_forward (nodeId : Text) (store : FenceStore) (call : FenceCall) {agentId : Text}
    (hrow : store.fences[agentId]? = some row) :
    ∃ row', (fenceCall nodeId store call).2.fences[agentId]? = some row' ∧ row.Forward row' := by
  by_cases h : call.Writes nodeId store
  · rw [h.spec.1]
    by_cases ha : call.request.agentId = agentId
    · subst ha
      exact ⟨_, OrdMap.lookup_insert_self _ _ _, h.forward hrow⟩
    · exact ⟨row, (OrdMap.lookup_insert_ne _ _ ha).trans hrow, .refl row⟩
  · rw [fenceCall_of_not_writes h]
    exact ⟨row, hrow, .refl row⟩

/-- A failed call leaves the tables alone exactly when it stores nothing unreadable. -/
theorem fenceCall_failed_iff (nodeId : Text) (store : FenceStore) (call : FenceCall) :
    (isOk (fenceCall nodeId store call).1 = false → (fenceCall nodeId store call).2 = store) ↔
      (call.Writes nodeId store → call.Readable) := by
  by_cases h : call.Writes nodeId store
  · obtain ⟨hs, hok⟩ := h.spec
    have hc : (fenceCall nodeId store call).2 ≠ store := by
      intro heq
      have hl := congrArg (fun store => store.audit.length) (hs.symm.trans heq)
      simp [FenceStore.put] at hl
    constructor
    · intro hfa _
      apply hok.1
      rw [← Bool.not_eq_false]
      exact fun hf => hc (hfa hf)
    · intro hr hf
      exact absurd (hok.2 (hr h)) (by simp [hf])
  · exact ⟨fun _ hw => absurd hw h, fun _ _ => fenceCall_of_not_writes h⟩

/-! ## Sequences of calls -/

/-- The tables after a sequence of calls on one node. -/
def runFences (nodeId : Text) (store : FenceStore) (calls : List FenceCall) : FenceStore :=
  run (fun store call => (fenceCall nodeId store call).2) store calls

/-- Whatever a node stores for an agent, it stores something ahead of it after more calls. -/
theorem runFences_forward (nodeId : Text) {store : FenceStore} (cs : List FenceCall)
    {agentId : Text} (hrow : store.fences[agentId]? = some row) :
    ∃ row', (runFences nodeId store cs).fences[agentId]? = some row' ∧ row.Forward row' := by
  refine run_invariant
    (P := fun later : FenceStore => ∃ row', later.fences[agentId]? = some row' ∧ row.Forward row')
    ⟨row, hrow, .refl row⟩ ?_ cs
  rintro later call ⟨row', hrow', hf⟩
  obtain ⟨row'', hrow'', hf'⟩ := fenceCall_forward nodeId later call hrow'
  exact ⟨row'', hrow'', hf.trans hf'⟩

/-- Between any two points of a sequence of calls the record of every agent moves forward, and a
call that fails changes nothing. -/
structure FencesMoveForward (nodeId : Text) (store : FenceStore) (calls : List FenceCall) :
    Prop where
  forward : ∀ pre mid post, calls = pre ++ mid ++ post → ∀ (agentId : Text) row,
    (runFences nodeId store pre).fences[agentId]? = some row →
      ∃ row', (runFences nodeId store (pre ++ mid)).fences[agentId]? = some row' ∧
        row.Forward row'
  failed : EachAfter (fun pre call =>
    isOk (fenceCall nodeId (runFences nodeId store pre) call).1 = false →
      runFences nodeId store (pre ++ [call]) = runFences nodeId store pre) calls

/-- Fences move forward along every sequence of calls that stores no unreadable instant, and along
no other. -/
theorem fencesMoveForward_iff (nodeId : Text) (store : FenceStore) (calls : List FenceCall) :
    FencesMoveForward nodeId store calls ↔
      EachAfter (fun pre call =>
        call.Writes nodeId (runFences nodeId store pre) → call.Readable) calls := by
  have hfailed : EachAfter (fun pre call =>
      isOk (fenceCall nodeId (runFences nodeId store pre) call).1 = false →
        runFences nodeId store (pre ++ [call]) = runFences nodeId store pre) calls ↔
      EachAfter (fun pre call =>
        call.Writes nodeId (runFences nodeId store pre) → call.Readable) calls := by
    have hstep : ∀ pre call,
        runFences nodeId store (pre ++ [call]) =
          (fenceCall nodeId (runFences nodeId store pre) call).2 :=
      fun pre call => run_snoc _ _ _ _
    simp only [EachAfter, hstep, fenceCall_failed_iff]
  rw [← hfailed]
  refine ⟨FencesMoveForward.failed, fun h => ⟨?_, h⟩⟩
  intro pre mid post _ agentId row hrow
  have happend : runFences nodeId store (pre ++ mid) =
      runFences nodeId (runFences nodeId store pre) mid := run_append _ _ _ _
  rw [happend]
  exact runFences_forward nodeId mid hrow

/-- An installation one second before the year 10000, with a proof that expires in that year. -/
def lateInstallation : FenceCall where
  state := .active
  request := ⟨Sample.uuid 'a', Sample.uuid 'c', Sample.uuid 'b', 1, 1, 1,
    ⟨253402300804 * nanosPerSecond, by decide⟩, ['o'], ['r']⟩
  now := ⟨253402300799 * nanosPerSecond, by decide⟩

set_option maxRecDepth 10000 in
/-- The late installation stores its record and then reports an error. -/
theorem lateInstallation_fails :
    (fenceCall (Sample.uuid 'b') .empty lateInstallation).1 =
        .error (storageError "invalid cluster timestamp: input contains invalid characters") ∧
      FenceStore.empty.fences[Sample.uuid 'a']? = none ∧
      (fenceCall (Sample.uuid 'b') .empty lateInstallation).2.fences[Sample.uuid 'a']? =
        some (lateInstallation.request.fence .active lateInstallation.now) ∧
      ¬ FencesMoveForward (Sample.uuid 'b') .empty [lateInstallation] := by
  refine ⟨by decide +kernel, by decide +kernel, by decide +kernel, fun h => ?_⟩
  have hsame := h.failed [] lateInstallation [] rfl (by decide +kernel)
  have hlength := congrArg (fun store => store.audit.length) hsame
  revert hlength
  decide +kernel

end AgentOS
