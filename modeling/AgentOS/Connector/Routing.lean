import AgentOS.Connector.Failover

/-!
# What a resilient send may do

Three facts about every send of every interleaving. The messages reach only providers of the
failover chain that the primary's routing policy admits and that the replay state names. An attempt
that published output, or that was cancelled or filtered, is the last one. And the attempt counter
of a session stays within the number of attempts that quota was reserved for, provided that the
sessions of the providers stay within their own worst case.

Each fact is an invariant of single sends. `Moves` lists what one action can do to a send, and
`Tried` what one attempt can be and where it leads.
-/

namespace AgentOS

open Lib

/-! ## The failover chain -/

namespace AgentConnector

variable (connector : AgentConnector)

theorem extendChain_head (rds : Nat) (prim : ProviderId) (links : List ProviderId)
    (cur : ProviderId) :
    ∃ links', connector.extendChain rds (prim :: links) cur = prim :: links' := by
  induction rds generalizing links cur with
  | zero => exact ⟨links, rfl⟩
  | succ rds ih =>
    rw [extendChain]
    split
    · exact ⟨links, rfl⟩
    · split
      · exact ⟨links, rfl⟩
      · exact ih (links ++ [_]) _

/-- The chain starts with the primary. -/
theorem eq_primary_of_index_zero {prim id : ProviderId}
    (h : (id, 0) ∈ (connector.failoverChain prim).zipIdx) : id = prim := by
  obtain ⟨links, hl⟩ := connector.extendChain_head connector.providers.size prim [] prim
  rw [failoverChain, hl, List.mem_zipIdx_iff_getElem?] at h
  simpa using h.symm

variable (ids : List ProviderId)

/-- The worst case of the first links of a chain. -/
def budgetOf : Nat :=
  ids.foldl (fun total id => saturatingAdd32 total (connector.attemptBudget id)) 0

theorem budgetOf_snoc (id : ProviderId) :
    connector.budgetOf (ids ++ [id]) =
      saturatingAdd32 (connector.budgetOf ids) (connector.attemptBudget id) := by
  simp [budgetOf]

theorem budgetOf_le_append (ids more : List ProviderId) (h : connector.budgetOf ids ≤ u32Max) :
    connector.budgetOf ids ≤ connector.budgetOf (ids ++ more) ∧
      connector.budgetOf (ids ++ more) ≤ u32Max := by
  induction more using List.reverseRecOn with
  | nil => simpa using h
  | append_singleton =>
    rw [← List.append_assoc, budgetOf_snoc]
    unfold saturatingAdd32
    omega

theorem budgetOf_le_max : connector.budgetOf ids ≤ u32Max :=
  (connector.budgetOf_le_append [] ids (Nat.zero_le _)).2

theorem budgetOf_mono (ids more : List ProviderId) :
    connector.budgetOf ids ≤ connector.budgetOf (ids ++ more) :=
  (connector.budgetOf_le_append ids more (connector.budgetOf_le_max ids)).1

theorem budgetOf_chain_le (prim : ProviderId) :
    connector.budgetOf (connector.failoverChain prim) ≤ connector.providerAttemptBudget prim :=
  Nat.le_trans (Nat.le_max_left _ _) (Nat.le_max_left _ _)

end AgentConnector

/-! ## What one action does -/

namespace Phase

/-- The links of the chain that the send has not left behind. -/
def ahead : Phase → List (ProviderId × Nat)
  | .selecting rest _ => rest
  | .calling call => (call.providerId, call.index) :: call.rest
  | .returned _ rest _ => rest
  | .tripping _ rest _ _ => rest
  | .closing _ => []
  | .finished _ => []

/-- Further attempts may follow. -/
def mayAttempt : Phase → Bool
  | .selecting _ _ | .calling _ | .tripping _ _ _ _ => true
  | .returned _ _ (.error e) => !endsFailover e
  | .returned _ _ (.ok _) | .closing _ | .finished _ => false

end Phase

/-- The attempt published output, or ended cancelled or filtered. -/
def Attempt.isFinal (attempt : Attempt) : Prop :=
  attempt.published ≠ [] ∨
    ∃ e, attempt.result = some (.error e) ∧ isCancelledOrFiltered e = true

namespace Send

variable (connector : AgentConnector)

/-- The checks that `select` makes have passed. -/
structure Admitted (request : SendRequest) (call : Call) : Prop where
  registered : connector.providers[call.providerId]? = some call.adapter
  compatible : providerIsCompatible (connector.primaryType request.primary) call.adapter
    request.tools (connector.routingPolicy request.primary) (call.index == 0) = true

/-- What one attempt on `call` can be, and where it leads. -/
inductive Tried (request : SendRequest) (call : Call) : Attempt → Phase → Prop where
  | lost : Tried request call (unsent call none none) (.finished none)
  | refused (e : ConnectorError) :
      Tried request call (unsent call none (some e)) (afterError call e)
  | rejected (modelId : Text) {e : ConnectorError} (h : endsFailover e = false) :
      Tried request call (unsent call (some modelId) (some e))
        (.returned call.providerId call.rest (.error e))
  | sent (session : SessionScript)
      (h : ReplayableBy call.adapter.id session.modelId request.messages) :
      Tried request call (sent request call session)
        (afterAnswer call session.modelId (seenResult request session))

/-- What one action can do to a send. -/
inductive Moves (send : Send) : Send → Prop where
  | idle : Moves send send
  | skip {link : ProviderId × Nat} {rest : List (ProviderId × Nat)}
      {lastErr : Option ConnectorError} (e : ConnectorError)
      (h : send.phase = .selecting (link :: rest) lastErr) :
      Moves send { send with phase := .selecting rest (some e) }
  | contact (call : Call) {lastErr : Option ConnectorError}
      (h : send.phase = .selecting ((call.providerId, call.index) :: call.rest) lastErr)
      (hadmitted : Admitted connector send.request call) (hfirst : call.attempt = 0) :
      Moves send { send with phase := .calling call }
  | attempt {call : Call} {attempt : Attempt} {phase : Phase} {total : Nat} {stored : List Nat}
      {degradation : Option ProviderToolDegradation} (h : send.phase = .calling call)
      (hallowed : call.attempt < maxAttempts connector send.request)
      (htried : Tried send.request call attempt phase)
      (hcount : total = saturatingAdd32 send.totalAttempts 1 ∨
        total = saturatingAdd32 send.totalAttempts (attempt.reported.getD 1))
      (hstored : ∀ n ∈ stored, n ∈ send.stored ∨ n = total ∨
        n = saturatingAdd32 send.totalAttempts 1) :
      Moves send
        { request := send.request, phase, totalAttempts := total, stored
          toolDegradation := degradation
          attempts := send.attempts ++ [attempt] }
  | giveUp {call : Call} (phase : Phase) (h : send.phase = .calling call)
      (hphase : phase = .finished none ∨
        ∃ e, phase = .returned call.providerId call.rest (.error e)) :
      Moves send { send with phase }
  | resume {id : ProviderId} {rest : List (ProviderId × Nat)} {e : ConnectorError}
      (phase : Phase) (h : send.phase = .returned id rest (.error e))
      (hopen : endsFailover e = false)
      (hphase : phase = .selecting rest (some e) ∨ ∃ n, phase = .tripping id rest e n) :
      Moves send { send with phase }
  | tripped {id : ProviderId} {rest : List (ProviderId × Nat)} {e : ConnectorError} {n : Nat}
      (h : send.phase = .tripping id rest e n) :
      Moves send { send with phase := .selecting rest (some e) }
  | finish (phase : Phase) (hphase : phase.ahead = []) (hend : phase.mayAttempt = false) :
      Moves send { send with phase }

variable {connector} {send : Send} {call : Call}

variable (shared : Breakers)

theorem select_moves {id : ProviderId} {i : Nat} {rest : List (ProviderId × Nat)}
    {lastErr : Option ConnectorError} (h : send.phase = .selecting ((id, i) :: rest) lastErr) :
    Moves connector send (select connector shared send id i rest).2 := by
  rw [select]
  split
  · exact .skip _ h
  · next adapter ha =>
    split
    · next hc =>
      split
      · exact .contact ⟨id, i, adapter, rest, 0, none⟩ h ⟨ha, hc⟩ rfl
      · exact .skip _ h
    · exact .skip _ h

/-- A value that `count` stores. -/
theorem mem_stored_count {total n : Nat} (h : n ∈ (send.count total).stored) :
    n ∈ send.stored ∨ n = total := by
  unfold count at h
  dsimp only at h
  split at h
  · simpa using h
  · exact .inl h

theorem stored_count (m total : Nat) :
    ∀ n ∈ (send.count total).stored, n ∈ send.stored ∨ n = m ∨ n = total := by
  intro n hn
  rcases mem_stored_count hn with hn | rfl
  · exact .inl hn
  · exact .inr (.inr rfl)

/-- Replay state that names another provider does not end the failover. -/
theorem endsFailover_of_validateProviderHistory {msgs : List StandardMessage}
    {provider : ProviderId} {model : Text} {e : ConnectorError}
    (h : validateProviderHistory msgs provider model = .error e) : endsFailover e = false := by
  rw [validateProviderHistory, rejectIf] at h
  split at h
  · cases h
    rfl
  · cases h

theorem exchange_moves {sess : SessionScript} (h : send.phase = .calling call)
    (ha : call.attempt < maxAttempts connector send.request) :
    Moves connector send
      ((send.count (saturatingAdd32 send.totalAttempts 1)).exchange call send.totalAttempts
        sess) := by
  rw [exchange]
  split
  · exact .attempt h ha (.rejected sess.modelId rfl) (.inl rfl) (stored_count _ _)
  · split
    · next e he =>
      exact .attempt h ha
        (.rejected sess.modelId (endsFailover_of_validateProviderHistory he)) (.inl rfl)
        (stored_count _ _)
    · next hv =>
      have hr := validateProviderHistory_eq_ok.1 hv
      unfold countAnswer
      split
      · exact .attempt h ha (.sent sess hr) (.inl rfl) (stored_count _ _)
      · -- the session answered, so the counter is written a second time
        refine .attempt h ha (.sent sess hr) (.inr rfl) ?_
        intro n hn
        rcases mem_stored_count hn with hn | rfl
        · exact stored_count _ _ n hn
        · exact .inr (.inl rfl)

theorem tryOnce_moves (scr : AttemptScript) (h : send.phase = .calling call)
    (ha : call.attempt < maxAttempts connector send.request) :
    Moves connector send (send.tryOnce call scr) := by
  rw [tryOnce]
  split
  · exact .attempt h ha .lost (.inl rfl) (stored_count _ _)
  · next e _ => exact .attempt h ha (.refused e) (.inl rfl) (stored_count _ _)
  · exact exchange_moves h ha

theorem attemptOnce_moves (scr : AttemptScript) (h : send.phase = .calling call) :
    Moves connector send (attemptOnce connector send call scr) := by
  rw [attemptOnce]
  split
  · exact .giveUp _ h (.inr ⟨_, rfl⟩)
  · next ha =>
    split
    · exact tryOnce_moves scr h (Nat.lt_of_not_le ha)
    · split
      · exact tryOnce_moves scr h (Nat.lt_of_not_le ha)
      · exact .giveUp _ h (.inr ⟨_, rfl⟩)
      · exact .giveUp _ h (.inl rfl)

theorem settle_moves {id : ProviderId} {rest : List (ProviderId × Nat)}
    {r : Except ConnectorError (LlmResponse × Text)} (h : send.phase = .returned id rest r) :
    Moves connector send (settle shared send id rest r).2 := by
  cases r with
  | ok =>
    rw [settle]
    split
    · exact .finish _ rfl rfl
    · exact .finish _ rfl rfl
  | error e =>
    rw [settle]
    split
    · exact .finish _ rfl rfl
    · next hopen =>
      have hopen : endsFailover e = false := by simpa using hopen
      split
      · split
        · exact .resume _ h hopen (.inl rfl)
        · exact .resume _ h hopen (.inr ⟨_, rfl⟩)
      · exact .resume _ h hopen (.inl rfl)

theorem act_moves (send : Send) (scr : AttemptScript) :
    Moves connector send (act connector shared send scr).2 := by
  rw [act]
  split
  · exact .finish _ rfl rfl
  · next h => exact select_moves shared h
  · next h => exact attemptOnce_moves scr h
  · next h => exact settle_moves shared h
  · exact .finish _ rfl rfl
  · next h => exact .tripped h
  · exact .idle

/-! ## Who receives the messages -/

variable (connector)

/-- The provider of an attempt may be given these messages of the request. -/
structure MayReceive (request : SendRequest) (attempt : Attempt)
    (messages : List StandardMessage) : Prop where
  content : messages = request.messages ∨
    messages = StandardMessage.system (renderToolsPrompt request.tools) :: request.messages
  chain : attempt.adapter.id ∈ connector.failoverChain request.primary
  registered : connector.providers[attempt.adapter.id]? = some attempt.adapter
  region : ∀ required, (connector.routingPolicy request.primary).requiredRegion = some required →
    ∃ region ∈ attempt.adapter.capabilities.dataRegions, eqIgnoreAsciiCase region required = true
  local_to_cloud : attempt.adapter.id ≠ request.primary →
    connector.primaryType request.primary = .localProvider →
    attempt.adapter.providerType = .cloudProvider →
    (connector.routingPolicy request.primary).allowLocalToCloud = true
  tools : attempt.adapter.id ≠ request.primary → request.tools ≠ [] →
    attempt.adapter.capabilities.toolCalls = true
  replay : ∃ model, attempt.modelId = some model ∧
    ReplayableBy attempt.adapter.id model messages

/-- What a send carries along for the routing result: the links ahead are links of the chain, the
provider it is calling was admitted, and the messages went to admitted providers only. -/
structure Routed (send : Send) : Prop where
  ahead : ∀ link ∈ send.phase.ahead,
    link ∈ (connector.failoverChain send.request.primary).zipIdx
  admitted : ∀ call, send.phase = .calling call → Admitted connector send.request call
  handed : ∀ attempt ∈ send.attempts, ∀ messages tools, attempt.handed = some (messages, tools) →
    MayReceive connector send.request attempt messages

variable {connector}

/-- The conditions that `provider_is_compatible` tests. -/
theorem providerIsCompatible_eq_true {primaryType : ProviderType} {cand : Adapter}
    {ts : List ToolDefinition} {pol : ProviderRoutingPolicy} {isPrimary : Bool}
    (h : providerIsCompatible primaryType cand ts pol isPrimary = true) :
    (isPrimary = false → ts ≠ [] → cand.capabilities.toolCalls = true) ∧
      (isPrimary = false → primaryType = .localProvider →
        cand.providerType = .cloudProvider → pol.allowLocalToCloud = true) ∧
      ∀ required, pol.requiredRegion = some required → ∃ region ∈ cand.capabilities.dataRegions,
          eqIgnoreAsciiCase region required = true := by
  rw [providerIsCompatible] at h
  split at h
  · cases h
  · next ht =>
    split at h
    · cases h
    · next hl =>
      refine ⟨?_, ?_, ?_⟩
      · intro hb hne
        simpa [hb, hne] using ht
      · intro hb hp hc
        simpa [hb, hp, hc] using hl
      · intro required hr
        rw [hr] at h
        exact List.any_eq_true.1 h

variable {request : SendRequest}

/-- An admitted provider of the chain may receive what its session was given. -/
theorem Admitted.mayReceive {sess : SessionScript} (ha : Admitted connector request call)
    (hlink : (call.providerId, call.index) ∈ (connector.failoverChain request.primary).zipIdx)
    (hr : ReplayableBy call.adapter.id sess.modelId request.messages) {msgs : List StandardMessage}
    {ts : List ToolDefinition} (hh : (sent request call sess).handed = some (msgs, ts)) :
    MayReceive connector request (sent request call sess) msgs := by
  have hid : call.adapter.id = call.providerId := connector.registered _ _ ha.registered
  have hb : call.adapter.id ≠ request.primary → (call.index == 0) = false := by
    intro hne
    rw [beq_eq_false_iff_ne]
    intro hzero
    rw [hzero] at hlink
    exact hne (hid.trans (connector.eq_primary_of_index_zero hlink))
  obtain ⟨ht, hl, hre⟩ := providerIsCompatible_eq_true ha.compatible
  have hc : msgs = request.messages ∨ msgs =
      StandardMessage.system (renderToolsPrompt request.tools) :: request.messages := by
    have ho := Option.some.inj hh
    rw [SendRequest.outgoing] at ho
    split at ho
    · exact .inr (congrArg Prod.fst ho).symm
    · exact .inl (congrArg Prod.fst ho).symm
  refine ⟨hc, ?_, ?_, hre, fun hne => hl (hb hne), fun hne => ht (hb hne), sess.modelId, rfl, ?_⟩
  · show call.adapter.id ∈ _
    rw [hid]
    exact List.fst_mem_of_mem_zipIdx hlink
  · show connector.providers[call.adapter.id]? = some call.adapter
    rw [hid]
    exact ha.registered
  · rcases hc with rfl | rfl
    · exact hr
    · -- the description of the tools carries no replay state
      intro msg hm md hme
      rcases List.mem_cons.1 hm with rfl | hm
      · cases hme
      · exact hr msg hm md hme

variable {phase : Phase}

theorem Tried.handed {att : Attempt} (ht : Tried request call att phase)
    (ha : Admitted connector request call)
    (hlink : (call.providerId, call.index) ∈ (connector.failoverChain request.primary).zipIdx)
    (msgs : List StandardMessage) (ts : List ToolDefinition) (hh : att.handed = some (msgs, ts)) :
    MayReceive connector request att msgs := by
  cases ht with
  | lost | refused | rejected => cases hh
  | sent sess hr => exact ha.mayReceive hlink hr hh

/-- After an attempt the send is still on its provider or goes on with the links after it. -/
theorem afterError_cases (call : Call) (e : ConnectorError) :
    (isTransient e = true ∧ afterError call e =
        .calling { call with attempt := call.attempt + 1, lastErr := some e }) ∨
      (isTransient e = false ∧
        afterError call e = .returned call.providerId call.rest (.error e)) := by
  rw [afterError]
  cases isTransient e with
  | true => exact .inl ⟨rfl, rfl⟩
  | false => exact .inr ⟨rfl, rfl⟩

/-- Where an attempt can lead. -/
theorem Tried.phase_cases {attempt : Attempt} (ht : Tried request call attempt phase) :
    phase = .finished none ∨ (∃ r, phase = .returned call.providerId call.rest r) ∨
      ∃ e, phase = .calling { call with attempt := call.attempt + 1, lastErr := some e } := by
  have he : ∀ e, afterError call e = .finished none ∨
      (∃ r, afterError call e = .returned call.providerId call.rest r) ∨
      ∃ e', afterError call e =
        .calling { call with attempt := call.attempt + 1, lastErr := some e' } := by
    intro e
    rcases afterError_cases call e with ⟨-, h⟩ | ⟨-, h⟩
    · exact .inr (.inr ⟨e, h⟩)
    · exact .inr (.inl ⟨_, h⟩)
  cases ht with
  | lost => exact .inl rfl
  | refused e => exact he e
  | rejected => exact .inr (.inl ⟨_, rfl⟩)
  | sent =>
    rw [afterAnswer.eq_def]
    split
    · exact .inl rfl
    · exact .inr (.inl ⟨_, rfl⟩)
    · next e _ => exact he e

variable {send' : Send}

theorem Routed.moves (hr : Routed connector send) (hm : Moves connector send send') :
    Routed connector send' := by
  obtain ⟨hah, had, hh⟩ := hr
  cases hm with
  | idle => exact ⟨hah, had, hh⟩
  | skip e h =>
    rw [h] at hah
    exact ⟨fun link hlink => hah link (List.mem_cons_of_mem _ hlink), by simp, hh⟩
  | contact call h hcall =>
    rw [h] at hah
    refine ⟨hah, ?_, hh⟩
    rintro call' hcall'
    cases hcall'
    exact hcall
  | @attempt call attempt phase _ _ _ h hal ht hc hs =>
    have hlink := hah (call.providerId, call.index) (by rw [h]; exact List.mem_cons_self)
    have hrest : ∀ link ∈ call.rest,
        link ∈ (connector.failoverChain send.request.primary).zipIdx :=
      fun link hmem => hah link (by rw [h]; exact List.mem_cons_of_mem _ hmem)
    have hlog : ∀ a ∈ send.attempts ++ [attempt], ∀ msgs ts,
        a.handed = some (msgs, ts) → MayReceive connector send.request a msgs := by
      intro a ha
      rcases List.mem_append.1 ha with ha | ha
      · exact hh a ha
      · rw [List.mem_singleton.1 ha]
        exact ht.handed (had call h) hlink
    rcases ht.phase_cases with rfl | ⟨r, rfl⟩ | ⟨e, rfl⟩
    · exact ⟨by simp [Phase.ahead], by simp, hlog⟩
    · exact ⟨hrest, by simp, hlog⟩
    · refine ⟨?_, ?_, hlog⟩
      · intro link hmem
        rcases List.mem_cons.1 hmem with rfl | hmem
        · exact hlink
        · exact hrest link hmem
      · intro call' hcall'
        cases hcall'
        exact ⟨(had call h).registered, (had call h).compatible⟩
  | @giveUp call phase h hp =>
    rw [h] at hah
    rcases hp with rfl | ⟨e, rfl⟩
    · exact ⟨by simp [Phase.ahead], by simp, hh⟩
    · exact ⟨fun link hlink => hah link (List.mem_cons_of_mem _ hlink), by simp, hh⟩
  | resume phase h hopen hp =>
    rw [h] at hah
    rcases hp with rfl | ⟨n, rfl⟩
    · exact ⟨hah, by simp, hh⟩
    · exact ⟨hah, by simp, hh⟩
  | tripped h =>
    rw [h] at hah
    exact ⟨hah, by simp, hh⟩
  | finish phase hp hend =>
    refine ⟨by simp [hp], ?_, hh⟩
    intro call hcall
    have hcall : phase = .calling call := hcall
    rw [hcall] at hend
    cases hend

theorem routed_start (x : Input) : Routed connector (start connector shared x).2 := by
  obtain ⟨ha, -, -, -, hp⟩ := start_cases connector shared x
  rcases hp with ⟨r, hp⟩ | hp
  · exact ⟨by simp [hp, Phase.ahead], by simp [hp], by simp [ha]⟩
  · exact ⟨by rw [hp]; exact fun link hlink => hlink, by simp [hp], by simp [ha]⟩

/-! ## The last attempt -/

/-- No attempt so far was final while the send may make another one, and a final attempt is the
last. -/
structure Ended (send : Send) : Prop where
  pending : send.phase.mayAttempt = true → ∀ attempt ∈ send.attempts, ¬ attempt.isFinal
  last : ∀ before attempt after, send.attempts = before ++ attempt :: after → attempt.isFinal →
    after = []

theorem afterError_mayAttempt {e : ConnectorError} (h : endsFailover e = true) :
    (afterError call e).mayAttempt = false := by
  rcases afterError_cases call e with ⟨ht, -⟩ | ⟨-, hp⟩
  · rw [isTransient_of_endsFailover h] at ht
    cases ht
  · rw [hp, Phase.mayAttempt, h]
    rfl

/-- After a final attempt no further one is made. -/
theorem Tried.mayAttempt_of_final {att : Attempt} (ht : Tried request call att phase)
    (hf : att.isFinal) : phase.mayAttempt = false := by
  cases ht with
  | lost => rfl
  | refused =>
    rcases hf with hp | ⟨e', he', hend⟩
    · exact absurd rfl hp
    · cases he'
      exact afterError_mayAttempt (endsFailover_of_isCancelledOrFiltered hend)
  | @rejected modelId e hopen =>
    rcases hf with hp | ⟨e', he', hend⟩
    · exact absurd rfl hp
    · cases he'
      rw [endsFailover_of_isCancelledOrFiltered hend] at hopen
      cases hopen
  | sent sess hre =>
    rw [seenResult]
    cases hr : sess.result with
    | none => rfl
    | some r =>
      cases r with
      | ok => rfl
      | error e =>
        show (afterAnswer call sess.modelId (some (if _ then _ else _))).mayAttempt = false
        split
        · exact afterError_mayAttempt rfl
        · next hseen =>
          -- without a partial stream the error itself says cancelled or filtered
          refine afterError_mayAttempt (endsFailover_of_isCancelledOrFiltered ?_)
          rcases hf with hp | ⟨e', he', hend⟩
          · by_contra hnot
            exact hseen ⟨hp, by simpa using hnot⟩
          · obtain rfl : e = e' := by simpa [Send.sent, hr] using he'
            exact hend

theorem Ended.of_phase (he : Ended send)
    (h : phase.mayAttempt = true → send.phase.mayAttempt = true) : Ended { send with phase } :=
  ⟨fun hmay => he.pending (h hmay), he.last⟩

theorem Ended.moves (he : Ended send) (hm : Moves connector send send') : Ended send' := by
  cases hm with
  | idle => exact he
  | skip e h | contact call h | giveUp phase h | tripped h =>
    exact he.of_phase fun _ => by rw [h]; rfl
  | @attempt call attempt phase _ _ _ h hal ht hc hst =>
    have hnone := he.pending (by rw [h]; rfl)
    constructor
    · intro hmay a ha hf
      rcases List.mem_append.1 ha with ha | ha
      · exact hnone a ha hf
      · rw [List.mem_singleton.1 ha] at hf
        have hmay : phase.mayAttempt = true := hmay
        rw [ht.mayAttempt_of_final hf] at hmay
        cases hmay
    · intro before a after hs hf
      -- a final attempt among the earlier ones would have ended the send
      rcases List.eq_nil_or_concat after with rfl | ⟨after', b, rfl⟩
      · rfl
      · have hs : send.attempts ++ [attempt] = (before ++ a :: after') ++ [b] := by
          simpa using hs
        obtain ⟨hea, -⟩ := List.append_inj' hs rfl
        exact absurd hf (hnone a (by simp [hea]))
  | resume phase h hopen => exact he.of_phase fun _ => by rw [h, Phase.mayAttempt, hopen]; rfl
  | finish phase hp hend => exact he.of_phase fun hmay => by rw [hend] at hmay; cases hmay

theorem ended_start (x : Input) : Ended (start connector shared x).2 := by
  obtain ⟨ha, -⟩ := start_cases connector shared x
  exact ⟨by simp [ha], by simp [ha]⟩

/-! ## The attempt counter -/

/-- Every session reported at most its provider's worst case. -/
def ReportsWithin (attempts : List Attempt) : Prop :=
  ∀ attempt ∈ attempts, ∀ n, attempt.reported = some n → n ≤ attempt.adapter.maxProviderAttempts

variable (connector)

/-- The links that the send has paid for: those behind it, and the one it is on once it has made
its attempt there. -/
def paid (done : List (ProviderId × Nat)) : Phase → List (ProviderId × Nat)
  | .calling call => if call.attempt = 0 then done else done ++ [(call.providerId, call.index)]
  | _ => done

/-- The counter is within the worst case of the links that the send has paid for, and every value
that was ever stored is within the worst case of the chain. -/
def Within (send : Send) : Prop :=
  (∃ done, (connector.failoverChain send.request.primary).zipIdx = done ++ send.phase.ahead ∧
    send.totalAttempts ≤ connector.budgetOf ((paid done send.phase).map Prod.fst)) ∧
  ∀ n ∈ send.stored, n ≤ connector.budgetOf (connector.failoverChain send.request.primary)

variable {connector}

theorem Tried.adapter_eq {att : Attempt} (ht : Tried request call att phase) :
    att.adapter = call.adapter := by
  cases ht <;> rfl

theorem paid_append_ahead (done : List (ProviderId × Nat)) (phase : Phase) :
    ∃ more, done ++ phase.ahead = paid done phase ++ more := by
  cases phase with
  | calling call =>
    rw [paid]
    split
    · exact ⟨_, rfl⟩
    · exact ⟨call.rest, by simp [Phase.ahead]⟩
  | selecting rest | returned id rest | tripping id rest => exact ⟨rest, rfl⟩
  | closing | finished => exact ⟨[], rfl⟩

/-- A new phase that leaves links behind costs nothing. -/
theorem Within.of_phase (hw : Within connector send) (left : List (ProviderId × Nat))
    (ha : send.phase.ahead = left ++ phase.ahead)
    (hpaid : ∀ done, paid done send.phase <+: paid (done ++ left) phase) :
    Within connector { send with phase } := by
  obtain ⟨⟨done, hc, ht⟩, hs⟩ := hw
  refine ⟨⟨done ++ left, ?_, ?_⟩, hs⟩
  · show (connector.failoverChain send.request.primary).zipIdx = done ++ left ++ phase.ahead
    rw [hc, ha, List.append_assoc]
  · obtain ⟨more, hmore⟩ := hpaid done
    refine Nat.le_trans ht ?_
    show _ ≤ connector.budgetOf ((paid (done ++ left) phase).map Prod.fst)
    rw [← hmore, List.map_append]
    exact connector.budgetOf_mono _ _

/-- One attempt costs at most what its provider's link adds to the worst case. -/
theorem Admitted.attempt_cost (ha : Admitted connector send.request call) {att : Attempt}
    {total : Nat} {done : List (ProviderId × Nat)} (ht : Tried send.request call att phase)
    (hr : ∀ n, att.reported = some n → n ≤ att.adapter.maxProviderAttempts)
    (hto : send.totalAttempts ≤ connector.budgetOf (done.map Prod.fst))
    (hc : total = saturatingAdd32 send.totalAttempts 1 ∨ total = saturatingAdd32 send.totalAttempts
      (att.reported.getD 1)) :
    total ≤ connector.budgetOf ((done ++ [(call.providerId, call.index)]).map Prod.fst) := by
  have hb : connector.attemptBudget call.providerId =
      max call.adapter.maxProviderAttempts 1 := by
    rw [AgentConnector.attemptBudget, ha.registered]
    rfl
  have hre : att.reported.getD 1 ≤ max call.adapter.maxProviderAttempts 1 := by
    rw [← ht.adapter_eq]
    cases hn : att.reported with
    | none => exact Nat.le_max_right _ _
    | some n => exact Nat.le_trans (hr n hn) (Nat.le_max_left _ _)
  rw [List.map_append, List.map_singleton, AgentConnector.budgetOf_snoc, hb]
  rcases hc with rfl | rfl <;> unfold saturatingAdd32 <;> omega

/-- With one attempt per provider, the next attempt is the provider's first. -/
theorem attempt_eq_zero (hone : send.request.maxAttemptsPerProvider = some 1)
    (ha : call.attempt < maxAttempts connector send.request) : call.attempt = 0 := by
  have hmax : maxAttempts connector send.request = 1 := by
    rw [maxAttempts, hone]
    rfl
  omega

theorem Within.attempt {att : Attempt} {total : Nat} {stored : List Nat}
    {degradation : Option ProviderToolDegradation} (hwi : Within connector send)
    (h : send.phase = .calling call) (ha : Admitted connector send.request call)
    (hzero : call.attempt = 0) (htr : Tried send.request call att phase)
    (hr : ∀ n, att.reported = some n → n ≤ att.adapter.maxProviderAttempts)
    (htotal : total = saturatingAdd32 send.totalAttempts 1 ∨
        total = saturatingAdd32 send.totalAttempts (att.reported.getD 1))
    (hs : ∀ n ∈ stored, n ∈ send.stored ∨ n = total ∨
        n = saturatingAdd32 send.totalAttempts 1) :
    Within connector
      { request := send.request, phase, totalAttempts := total, stored
        toolDegradation := degradation
        attempts := send.attempts ++ [att] } := by
  obtain ⟨⟨done, hc, ht⟩, he⟩ := hwi
  rw [h, paid, if_pos hzero] at ht
  rw [h] at hc
  have hcost : ∀ m, (m = saturatingAdd32 send.totalAttempts 1 ∨
      m = saturatingAdd32 send.totalAttempts (att.reported.getD 1)) →
      m ≤ connector.budgetOf ((done ++ [(call.providerId, call.index)]).map Prod.fst) :=
    fun m hm => ha.attempt_cost htr hr ht hm
  have hc' : (connector.failoverChain send.request.primary).zipIdx =
      done ++ [(call.providerId, call.index)] ++ call.rest := by
    rw [hc, Phase.ahead, List.append_assoc]
    rfl
  have hw : connector.budgetOf ((done ++ [(call.providerId, call.index)]).map Prod.fst) ≤
      connector.budgetOf (connector.failoverChain send.request.primary) := by
    have hids := congrArg (List.map Prod.fst) hc'
    rw [List.zipIdx_map_fst, List.map_append] at hids
    rw [hids]
    exact connector.budgetOf_mono _ _
  refine ⟨?_, ?_⟩
  · rcases htr.phase_cases with rfl | ⟨r, rfl⟩ | ⟨e, rfl⟩
    · refine ⟨(connector.failoverChain send.request.primary).zipIdx, ?_, ?_⟩
      · exact (List.append_nil _).symm
      · show total ≤ connector.budgetOf
          ((connector.failoverChain send.request.primary).zipIdx.map Prod.fst)
        rw [List.zipIdx_map_fst]
        exact Nat.le_trans (hcost total htotal) hw
    · exact ⟨done ++ [(call.providerId, call.index)], hc', hcost total htotal⟩
    · exact ⟨done, hc, hcost total htotal⟩
  · intro n hn
    rcases hs n hn with hn | rfl | rfl
    · exact he n hn
    · exact Nat.le_trans (hcost n htotal) hw
    · exact Nat.le_trans (hcost _ (.inl rfl)) hw

theorem ReportsWithin.of_append {atts : List Attempt} {att : Attempt}
    (h : ReportsWithin (atts ++ [att])) :
    ReportsWithin atts ∧ ∀ n, att.reported = some n → n ≤ att.adapter.maxProviderAttempts :=
  ⟨fun a ha => h a (List.mem_append_left _ ha), h att (by simp)⟩

/-- The step of the counter's bound, for a send whose calls are admitted. -/
theorem Within.moves (hm : Moves connector send send')
    (ha : ∀ call, send.phase = .calling call → Admitted connector send.request call)
    (hone : send.request.maxAttemptsPerProvider = some 1)
    (hw : ReportsWithin send.attempts → Within connector send)
    (hr : ReportsWithin send'.attempts) : Within connector send' := by
  cases hm with
  | idle => exact hw hr
  | @skip link rest lastErr e h =>
    refine (hw hr).of_phase [_] (by rw [h]; rfl) ?_
    intro done
    rw [h]
    exact List.prefix_append _ _
  | contact call h hcall hf =>
    refine (hw hr).of_phase [] (by rw [h]; rfl) ?_
    intro done
    rw [h, List.append_nil]
    show done <+: if call.attempt = 0 then done else _
    rw [if_pos hf]
  | attempt h hal ht hc hs =>
    obtain ⟨he, hlast⟩ := hr.of_append
    exact (hw he).attempt h (ha _ h) (attempt_eq_zero hone hal) ht hlast hc hs
  | @giveUp call phase h hp =>
    rcases hp with rfl | ⟨e, rfl⟩
    · refine (hw hr).of_phase _ (List.append_nil _).symm ?_
      intro done
      obtain ⟨more, hmore⟩ := paid_append_ahead done send.phase
      exact ⟨more, hmore.symm⟩
    · refine (hw hr).of_phase [_] (by rw [h]; rfl) ?_
      intro done
      rw [h, paid]
      split
      · exact List.prefix_append _ _
      · exact List.prefix_rfl
  | resume phase h hopen hp =>
    rcases hp with rfl | ⟨n, rfl⟩
    · refine (hw hr).of_phase [] (by rw [h]; rfl) ?_
      intro done
      rw [h, List.append_nil]
      exact List.prefix_rfl
    · refine (hw hr).of_phase [] (by rw [h]; rfl) ?_
      intro done
      rw [h, List.append_nil]
      exact List.prefix_rfl
  | tripped h =>
    refine (hw hr).of_phase [] (by rw [h]; rfl) ?_
    intro done
    rw [h, List.append_nil]
    exact List.prefix_rfl
  | finish phase hp hend =>
    refine (hw hr).of_phase _ (by rw [hp, List.append_nil]) ?_
    intro done
    obtain ⟨more, hmore⟩ := paid_append_ahead done send.phase
    have hpaid : paid (done ++ send.phase.ahead) phase = done ++ send.phase.ahead := by
      cases phase with
      | calling => cases hend
      | _ => rfl
    rw [hpaid]
    exact ⟨more, hmore.symm⟩

theorem Moves.request_eq (hm : Moves connector send send') : send'.request = send.request := by
  cases hm <;> rfl

theorem within_start (x : Input) : Within connector (start connector shared x).2 := by
  obtain ⟨-, ht, hs, -, hp⟩ := start_cases connector shared x
  refine ⟨?_, ?_⟩
  · rcases hp with ⟨r, hp⟩ | hp
    · exact ⟨_, by rw [hp]; exact (List.append_nil _).symm, by rw [ht]; exact Nat.zero_le _⟩
    · exact ⟨[], by rw [hp]; rfl, by rw [ht]; exact Nat.zero_le _⟩
  · intro n hn
    rw [hs n hn]
    exact Nat.zero_le _

/-! ## Every send -/

variable (connector)

/-- A send stays within its policy, its output and its budget. -/
structure Contained (send : Send) : Prop where
  /-- The messages reach only providers that may receive them. -/
  handed : ∀ attempt ∈ send.attempts, ∀ messages tools, attempt.handed = some (messages, tools) →
    MayReceive connector send.request attempt messages
  /-- No attempt follows one that published output, or ended cancelled or filtered. -/
  last : ∀ before attempt after, send.attempts = before ++ attempt :: after → attempt.isFinal →
    after = []
  /-- A session's counter stays within the attempts that quota is reserved for. -/
  stored : send.request.maxAttemptsPerProvider = some 1 → ReportsWithin send.attempts →
    ∀ n ∈ send.stored, n ≤ connector.providerAttemptBudget send.request.primary

/-- What every action of a send keeps. -/
structure Safe (send : Send) : Prop where
  routed : Routed connector send
  ended : Ended send
  within : send.request.maxAttemptsPerProvider = some 1 → ReportsWithin send.attempts →
    Within connector send

variable {connector}

theorem safe_start (x : Input) : Safe connector (start connector shared x).2 :=
  ⟨routed_start shared x, ended_start shared x, fun _ _ => within_start shared x⟩

theorem Safe.moves (hsafe : Safe connector send) (hm : Moves connector send send') :
    Safe connector send' := by
  refine ⟨hsafe.routed.moves hm, hsafe.ended.moves hm, ?_⟩
  intro hone hr
  rw [hm.request_eq] at hone
  exact Within.moves hm hsafe.routed.admitted hone (hsafe.within hone) hr

theorem Safe.contained (hsafe : Safe connector send) : Contained connector send := by
  refine ⟨hsafe.routed.handed, hsafe.ended.last, ?_⟩
  intro hone hr n hn
  exact Nat.le_trans ((hsafe.within hone hr).2 n hn) (connector.budgetOf_chain_le _)

/-- Every send of every interleaving is contained, whatever the registry, the breakers and the
outcomes. -/
theorem sends_contained (connector : AgentConnector) (shared : Breakers)
    (events : List (Event Input AttemptScript Nat)) :
    ∀ send ∈ ((program connector).interleave ⟨shared, []⟩ events).tasks,
      Contained connector send := by
  intro send hsend
  have hsafe : Safe connector send :=
    Program.forall_tasks_run (J := Safe connector) safe_start
      (fun shared task script hsafe => hsafe.moves (act_moves shared task script)) (by simp) events
      send hsend
  exact hsafe.contained

/-! ### A failover -/

/-- A provider in one region that runs tools. -/
def sampleAdapter (id : ProviderId) : Adapter where
  id
  providerType := .cloudProvider
  capabilities := { toolCalls := true, dataRegions := ["eu-west".toList] }
  maxProviderAttempts := 2

/-- Two providers, the second one a backup of the first, with a required region. -/
def sampleConnector : AgentConnector :=
  (((AgentConnector.new.registerProvider (sampleAdapter "a".toList)).registerProvider
    (sampleAdapter "b".toList)).setBackup "a".toList "b".toList).setRoutingPolicy "a".toList
      { ProviderRoutingPolicy.default with requiredRegion := some "EU-West".toList }

/-- The breakers of the two providers. -/
def sampleBreakers : Breakers :=
  (Breakers.register ⟨∅, 0⟩ "a".toList).register "b".toList

/-- An iteration in which the session ends with `result` after reporting `attempts`. -/
def answer (result : Except ConnectorError LlmResponse) (attempts : Nat) : AttemptScript where
  backoff := .elapsed
  session := some (.ok
    { enforcesMaxOutputTokens := true, modelId := "m".toList, deltas := []
      result := some result, lastAttempts := some attempts })

/-- The primary times out after two tries and the backup answers at once. -/
def failedOver : List (Event Input AttemptScript Nat) :=
  let timedOut := answer (.error (.timeout ⟨"a".toList, [], none⟩)) 2
  let answered := answer (.ok ⟨"hello".toList, [], none⟩) 1
  .start ⟨.sendControlled "a".toList [StandardMessage.user "hi".toList] [] none, false⟩ ::
    ((List.replicate 5 (.act 0 timedOut)) ++ List.replicate 4 (.act 0 answered))

set_option maxRecDepth 100000 in
theorem failedOver_contained :
    (((program sampleConnector).interleave ⟨sampleBreakers, []⟩ failedOver).tasks.map
        fun send => (send.attempts.map fun attempt => attempt.adapter.id, send.stored)) =
      [(["a".toList, "b".toList], [0, 1, 2, 3, 3])] ∧
    ∀ send ∈ ((program sampleConnector).interleave ⟨sampleBreakers, []⟩ failedOver).tasks,
      Contained sampleConnector send :=
  ⟨by decide +kernel, sends_contained sampleConnector sampleBreakers failedOver⟩

end Send

end AgentOS
