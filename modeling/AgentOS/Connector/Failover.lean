import AgentOS.Base.Ascii
import AgentOS.Connector.Breaker
import AgentOS.Connector.Message
import AgentOS.Lib.Interleave

/-!
# The resilient send

`send_with_failover_observed` walks the primary's failover chain; for every provider that the
routing policy admits and whose breaker lets it through it runs the retry loop of
`send_one_provider`, and reports the result to the breaker. Any number of sends run at the same
time over the same breakers, so a send is a task: its local state is the point it has reached
(`Phase`), and it acts on the shared state once per breaker operation. One iteration of the retry
loop touches no shared state and is one action; what providers, clock, cancellation and the dropping
of the future do in it is the action's input (`AttemptScript`).

A send keeps the list of its attempts, which no code reads: it is what the results talk about.
-/

namespace AgentOS

open Lib

/-! ## The registry -/

inductive ProviderType where
  | cloudProvider
  | localProvider
  deriving DecidableEq

/-- `ProviderCapabilities`: the fields that routing reads. -/
structure ProviderCapabilities where
  toolCalls : Bool
  dataRegions : List Text
  deriving DecidableEq

inductive ToolIncompatiblePrimaryPolicy where
  | degradedShim
  | reject
  deriving DecidableEq

structure ProviderRoutingPolicy where
  requiredRegion : Option Text
  allowLocalToCloud : Bool
  toolIncompatiblePrimary : ToolIncompatiblePrimaryPolicy
  deriving DecidableEq

/-- `ProviderRoutingPolicy::default`. -/
def ProviderRoutingPolicy.default : ProviderRoutingPolicy where
  requiredRegion := none
  allowLocalToCloud := false
  toolIncompatiblePrimary := .degradedShim

/-- What an `LlmProviderAdapter` answers without I/O. -/
structure Adapter where
  id : ProviderId
  providerType : ProviderType
  capabilities : ProviderCapabilities
  maxProviderAttempts : Nat
  deriving DecidableEq

/-- `AgentConnectorImpl` without the circuit breakers, which are shared state. Providers are
registered under their own id. -/
structure AgentConnector where
  providers : OrdMap ProviderId Adapter
  backupProvider : OrdMap ProviderId ProviderId
  maxAttempts : Nat
  routingPolicies : OrdMap ProviderId ProviderRoutingPolicy
  registered : ∀ (id : ProviderId) (adapter : Adapter), providers[id]? = some adapter →
    adapter.id = id

namespace AgentConnector

/-- `AgentConnectorImpl::new`, with the default retry policy. -/
def new : AgentConnector where
  providers := ∅
  backupProvider := ∅
  maxAttempts := 3
  routingPolicies := ∅
  registered _ _ h := by simp at h

/-- `register_provider`: the registry's part. -/
def registerProvider (conn : AgentConnector) (adapter : Adapter) : AgentConnector where
  providers := conn.providers.insert adapter.id adapter
  backupProvider := conn.backupProvider
  maxAttempts := conn.maxAttempts
  routingPolicies := conn.routingPolicies
  registered id other h := by
    rw [OrdMap.lookup_insert] at h
    split at h
    · next heq => rw [← Option.some.inj h, heq]
    · exact conn.registered id other h

def setBackup (conn : AgentConnector) (primary backup : ProviderId) : AgentConnector :=
  { conn with backupProvider := conn.backupProvider.insert primary backup }

def setRoutingPolicy (conn : AgentConnector) (provider : ProviderId)
    (policy : ProviderRoutingPolicy) : AgentConnector :=
  { conn with routingPolicies := conn.routingPolicies.insert provider policy }

variable (conn : AgentConnector)

def routingPolicy (provider : ProviderId) : ProviderRoutingPolicy :=
  (conn.routingPolicies[provider]?).getD .default

variable (primary : ProviderId)

def validatePrimaryToolPolicy (tools : List ToolDefinition) :
    Except ConnectorError Unit :=
  rejectIf (tools ≠ [] ∧
      (conn.routingPolicy primary).toolIncompatiblePrimary = .reject ∧
      ∃ adapter ∈ conn.providers[primary]?, adapter.capabilities.toolCalls = false)
    (.toolIncompatiblePrimary
      { provider := primary
        message := "operator policy rejects a primary without native tool support".toList
        requestId := none })

/-- The primary's type; an unregistered primary counts as a cloud provider. -/
def primaryType : ProviderType :=
  (conn.providers[primary]?).elim .cloudProvider Adapter.providerType

/-- The loop of `failover_chain`. The chain grows by one link per round, so the loop condition
`chain.len() < providers.len() + 1` allows as many rounds as there are providers. -/
def extendChain : Nat → List ProviderId → ProviderId → List ProviderId
  | 0, chain, _ => chain
  | rounds + 1, chain, current =>
    match conn.backupProvider[current]? with
    | none => chain
    | some next => if next ∈ chain then chain else extendChain rounds (chain ++ [next]) next

def failoverChain : List ProviderId :=
  conn.extendChain conn.providers.size [primary] primary

/-- What one link of the chain adds to the worst case of `max_provider_attempts`. -/
def attemptBudget (id : ProviderId) : Nat :=
  (conn.providers[id]?).elim 1 fun adapter => max adapter.maxProviderAttempts 1

/-- `ResilientSession::max_provider_attempts`. -/
def maxProviderAttempts : Nat :=
  max ((conn.failoverChain primary).foldl
    (fun total id => saturatingAdd32 total (conn.attemptBudget id)) 0) 1

/-- `provider_attempt_budget`, for which the executor reserves quota before it sends. -/
def providerAttemptBudget : Nat :=
  max (conn.maxProviderAttempts primary) 1

end AgentConnector

def providerIsCompatible (primaryType : ProviderType) (candidate : Adapter)
    (tools : List ToolDefinition) (policy : ProviderRoutingPolicy) (isPrimary : Bool) : Bool :=
  if !isPrimary && tools != [] && !candidate.capabilities.toolCalls then false
  else if !isPrimary && primaryType == .localProvider &&
      candidate.providerType == .cloudProvider && !policy.allowLocalToCloud then false
  else
    match policy.requiredRegion with
    | some required =>
      candidate.capabilities.dataRegions.any fun region => eqIgnoreAsciiCase region required
    | none => true

/-! ## Requests and attempts -/

inductive SendMode where
  | nonStreaming
  | streaming
  deriving DecidableEq

/-- The arguments of `send_with_failover_observed`. `events` says whether there is a channel for
deltas and `observed` whether the attempt counter of a session follows the send. The cancellation
token and the timeout act through the outcome of each attempt. -/
structure SendRequest where
  primary : ProviderId
  messages : List StandardMessage
  tools : List ToolDefinition
  mode : SendMode
  maxOutputTokens : Option Nat
  (events observed : Bool)
  maxAttemptsPerProvider : Option Nat
  deriving DecidableEq

namespace SendRequest

variable (primary : ProviderId) (messages : List StandardMessage) (tools : List ToolDefinition)

/-- `ResilientSession::send_controlled`: one attempt per provider, counted by the session. -/
def sendControlled (maxOutputTokens : Option Nat) : SendRequest where
  primary
  messages
  tools
  mode := .nonStreaming
  maxOutputTokens
  events := false
  observed := true
  maxAttemptsPerProvider := some 1

/-- What a session is given: with `degraded` the tools are replaced by a description in front of
the messages. -/
def outgoing (request : SendRequest) (degraded : Bool) :
    List StandardMessage × List ToolDefinition :=
  if degraded then
    (StandardMessage.system (renderToolsPrompt request.tools) :: request.messages, [])
  else (request.messages, request.tools)

end SendRequest

/-- The wait before a retry. -/
inductive Backoff where
  | elapsed
  | cancelled
  | dropped
  deriving DecidableEq

/-- What a fresh session says about itself and does with the messages: the deltas that its sink
delivered, the result (`none` if the send is dropped while it waits) and `last_attempts`
afterwards. -/
structure SessionScript where
  enforcesMaxOutputTokens : Bool
  modelId : Text
  deltas : List Text
  result : Option (Except ConnectorError LlmResponse)
  lastAttempts : Option Nat

/-- What the surroundings do in one iteration of the retry loop; `session` is `none` if the send is
dropped while it waits for the session. -/
structure AttemptScript where
  backoff : Backoff
  session : Option (Except ConnectorError SessionScript)

/-- One attempt: the provider it went to, the model of its session, the messages and tools the
session was given, the deltas it published, how it ended (`none`: dropped) and the number of
attempts that the session reported. -/
structure Attempt where
  adapter : Adapter
  isPrimary : Bool
  modelId : Option Text
  handed : Option (List StandardMessage × List ToolDefinition)
  published : List Text
  result : Option (Except ConnectorError LlmResponse)
  reported : Option Nat

structure ProviderToolDegradation where
  providerId : ProviderId
  modelId : Text
  droppedToolCount : Nat
  deriving DecidableEq

structure SendOutcome where
  response : LlmResponse
  servedBy : ProviderId
  modelId : Text
  attempts : Nat
  toolDegradation : Option ProviderToolDegradation
  deriving DecidableEq

/-- A position in the retry loop of `send_one_provider`: the provider, its index in the chain, the
links after it, the next attempt's number and the last error. -/
structure Call where
  providerId : ProviderId
  index : Nat
  adapter : Adapter
  rest : List (ProviderId × Nat)
  attempt : Nat
  lastErr : Option ConnectorError

/-- The point that a send has reached. -/
inductive Phase where
  /-- About to look at the next link of the chain. -/
  | selecting (rest : List (ProviderId × Nat)) (lastErr : Option ConnectorError)
  /-- In the retry loop. -/
  | calling (call : Call)
  /-- `send_one_provider` has returned. -/
  | returned (providerId : ProviderId) (rest : List (ProviderId × Nat))
      (result : Except ConnectorError (LlmResponse × Text))
  /-- `record_success` has reset the counter and not yet closed the breaker. -/
  | closing (outcome : SendOutcome)
  /-- `record_failure` has incremented the counter to `failures` and not yet taken the lock. -/
  | tripping (providerId : ProviderId) (rest : List (ProviderId × Nat)) (error : ConnectorError)
      (failures : Nat)
  /-- Returned, or dropped. -/
  | finished (result : Option (Except ConnectorError SendOutcome))

/-- A send: its request, the point it has reached, `total_attempts`, every value that was stored in
the session's attempt counter, the latest tool degradation and the attempts so far. -/
structure Send where
  request : SendRequest
  phase : Phase
  totalAttempts : Nat
  stored : List Nat
  toolDegradation : Option ProviderToolDegradation
  attempts : List Attempt

namespace Send

/-- The new value of `total_attempts`, which the session's counter follows. -/
def count (send : Send) (total : Nat) : Send :=
  { send with
    totalAttempts := total
    stored := if send.request.observed then send.stored ++ [total] else send.stored }

variable (request : SendRequest)

/-- The deltas that reach the caller: a sink exists only for a streaming send with a channel. -/
def published (session : SessionScript) : List Text :=
  if request.mode = .streaming ∧ request.events = true then session.deltas else []

/-- The result as the retry loop sees it: an error after published output is a partial stream,
unless it says that the send was cancelled or filtered. -/
def seenResult (session : SessionScript) :
    Option (Except ConnectorError LlmResponse) :=
  session.result.map fun
    | .ok response => .ok response
    | .error e =>
      if published request session ≠ [] ∧ isCancelledOrFiltered e = false then
        .error (.partialStream
          "provider failed after publishing output; retry and failover were suppressed".toList)
      else .error e

/-- The retry loop after an attempt that failed: transient errors are retried. -/
def afterError (call : Call) (e : ConnectorError) : Phase :=
  if isTransient e then .calling { call with attempt := call.attempt + 1, lastErr := some e }
  else .returned call.providerId call.rest (.error e)

/-- The retry loop after the session's answer. -/
def afterAnswer (call : Call) (modelId : Text) :
    Option (Except ConnectorError LlmResponse) → Phase
  | none => .finished none
  | some (.ok response) => .returned call.providerId call.rest (.ok (response, modelId))
  | some (.error e) => afterError call e

/-- Whether the primary's tools are replaced by a description. -/
def degradedTools (call : Call) : Bool :=
  call.index == 0 && request.tools != [] && !call.adapter.capabilities.toolCalls

/-- The counter after the session's answer; a send that is dropped meanwhile does not reach it. -/
def countAnswer (send : Send) (before : Nat) (session : SessionScript) : Send :=
  match session.result with
  | none => send
  | some _ => send.count (saturatingAdd32 before (session.lastAttempts.getD 1))

/-- An attempt on `call` that ended before the session was given anything. -/
def unsent (call : Call) (modelId : Option Text) (result : Option ConnectorError) : Attempt where
  adapter := call.adapter
  isPrimary := call.index == 0
  modelId
  handed := none
  published := []
  result := result.map .error
  reported := none

/-- The attempt on `call` in which the session was given the messages. -/
def sent (call : Call) (session : SessionScript) : Attempt where
  adapter := call.adapter
  isPrimary := call.index == 0
  modelId := some session.modelId
  handed := some (request.outgoing (degradedTools request call))
  published := published request session
  result := session.result
  reported := session.lastAttempts

/-- The attempt after its session was created; `before` is `attempts_before_session`. -/
def exchange (send : Send) (call : Call) (before : Nat) (session : SessionScript) : Send :=
  if send.request.maxOutputTokens.isSome ∧ session.enforcesMaxOutputTokens = false then
    let e := invalidRequestError call.adapter.id
      "adapter does not enforce max_output_tokens".toList none
    { send with
      phase := .returned call.providerId call.rest (.error e)
      attempts := send.attempts ++ [unsent call (some session.modelId) (some e)] }
  else
    match validateProviderHistory send.request.messages call.adapter.id session.modelId with
    | .error e =>
      { send with
        phase := .returned call.providerId call.rest (.error e)
        attempts := send.attempts ++ [unsent call (some session.modelId) (some e)] }
    | .ok _ =>
      { send.countAnswer before session with
        phase := afterAnswer call session.modelId (seenResult send.request session)
        toolDegradation :=
          if degradedTools send.request call then
            some
              { providerId := call.adapter.id
                modelId := session.modelId
                droppedToolCount := min send.request.tools.length u32Max }
          else send.toolDegradation
        attempts := send.attempts ++ [sent send.request call session] }

/-- The attempt itself, after the wait. -/
def tryOnce (send : Send) (call : Call) (script : AttemptScript) : Send :=
  let counted := send.count (saturatingAdd32 send.totalAttempts 1)
  match script.session with
  | none =>
    { counted with
      phase := .finished none
      attempts := send.attempts ++ [unsent call none none] }
  | some (.error e) =>
    { counted with
      phase := afterError call e
      attempts := send.attempts ++ [unsent call none (some e)] }
  | some (.ok session) => counted.exchange call send.totalAttempts session

/-- `max_attempts` of `send_one_provider`. -/
def maxAttempts (conn : AgentConnector) (request : SendRequest) : Nat :=
  max (request.maxAttemptsPerProvider.getD conn.maxAttempts) 1

/-- One iteration of the retry loop, or its exit. -/
def attemptOnce (conn : AgentConnector) (send : Send) (call : Call)
    (script : AttemptScript) : Send :=
  if maxAttempts conn send.request ≤ call.attempt then
    { send with
      phase := .returned call.providerId call.rest
        (.error (call.lastErr.getD (.connectionFailed "no attempts produced a result".toList))) }
  else if call.attempt = 0 then send.tryOnce call script
  else
    match script.backoff with
    | .elapsed => send.tryOnce call script
    | .cancelled =>
      { send with
        phase := .returned call.providerId call.rest
          (.error (cancelledError call.adapter.id none)) }
    | .dropped => { send with phase := .finished none }

end Send

/-! ## The failover loop over shared breakers -/

/-- The breakers and the time. -/
structure Breakers where
  breakers : OrdMap ProviderId CircuitBreaker
  now : Nat

namespace Breakers

/-- An operation on a provider's breaker. -/
def update (shared : Breakers) (id : ProviderId) (f : CircuitBreaker → CircuitBreaker) :
    Breakers :=
  { shared with breakers := shared.breakers.modify id f }

/-- `is_available` on the breaker of a provider, if it has one. -/
def isAvailable (shared : Breakers) (id : ProviderId) : Bool × Breakers :=
  match shared.breakers[id]? with
  | none => (true, shared)
  | some breaker =>
    ((breaker.isAvailable shared.now).1,
      { shared with breakers := shared.breakers.insert id (breaker.isAvailable shared.now).2 })

/-- `register_provider`: the breaker's part. -/
def register (shared : Breakers) (id : ProviderId) : Breakers :=
  { shared with breakers := shared.breakers.insert id (CircuitBreaker.new 3 30) }

end Breakers

namespace Send

variable (conn : AgentConnector)

/-- What a new send gets: its request and whether it is cancelled already. -/
structure Input where
  request : SendRequest
  cancelled : Bool

/-- `send_with_failover_observed` up to its loop. -/
def start (shared : Breakers) (input : Input) : Breakers × Send :=
  let request := input.request
  let send : Phase → Send := fun phase =>
    { request, phase
      totalAttempts := 0
      stored := if request.observed then [0] else []
      toolDegradation := none
      attempts := [] }
  if input.cancelled then
    (shared, send (.finished (some (.error (cancelledError request.primary none)))))
  else
    match conn.validatePrimaryToolPolicy request.primary request.tools with
    | .error e => (shared, send (.finished (some (.error e))))
    | .ok _ => (shared, send (.selecting (conn.failoverChain request.primary).zipIdx none))

/-- The checks before a provider is contacted. -/
def select (shared : Breakers) (send : Send) (id : ProviderId) (index : Nat)
    (rest : List (ProviderId × Nat)) : Breakers × Send :=
  match conn.providers[id]? with
  | none => (shared, { send with phase := .selecting rest (some (.providerUnavailable id)) })
  | some adapter =>
    if providerIsCompatible (conn.primaryType send.request.primary) adapter
        send.request.tools (conn.routingPolicy send.request.primary) (index == 0) then
      if (shared.isAvailable id).1 then
        ((shared.isAvailable id).2,
          { send with
            phase := .calling
              { providerId := id, index, adapter, rest, attempt := 0, lastErr := none } })
      else
        ((shared.isAvailable id).2,
          { send with
            phase := .selecting rest
              (some (.providerUnavailable (id ++ " circuit is open".toList))) })
    else
      (shared,
        { send with
          phase := .selecting rest
            (some (.providerUnavailable
              (id ++ " is incompatible with the request routing policy".toList))) })

/-- The result that the send returns for a provider's answer. -/
def outcome (send : Send) (id : ProviderId) (answer : LlmResponse × Text) : SendOutcome where
  response := answer.1
  servedBy := id
  modelId := answer.2
  attempts := send.totalAttempts
  toolDegradation := send.toolDegradation

/-- The first action on the breaker after `send_one_provider` has returned. -/
def settle (shared : Breakers) (send : Send) (id : ProviderId) (rest : List (ProviderId × Nat)) :
    Except ConnectorError (LlmResponse × Text) → Breakers × Send
  | .ok answer =>
    match shared.breakers[id]? with
    | none => (shared, { send with phase := .finished (some (.ok (send.outcome id answer))) })
    | some _ =>
      (shared.update id CircuitBreaker.storeZero,
        { send with phase := .closing (send.outcome id answer) })
  | .error e =>
    if endsFailover e then (shared, { send with phase := .finished (some (.error e)) })
    else if isTransient e then
      match shared.breakers[id]? with
      | none => (shared, { send with phase := .selecting rest (some e) })
      | some breaker =>
        (shared.update id CircuitBreaker.fetchAdd,
          { send with phase := .tripping id rest e breaker.fetchAdd.consecutiveFailures })
    else (shared, { send with phase := .selecting rest (some e) })

/-- One action of a send. -/
def act (shared : Breakers) (send : Send) (script : AttemptScript) : Breakers × Send :=
  match send.phase with
  | .selecting [] lastErr =>
    (shared,
      { send with
        phase := .finished
          (some (.error (lastErr.getD (.providerUnavailable send.request.primary)))) })
  | .selecting ((id, index) :: rest) _ => select conn shared send id index rest
  | .calling call => (shared, attemptOnce conn send call script)
  | .returned id rest result => settle shared send id rest result
  | .closing outcome =>
    (shared.update outcome.servedBy CircuitBreaker.close,
      { send with phase := .finished (some (.ok outcome)) })
  | .tripping id rest e failures =>
    (shared.update id fun breaker => breaker.trip failures shared.now,
      { send with phase := .selecting rest (some e) })
  | .finished _ => (shared, send)

/-- All sends over the registry; from outside only time passes. -/
def program : Program Breakers Send Input AttemptScript Nat where
  start := start conn
  act := act conn
  outside shared elapsed := { shared with now := shared.now + elapsed }

/-- What a new send has. -/
theorem start_cases (conn : AgentConnector) (sh : Breakers) (x : Input) :
    (start conn sh x).2.attempts = [] ∧ (start conn sh x).2.totalAttempts = 0 ∧
      (∀ n ∈ (start conn sh x).2.stored, n = 0) ∧
      (start conn sh x).1 = sh ∧
      ((∃ r, (start conn sh x).2.phase = .finished r) ∨ (start conn sh x).2.phase = .selecting
          (conn.failoverChain (start conn sh x).2.request.primary).zipIdx
          none) := by
  have hs : ∀ n ∈ (if x.request.observed = true then [0] else []), n = 0 := by
    intro n hn
    split at hn
    · simpa using hn
    · simp at hn
  rw [start]
  split
  · exact ⟨rfl, rfl, hs, rfl, .inl ⟨_, rfl⟩⟩
  · split
    · exact ⟨rfl, rfl, hs, rfl, .inl ⟨_, rfl⟩⟩
    · exact ⟨rfl, rfl, hs, rfl, .inr rfl⟩

end Send

end AgentOS
