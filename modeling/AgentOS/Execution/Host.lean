import AgentOS.Execution.Encoding
import AgentOS.Base.Uuid

/-!
# What the executor calls

An `AgentExecutor` works on its message history and calls everything else: the provider session,
the tools, the cancellation token, the budget, the stores. `Host ω` is these calls over a state `ω`
of their own, so that a result for every host is a result for every provider, every tool and every
moment at which the token is cancelled. The calls that only look take the state and leave it.
-/

namespace AgentOS

/-- `KernelError`, as far as the executor raises it. -/
inductive KernelError where
  | policy (message : Text)
  | connector (error : ConnectorError)
  | context (detail : Text)
  | refused (detail : Text)
  deriving DecidableEq

/-! ## Usage -/

structure LlmUsage where
  (inputTokens outputTokens cachedTokens : Nat)
  providerReported : Bool
  deriving DecidableEq

/-- `LlmUsage::total`. -/
def LlmUsage.total (usage : LlmUsage) : Nat := saturatingAdd32 usage.inputTokens usage.outputTokens

/-- What a session returns for one request: the response with its token counts. -/
structure ProviderReply where
  response : LlmResponse
  tokensUsed : Nat
  usage : LlmUsage
  deriving DecidableEq

structure ProviderCall where
  response : LlmResponse
  usage : LlmUsage
  (attempts retries latencyMs : Nat)
  droppedTools : Option Nat
  deriving DecidableEq

structure UsageTelemetry where
  inputTokens : Nat := 0
  outputTokens : Nat := 0
  cachedTokens : Nat := 0
  llmRequests : Nat := 0
  retries : Nat := 0
  providerLatencyMs : Nat := 0
  providerReportedRequests : Nat := 0
  estimatedRequests : Nat := 0
  chargedCostMicros : Nat := 0
  degradedRequests : Nat := 0
  droppedNativeToolDefinitions : Nat := 0
  shimRecoveredToolCalls : Nat := 0
  deriving DecidableEq

/-- `UsageTelemetry::record`. -/
def UsageTelemetry.record (usage : UsageTelemetry) (call : ProviderCall) : UsageTelemetry :=
  { usage with
    degradedRequests :=
      match call.droppedTools with
      | some _ => saturatingAdd32 usage.degradedRequests 1
      | none => usage.degradedRequests
    droppedNativeToolDefinitions :=
      match call.droppedTools with
      | some dropped => saturatingAdd32 usage.droppedNativeToolDefinitions dropped
      | none => usage.droppedNativeToolDefinitions
    inputTokens := saturatingAdd32 usage.inputTokens call.usage.inputTokens
    outputTokens := saturatingAdd32 usage.outputTokens call.usage.outputTokens
    cachedTokens := saturatingAdd32 usage.cachedTokens call.usage.cachedTokens
    llmRequests := saturatingAdd32 usage.llmRequests call.attempts
    retries := saturatingAdd32 usage.retries call.retries
    providerLatencyMs := saturatingAdd usage.providerLatencyMs call.latencyMs
    providerReportedRequests :=
      if call.usage.providerReported then saturatingAdd32 usage.providerReportedRequests 1
      else usage.providerReportedRequests
    estimatedRequests :=
      if call.usage.providerReported then usage.estimatedRequests
      else saturatingAdd32 usage.estimatedRequests 1 }

/-! ## The calls -/

/-- The arguments of `record_context_pressure`. -/
structure ContextPressure where
  (activeTokens budgetTokens evictedMessages : Nat)
  failure : Option Text
  deriving DecidableEq

/-- The calls of the executor. -/
structure Host (ω : Type) where
  /-- `CancellationToken::is_cancelled`. -/
  isCancelled : ω → Bool × ω
  /-- `ToolRegistry::definitions_for_agent`. -/
  definitionsForAgent : ω → List ToolDefinition
  /-- The contents of the facts that `query_memory` finds, none on an error. -/
  queryMemory : ω → Text → List Text × ω
  /-- `RuleStore::rules_as_prompt`, if there is a store. -/
  rulesAsPrompt : ω → Text → Option Text
  /-- `LlmSession::provider_id`. -/
  providerId : ω → ProviderId
  /-- `LlmSession::model_id`. -/
  modelId : ω → Text
  /-- `LlmSession::validate_tool_policy`. -/
  validateToolPolicy : ω → List ToolDefinition → Except ConnectorError Unit
  /-- `LlmSession::estimate_prompt_tokens`. -/
  estimatePromptTokens : ω → List StandardMessage → Option Nat
  /-- `LlmSession::tool_prompt_overhead`. -/
  toolPromptOverhead : ω → List ToolDefinition → Nat
  /-- `LlmSession::enforces_max_output_tokens`. -/
  enforcesMaxOutputTokens : ω → Bool
  /-- `LlmSession::handles_retries`. -/
  handlesRetries : ω → Bool
  /-- `Uuid::new_v4`. -/
  newUuid : ω → Uuid × ω
  /-- `store_context_spill` of a key, the encoded messages and their digest. -/
  storeContextSpill : ω → (key spillJson digest : Text) → Except Text Unit × ω
  /-- `record_context_pressure`, whose result is dropped. -/
  recordContextPressure : ω → ContextPressure → ω
  /-- `BudgetEnforcer::begin_call`, with the message of an exceeded ceiling. -/
  beginCall : ω → Except Text Unit × ω
  /-- The admissions of one attempt: active context, rate limits, the scheduler. -/
  admitAttempt : ω → (estimatedInputTokens : Nat) → Except KernelError Unit × ω
  /-- `send_streaming_events_controlled`. -/
  sendStreaming : ω → List StandardMessage → List ToolDefinition →
    Except ConnectorError ProviderReply × ω
  /-- `LlmSession::last_attempts`. -/
  lastAttempts : ω → Option Nat
  /-- The number of tools that `LlmSession::last_tool_degradation` reports as dropped. -/
  lastToolDegradation : ω → Option Nat
  /-- The milliseconds that the last request took. -/
  lastLatencyMs : ω → Nat
  /-- The reconciliation of the rate-limit receipt after an attempt. -/
  settleAttempt : ω → Except KernelError Unit × ω
  /-- The micro-USD that `record_usage_charge` returns. -/
  recordUsageCharge : ω → LlmUsage → Nat × ω
  /-- The names and arguments of the tool requests in a plain text. -/
  plaintextRequests : Text → List (Text × Text)
  /-- `execute_tool`. -/
  executeTool : ω → ToolCall → Text × ω
  /-- `store_fact` of a response's content, whose result is dropped. -/
  storeFact : ω → Text → ω
  /-- `save_conversation`. -/
  saveConversation : ω → (conversationId : Text) → List StandardMessage → Except Text Unit × ω

/-- The settings of an executor. -/
structure ExecutorConfig where
  (contextBudgetTokens maxToolCallsPerTurn maxOutputTokensPerRequest : Nat)
  deriving DecidableEq

/-- The part of an `AgentExecutor` that its own calls change, with the state of the host. -/
structure Executor (ω : Type) where
  host : ω
  conversationId : Text
  messages : List StandardMessage

end AgentOS
