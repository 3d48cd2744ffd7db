import AgentOS.Execution.Compaction

/-!
# The think, act, observe loop

`run`, `run_resumable` and `resume` of an executor, with the loop they share. A turn ends with an
output, with a checkpoint at the boundary where the token was found cancelled, or with an error.

The loop also writes a `trace`, which the program does not have: what was declared and executed, and
in which turn. The turn is the logical one, so a checkpoint carries its number. A batch is the list
of calls that one response declared; `batch` is the one that the history's latest tool-call turn
comes from, if it was declared in the trace.
-/

namespace AgentOS

def maxIterations : Nat := 10

def llmRetries : Nat := 3

/-! ## Turns and their records -/

structure AgentOutput where
  content : Text
  (toolCallsMade tokensUsed : Nat)
  usage : UsageTelemetry
  deriving DecidableEq

structure GenerationCheckpoint where
  (conversationId userMessage : Text)
  messages : List StandardMessage
  partialContent : Text
  (toolCallsMade tokensUsed : Nat)
  usage : UsageTelemetry
  deriving DecidableEq

/-- A `TurnResult`, or the error of the turn. -/
inductive Outcome where
  | completed (output : AgentOutput)
  | paused (checkpoint : GenerationCheckpoint)
  | failed (error : KernelError)
  deriving DecidableEq

/-- What the trace records. -/
inductive TurnEvent where
  /-- A round of the loop begins. -/
  | round (turn : Nat)
  /-- A prompt goes to the session. -/
  | asked (turn : Nat) (prompt : List StandardMessage)
  /-- A response declares tool calls. -/
  | declared (turn batch : Nat) (calls : List ToolCall)
  /-- A call is executed, with the batch it comes from. -/
  | executed (turn : Nat) (batch : Option Nat) (call : ToolCall)
  /-- The caller gets a completed or cancelled output. -/
  | returned (turn : Nat)
  deriving DecidableEq

/-- The number of batches declared so far. -/
def batchCount (trace : List TurnEvent) : Nat :=
  trace.countP fun
    | .declared _ _ _ => true
    | _ => false

/-- The executor inside `drive_loop`, with the variables of the loop. -/
structure Drive (ω : Type) extends Executor ω where
  userMessage : Text
  (toolCallsMade totalTokens : Nat)
  usage : UsageTelemetry
  turn : Nat
  batch : Option Nat
  trace : List TurnEvent

variable {ω : Type}

variable (d : Drive ω)

/-- The loop after a call of the host. -/
def Drive.withHost (host : ω) : Drive ω := { d with host }

/-- The loop after messages were pushed. -/
def Drive.push (messages : List StandardMessage) : Drive ω :=
  { d with messages := d.messages ++ messages }

/-- The loop with one more event in the trace. -/
def Drive.log (event : TurnEvent) : Drive ω :=
  { d with trace := d.trace ++ [event] }

/-- `AgentExecutor::checkpoint` at a boundary, where no partial content exists. -/
def Drive.checkpoint : GenerationCheckpoint where
  conversationId := d.conversationId
  userMessage := d.userMessage
  messages := d.messages
  partialContent := []
  toolCallsMade := d.toolCallsMade
  tokensUsed := d.totalTokens
  usage := d.usage

/-- `AgentExecutor::output`. -/
def Drive.output (content : Text) : AgentOutput where
  content
  toolCallsMade := d.toolCallsMade
  tokensUsed := d.totalTokens
  usage := d.usage

/-! ## Histories -/

/-- The calls of the most recent assistant message that declares any, with the messages after
it. -/
def latestToolTurn : List StandardMessage → Option (List ToolCall × List StandardMessage)
  | [] => none
  | message :: rest =>
    match latestToolTurn rest with
    | some found => some found
    | none => message.toolCalls.map fun calls => (calls, rest)

def pendingToolCalls (messages : List StandardMessage) : List ToolCall :=
  match latestToolTurn messages with
  | none => []
  | some (calls, later) =>
    let completed := later.filterMap StandardMessage.toolCallId
    calls.filter fun call => !completed.contains call.id

/-- The scan of `clean_messages`; the flag says whether the last message that is no tool result
declared tool calls. -/
def cleanFrom (lastHadToolCalls : Bool) : List StandardMessage → List StandardMessage
  | [] => []
  | message :: rest =>
    if message.role = "tool".toList then
      if lastHadToolCalls then message :: cleanFrom lastHadToolCalls rest
      else cleanFrom lastHadToolCalls rest
    else message :: cleanFrom (message.toolCalls.any fun calls => calls ≠ []) rest

def cleanMessages (messages : List StandardMessage) : List StandardMessage :=
  cleanFrom false messages

variable (H : Host ω) (K : Crypto) (C : ExecutorConfig)

/-! ## Sending -/

/-- The usage that is billed: what the provider reported, or the conservative estimate. -/
def billedUsage (reply : ProviderReply) (estimatedInputTokens : Nat) : LlmUsage :=
  if reply.usage.providerReported = true ∧ 0 < reply.usage.total then
    let cachedTokens := min reply.usage.cachedTokens reply.usage.inputTokens
    { inputTokens := reply.usage.inputTokens
      outputTokens := reply.usage.outputTokens
      cachedTokens
      providerReported := cachedTokens == reply.usage.cachedTokens }
  else
    { inputTokens := estimatedInputTokens
      outputTokens := reply.tokensUsed
      cachedTokens := 0
      providerReported := false }

/-- The admissions of an attempt; the token is read once more before the provider is called. -/
def admitRequest (estimatedInputTokens : Nat) (host : ω) : Except KernelError Unit × ω :=
  match H.admitAttempt host estimatedInputTokens with
  | (.error error, host) => (.error error, host)
  | (.ok (), host) =>
    let (cancelled, host) := H.isCancelled host
    if cancelled then
      (.error (.policy "execution cancelled before provider invocation".toList), host)
    else (.ok (), host)

/-- The beginning of an attempt, which waits for the backoff after an earlier failure. -/
def openAttempt (lastError : Option ConnectorError) (estimatedInputTokens : Nat) (host : ω) :
    Except KernelError Unit × ω :=
  match lastError with
  | none => admitRequest H estimatedInputTokens host
  | some _ =>
    let (waitCut, host) := H.isCancelled host
    if waitCut then
      (.error (.policy "execution cancelled during provider retry backoff".toList), host)
    else admitRequest H estimatedInputTokens host

/-- The end of an attempt: the receipt is settled, then the call or the error is returned; only a
transient error leads to the next attempt. -/
def concludeAttempt (estimatedInputTokens attempts latencyMs : Nat)
    (retry : ConnectorError → Nat → ω → Except KernelError ProviderCall × ω)
    (sent : Except ConnectorError ProviderReply × ω) : Except KernelError ProviderCall × ω :=
  match sent.1, H.settleAttempt sent.2 with
  | _, (.error error, host) => (.error error, host)
  | .ok reply, (.ok (), host) =>
    let attempts := saturatingAdd32 attempts (max ((H.lastAttempts host).getD 1) 1)
    (.ok
      { response := reply.response
        usage := billedUsage reply estimatedInputTokens
        attempts
        retries := attempts - 1
        latencyMs
        droppedTools := H.lastToolDegradation host }, host)
  | .error error, (.ok (), host) =>
    if isTransient error then
      retry error (saturatingAdd32 attempts ((H.lastAttempts host).getD 1)) host
    else (.error (.connector error), host)

/-- The attempts of `send_with_retry`. -/
def sendAttempts (clean : List StandardMessage) (tools : List ToolDefinition)
    (estimatedInputTokens : Nat) :
    Nat → Option ConnectorError → (attempts latencyMs : Nat) → ω →
      Except KernelError ProviderCall × ω
  | 0, lastError, _, _, host => (.error (lastError.elim (.refused []) KernelError.connector), host)
  | left + 1, lastError, attempts, latencyMs, host =>
    match openAttempt H lastError estimatedInputTokens host with
    | (.error error, host) => (.error error, host)
    | (.ok (), host) =>
      let sent := H.sendStreaming host clean tools
      let latencyMs := saturatingAdd latencyMs (H.lastLatencyMs sent.2)
      concludeAttempt H estimatedInputTokens attempts latencyMs
        (fun error attempts host =>
          sendAttempts clean tools estimatedInputTokens left (some error) attempts latencyMs host)
        sent

/-- The message for a session that does not bound its completions. -/
def unboundedSession (host : ω) : Text :=
  "provider session ".toList ++ H.providerId host ++ '/' :: H.modelId host ++
    " does not enforce the configured max_output_tokens_per_request=".toList ++
    decimal C.maxOutputTokensPerRequest ++
    "; bounded token admission refuses to call it".toList

def sendWithRetry (host : ω) (messages : List StandardMessage) (tools : List ToolDefinition) :
    Except KernelError ProviderCall × ω :=
  match H.validateToolPolicy host tools with
  | .error error => (.error (.connector error), host)
  | .ok () =>
    if 0 < C.maxOutputTokensPerRequest ∧ H.enforcesMaxOutputTokens host = false then
      (.error (.policy (unboundedSession H C host)), host)
    else
      let clean := cleanMessages messages
      let estimated := saturatingAdd32
        (saturatingAdd32 (estimatePromptTokens H host clean) (conservativeToolTokens tools))
        (H.toolPromptOverhead host tools)
      sendAttempts H clean tools estimated (if H.handlesRetries host then 1 else llmRetries) none
        0 0 host

/-! ## Tool calls -/

def toolCallLimitReached (toolCallsMade : Nat) : Bool :=
  decide (0 < C.maxToolCallsPerTurn) && decide (C.maxToolCallsPerTurn ≤ toolCallsMade)

/-- The output is saved with the conversation before it is returned. -/
def Drive.finish (d : Drive ω) (content : Text) : Outcome × Drive ω :=
  match H.saveConversation d.host d.conversationId d.messages with
  | (.error error, host) => (.failed (.context error), d.withHost host)
  | (.ok (), host) => (.completed (d.output content), d.withHost host)

/-- The content of the output at the limit. -/
def limitContent : Text :=
  "Stopped before tool call: per-turn tool-call limit of ".toList ++
    decimal C.maxToolCallsPerTurn ++ " reached.".toList

/-- The result of a call that was not executed. -/
def skippedResult (call : ToolCall) : StandardMessage :=
  .toolResult call.id ("Tool '".toList ++ call.name ++ "' was not executed: ".toList ++
    limitContent C)

def Drive.stopAtToolCallLimit (d : Drive ω) (skipped : List ToolCall) : Outcome × Drive ω :=
  (d.push (skipped.map (skippedResult C))).finish H (limitContent C)

/-- One execution of a tool call. -/
def Drive.executeCall (d : Drive ω) (call : ToolCall) : Drive ω :=
  let (result, host) := H.executeTool d.host call
  { d with
    host
    toolCallsMade := d.toolCallsMade + 1
    messages := d.messages ++ [.toolResult call.id result]
    trace := d.trace ++ [.executed d.turn d.batch call] }

/-- The loop over tool calls, which `drive_loop` has twice: for the calls that a checkpoint left
and for those of a response. Without an outcome it ran to its end. -/
def runCalls : List ToolCall → Drive ω → Option Outcome × Drive ω
  | [], d => (none, d)
  | call :: rest, d =>
    let (cancelled, host) := H.isCancelled d.host
    let d := d.withHost host
    if cancelled then (some (.paused d.checkpoint), d)
    else if toolCallLimitReached C d.toolCallsMade then
      (d.stopAtToolCallLimit H C (call :: rest)).map some id
    else runCalls rest (d.executeCall H call)

/-! ## Rounds -/

/-- `parse_tool_calls`: the requests of a plain text, numbered in order. -/
def parseToolCalls (content : Text) : List ToolCall :=
  ((H.plaintextRequests content).filter fun request => request.1 ≠ []).zipIdx.map
    fun (request, index) =>
      { id := "shim_call_".toList ++ decimal index, name := request.1, arguments := request.2 }

variable (response : LlmResponse)

/-- The tool calls of a response: the native ones, or those recovered from a text without replay
state. -/
def responseToolCalls : List ToolCall :=
  if response.toolCalls = [] ∧ response.providerMetadata = none then
    parseToolCalls H response.content
  else response.toolCalls

/-- The number of calls recovered from a text. -/
def shimRecovered : Nat :=
  if response.toolCalls = [] ∧ response.providerMetadata = none then
    min (parseToolCalls H response.content).length u32Max
  else 0

/-- The accounting for a response. -/
def Drive.account (d : Drive ω) (call : ProviderCall) : Drive ω :=
  let usage := d.usage.record call
  let (chargedMicros, host) := H.recordUsageCharge d.host call.usage
  { d with
    host
    totalTokens := saturatingAdd32 d.totalTokens call.usage.total
    usage :=
      { usage with
        chargedCostMicros := saturatingAdd usage.chargedCostMicros chargedMicros
        shimRecoveredToolCalls :=
          saturatingAdd32 usage.shimRecoveredToolCalls (shimRecovered H call.response) } }

/-- The assistant message for a response without tool calls. -/
def answerMessage : StandardMessage :=
  { StandardMessage.assistant response.content with providerMetadata := response.providerMetadata }

/-- The assistant message that declares tool calls. -/
def toolCallMessage (calls : List ToolCall) : StandardMessage :=
  { StandardMessage.assistant response.content with
    toolCalls := some calls
    providerMetadata := response.providerMetadata }

/-- A response without tool calls ends the turn; a long one is also stored as a fact. -/
def Drive.answer (d : Drive ω) (response : LlmResponse) : Outcome × Drive ω :=
  let host :=
    if 100 < byteLength response.content then H.storeFact d.host response.content else d.host
  ((d.withHost host).push [answerMessage response]).finish H response.content

/-- A response with tool calls is committed to the history before the first of them runs. -/
def Drive.declare (response : LlmResponse) (calls : List ToolCall) : Drive ω :=
  { d with
    messages := d.messages ++ [toolCallMessage response calls]
    batch := some (batchCount d.trace)
    trace := d.trace ++ [.declared d.turn (batchCount d.trace) calls] }

/-- The round after the response. -/
def Drive.observe (d : Drive ω) (response : LlmResponse) : Option Outcome × Drive ω :=
  let calls := responseToolCalls H response
  if calls = [] then (d.answer H response).map some id
  else runCalls H C calls (d.declare response calls)

/-- A failed request pauses the turn if the token is cancelled. -/
def Drive.requestFailed (d : Drive ω) (error : KernelError) : Option Outcome × Drive ω :=
  let (cancelled, host) := H.isCancelled d.host
  let d := d.withHost host
  if cancelled then (some (.paused d.checkpoint), d) else (some (.failed error), d)

/-- The round after compaction: the budget, the request, the response. -/
def Drive.think (d : Drive ω) (tools : List ToolDefinition) : Option Outcome × Drive ω :=
  match H.beginCall d.host with
  | (.error message, host) =>
    ((d.withHost host).finish H
      ("Stopped before LLM call: ".toList ++ message ++ ".".toList)).map some id
  | (.ok (), host) =>
    let d := d.log (.asked d.turn (cleanMessages d.messages))
    match sendWithRetry H C host d.messages tools with
    | (.error error, host) => (d.withHost host).requestFailed H error
    | (.ok call, host) => ((d.withHost host).account H call).observe H C call.response

/-- A round that the token lets begin. -/
def Drive.beginRound (d : Drive ω) (tools : List ToolDefinition) : Option Outcome × Drive ω :=
  let d := d.log (.round d.turn)
  match compactToTokenBudget H K C d.toExecutor tools with
  | (.error error, e) => (some (.failed error), { d with toExecutor := e })
  | (.ok (), e) => Drive.think H C { d with toExecutor := e } tools

/-- The output when every round asked for tools. -/
def maxIterationsContent : Text :=
  ("I've reached the maximum number of tool call iterations. " ++
    "Here's what I've done so far.").toList

/-- The loop returns an outcome if there is one, and goes on otherwise. -/
def proceed (next : Drive ω → Outcome × Drive ω) : Option Outcome × Drive ω → Outcome × Drive ω
  | (some outcome, d) => (outcome, d)
  | (none, d) => next d

/-- The rounds of `drive_loop`. -/
def rounds (tools : List ToolDefinition) : Nat → Drive ω → Outcome × Drive ω
  | 0, d => (.completed (d.output maxIterationsContent), d)
  | left + 1, d =>
    let (cancelled, host) := H.isCancelled d.host
    let d := d.withHost host
    if cancelled then (.paused d.checkpoint, d)
    else proceed (rounds tools left) (d.beginRound H K C tools)

def driveLoop (d : Drive ω) : Outcome × Drive ω :=
  let tools := H.definitionsForAgent d.host
  proceed (rounds H K C tools maxIterations) (runCalls H C (pendingToolCalls d.messages) d)

/-! ## Entry points -/

def prepareTurn (e : Executor ω) (userMessage : Text) : Executor ω :=
  let (facts, host) := H.queryMemory e.host userMessage
  let memories :=
    if facts = [] then []
    else [StandardMessage.system
      ("Relevant memories:\n".toList ++ (facts.intersperse "\n".toList).flatten)]
  let rules := ((H.rulesAsPrompt host userMessage).map StandardMessage.system).toList
  { e with
    host
    messages := e.messages ++ memories ++ rules ++ [.user userMessage] }

/-- The loop at the start of a turn. -/
def startDrive (e : Executor ω) (userMessage : Text) (turn : Nat) (batch : Option Nat)
    (trace : List TurnEvent) : Drive ω :=
  { prepareTurn H e userMessage with
    userMessage
    toolCallsMade := 0
    totalTokens := 0
    usage := {}
    turn
    batch
    trace }

/-- The loop where a checkpoint left it. A partial content is put back as assistant text. -/
def resumeDrive (host : ω) (checkpoint : GenerationCheckpoint) (turn : Nat)
    (batch : Option Nat) (trace : List TurnEvent) : Drive ω where
  host
  conversationId := checkpoint.conversationId
  messages := checkpoint.messages ++
    (if checkpoint.partialContent = [] then [] else [.assistant checkpoint.partialContent])
  userMessage := checkpoint.userMessage
  toolCallsMade := checkpoint.toolCallsMade
  totalTokens := checkpoint.tokensUsed
  usage := checkpoint.usage
  turn
  batch
  trace

end AgentOS
