import AgentOS.Base.Text

/-!
# Messages, tools and errors of the connector

`StandardMessage` and `ToolDefinition` as the executor hands them to a provider, the replay state
that binds an assistant message to one provider and model (`validate_provider_history`), the
plaintext replacement of tool definitions (`render_tools_prompt`) and the connector's errors with
their classification (`is_transient`). A JSON value is kept as its compact text, which
`serde_json` writes for it and which determines it.
-/

namespace AgentOS

open Lib

abbrev ProviderId : Type := Text

/-! ## Errors -/

structure ProviderErrorContext where
  provider : ProviderId
  message : Text
  requestId : Option Text
  deriving DecidableEq

structure ProviderRateLimit where
  context : ProviderErrorContext
  retryAfterMs : Option Nat
  deriving DecidableEq

inductive ConnectorError where
  | providerUnavailable (detail : Text)
  | connectionFailed (detail : Text)
  | protocolError (detail : Text)
  | streamError (detail : Text)
  | partialStream (detail : Text)
  | authentication (context : ProviderErrorContext)
  | authorization (context : ProviderErrorContext)
  | rateLimited (limit : ProviderRateLimit)
  | serviceUnavailable (context : ProviderErrorContext)
  | invalidRequest (context : ProviderErrorContext)
  | toolIncompatiblePrimary (context : ProviderErrorContext)
  | contentFiltered (context : ProviderErrorContext)
  | timeout (context : ProviderErrorContext)
  | cancelled (context : ProviderErrorContext)
  deriving DecidableEq

def isTransient : ConnectorError → Bool
  | .providerUnavailable _ | .connectionFailed _ | .streamError _ | .rateLimited _
  | .serviceUnavailable _ | .timeout _ => true
  | .protocolError _ | .partialStream _ | .authentication _ | .authorization _
  | .invalidRequest _ | .toolIncompatiblePrimary _ | .contentFiltered _ | .cancelled _ => false

/-- The provider was told to stop, or refused the content. -/
def isCancelledOrFiltered : ConnectorError → Bool
  | .cancelled _ | .contentFiltered _ => true
  | _ => false

/-- The errors after which the failover loop returns at once. -/
def endsFailover : ConnectorError → Bool
  | .cancelled _ | .contentFiltered _ | .partialStream _ => true
  | _ => false

theorem endsFailover_of_isCancelledOrFiltered {e : ConnectorError}
    (h : isCancelledOrFiltered e = true) : endsFailover e = true := by
  cases e <;> simp_all [isCancelledOrFiltered, endsFailover]

theorem isTransient_of_endsFailover {e : ConnectorError} (h : endsFailover e = true) :
    isTransient e = false := by
  cases e <;> simp_all [isTransient, endsFailover]

/-- `ConnectorError::cancelled`; its message is the constructor's own. -/
def cancelledError (provider : ProviderId) (requestId : Option Text) : ConnectorError :=
  .cancelled ⟨provider, "request cancelled".toList, requestId⟩

/-- `ConnectorError::invalid_request`. -/
def invalidRequestError (provider : ProviderId) (message : Text) (requestId : Option Text) :
    ConnectorError :=
  .invalidRequest ⟨provider, message, requestId⟩

/-! ## Messages and tools -/

structure ToolCall where
  (id name arguments : Text)
  deriving DecidableEq

structure ToolDefinition where
  (name description parameters : Text)
  deriving DecidableEq

structure ProviderMessageMetadata where
  providerId : ProviderId
  (modelId payload : Text)
  deriving DecidableEq

structure StandardMessage where
  (role content : Text)
  toolCallId : Option Text
  toolCalls : Option (List ToolCall)
  providerMetadata : Option ProviderMessageMetadata
  deriving DecidableEq

namespace StandardMessage

/-- A message that only has a role and a content. -/
def plain (role content : Text) : StandardMessage :=
  { role, content, toolCallId := none, toolCalls := none, providerMetadata := none }

/-- `StandardMessage::user`. -/
def user (content : Text) : StandardMessage := plain "user".toList content

/-- `StandardMessage::assistant`. -/
def assistant (content : Text) : StandardMessage := plain "assistant".toList content

/-- `StandardMessage::system`. -/
def system (content : Text) : StandardMessage := plain "system".toList content

/-- `StandardMessage::tool_result`. -/
def toolResult (toolCallId content : Text) : StandardMessage :=
  { plain "tool".toList content with toolCallId := some toolCallId }

end StandardMessage

structure LlmResponse where
  content : Text
  toolCalls : List ToolCall
  providerMetadata : Option ProviderMessageMetadata
  deriving DecidableEq

def validateProviderHistory (messages : List StandardMessage) (provider : ProviderId)
    (model : Text) : Except ConnectorError Unit :=
  rejectIf ((messages.filterMap StandardMessage.providerMetadata).any fun metadata =>
      metadata.providerId != provider || metadata.modelId != model)
    (.protocolError
      "provider replay history is incompatible with the selected provider or model".toList)

/-- Every message with replay state names the provider and the model. -/
def ReplayableBy (provider : ProviderId) (model : Text) (messages : List StandardMessage) : Prop :=
  ∀ message ∈ messages, ∀ metadata, message.providerMetadata = some metadata →
    metadata.providerId = provider ∧ metadata.modelId = model

theorem validateProviderHistory_eq_ok {msgs : List StandardMessage} {provider : ProviderId}
    {model : Text} {u : Unit} :
    validateProviderHistory msgs provider model = .ok u ↔ ReplayableBy provider model msgs := by
  rw [validateProviderHistory, rejectIf_eq_ok, Bool.not_eq_true, List.any_eq_false]
  constructor
  · intro h msg hme md hm
    have hmem : md ∈ msgs.filterMap StandardMessage.providerMetadata :=
      List.mem_filterMap.2 ⟨msg, hme, hm⟩
    simpa using h md hmem
  · intro h md hmem
    obtain ⟨msg, hme, hm⟩ := List.mem_filterMap.1 hmem
    simpa using h msg hme md hm

/-- What `render_tools_prompt` writes for one tool. -/
def renderTool (tool : ToolDefinition) : Text :=
  "\n- ".toList ++ tool.name ++
    (if tool.description = [] then [] else ": ".toList ++ tool.description) ++ "\n".toList ++
    "  parameters: ".toList ++ tool.parameters ++ "\n".toList

def renderToolsPrompt (tools : List ToolDefinition) : Text :=
  if tools = [] then []
  else
    ("You can call tools. When you want to use a tool, respond with a fenced JSON code block " ++
      "containing an object of the form:\n\n```json\n" ++
      "\x7b\"tool\": \"<tool_name>\", \"arguments\": \x7b ... \x7d\x7d\n```\n\n" ++
      "Emit one such block per tool call. Put nothing else inside the block. When you do not " ++
      "need a tool, reply with plain text instead.\n\nAvailable tools:\n").toList ++
      tools.flatMap renderTool

end AgentOS
