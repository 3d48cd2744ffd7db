import AgentOS.Connector.Message
import AgentOS.Base.Json
import AgentOS.Base.Word

/-!
# Messages on the wire

The compact JSON that `serde_json` writes for messages, tool calls and tool definitions, and the
token counts that the executor derives from it: one token per byte of the encoding, saturated at
`u32::MAX`.
-/

namespace AgentOS

/-- A `ToolCall`; its arguments are JSON already. -/
def encodeToolCall (call : ToolCall) : Text :=
  jsonObject [("id".toList, jsonString call.id), ("name".toList, jsonString call.name),
    ("arguments".toList, call.arguments)]

/-- A `ProviderMessageMetadata`. -/
def encodeMetadata (metadata : ProviderMessageMetadata) : Text :=
  jsonObject [("provider_id".toList, jsonString metadata.providerId),
    ("model_id".toList, jsonString metadata.modelId), ("payload".toList, metadata.payload)]

/-- A `StandardMessage`, whose absent members are skipped. -/
def encodeMessage (message : StandardMessage) : Text :=
  jsonObject
    ([("role".toList, jsonString message.role), ("content".toList, jsonString message.content)] ++
      (message.toolCallId.map fun id => ("tool_call_id".toList, jsonString id)).toList ++
      (message.toolCalls.map fun calls =>
        ("tool_calls".toList, jsonArray (calls.map encodeToolCall))).toList ++
      (message.providerMetadata.map fun metadata =>
        ("provider_metadata".toList, encodeMetadata metadata)).toList)

/-- A list of messages. -/
def encodeMessages (messages : List StandardMessage) : Text :=
  jsonArray (messages.map encodeMessage)

/-- A `ToolDefinition`. -/
def encodeToolDefinition (tool : ToolDefinition) : Text :=
  jsonObject [("name".toList, jsonString tool.name),
    ("description".toList, jsonString tool.description), ("parameters".toList, tool.parameters)]

/-- A list of tool definitions. -/
def encodeToolDefinitions (tools : List ToolDefinition) : Text :=
  jsonArray (tools.map encodeToolDefinition)

/-! ## Token counts -/

/-- `conservative_serialized_tokens` of an encoded value. -/
def conservativeSerializedTokens (encoded : Text) : Nat := min (byteLength encoded) u32Max

def conservativeToolTokens (tools : List ToolDefinition) : Nat :=
  if tools = [] then 0 else conservativeSerializedTokens (encodeToolDefinitions tools)

/-- The floor below which no provider estimate of a prompt may fall: the bytes of the encoding and
four tokens of framing for each message, whose number is cast to `u32`. -/
def structuralFloor (messages : List StandardMessage) : Nat :=
  saturatingAdd32 (conservativeSerializedTokens (encodeMessages messages))
    (min (messages.length % 2 ^ 32 * 4) u32Max)

end AgentOS
