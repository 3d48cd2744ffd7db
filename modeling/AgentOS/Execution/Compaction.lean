import AgentOS.Execution.Host

/-!
# Compaction of the active prompt

`compact_to_token_budget`: when the estimate of the messages and tools is over the budget, old
messages are written to a durable spill and replaced by one reference. Required system messages,
the latest tool-call turn and the native history are pinned; of the rest the newest that fit are
kept, and as long as the actual prompt does not fit, the oldest of them is evicted as well.
-/

namespace AgentOS

variable {ω : Type} (H : Host ω) (K : Crypto) (C : ExecutorConfig)

/-- `AgentExecutor::estimate_prompt_tokens`. -/
def estimatePromptTokens (host : ω) (messages : List StandardMessage) : Nat :=
  match H.estimatePromptTokens host messages with
  | none => structuralFloor messages
  | some estimate => max estimate (structuralFloor messages)

/-- The tokens that the tool definitions take in every prompt. -/
def toolTokens (host : ω) (tools : List ToolDefinition) : Nat :=
  saturatingAdd32 (conservativeToolTokens tools) (H.toolPromptOverhead host tools)

/-! ## The choice of the kept messages -/

/-- The message is a reference that an earlier compaction left. -/
def isSpillReference (message : StandardMessage) : Bool :=
  "[Durable context spill:".toList.isPrefixOf message.content ||
    "[Context spill:".toList.isPrefixOf message.content

/-- A system message that no compaction wrote. -/
def isRequiredSystem (message : StandardMessage) : Bool :=
  message.role == "system".toList && !isSpillReference message

variable (messages : List StandardMessage)

/-- The position of the last message that declares tool calls. -/
def latestToolState : Option Nat :=
  (messages.reverse.findIdx? fun message => message.toolCalls.isSome).map fun index =>
    messages.length - 1 - index

/-- The position of the first message with replay state. -/
def nativeHistoryStart : Option Nat :=
  messages.findIdx? fun message => message.providerMetadata.isSome

/-- Which messages may not be evicted. -/
def pinnedFlags : List Bool :=
  messages.zipIdx.map fun (message, index) =>
    isRequiredSystem message || (latestToolState messages).any (fun start => decide (start ≤ index))
      || (nativeHistoryStart messages).any fun start => decide (start ≤ index)

/-- The messages under a flag. -/
def flagged (flags : List Bool) : List StandardMessage :=
  ((messages.zip flags).filter fun entry => entry.2).map Prod.fst

/-- The messages under no flag. -/
def unflagged (flags : List Bool) : List StandardMessage :=
  ((messages.zip flags).filter fun entry => !entry.2).map Prod.fst

/-- The flags of the kept messages and the tokens that remain: from the newest message on, each one
that is not pinned is kept if it fits. -/
def keepNewest (host : ω) (remaining : Nat) : List (StandardMessage × Bool) → List Bool × Nat
  | [] => ([], remaining)
  | (message, pinned) :: newer =>
    let (flags, remaining) := keepNewest host remaining newer
    let tokens := estimatePromptTokens H host [message]
    if pinned then (true :: flags, remaining)
    else if tokens ≤ remaining then (true :: flags, remaining - tokens)
    else (false :: flags, remaining)

/-! ## The eviction loop -/

/-- The first position that is kept and not pinned. -/
def firstEvictable : (pinned keep : List Bool) → Option Nat
  | pin :: pinned, kept :: keep =>
    if kept && !pin then some 0 else (firstEvictable pinned keep).map (· + 1)
  | _, _ => none

/-- The number of positions that are kept and not pinned. -/
def evictableCount (pinned keep : List Bool) : Nat :=
  (pinned.zip keep).countP fun entry => entry.2 && !entry.1

theorem evictableCount_set_lt {pinned keep : List Bool} {i : Nat}
    (h : firstEvictable pinned keep = some i) :
    evictableCount pinned (keep.set i false) < evictableCount pinned keep := by
  induction pinned generalizing keep i with
  | nil => simp [firstEvictable] at h
  | cons pin pinned ih =>
    cases keep with
    | nil => simp [firstEvictable] at h
    | cons kept keep =>
      unfold firstEvictable at h
      split at h
      · next hf =>
        cases h
        simp [evictableCount, hf]
      · obtain ⟨later, hl, rfl⟩ := Option.map_eq_some_iff.1 h
        have hlt := ih hl
        simp only [evictableCount] at hlt
        simp [evictableCount, List.countP_cons, hlt]

/-- The loop: the flags of a prompt that fits, or the flags when nothing is left to evict. -/
def evictUntilFits (fits : List Bool → Bool) (pinned keep : List Bool) :
    Except (List Bool) (List Bool) :=
  if fits keep then .ok keep
  else
    match _h : firstEvictable pinned keep with
    | some index => evictUntilFits fits pinned (keep.set index false)
    | none => .error keep
termination_by evictableCount pinned keep
decreasing_by exact evictableCount_set_lt _h

/-! ## The reference -/

/-- The evicted messages as they are stored. -/
def spillJson (keep : List Bool) : Text :=
  encodeMessages (unflagged messages keep)

/-- The digest of a stored spill. -/
def spillDigest (encoded : Text) : Text := K.sha256Hex (asBytes encoded)

/-- The distinct roles in order, as a `BTreeSet` lists them. -/
def joinedRoles : Text :=
  ((messages.map StandardMessage.role).dedup.insertionSort (· ≤ ·)).intersperse [','] |>.flatten

/-- The reference with the roles of the evicted messages. -/
def longReference (key : Text) (evicted : List StandardMessage) : StandardMessage :=
  .system ("[Durable context spill: key=".toList ++ key ++ "; sha256-prefix=".toList ++
    (spillDigest K (encodeMessages evicted)).take 16 ++ "; messages=".toList ++
    decimal evicted.length ++ "; roles=".toList ++ joinedRoles evicted ++
    ". Page in with StorageGet before relying on omitted detail.]".toList)

/-- The reference for a small reserve. -/
def shortReference (key : Text) (evicted : List StandardMessage) : StandardMessage :=
  .system ("[Context spill: key=".toList ++ key ++ "; sha256-prefix=".toList ++
    (spillDigest K (encodeMessages evicted)).take 16 ++ "; n=".toList ++
    decimal evicted.length ++ "]".toList)

/-- The reference that stands for the evicted messages. -/
def spillReference (host : ω) (reserve : Nat) (key : Text) (evicted : List StandardMessage) :
    StandardMessage :=
  if reserve < estimatePromptTokens H host [longReference K key evicted] then
    shortReference K key evicted
  else longReference K key evicted

/-- The kept messages, with the reference before the place of the second message. -/
def compactedMessages (reference : StandardMessage) (messages : List StandardMessage)
    (keep : List Bool) : List StandardMessage :=
  (messages.zip keep).zipIdx.flatMap fun (entry, index) =>
    (if index = 1 then [reference] else []) ++ (if entry.2 then [entry.1] else [])

/-! ## Compaction -/

variable (e : Executor ω)

/-- The prompt for a choice of kept messages. -/
def candidatePrompt (reserve : Nat) (key : Text) (keep : List Bool) : List StandardMessage :=
  compactedMessages (spillReference H K e.host reserve key (unflagged e.messages keep)) e.messages
    keep

/-- A failed compaction records the pressure and changes nothing else. -/
def refuseCompaction (originalTokens : Nat) (message : Text) (error : KernelError) :
    Except KernelError Unit × Executor ω :=
  (.error error,
    { e with
      host := H.recordContextPressure e.host
        ⟨originalTokens, C.contextBudgetTokens, 0, some message⟩ })

/-- The end of a compaction that found a prompt: the spill is stored first, and the messages change
only if that succeeds. -/
def commitCompaction (tokensOfTools originalTokens reserve : Nat) (key : Text) (keep : List Bool) :
    Except KernelError Unit × Executor ω :=
  let encoded := spillJson e.messages keep
  let compacted := candidatePrompt H K e reserve key keep
  match H.storeContextSpill e.host key encoded (spillDigest K encoded) with
  | (.error error, host) =>
    refuseCompaction H C { e with host } originalTokens
      ("context spill persistence failed: ".toList ++ error) (.context error)
  | (.ok (), host) =>
    let activeTokens :=
      saturatingAdd32 (estimatePromptTokens H e.host compacted) tokensOfTools
    (.ok (),
      { e with
        host := H.recordContextPressure host
          ⟨activeTokens, C.contextBudgetTokens, (unflagged e.messages keep).length, none⟩
        messages := compacted })

/-- The message for tool definitions that fill the budget. -/
def toolPressure (tokensOfTools budget : Nat) : Text :=
  "context pressure: tool definitions require ".toList ++ decimal tokensOfTools ++
    " tokens but the active budget is ".toList ++ decimal budget ++
    "; increase max_context_tokens or reduce registered tool schemas".toList

/-- The message for pinned messages that do not fit. -/
def pinnedPressure (pinnedTokens tokensOfTools budget : Nat) : Text :=
  "context pressure: pinned system/tool state requires ".toList ++ decimal pinnedTokens ++
    " tokens plus ".toList ++ decimal tokensOfTools ++
    " tool-definition tokens but the active budget is ".toList ++ decimal budget ++
    "; increase max_context_tokens or shorten required state".toList

/-- The message for a reference that does not fit beside the pinned messages. -/
def referencePressure (activeTokens tokensOfTools budget : Nat) : Text :=
  "context pressure: durable reference plus pinned state requires ".toList ++
    decimal activeTokens ++ " tokens plus ".toList ++ decimal tokensOfTools ++
    " tool-definition tokens but budget is ".toList ++ decimal budget

/-- The message when every message is kept. -/
def nothingEvictable : Text :=
  "context pressure: active prompt exceeds its budget but no state is safely evictable".toList

/-- The part of `compact_to_token_budget` after the checks on the tools and the pinned messages. -/
def evictAndCommit (tokensOfTools originalTokens messageBudget pinnedTokens : Nat) :
    Except KernelError Unit × Executor ω :=
  let pinned := pinnedFlags e.messages
  let reserve := min 36 (messageBudget - pinnedTokens)
  let keep := (keepNewest H e.host (messageBudget - pinnedTokens - reserve)
    (e.messages.zip pinned)).1
  if keep.all id then
    refuseCompaction H C e originalTokens nothingEvictable (.policy nothingEvictable)
  else
    let (uuid, host) := H.newUuid e.host
    let e := { e with host }
    let key := "context_spill:".toList ++ e.conversationId ++ ':' :: uuid.toString
    let fits := fun keep =>
      decide (estimatePromptTokens H e.host (candidatePrompt H K e reserve key keep) ≤
        messageBudget)
    match evictUntilFits fits pinned keep with
    | .ok keep => commitCompaction H K C e tokensOfTools originalTokens reserve key keep
    | .error keep =>
      let activeTokens := estimatePromptTokens H e.host (candidatePrompt H K e reserve key keep)
      let message := referencePressure activeTokens tokensOfTools C.contextBudgetTokens
      refuseCompaction H C e originalTokens message (.policy message)

def compactToTokenBudget (tools : List ToolDefinition) : Except KernelError Unit × Executor ω :=
  match H.validateToolPolicy e.host tools with
  | .error error => (.error (.connector error), e)
  | .ok () =>
    let budget := C.contextBudgetTokens
    if budget = 0 then (.ok (), e)
    else
      let tokensOfTools := toolTokens H e.host tools
      let originalTokens :=
        saturatingAdd32 (estimatePromptTokens H e.host e.messages) tokensOfTools
      if originalTokens ≤ budget then (.ok (), e)
      else
        let messageBudget := budget - tokensOfTools
        if budget ≤ tokensOfTools then
          let message := toolPressure tokensOfTools budget
          refuseCompaction H C e originalTokens message (.policy message)
        else
          let pinnedTokens :=
            estimatePromptTokens H e.host (flagged e.messages (pinnedFlags e.messages))
          if messageBudget < pinnedTokens then
            let message := pinnedPressure pinnedTokens tokensOfTools budget
            refuseCompaction H C e originalTokens message (.policy message)
          else evictAndCommit H K C e tokensOfTools originalTokens messageBudget pinnedTokens

end AgentOS
