import AgentOS.Authority.Runs

/-!
# Exactly-once commands

A committed command leaves a receipt under its operation identifier, and receipts are never
removed or replaced. A later command with the identifier is answered from the receipt, or refused
if it differs in more than its proposed instant. A clock command is outside the receipt table: it
moves the logical clock and nothing else, also under an identifier that is taken.
-/

namespace AgentOS

open Lib

section Step

variable {K : Crypto} {state : AuthorityState} {command : AuthorityCommand} {logId : LogId}

end Step

/-- The response of a replay carries the metadata of the original one. -/
theorem CommitResponse.replay {state : AuthorityState} {command : AuthorityCommand} {logId : LogId}
    {resp : AuthorityResponse} (h : CommitResponse state command logId resp) :
    resp.replayResponse.successfulResponseMetadata =
      some (command.operationId, state.sequence + 1, logId, true) := by
  have hm := h.metadata
  cases resp <;> cases hm <;> rfl

end AgentOS
