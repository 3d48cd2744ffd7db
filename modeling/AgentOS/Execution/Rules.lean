import AgentOS.Execution.Pending

/-!
# Invariants of the loop

A property of the loop's state and of the calls that are still to be made holds when `drive_loop`
returns, if the single updates keep it: `driveLoop_invariant`. The induction over the calls and over
the rounds is done here once; the results on turns and transcripts give the single updates.
-/

namespace AgentOS

variable {ω : Type} (H : Host ω) (K : Crypto) (C : ExecutorConfig)

/-- The single updates of the loop keep `P remaining d`, where `remaining` are the calls of the
present batch that still have to be made. -/
structure LoopInvariant (P : List ToolCall → Drive ω → Prop) : Prop where
  /-- A call of the host that changes nothing of the executor. -/
  host : ∀ remaining d host, P remaining d → P remaining (d.withHost host)
  /-- A call is made below the limit. -/
  execute : ∀ call rest d, P (call :: rest) d →
    toolCallLimitReached C d.toolCallsMade = false → P rest (d.executeCall H call)
  /-- At the limit the calls get results without being made. -/
  skip : ∀ remaining d, P remaining d → P [] (d.push (remaining.map (skippedResult C)))
  round : ∀ d, P [] d → P [] (d.log (.round d.turn))
  compact : ∀ d tools, P [] d →
    P [] { d with toExecutor := (compactToTokenBudget H K C d.toExecutor tools).2 }
  ask : ∀ d, P [] d → P [] (d.log (.asked d.turn (cleanMessages d.messages)))
  account : ∀ d call, P [] d → P [] (d.account H call)
  answer : ∀ d response, P [] d → P [] (d.push [answerMessage response])
  declare : ∀ d response calls, P [] d → calls ≠ [] → P calls (d.declare response calls)

/-- Where a part of the loop stands: it may go on only when no call is left, and a checkpoint is the
one of the present state. -/
def Reaches (P : List ToolCall → Drive ω → Prop) : Option Outcome → Drive ω → Prop
  | none, d => P [] d
  | some (.paused checkpoint), d => checkpoint = d.checkpoint ∧ ∃ remaining, P remaining d
  | some (.completed _), d => P [] d
  | some (.failed _), d => P [] d

section

variable {H K C} {P : List ToolCall → Drive ω → Prop} (hP : LoopInvariant H K C P)

include hP

variable {d : Drive ω}

theorem LoopInvariant.finish (txt : Text) (h : P [] d) :
    Reaches P (some (d.finish H txt).1) (d.finish H txt).2 := by
  unfold Drive.finish
  split
  · exact hP.host _ _ _ h
  · exact hP.host _ _ _ h

theorem LoopInvariant.runCalls {cs : List ToolCall} (h : P cs d) :
    Reaches P (runCalls H C cs d).1 (runCalls H C cs d).2 := by
  induction cs generalizing d with
  | nil => exact h
  | cons call rest ih =>
    unfold AgentOS.runCalls
    dsimp only
    have hhost := hP.host _ _ (H.isCancelled d.host).2 h
    split
    · exact ⟨rfl, _, hhost⟩
    · split
      · exact hP.finish _ (hP.skip _ _ hhost)
      · next hl => exact ih (hP.execute _ _ _ hhost (by simpa using hl))

theorem LoopInvariant.observe (resp : LlmResponse) (h : P [] d) :
    Reaches P (d.observe H C resp).1 (d.observe H C resp).2 := by
  unfold Drive.observe
  dsimp only
  split
  · exact hP.finish _ (hP.answer _ _ (hP.host _ _ _ h))
  · next hc => exact hP.runCalls (hP.declare _ _ _ h hc)

theorem LoopInvariant.think (ts : List ToolDefinition) (h : P [] d) :
    Reaches P (d.think H C ts).1 (d.think H C ts).2 := by
  unfold Drive.think
  split
  · exact hP.finish _ (hP.host _ _ _ h)
  · dsimp only
    split
    · next err host _ =>
      have ha := hP.host _ _ host (hP.ask _ h)
      unfold Drive.requestFailed
      dsimp only
      split
      · exact ⟨rfl, _, hP.host _ _ _ ha⟩
      · exact hP.host _ _ _ ha
    · exact hP.observe _ (hP.account _ _ (hP.host _ _ _ (hP.ask _ h)))

theorem LoopInvariant.beginRound (ts : List ToolDefinition) (h : P [] d) :
    Reaches P (d.beginRound H K C ts).1 (d.beginRound H K C ts).2 := by
  have hc := hP.compact _ ts (hP.round _ h)
  unfold Drive.beginRound
  dsimp only
  split
  · next err e heq =>
    rw [heq] at hc
    exact hc
  · next e heq =>
    rw [heq] at hc
    exact hP.think ts hc

omit hP in
theorem Reaches.proceed {r : Option Outcome × Drive ω} (h : Reaches P r.1 r.2)
    {next : Drive ω → Outcome × Drive ω}
    (hnext : ∀ d, P [] d → Reaches P (some (next d).1) (next d).2) :
    Reaches P (some (proceed next r).1) (proceed next r).2 := by
  obtain ⟨out, d⟩ := r
  cases out with
  | some out => exact h
  | none => exact hnext d h

theorem LoopInvariant.rounds (ts : List ToolDefinition) {left : Nat} (h : P [] d) :
    Reaches P (some (rounds H K C ts left d).1) (rounds H K C ts left d).2 := by
  induction left generalizing d with
  | zero => exact h
  | succ left ih =>
    have hhost := hP.host _ _ (H.isCancelled d.host).2 h
    have hr := hP.beginRound ts hhost
    unfold AgentOS.rounds
    dsimp only
    split
    · exact ⟨rfl, _, hhost⟩
    · exact hr.proceed fun d' hd' => ih hd'

/-- What the single updates keep holds when the loop returns. -/
theorem driveLoop_invariant (h : P (pendingToolCalls d.messages) d) :
    Reaches P (some (driveLoop H K C d).1) (driveLoop H K C d).2 := by
  exact (hP.runCalls h).proceed fun d' hd' => hP.rounds _ hd'

end

end AgentOS
