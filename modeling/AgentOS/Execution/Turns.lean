import AgentOS.Execution.Rules
import AgentOS.Lib.Run

/-!
# Tool calls and turns

Executors with their checkpoints, driven by `run`, `run_resumable` and `resume` calls in any order.
A turn that is cancelled by `run` leaves its unfinished calls in the history, and the next turn of
that executor finds them there as if a checkpoint had left them (`cancelled_calls_run_later`). When
a turn begins only on a history without unfinished calls and a checkpoint is resumed at most once,
every declared call is executed at most once, in its own turn and within the limit
(`calls_once_in_their_turn`).
-/

namespace AgentOS

open Lib TurnEvent
open scoped List

/-! ## What a trace says -/

/-- The turn of an event. -/
def TurnEvent.turn : TurnEvent → Nat
  | .round turn | .asked turn _ | .declared turn _ _ | .executed turn _ _ | .returned turn => turn

/-- The call that an event executes for a batch. -/
def TurnEvent.executedFor (batch : Nat) : TurnEvent → Option ToolCall
  | .executed _ (some b) call => if b = batch then some call else none
  | _ => none

/-- The event executes a call in a turn. -/
def TurnEvent.executesIn (turn : Nat) : TurnEvent → Bool
  | .executed t _ _ => t == turn
  | _ => false

/-- The calls of a batch that were executed, in order. -/
def executedOf (batch : Nat) (trace : List TurnEvent) : List ToolCall :=
  trace.filterMap (TurnEvent.executedFor batch)

/-- The number of calls that were executed in a turn. -/
def executedIn (turn : Nat) (trace : List TurnEvent) : Nat :=
  trace.countP (TurnEvent.executesIn turn)

/-- Each executed call belongs to a batch that its own turn declared before, and that turn has not
returned. -/
def InOwnTurn (trace : List TurnEvent) : Prop :=
  EachAfter (fun earlier event => ∀ turn batch call, event = .executed turn batch call →
    .returned turn ∉ earlier ∧
      ∃ b calls, batch = some b ∧ .declared turn b calls ∈ earlier) trace

@[simp] theorem executedOf_snoc (batch : Nat) (trace : List TurnEvent) (event : TurnEvent) :
    executedOf batch (trace ++ [event]) =
      executedOf batch trace ++ (event.executedFor batch).toList := by
  rw [executedOf, List.filterMap_append]
  cases h : event.executedFor batch <;> simp [executedOf, h]

@[simp] theorem executedIn_snoc (turn : Nat) (trace : List TurnEvent) (event : TurnEvent) :
    executedIn turn (trace ++ [event]) =
      executedIn turn trace + if event.executesIn turn then 1 else 0 := by
  simp [executedIn]

theorem batchCount_snoc (trace : List TurnEvent) (event : TurnEvent) :
    batchCount trace ≤ batchCount (trace ++ [event]) := by
  simp [batchCount]

theorem batchCount_snoc_declared (trace : List TurnEvent) (turn batch : Nat) (cs : List ToolCall) :
    batchCount (trace ++ [.declared turn batch cs]) = batchCount trace + 1 := by
  simp [batchCount]

/-- The trace of a disciplined run, with a limit on the calls of a turn unless it is zero. -/
structure Disciplined (limit : Nat) (trace : List TurnEvent) : Prop where
  once : ∀ turn batch calls, .declared turn batch calls ∈ trace →
    executedOf batch trace <+ calls
  own : InOwnTurn trace
  numbered : ∀ turn batch calls, .declared turn batch calls ∈ trace → batch < batchCount trace
  unique : ∀ turn turn' batch calls calls', .declared turn batch calls ∈ trace →
    .declared turn' batch calls' ∈ trace → turn = turn' ∧ calls = calls'
  within : limit ≠ 0 → ∀ turn, executedIn turn trace ≤ limit

theorem Disciplined.nil (limit : Nat) : Disciplined limit [] where
  once := by simp
  own := eachAfter_nil
  numbered := by simp
  unique := by simp
  within := by simp [executedIn]

/-- An event that neither declares nor executes. -/
def TurnEvent.quiet : TurnEvent → Bool
  | .round _ | .asked _ _ | .returned _ => true
  | .declared _ _ _ | .executed _ _ _ => false

variable {limit : Nat} {trace : List TurnEvent} {event : TurnEvent}

section

variable (h : Disciplined limit trace)
include h

theorem Disciplined.snoc_quiet (hq : event.quiet = true) :
    Disciplined limit (trace ++ [event]) := by
  have hnot : ∀ turn batch cs, event ≠ .declared turn batch cs := by
    rintro turn batch cs rfl
    cases hq
  have hmem : ∀ turn batch cs, .declared turn batch cs ∈ trace ++ [event] →
      .declared turn batch cs ∈ trace := by
    intro turn batch cs hd
    rcases List.mem_append.1 hd with hd | hlast
    · exact hd
    · exact absurd (List.mem_singleton.1 hlast).symm (hnot turn batch cs)
  have hof : ∀ batch, event.executedFor batch = none := by
    intro batch
    cases event <;> simp_all [quiet, executedFor]
  have hin : ∀ turn, event.executesIn turn = false := by
    intro turn
    cases event <;> simp_all [quiet, executesIn]
  refine ⟨?_, ?_, ?_, ?_, ?_⟩
  · intro turn batch cs hd
    rw [executedOf_snoc, hof, Option.toList_none, List.append_nil]
    exact h.once turn batch cs (hmem _ _ _ hd)
  · refine eachAfter_snoc.2 ⟨h.own, ?_⟩
    rintro turn batch call rfl
    cases hq
  · intro turn batch cs hd
    exact (h.numbered turn batch cs (hmem _ _ _ hd)).trans_le (batchCount_snoc _ _)
  · intro turn turn' batch cs cs' hleft hr
    exact h.unique turn turn' batch cs cs' (hmem _ _ _ hleft) (hmem _ _ _ hr)
  · intro hl turn
    rw [executedIn_snoc, hin]
    exact h.within hl turn

/-- No call of a batch was executed before it was declared. -/
theorem Disciplined.executedOf_eq_nil {batch : Nat}
    (hb : batchCount trace ≤ batch) : executedOf batch trace = [] := by
  rw [executedOf, List.filterMap_eq_nil_iff]
  intro event he
  cases event with
  | executed turn of call =>
    obtain ⟨prior, later, rfl⟩ := List.append_of_mem he
    obtain ⟨-, b, cs, rfl, hd⟩ := h.own prior _ later rfl turn of call rfl
    have hlt := h.numbered turn b cs (List.mem_append_left _ hd)
    simp only [executedFor]
    rw [if_neg]
    omega
  | round => rfl
  | asked => rfl
  | declared => rfl
  | returned => rfl

theorem Disciplined.snoc_declared (turn : Nat) (calls : List ToolCall) :
    Disciplined limit (trace ++ [.declared turn (batchCount trace) calls]) := by
  have hc : ∀ t b cs, declared t b cs ∈
      trace ++ [.declared turn (batchCount trace) calls] →
      (.declared t b cs ∈ trace ∧ b < batchCount trace) ∨
        (t = turn ∧ b = batchCount trace ∧ cs = calls) := by
    intro t b cs hd
    rcases List.mem_append.1 hd with hd | hlast
    · exact .inl ⟨hd, h.numbered t b cs hd⟩
    · cases List.mem_singleton.1 hlast
      exact .inr ⟨rfl, rfl, rfl⟩
  refine ⟨?_, ?_, ?_, ?_, ?_⟩
  · intro t b cs hd
    have hsame : executedOf b (trace ++ [.declared turn (batchCount trace) calls]) =
        executedOf b trace := (executedOf_snoc _ _ _).trans (List.append_nil _)
    rw [hsame]
    rcases hc t b cs hd with ⟨hold, -⟩ | ⟨-, rfl, -⟩
    · exact h.once t b cs hold
    · rw [h.executedOf_eq_nil le_rfl]
      exact List.nil_sublist _
  · refine eachAfter_snoc.2 ⟨h.own, ?_⟩
    intro t b call heq
    cases heq
  · intro t b cs hd
    rw [batchCount_snoc_declared]
    rcases hc t b cs hd with ⟨-, hlt⟩ | ⟨-, rfl, -⟩
    · omega
    · omega
  · intro t t' b cs cs' hleft hr
    rcases hc t b cs hleft with ⟨hleft, hlt⟩ | ⟨rfl, rfl, rfl⟩
    · rcases hc t' b cs' hr with ⟨hr, -⟩ | ⟨-, rfl, -⟩
      · exact h.unique t t' b cs cs' hleft hr
      · omega
    · rcases hc t' _ cs' hr with ⟨-, hlt⟩ | ⟨rfl, -, rfl⟩
      · omega
      · exact ⟨rfl, rfl⟩
  · intro hl t
    rw [executedIn_snoc]
    exact h.within hl t

end

/-! ## What a loop owns -/

/-- The loop of a turn may make the remaining calls: all that its history shows as unfinished is
among them, its turn has not returned, its count is right, and they complete the calls of its batch
that were executed to a part of what was declared. -/
structure Owned (messages : List StandardMessage) (turn : Nat) (batch : Option Nat) (made : Nat)
    (trace : List TurnEvent) (remaining : List ToolCall) : Prop where
  pending : pendingToolCalls messages <+ remaining
  unreturned : .returned turn ∉ trace
  made : executedIn turn trace = made
  declared : remaining ≠ [] → ∃ b calls, batch = some b ∧ .declared turn b calls ∈ trace ∧
    executedOf b trace ++ remaining <+ calls

variable {messages : List StandardMessage} {turn made : Nat} {batch : Option Nat}
  {remaining : List ToolCall}

theorem Owned.shrink {fewer : List ToolCall} (h : Owned messages turn batch made trace remaining)
    (hf : fewer <+ remaining) (hp : pendingToolCalls messages <+ fewer) :
    Owned messages turn batch made trace fewer := by
  refine ⟨hp, h.unreturned, h.made, ?_⟩
  intro hne
  have hr : remaining ≠ [] := by
    rintro rfl
    exact hne (List.sublist_nil.1 hf)
  obtain ⟨b, cs, hb, hd, hsub⟩ := h.declared hr
  exact ⟨b, cs, hb, hd, ((List.Sublist.refl _).append hf).trans hsub⟩

/-- The history changes and nothing becomes unfinished. -/
theorem Owned.of_messages {msgs' : List StandardMessage}
    (h : Owned messages turn batch made trace remaining)
    (hp : pendingToolCalls msgs' <+ pendingToolCalls messages) :
    Owned msgs' turn batch made trace remaining :=
  ⟨hp.trans h.pending, h.unreturned, h.made, h.declared⟩

/-- No call remains, and an event of the turn that executes nothing is logged. -/
theorem Owned.snoc_idle (h : Owned messages turn batch made trace [])
    (hr : event ≠ .returned turn) (he : event.executesIn turn = false) :
    Owned messages turn batch made (trace ++ [event]) [] := by
  refine ⟨h.pending, ?_, ?_, fun hne => absurd rfl hne⟩
  · intro hmem
    rcases List.mem_append.1 hmem with hmem | hlast
    · exact h.unreturned hmem
    · exact hr (List.mem_singleton.1 hlast).symm
  · rw [executedIn_snoc, he]
    exact h.made

/-- The trace grew by events of one turn. -/
def GrownBy (turn : Nat) (trace trace' : List TurnEvent) : Prop :=
  ∃ added, trace' = trace ++ added ∧ ∀ event ∈ added, event.turn = turn

theorem GrownBy.refl (turn : Nat) (trace : List TurnEvent) : GrownBy turn trace trace :=
  ⟨[], (List.append_nil _).symm, by simp⟩

theorem GrownBy.snoc {tr' : List TurnEvent} (h : GrownBy turn trace tr')
    (hev : event.turn = turn) : GrownBy turn trace (tr' ++ [event]) := by
  obtain ⟨added, rfl, ha⟩ := h
  refine ⟨added ++ [event], List.append_assoc _ _ _, ?_⟩
  intro e he
  rcases List.mem_append.1 he with he | hlast
  · exact ha e he
  · rw [List.mem_singleton.1 hlast, hev]

/-- What one turn does leaves the loops of other turns alone. -/
theorem Owned.grown {o : Nat} {tr' : List TurnEvent}
    (h : Owned messages turn batch made trace remaining) (hg : GrownBy o trace tr')
    (hdi : Disciplined limit tr') (ho : turn ≠ o) :
    Owned messages turn batch made tr' remaining := by
  obtain ⟨added, rfl, ha⟩ := hg
  refine ⟨h.pending, ?_, ?_, ?_⟩
  · intro hmem
    rcases List.mem_append.1 hmem with hmem | hmem
    · exact h.unreturned hmem
    · exact ho (ha _ hmem)
  · have hnone : added.countP (TurnEvent.executesIn turn) = 0 := by
      rw [List.countP_eq_zero]
      intro event he
      have hturn := ha event he
      cases event with
      | executed =>
        simp only [TurnEvent.turn] at hturn
        simp [TurnEvent.executesIn, hturn, ho.symm]
      | _ => simp [TurnEvent.executesIn]
    rw [executedIn, List.countP_append, hnone]
    exact h.made
  · intro hne
    obtain ⟨b, cs, hb, hd, hsub⟩ := h.declared hne
    refine ⟨b, cs, hb, List.mem_append_left _ hd, ?_⟩
    -- a call of this batch in the new part would belong to the other turn
    have hnone : added.filterMap (TurnEvent.executedFor b) = [] := by
      rw [List.filterMap_eq_nil_iff]
      intro event he
      have hturn := ha event he
      cases event with
      | executed t of call =>
        simp only [TurnEvent.turn] at hturn
        subst hturn
        obtain ⟨prior, later, hs⟩ := List.append_of_mem (List.mem_append_right trace he)
        obtain ⟨-, b', cs', rfl, hd'⟩ :=
          hdi.own prior _ later hs t of call rfl
        simp only [TurnEvent.executedFor]
        rw [if_neg]
        rintro rfl
        refine ho (hdi.unique turn t b' cs cs' (List.mem_append_left _ hd) ?_).1
        rw [hs]
        exact List.mem_append_left _ hd'
      | round => rfl
      | asked => rfl
      | declared => rfl
      | returned => rfl
    rw [executedOf, List.filterMap_append, hnone, List.append_nil]
    exact hsub

/-! ## What the loop keeps -/

section Loop

variable {ω : Type} {H : Host ω} {K : Crypto} {C : ExecutorConfig} {limit : Nat}

theorem Disciplined.snoc_executed {call : ToolCall} {rest : List ToolCall}
    (h : Disciplined limit trace) (ho : Owned messages turn batch made trace (call :: rest))
    (hroom : limit ≠ 0 → made < limit) :
    Disciplined limit (trace ++ [.executed turn batch call]) := by
  obtain ⟨b, calls, rfl, hd, hsub⟩ := ho.declared (by simp)
  have hmem : ∀ t b' cs, declared t b' cs ∈ trace ++ [.executed turn (some b) call] →
      .declared t b' cs ∈ trace := by
    intro t b' cs hmem
    rcases List.mem_append.1 hmem with hmem | hlast
    · exact hmem
    · cases List.mem_singleton.1 hlast
  refine ⟨?_, ?_, ?_, ?_, ?_⟩
  · intro t b' cs hmem'
    have hold := hmem t b' cs hmem'
    rw [executedOf_snoc]
    by_cases hb : b = b'
    · -- the call is the next one of its batch
      subst hb
      obtain rfl := (h.unique _ _ _ _ _ hold hd).2
      have hnext : executedOf b trace ++ [call] <+ executedOf b trace ++ call :: rest :=
        (List.Sublist.refl _).append (List.singleton_sublist.2 List.mem_cons_self)
      simpa [executedFor] using hnext.trans hsub
    · simpa [executedFor, hb] using h.once t b' cs hold
  · refine eachAfter_snoc.2 ⟨h.own, ?_⟩
    intro t b' c heq
    cases heq
    exact ⟨ho.unreturned, b, calls, rfl, hd⟩
  · intro t b' cs hmem'
    exact (h.numbered t b' cs (hmem _ _ _ hmem')).trans_le (batchCount_snoc _ _)
  · intro t t' b' cs cs' hleft hr
    exact h.unique t t' b' cs cs' (hmem _ _ _ hleft) (hmem _ _ _ hr)
  · intro hl t
    rw [executedIn_snoc]
    by_cases ht : turn = t
    · subst ht
      have hmade := hroom hl
      rw [ho.made]
      simp only [executesIn, beq_self_eq_true, if_true]
      omega
    · simpa [executesIn, ht] using h.within hl t

theorem Owned.snoc_executed {call : ToolCall} {rest : List ToolCall} {r : Text}
    (h : Owned messages turn batch made trace (call :: rest)) :
    Owned (messages ++ [.toolResult call.id r]) turn batch (made + 1)
      (trace ++ [.executed turn batch call]) rest := by
  obtain ⟨b, cs, rfl, hd, hsub⟩ := h.declared (by simp)
  refine ⟨?_, ?_, ?_, ?_⟩
  · rw [pendingToolCalls_snoc_result]
    have hf := h.pending.filter fun c => decide (c.id ≠ call.id)
    rw [List.filter_cons_of_neg (by simp)] at hf
    exact hf.trans List.filter_sublist
  · intro hmem
    rcases List.mem_append.1 hmem with hmem | hlast
    · exact h.unreturned hmem
    · cases List.mem_singleton.1 hlast
  · rw [executedIn_snoc, h.made]
    simp [executesIn]
  · intro _
    refine ⟨b, cs, rfl, List.mem_append_left _ hd, ?_⟩
    rw [executedOf_snoc]
    simpa [executedFor] using hsub

/-- The loop of a turn that began with a trace. -/
def Behaves (limit turn : Nat) (trace : List TurnEvent) (remaining : List ToolCall) (d : Drive ω) :
    Prop :=
  Disciplined limit d.trace ∧
    Owned d.messages d.turn d.batch d.toolCallsMade d.trace remaining ∧ d.turn = turn ∧
    GrownBy turn trace d.trace

/-- At the limit every remaining call gets a result, so nothing is left unfinished. -/
theorem pendingToolCalls_push_skipped (h : pendingToolCalls messages <+ remaining) :
    pendingToolCalls (messages ++ remaining.map (skippedResult C)) = [] := by
  rw [pendingToolCalls_append]
  · rw [List.filter_eq_nil_iff]
    intro call hcall
    have hmem : call ∈ remaining := h.subset hcall
    simp only [Bool.not_eq_true, Bool.not_eq_false', List.contains_iff_mem, List.mem_filterMap,
      List.mem_map]
    exact ⟨skippedResult C call, ⟨call, hmem, rfl⟩, rfl⟩
  · intro m hm
    obtain ⟨call, -, rfl⟩ := List.mem_map.1 hm
    rfl

theorem behaves_invariant (hl : limit ≠ 0 → 0 < C.maxToolCallsPerTurn ∧
    C.maxToolCallsPerTurn ≤ limit) (turn : Nat) (trace : List TurnEvent) :
    LoopInvariant H K C (Behaves limit turn trace) where
  host := fun _ _ _ h => h
  execute := by
    rintro call rest d ⟨hd, ho, rfl, hg⟩ hb
    have hroom : limit ≠ 0 → d.toolCallsMade < limit := by
      intro hne
      obtain ⟨hpos, hle⟩ := hl hne
      simp only [toolCallLimitReached, Bool.and_eq_false_iff, decide_eq_false_iff_not] at hb
      omega
    exact ⟨hd.snoc_executed ho hroom, ho.snoc_executed, rfl, hg.snoc rfl⟩
  skip := by
    rintro remaining d ⟨hd, ho, hturn, hg⟩
    refine ⟨hd, ?_, hturn, hg⟩
    have hnone := pendingToolCalls_push_skipped (C := C) ho.pending
    exact ⟨hnone ▸ List.nil_sublist _, ho.unreturned, ho.made, fun hne => absurd rfl hne⟩
  round := by
    rintro d ⟨hd, ho, rfl, hg⟩
    exact ⟨hd.snoc_quiet rfl, ho.snoc_idle (by simp) rfl, rfl, hg.snoc rfl⟩
  compact := by
    rintro d ts ⟨hd, ho, hturn, hg⟩
    refine ⟨hd, ho.of_messages ?_, hturn, hg⟩
    rw [pendingToolCalls_compactToTokenBudget]
  ask := by
    rintro d ⟨hd, ho, rfl, hg⟩
    exact ⟨hd.snoc_quiet rfl, ho.snoc_idle (by simp) rfl, rfl, hg.snoc rfl⟩
  account := fun _ _ h => h
  answer := by
    rintro d resp ⟨hd, ho, hturn, hg⟩
    refine ⟨hd, ho.of_messages ?_, hturn, hg⟩
    rw [Drive.push, pendingToolCalls_append_plain]
    intro m hm
    cases List.mem_singleton.1 hm
    exact ⟨rfl, rfl⟩
  declare := by
    rintro d resp cs ⟨hd, ho, rfl, hg⟩ _
    refine ⟨hd.snoc_declared d.turn cs, ?_, rfl, hg.snoc rfl⟩
    have hidle : Owned d.messages d.turn d.batch d.toolCallsMade
        (d.trace ++ [.declared d.turn (batchCount d.trace) cs]) [] :=
      ho.snoc_idle (by simp) rfl
    have hp : pendingToolCalls (d.declare resp cs).messages = cs :=
      pendingToolCalls_snoc_calls rfl
    refine ⟨?_, hidle.unreturned, hidle.made, ?_⟩
    · rw [hp]
    · intro _
      refine ⟨_, cs, rfl, List.mem_append_right _ (List.mem_singleton_self _), ?_⟩
      show executedOf (batchCount d.trace)
        (d.trace ++ [.declared d.turn (batchCount d.trace) cs]) ++ cs <+ cs
      rw [executedOf_snoc, hd.executedOf_eq_nil le_rfl]
      exact List.Sublist.refl _

end Loop

/-! ## Executors and checkpoints -/

/-- An executor between its calls. -/
structure IdleExecutor where
  config : ExecutorConfig
  conversationId : Text
  messages : List StandardMessage
  batch : Option Nat
  deriving DecidableEq

/-- A checkpoint that a caller holds, with its turn and whether it was resumed. -/
structure SavedCheckpoint where
  checkpoint : GenerationCheckpoint
  turn : Nat
  batch : Option Nat
  resumed : Bool
  deriving DecidableEq

/-- Executors over one host, and the checkpoints that their calls returned. -/
structure ExecutorPool (ω : Type) where
  host : ω
  executors : List IdleExecutor
  checkpoints : List SavedCheckpoint
  turns : Nat
  trace : List TurnEvent

/-- The calls on executors. A checkpoint may be resumed by any of them. -/
inductive ExecutorCall where
  | create (config : ExecutorConfig) (conversationId : Text) (messages : List StandardMessage)
  | run (executor : Nat) (userMessage : Text)
  | runResumable (executor : Nat) (userMessage : Text)
  | resume (executor checkpoint : Nat)
  deriving DecidableEq

namespace ExecutorPool

variable {ω : Type} (H : Host ω) (K : Crypto)

/-- No executor yet. -/
def empty (host : ω) : ExecutorPool ω := ⟨host, [], [], 0, []⟩

/-- An executor after its loop. -/
def leave (executor : IdleExecutor) (d : Drive ω) : IdleExecutor :=
  { executor with conversationId := d.conversationId, messages := d.messages, batch := d.batch }

variable (pool : ExecutorPool ω)

/-- The pool after a loop. Only `run` turns a pause into a cancelled output and drops the
checkpoint. -/
def settle (index : Nat) (executor : IdleExecutor) (resumable : Bool) (result : Outcome × Drive ω) :
    ExecutorPool ω :=
  let d := result.2
  let settled : ExecutorPool ω :=
    { pool with
      host := d.host
      executors := pool.executors.set index (leave executor d)
      trace := d.trace }
  match result.1 with
  | .completed _ => { settled with trace := d.trace ++ [.returned d.turn] }
  | .failed _ => settled
  | .paused checkpoint =>
    if resumable then
      { settled with
        checkpoints := settled.checkpoints ++ [⟨checkpoint, d.turn, d.batch, false⟩] }
    else { settled with trace := d.trace ++ [.returned d.turn] }

/-- A fresh turn of an executor. -/
def start (index : Nat) (userMessage : Text) (resumable : Bool) :
    ExecutorPool ω :=
  match pool.executors[index]? with
  | none => pool
  | some executor =>
    let drive := startDrive H ⟨pool.host, executor.conversationId, executor.messages⟩ userMessage
      pool.turns executor.batch pool.trace
    settle { pool with turns := pool.turns + 1 } index executor resumable
      (driveLoop H K executor.config drive)

/-- `resume` of a checkpoint. -/
def continueFrom (index checkpoint : Nat) : ExecutorPool ω :=
  match pool.executors[index]?, pool.checkpoints[checkpoint]? with
  | some executor, some saved =>
    let drive := resumeDrive pool.host saved.checkpoint saved.turn saved.batch pool.trace
    settle
      { pool with checkpoints := pool.checkpoints.set checkpoint { saved with resumed := true } }
      index executor true (driveLoop H K executor.config drive)
  | _, _ => pool

/-- One call. -/
def step : ExecutorCall → ExecutorPool ω
  | .create config conversationId messages =>
    { pool with
      executors := pool.executors ++ [⟨config, conversationId, messages, none⟩] }
  | .run executor userMessage => start H K pool executor userMessage false
  | .runResumable executor userMessage => start H K pool executor userMessage true
  | .resume executor checkpoint => continueFrom H K pool executor checkpoint

/-- The call is in order: a turn begins on a history without unfinished calls, and a checkpoint is
resumed once. -/
def InOrder : ExecutorCall → Prop
  | .create _ _ _ => True
  | .run executor _ | .runResumable executor _ =>
    ∀ e ∈ pool.executors[executor]?, pendingToolCalls e.messages = []
  | .resume _ checkpoint => ∀ saved ∈ pool.checkpoints[checkpoint]?, saved.resumed = false

instance (pool : ExecutorPool ω) : (call : ExecutorCall) → Decidable (InOrder pool call)
  | .create _ _ _ => inferInstanceAs (Decidable True)
  | .run executor _ | .runResumable executor _ =>
    inferInstanceAs (Decidable (∀ e ∈ pool.executors[executor]?, pendingToolCalls e.messages = []))
  | .resume _ checkpoint =>
    inferInstanceAs (Decidable (∀ saved ∈ pool.checkpoints[checkpoint]?, saved.resumed = false))

/-! ## The pool keeps its discipline -/

/-- The limits of all executors lie between one and the common limit, unless that is zero. -/
def LimitedBy (limit : Nat) (executors : List IdleExecutor) : Prop :=
  ∀ e ∈ executors, limit ≠ 0 → 0 < e.config.maxToolCallsPerTurn ∧
    e.config.maxToolCallsPerTurn ≤ limit

/-- A checkpoint that may still be resumed owns what it left unfinished. -/
structure Live (pool : ExecutorPool ω) (saved : SavedCheckpoint) : Prop where
  turn_lt : saved.turn < pool.turns
  whole : saved.checkpoint.partialContent = []
  owned : Owned saved.checkpoint.messages saved.turn saved.batch saved.checkpoint.toolCallsMade
    pool.trace (pendingToolCalls saved.checkpoint.messages)

/-- The invariant of pools. -/
structure Orderly (limit : Nat) (pool : ExecutorPool ω) : Prop where
  disciplined : Disciplined limit pool.trace
  turns : ∀ event ∈ pool.trace, event.turn < pool.turns
  live : ∀ saved ∈ pool.checkpoints, saved.resumed = false → Live pool saved
  apart : pool.checkpoints.Pairwise fun saved saved' =>
    saved.resumed = false → saved'.resumed = false → saved.turn ≠ saved'.turn

/-- The invariant while a turn is driven: the others are as before, and none of them is the turn
itself. -/
structure Beside (turn : Nat) (pool : ExecutorPool ω) : Prop where
  turn_lt : turn < pool.turns
  turns : ∀ event ∈ pool.trace, event.turn < pool.turns
  live : ∀ saved ∈ pool.checkpoints, saved.resumed = false → Live pool saved ∧ saved.turn ≠ turn
  apart : pool.checkpoints.Pairwise fun saved saved' =>
    saved.resumed = false → saved'.resumed = false → saved.turn ≠ saved'.turn

variable {pool : ExecutorPool ω}

theorem Beside.orderly (h : Beside turn pool) (hg : GrownBy turn pool.trace trace)
    (hd : Disciplined limit trace) (host : ω) (executors : List IdleExecutor) :
    Orderly limit { pool with host, executors, trace } where
  disciplined := hd
  turns := by
    obtain ⟨added, rfl, ha⟩ := hg
    intro event he
    rcases List.mem_append.1 he with he | he
    · exact h.turns event he
    · rw [ha event he]
      exact h.turn_lt
  live := by
    intro sv hs hr
    obtain ⟨hlive, ho⟩ := h.live sv hs hr
    exact ⟨hlive.turn_lt, hlive.whole, hlive.owned.grown hg hd ho⟩
  apart := h.apart

theorem exists_behaves {out : Outcome} {d : Drive ω}
    (h : Reaches (Behaves limit turn trace) (some out) d) :
    ∃ remaining, Behaves limit turn trace remaining d := by
  cases out with
  | completed | failed => exact ⟨[], h⟩
  | paused => exact h.2

/-- Settling a turn restores the invariant; its checkpoint, if there is one, owns what is
unfinished. -/
theorem Beside.settle (h : Beside turn pool) {r : Outcome × Drive ω}
    (hrc : Reaches (Behaves limit turn pool.trace) (some r.1) r.2) (i : Nat) (ex : IdleExecutor)
    (resumable : Bool) : Orderly limit (settle pool i ex resumable r) := by
  obtain ⟨out, d⟩ := r
  dsimp only at hrc
  obtain ⟨remaining, hd, ho, hturn, hg⟩ := exists_behaves hrc
  have he : (returned d.turn).turn = turn := hturn
  have hre : Orderly limit
      { pool with
        host := d.host
        executors := pool.executors.set i (leave ex d)
        trace := d.trace ++ [.returned d.turn] } :=
    h.orderly (hg.snoc he) (hd.snoc_quiet rfl) _ _
  have hopen := h.orderly hg hd d.host (pool.executors.set i (leave ex d))
  cases out with
  | completed => exact hre
  | failed => exact hopen
  | paused cp =>
    cases resumable with
    | false => exact hre
    | true =>
      obtain ⟨rfl, -⟩ := hrc
      refine ⟨hopen.disciplined, hopen.turns, ?_, ?_⟩
      · intro sv hs hr
        rcases List.mem_append.1 hs with hs | hlast
        · exact ⟨(hopen.live sv hs hr).turn_lt,
            (hopen.live sv hs hr).whole, (hopen.live sv hs hr).owned⟩
        · cases List.mem_singleton.1 hlast
          exact ⟨hturn ▸ h.turn_lt, rfl, ho.shrink ho.pending (List.Sublist.refl _)⟩
      · refine List.pairwise_append.2 ⟨hopen.apart, List.pairwise_singleton _ _, ?_⟩
        intro sv hs new hnew hr _
        cases List.mem_singleton.1 hnew
        rw [show SavedCheckpoint.turn ⟨d.checkpoint, d.turn, d.batch, false⟩ = turn from hturn]
        exact (h.live sv hs hr).2

theorem prepareTurn_pending (e : Executor ω) (user : Text) :
    pendingToolCalls (prepareTurn H e user).messages = pendingToolCalls e.messages := by
  unfold prepareTurn
  dsimp only
  rw [List.append_assoc, List.append_assoc]
  apply pendingToolCalls_append_plain
  intro m hm
  rcases List.mem_append.1 hm with hm | hm
  · split at hm
    · cases hm
    · cases List.mem_singleton.1 hm
      exact ⟨rfl, rfl⟩
  · rcases List.mem_append.1 hm with hm | hm
    · obtain ⟨text, -, rfl⟩ : ∃ text, _ ∧ StandardMessage.system text = m := by
        simpa [Option.map_eq_some_iff] using hm
      exact ⟨rfl, rfl⟩
    · cases List.mem_singleton.1 hm
      exact ⟨rfl, rfl⟩

section

variable (h : Orderly limit pool)
include h

theorem Orderly.start (hl : LimitedBy limit pool.executors) {i : Nat}
    (hfree : ∀ e ∈ pool.executors[i]?, pendingToolCalls e.messages = []) (user : Text)
    (resumable : Bool) : Orderly limit (start H K pool i user resumable) := by
  unfold ExecutorPool.start
  split
  · exact h
  · next ex hexe =>
    have hnone : pendingToolCalls ex.messages = [] := hfree ex hexe
    have hb : Beside pool.turns { pool with turns := pool.turns + 1 } := by
      refine ⟨Nat.lt_succ_self _, fun event he => (h.turns event he).trans
        (Nat.lt_succ_self _), ?_, h.apart⟩
      intro sv hs hr
      have hlive := h.live sv hs hr
      exact ⟨⟨hlive.turn_lt.trans (Nat.lt_succ_self _), hlive.whole, hlive.owned⟩,
        hlive.turn_lt.ne⟩
    -- the turn is new, so nothing in the trace belongs to it
    have hf : ∀ event ∈ pool.trace, event.turn ≠ pool.turns := fun event he =>
      (h.turns event he).ne
    have how : Owned ex.messages pool.turns ex.batch 0 pool.trace [] := by
      refine ⟨hnone ▸ List.nil_sublist _, fun hmem => hf _ hmem rfl, ?_,
        fun hne => absurd rfl hne⟩
      rw [executedIn, List.countP_eq_zero]
      intro event he
      have ho := hf event he
      cases event with
      | executed => simpa [executesIn, turn] using ho
      | _ => simp [executesIn]
    apply hb.settle
    apply driveLoop_invariant (behaves_invariant (hl ex (List.mem_of_getElem? hexe))
      pool.turns pool.trace)
    have hp : pendingToolCalls (startDrive H ⟨pool.host, ex.conversationId,
        ex.messages⟩ user pool.turns ex.batch pool.trace).messages = [] := by
      rw [← hnone]
      exact prepareTurn_pending H _ _
    rw [hp]
    refine ⟨h.disciplined, how.of_messages ?_, rfl, GrownBy.refl _ _⟩
    rw [hp]
    exact List.nil_sublist _

/-- A checkpoint that is marked as resumed leaves the others, which belong to other turns. -/
theorem Orderly.mark {index : Nat} {sv : SavedCheckpoint}
    (hs : pool.checkpoints[index]? = some sv) (hf : sv.resumed = false) :
    Beside sv.turn
      { pool with checkpoints := pool.checkpoints.set index { sv with resumed := true } } := by
  obtain ⟨hin, hget⟩ := List.getElem?_eq_some_iff.1 hs
  have hpair := List.pairwise_iff_getElem.1 h.apart
  have ha : ∀ j (hj : j < pool.checkpoints.length), index ≠ j →
      pool.checkpoints[j].resumed = false → pool.checkpoints[j].turn ≠ sv.turn := by
    intro j hj hne hr
    rw [← hget] at hf ⊢
    rcases Nat.lt_or_gt_of_ne hne with hlt | hgt
    · exact (hpair index j hin hj hlt hf hr).symm
    · exact hpair j index hj hin hgt hr hf
  refine ⟨(h.live sv (List.mem_of_getElem? hs) hf).turn_lt, h.turns, ?_, ?_⟩
  · intro o ho hr
    obtain ⟨j, hj, rfl⟩ := List.mem_iff_getElem.1 ho
    rw [List.length_set] at hj
    rw [List.getElem_set] at hr ⊢
    by_cases hsame : index = j
    · rw [if_pos hsame] at hr
      cases hr
    · rw [if_neg hsame] at hr ⊢
      have hlive := h.live _ (List.getElem_mem hj) hr
      exact ⟨⟨hlive.turn_lt, hlive.whole, hlive.owned⟩, ha j hj hsame hr⟩
  · rw [List.pairwise_iff_getElem]
    intro i j hi hj hij hleft hri
    rw [List.length_set] at hi hj
    rw [List.getElem_set] at hleft hri ⊢
    rw [List.getElem_set]
    split at hleft
    · cases hleft
    · next hi' =>
      split at hri
      · cases hri
      · next hj' =>
        rw [if_neg hi', if_neg hj']
        exact hpair i j hi hj hij hleft hri

theorem Orderly.continueFrom (hl : LimitedBy limit pool.executors) (i : Nat) {cp : Nat}
    (hf : ∀ sv ∈ pool.checkpoints[cp]?, sv.resumed = false) :
    Orderly limit (continueFrom H K pool i cp) := by
  unfold ExecutorPool.continueFrom
  split
  · next ex sv he hs =>
    have hlive := h.live sv (List.mem_of_getElem? hs) (hf sv hs)
    apply (h.mark hs (hf sv hs)).settle
    apply driveLoop_invariant (behaves_invariant (hl ex (List.mem_of_getElem? he))
      sv.turn pool.trace)
    have hm : (resumeDrive pool.host sv.checkpoint sv.turn sv.batch
        pool.trace).messages = sv.checkpoint.messages := by
      simp [resumeDrive, hlive.whole]
    rw [hm]
    refine ⟨h.disciplined, ?_, rfl, GrownBy.refl _ _⟩
    rw [hm]
    exact hlive.owned
  · exact h

theorem Orderly.step (hl : LimitedBy limit pool.executors)
    {call : ExecutorCall} (ho : InOrder pool call) : Orderly limit (step H K pool call) := by
  cases call with
  | create =>
    refine ⟨h.disciplined, h.turns, ?_, h.apart⟩
    intro sv hs hr
    have hlive := h.live sv hs hr
    exact ⟨hlive.turn_lt, hlive.whole, hlive.owned⟩
  | run ex user => exact h.start H K hl ho user false
  | runResumable ex user => exact h.start H K hl ho user true
  | resume ex => exact h.continueFrom H K hl ex ho

end

/-- The executors that a call leaves have the limits of the created ones. -/
theorem limitedBy_step {call : ExecutorCall} (h : LimitedBy limit pool.executors)
    (hc : ∀ cfg conv messages, call = .create cfg conv messages →
      limit ≠ 0 → 0 < cfg.maxToolCallsPerTurn ∧ cfg.maxToolCallsPerTurn ≤ limit) :
    LimitedBy limit (step H K pool call).executors := by
  have hs : ∀ (pool' : ExecutorPool ω) i ex resumable r,
      pool'.executors = pool.executors → pool.executors[i]? = some ex →
      LimitedBy limit (settle pool' i ex resumable r).executors := by
    intro pool' i ex resumable r hsame hexe
    have hset : (settle pool' i ex resumable r).executors =
        pool'.executors.set i (leave ex r.2) := by
      unfold settle
      dsimp only
      repeat' split
      all_goals rfl
    rw [hset, hsame]
    intro e he
    rcases List.mem_or_eq_of_mem_set he with he | rfl
    · exact h e he
    · exact h ex (List.mem_of_getElem? hexe)
  cases call with
  | create cfg conv messages =>
    intro e he
    rcases List.mem_append.1 he with he | hlast
    · exact h e he
    · cases List.mem_singleton.1 hlast
      exact hc cfg conv messages rfl
  | resume =>
    simp only [ExecutorPool.step, ExecutorPool.continueFrom]
    split
    · next e sv he _ => exact hs _ _ _ _ _ rfl he
    · exact h
  | _ =>
    simp only [ExecutorPool.step, ExecutorPool.start]
    split
    · exact h
    · next e he => exact hs _ _ _ _ _ rfl he

theorem Orderly.empty (limit : Nat) (host : ω) : Orderly limit (ExecutorPool.empty host) where
  disciplined := Disciplined.nil limit
  turns := by simp [ExecutorPool.empty]
  live := by simp [ExecutorPool.empty]
  apart := List.Pairwise.nil

/-- The pool after calls from the beginning. -/
def after (host : ω) (calls : List ExecutorCall) : ExecutorPool ω :=
  Lib.run (step H K) (empty host) calls

/-- A run in order keeps the invariant for every limit that its executors respect. -/
theorem orderly_after {host : ω} {cs : List ExecutorCall}
    (hor : EachAfter (fun prior call => InOrder (after H K host prior) call) cs)
    (hl : ∀ cfg conv messages, .create cfg conv messages ∈ cs → limit ≠ 0 → 0 <
      cfg.maxToolCallsPerTurn ∧ cfg.maxToolCallsPerTurn ≤ limit) :
    LimitedBy limit (after H K host cs).executors ∧ Orderly limit (after H K host cs) := by
  apply run_invariant_of
    (fun pool : ExecutorPool ω => LimitedBy limit pool.executors ∧ Orderly limit pool)
    (fun pool call => InOrder pool call ∧ ∀ cfg conv messages,
      call = .create cfg conv messages → limit ≠ 0 →
        0 < cfg.maxToolCallsPerTurn ∧ cfg.maxToolCallsPerTurn ≤ limit)
  · exact ⟨by simp [LimitedBy, ExecutorPool.empty], Orderly.empty limit host⟩
  · rintro pool call ⟨hb, ho⟩ ⟨hiO, hc⟩
    exact ⟨limitedBy_step H K hb hc, ho.step H K hb hiO⟩
  · refine hor.mono ?_
    rintro prior call hmem hiO
    refine ⟨hiO, ?_⟩
    rintro cfg conv messages rfl
    exact hl cfg conv messages hmem

/-- For every provider, every tool and every cancellation: in a run in order each declared call is
executed at most once and in the order of its batch, only in the turn that declared it and before
that turn returns, and no turn exceeds a limit that all executors respect. -/
theorem calls_once_in_their_turn (host : ω) (calls : List ExecutorCall)
    (horder : EachAfter (fun earlier call => InOrder (after H K host earlier) call) calls) :
    (∀ turn batch declared, .declared turn batch declared ∈ (after H K host calls).trace →
      executedOf batch (after H K host calls).trace <+ declared) ∧
    InOwnTurn (after H K host calls).trace ∧
    ∀ limit, 0 < limit →
      (∀ config conversationId messages, .create config conversationId messages ∈ calls →
        0 < config.maxToolCallsPerTurn ∧ config.maxToolCallsPerTurn ≤ limit) →
      ∀ turn, executedIn turn (after H K host calls).trace ≤ limit := by
  have hfree : Disciplined 0 (after H K host calls).trace :=
    (orderly_after H K horder fun _ _ _ _ h => absurd rfl h).2.disciplined
  refine ⟨hfree.once, hfree.own, ?_⟩
  intro limit hpos hcreate
  have hlimited := (orderly_after H K horder fun config conversationId messages hmem _ =>
    hcreate config conversationId messages hmem).2.disciplined
  exact hlimited.within hpos.ne'

end ExecutorPool

/-! ## A turn that is cancelled between two calls -/

namespace Sample

/-- The reads of the token and the responses that are still to come. -/
structure Script where
  cancellations : List Bool
  replies : List LlmResponse
  deriving DecidableEq

/-- A host that follows a script; every tool answers `ok`. -/
def scriptedHost : Host Script where
  isCancelled := fun s =>
    (s.cancellations.headD false, { s with cancellations := s.cancellations.tail })
  definitionsForAgent := fun _ => []
  queryMemory := fun s _ => ([], s)
  rulesAsPrompt := fun _ _ => none
  providerId := fun _ => "local".toList
  modelId := fun _ => "m".toList
  validateToolPolicy := fun _ _ => .ok ()
  estimatePromptTokens := fun _ _ => none
  toolPromptOverhead := fun _ _ => 0
  enforcesMaxOutputTokens := fun _ => true
  handlesRetries := fun _ => true
  newUuid := fun s => (⟨List.replicate 32 0, rfl⟩, s)
  storeContextSpill := fun s _ _ _ => (.ok (), s)
  recordContextPressure := fun s _ => s
  beginCall := fun s => (.ok (), s)
  admitAttempt := fun s _ => (.ok (), s)
  sendStreaming := fun s _ _ =>
    match s.replies with
    | [] => (.error (.protocolError []), s)
    | response :: replies => (.ok ⟨response, 1, ⟨1, 1, 0, true⟩⟩, { s with replies })
  lastAttempts := fun _ => none
  lastToolDegradation := fun _ => none
  lastLatencyMs := fun _ => 0
  settleAttempt := fun s => (.ok (), s)
  recordUsageCharge := fun s _ => (0, s)
  plaintextRequests := fun _ => []
  executeTool := fun s _ => ("ok".toList, s)
  storeFact := fun s _ => s
  saveConversation := fun s _ _ => (.ok (), s)

/-- The digest plays no part without a context budget. -/
def noDigest : Crypto := ⟨fun _ => [], fun _ _ _ => false⟩

def readCall : ToolCall := ⟨"call_1".toList, "read_file".toList, "\x7b\x7d".toList⟩

def writeCall : ToolCall := ⟨"call_2".toList, "write_file".toList, "\x7b\x7d".toList⟩

def asksForTwo : LlmResponse := ⟨[], [readCall, writeCall], none⟩

def answers : LlmResponse := ⟨"done".toList, [], none⟩

def plainConfig : ExecutorConfig := ⟨0, 4, 0⟩

/-- The token is cancelled after the first of two calls. -/
def cancelledBetween : Script := ⟨[false, false, false, true], [asksForTwo, answers]⟩

/-- An executor on which `run` is called twice. -/
def twoRuns : List ExecutorCall :=
  [.create plainConfig "c".toList [.system "help".toList], .run 0 "go".toList,
    .run 0 "again".toList]

/-- The turn that is paused between two calls is resumed, once. -/
def pausedAndResumed : List ExecutorCall :=
  [.create plainConfig "c".toList [.system "help".toList], .runResumable 0 "go".toList,
    .create plainConfig "d".toList [.system "help".toList], .resume 1 0]

end Sample

namespace ExecutorPool

open Sample

/-- The first turn declared two calls and returned as cancelled after the first one; the second
turn executes the other. -/
theorem cancelled_calls_run_later :
    ¬ InOwnTurn (after scriptedHost noDigest cancelledBetween twoRuns).trace := by
  intro hown
  have htrace : (after scriptedHost noDigest cancelledBetween twoRuns).trace =
      (after scriptedHost noDigest cancelledBetween twoRuns).trace.take 5 ++
        .executed 1 (some 0) writeCall ::
          (after scriptedHost noDigest cancelledBetween twoRuns).trace.drop 6 := by
    decide +kernel
  -- all that happened before belongs to the first turn
  have hfirst : ∀ event ∈ (after scriptedHost noDigest cancelledBetween twoRuns).trace.take 5,
      event.turn = 0 := by
    decide +kernel
  obtain ⟨-, b, calls, -, hdeclared⟩ := hown _ _ _ htrace 1 (some 0) writeCall rfl
  exact absurd (hfirst _ hdeclared) (by simp [TurnEvent.turn])

/-- The paused turn, resumed on another executor, makes the second call itself. -/
theorem paused_calls_made_once :
    executedOf 0 (after scriptedHost noDigest cancelledBetween pausedAndResumed).trace =
        [readCall, writeCall] ∧
      InOwnTurn (after scriptedHost noDigest cancelledBetween pausedAndResumed).trace := by
  have horder : EachAfter (fun earlier call =>
      InOrder (after scriptedHost noDigest cancelledBetween earlier) call) pausedAndResumed := by
    apply eachAfter_of_take
    decide +kernel
  exact ⟨by decide +kernel,
    (calls_once_in_their_turn scriptedHost noDigest cancelledBetween pausedAndResumed horder).2.1⟩

end ExecutorPool

end AgentOS
