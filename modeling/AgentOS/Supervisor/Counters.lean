import AgentOS.Base.Text
import AgentOS.Base.Word
import AgentOS.Lib.Run

/-!
# Restart counters of a service

The supervisor's operations on the state of one service that stays defined. Fields that restarts do
not read are left out, and so are the delays that `schedule_restart` returns; times are nanoseconds.

The lifetime counters are those of the calls, and restarts stay within the budget, in every run that
replaces definitions only while no restart was ever recorded, loads at every process restart what it
ran before, lowers no budget, and schedules no more restarts than the budget still has
(`counters_kept`). A reload of the same definition already loses the lifetime restarts, and
`schedule_restart` does not count the restarts that are scheduled but not yet recorded
(`reload_loses_attempts`).
-/

namespace AgentOS

open Lib

inductive RestartPolicy where
  | always
  | onFailure
  | never
  deriving DecidableEq

/-- A definition, with the digest of all of it. -/
structure ServiceDef where
  restart : RestartPolicy
  (maxRestarts restartWindowMs : Nat)
  revision : Text
  isU32 : maxRestarts ≤ u32Max
  deriving DecidableEq

structure ServiceState where
  definition : ServiceDef
  (restartCount restartAttemptsTotal : Nat)
  lastExitCode : Option Int
  (desiredRunning restartExhausted : Bool)
  restartWindowStartedAt : Option Int
  dependencyBlocks : Nat
  deriving DecidableEq

namespace ServiceState

def loadService (definition : ServiceDef) : ServiceState :=
  ⟨definition, 0, 0, none, false, false, none, 0⟩

variable (s : ServiceState)

/-- The definition asks for a restart now. -/
def shouldRestart : Bool :=
  s.desiredRunning && match s.definition.restart with
    | .always => true
    | .onFailure => s.lastExitCode.any (· != 0)
    | .never => false

/-- The window is over, or there is none. -/
def windowOver (now : Int) : Bool :=
  s.restartWindowStartedAt.all fun started =>
    decide (s.definition.restartWindowMs * 1000000 < now - started)

def resetWindow (now : Int) : ServiceState :=
  if s.windowOver now then
    { s with restartWindowStartedAt := some now, restartCount := 0, restartExhausted := false }
  else s

/-- The state, and whether a restart is scheduled. -/
def scheduleRestart (now : Int) : ServiceState × Bool :=
  if s.shouldRestart then
    let s := s.resetWindow now
    if s.definition.maxRestarts ≤ s.restartCount then ({ s with restartExhausted := true }, false)
    else (s, true)
  else (s, false)

def recordRestart : ServiceState :=
  { s with
    restartCount := saturatingAdd32 s.restartCount 1
    restartAttemptsTotal := saturatingAdd s.restartAttemptsTotal 1 }

/-- The state of the service after `replace_definitions`. -/
def replaceDefinition (definition : ServiceDef) : ServiceState :=
  { s with definition, restartAttemptsTotal := (loadService definition).restartAttemptsTotal }

/-- The definitions are loaded again and the runtime is restored. -/
def restoreRuntime (definition : ServiceDef) : ServiceState :=
  if !s.definition.revision.isEmpty && s.definition.revision != definition.revision then
    { loadService definition with
      restartCount := s.restartCount
      desiredRunning := s.desiredRunning }
  else { s with definition }

end ServiceState

inductive ServiceOp where
  | markStarting
  | markStarted
  | markReady
  | markFailed (exitCode : Int)
  | markStopping
  | markStopped (desiredRunning : Bool)
  | scheduleRestart (now : Int)
  | recordRestart
  | resetRestartBudget
  | recordDependencyBlock
  | replaceDefinitions (definition : ServiceDef)
  | restartProcess (definition : ServiceDef)

/-- A service with the number of `record_restart` calls, how many successful `schedule_restart`
calls are still without one, and how many had one since the window or the budget was reset. -/
structure ServiceHistory where
  state : ServiceState
  (calls scheduled restarts : Nat)

namespace ServiceHistory

open ServiceState

variable (t : ServiceHistory)

def scheduleRestart (now : Int) : ServiceHistory where
  state := (t.state.scheduleRestart now).1
  calls := t.calls
  scheduled := t.scheduled + (t.state.scheduleRestart now).2.toNat
  restarts := if t.state.shouldRestart && t.state.windowOver now then 0 else t.restarts

def recordRestart : ServiceHistory where
  state := t.state.recordRestart
  calls := t.calls + 1
  scheduled := t.scheduled - 1
  restarts := t.restarts + min t.scheduled 1

def step (t : ServiceHistory) : ServiceOp → ServiceHistory
  | .markStarting =>
    { t with state := { t.state with desiredRunning := true, restartExhausted := false } }
  | .markStarted =>
    { t with state :=
      { t.state with desiredRunning := true, restartExhausted := false, lastExitCode := none } }
  | .markReady | .markStopping => t
  | .markFailed exitCode => { t with state := { t.state with lastExitCode := some exitCode } }
  | .markStopped desiredRunning =>
    { t with state :=
      { t.state with lastExitCode := some 0, desiredRunning, restartExhausted := false } }
  | .scheduleRestart now => t.scheduleRestart now
  | .recordRestart => t.recordRestart
  | .resetRestartBudget =>
    { t with
      state :=
        { t.state with
          restartCount := 0, restartExhausted := false, restartWindowStartedAt := none
          lastExitCode := none }
      restarts := 0 }
  | .recordDependencyBlock =>
    { t with
      state := { t.state with dependencyBlocks := saturatingAdd t.state.dependencyBlocks 1 } }
  | .replaceDefinitions definition => { t with state := t.state.replaceDefinition definition }
  | .restartProcess definition => { t with state := t.state.restoreRuntime definition }

/-- A service is defined. -/
def defined (definition : ServiceDef) : ServiceHistory := ⟨loadService definition, 0, 0, 0⟩

/-- The operation leaves lifetime counters and budgets alone, and a restart is scheduled only while
the budget has room for those that are scheduled already. -/
def careful (t : ServiceHistory) : ServiceOp → Bool
  | .scheduleRestart now => !(t.state.scheduleRestart now).2 ||
    decide ((t.state.scheduleRestart now).1.restartCount + t.scheduled <
      t.state.definition.maxRestarts)
  | .recordRestart => decide (t.state.restartAttemptsTotal < u64Max)
  | .replaceDefinitions definition => decide (t.state.restartAttemptsTotal = 0 ∧
      t.state.definition.maxRestarts ≤ definition.maxRestarts)
  | .restartProcess definition => decide (definition = t.state.definition)
  | .recordDependencyBlock => decide (t.state.dependencyBlocks ≤ u64Max)
  | _ => true

/-- The lifetime restarts are the calls, and the restarts since a reset are within the budget. -/
structure Counted (t : ServiceHistory) : Prop where
  attempts : t.state.restartAttemptsTotal = t.calls
  within : t.restarts ≤ t.state.definition.maxRestarts
  counted : t.restarts ≤ t.state.restartCount
  room : 0 < t.scheduled →
    t.state.restartCount + t.scheduled ≤ t.state.definition.maxRestarts

/-- No lifetime counter goes back. -/
def Forward (t t' : ServiceHistory) : Prop :=
  t.state.restartAttemptsTotal ≤ t'.state.restartAttemptsTotal ∧
    t.state.dependencyBlocks ≤ t'.state.dependencyBlocks

variable {t}

theorem Counted.scheduleRestart (h : t.Counted) {now : Int}
    (hc : t.careful (.scheduleRestart now) = true) :
    (t.scheduleRestart now).Counted ∧ t.Forward (t.scheduleRestart now) := by
  obtain ⟨ha, hw, hcounted, hroom⟩ := h
  rw [careful] at hc
  rw [ServiceHistory.scheduleRestart]
  rw [ServiceState.scheduleRestart] at hc ⊢
  cases hs : t.state.shouldRestart with
  | false => exact ⟨⟨ha, hw, hcounted, hroom⟩, le_rfl, le_rfl⟩
  | true =>
    cases hv : t.state.windowOver now with
    | false =>
      simp only [hs, resetWindow, hv, Bool.true_and, Bool.false_eq_true, if_false, if_true] at hc ⊢
      split_ifs at hc ⊢ with hmax
      · exact ⟨⟨ha, hw, hcounted, hroom⟩, le_rfl, le_rfl⟩
      · exact ⟨⟨ha, hw, hcounted, fun _ => of_decide_eq_true hc⟩, le_rfl, le_rfl⟩
    | true =>
      simp only [hs, resetWindow, hv, Bool.true_and, if_true] at hc ⊢
      split_ifs at hc ⊢ with hmax
      · refine ⟨⟨ha, Nat.zero_le _, le_rfl, fun hp => ?_⟩, le_rfl, le_rfl⟩
        exact (Nat.add_le_add_right (Nat.zero_le _) _).trans (hroom hp)
      · exact ⟨⟨ha, Nat.zero_le _, le_rfl, fun _ => of_decide_eq_true hc⟩, le_rfl, le_rfl⟩

theorem Counted.recordRestart (h : t.Counted) (hc : t.state.restartAttemptsTotal < u64Max) :
    t.recordRestart.Counted ∧ t.Forward t.recordRestart := by
  have hmax := t.state.definition.isU32
  have hw := h.within
  have hcounted := h.counted
  have hroom := h.room
  have ht : saturatingAdd t.state.restartAttemptsTotal 1 = t.state.restartAttemptsTotal + 1 :=
    min_eq_left hc
  refine ⟨⟨ht.trans (congrArg (· + 1) h.attempts), ?_, ?_, fun hp => ?_⟩, ?_, le_rfl⟩
  · show t.restarts + min t.scheduled 1 ≤ t.state.definition.maxRestarts
    omega
  · show t.restarts + min t.scheduled 1 ≤ saturatingAdd32 t.state.restartCount 1
    unfold saturatingAdd32
    omega
  · show saturatingAdd32 t.state.restartCount 1 + (t.scheduled - 1) ≤
      t.state.definition.maxRestarts
    replace hp : 0 < t.scheduled - 1 := hp
    unfold saturatingAdd32
    omega
  · exact (Nat.le_succ _).trans_eq ht.symm

theorem Counted.step (h : t.Counted) {op : ServiceOp} (hc : t.careful op = true) :
    (t.step op).Counted ∧ t.Forward (t.step op) := by
  cases op with
  | scheduleRestart now => exact h.scheduleRestart hc
  | recordRestart => exact h.recordRestart (of_decide_eq_true hc)
  | resetRestartBudget =>
    refine ⟨⟨h.attempts, Nat.zero_le _, le_rfl, fun hp => ?_⟩, le_rfl, le_rfl⟩
    exact (Nat.add_le_add_right (Nat.zero_le _) _).trans (h.room hp)
  | recordDependencyBlock =>
    exact ⟨⟨h.attempts, h.within, h.counted, h.room⟩, le_rfl,
      le_min (Nat.le_succ _) (of_decide_eq_true hc)⟩
  | replaceDefinitions definition =>
    obtain ⟨hzero, hle⟩ := of_decide_eq_true hc
    exact ⟨⟨hzero.symm.trans h.attempts, h.within.trans hle, h.counted,
      fun hp => (h.room hp).trans hle⟩, hzero.le, le_rfl⟩
  | restartProcess definition =>
    obtain rfl : definition = t.state.definition := of_decide_eq_true hc
    simp only [ServiceHistory.step, restoreRuntime, bne_self_eq_false, Bool.and_false]
    exact ⟨h, le_rfl, le_rfl⟩
  | _ => exact ⟨⟨h.attempts, h.within, h.counted, h.room⟩, le_rfl, le_rfl⟩

/-- In a careful run from the definition of a service every step counts, and no counter goes
back. -/
theorem counters_kept {definition : ServiceDef} {ops : List ServiceOp}
    (h : EachAfter (fun pre op => (run step (defined definition) pre).careful op = true) ops) :
    EachAfter (fun pre op => let t := run step (defined definition) pre
      (t.step op).Counted ∧ t.Forward (t.step op)) ops := by
  intro pre op post hops
  have hpre : EachAfter (fun pre op => (run step (defined definition) pre).careful op = true) pre :=
    (eachAfter_append.1 (hops ▸ h)).1
  have hcounted : (run step (defined definition) pre).Counted :=
    run_invariant_of Counted (fun t op => t.careful op = true) ⟨rfl, Nat.zero_le _, le_rfl,
      fun hp => absurd hp (Nat.lt_irrefl 0)⟩ (fun _ _ hs hc => (hs.step hc).1) hpre
  exact hcounted.step (h pre op post hops)

/-- One restart a minute. -/
def Sample.service : ServiceDef := ⟨.always, 1, 60000, ['r'], by decide⟩

/-- A restart, a refused one in the same window, and one in the next window. -/
def Sample.windows : List ServiceOp :=
  [.markStarted, .scheduleRestart 0, .recordRestart, .scheduleRestart 1,
    .scheduleRestart 61000000000, .recordRestart]

theorem counters_kept_windows :
    let t := run step (defined Sample.service) Sample.windows
    t.Counted ∧ t.calls = 2 ∧ t.restarts = 1 := by
  have h : EachAfter (fun pre op => (run step (defined Sample.service) pre).careful op = true)
      Sample.windows := by
    apply eachAfter_of_take
    decide +kernel
  have hrun := counters_kept h (Sample.windows.take 5) .recordRestart [] rfl
  exact ⟨hrun.1, by decide +kernel⟩

/-- A reload of the same definition takes the lifetime restarts back to zero. Two restarts that are
scheduled before either is recorded exceed the budget of one. -/
theorem reload_loses_attempts :
    (run step (defined Sample.service) [.recordRestart]).state.restartAttemptsTotal = 1 ∧
      (run step (defined Sample.service)
        [.recordRestart, .replaceDefinitions Sample.service]).state.restartAttemptsTotal = 0 ∧
      (run step (defined Sample.service) [.markStarted, .scheduleRestart 0, .scheduleRestart 0,
        .recordRestart, .recordRestart]).restarts = 2 := by
  decide +kernel

end ServiceHistory

end AgentOS
