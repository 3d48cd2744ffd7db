import AgentOS.Base.Word

/-!
# The circuit breaker

`CircuitBreaker` keeps a counter of consecutive failures in an atomic and its state behind a lock,
so recording a result is two atomic actions, with other senders in between: `record_success` stores
zero and then closes the breaker, `record_failure` increments the counter and then, under the lock,
stamps the failure and opens the breaker if the value it got from the counter reached the threshold.
`is_available` hands out the single recovery probe by moving an open breaker to half-open.

Instants are nanoseconds of a monotonic clock.
-/

namespace AgentOS

inductive BreakerState where
  | closed
  | opened
  | halfOpen
  deriving DecidableEq

/-- `CircuitBreaker`. It leaves the closed state only by a failure, which is stamped under the same
lock. -/
structure CircuitBreaker where
  (failureThreshold consecutiveFailures : Nat)
  state : BreakerState
  lastFailure : Option Nat
  cooldownSecs : Nat
  stamped : state ≠ .closed → lastFailure ≠ none
  deriving DecidableEq

namespace CircuitBreaker

/-- `CircuitBreaker::new`. -/
def new (failureThreshold cooldownSecs : Nat) : CircuitBreaker where
  failureThreshold
  consecutiveFailures := 0
  state := .closed
  lastFailure := none
  cooldownSecs
  stamped h := absurd rfl h

variable (brk : CircuitBreaker)

/-- `last.elapsed().as_secs() >= self.cooldown_secs` for the last failure, if there was one. -/
def cooledDown (now : Nat) : Bool :=
  match brk.lastFailure with
  | some last => brk.cooldownSecs ≤ (now - last) / 1000000000
  | none => false

/-- The move to half-open inside `is_available`. -/
def probe (h : brk.state = .opened) : CircuitBreaker :=
  { brk with
    state := .halfOpen
    stamped := fun _ => brk.stamped (by rw [h]; simp) }

/-- `is_available`: the answer and the breaker afterwards. -/
def isAvailable (now : Nat) : Bool × CircuitBreaker :=
  match h : brk.state with
  | .closed => (true, brk)
  | .opened => if brk.cooledDown now then (true, brk.probe h) else (false, brk)
  | .halfOpen => (false, brk)

/-- The first action of `record_success`: the counter is set to zero. -/
def storeZero : CircuitBreaker := { brk with consecutiveFailures := 0 }

/-- The second action of `record_success`: the breaker is closed. -/
def close : CircuitBreaker :=
  { brk with
    state := .closed
    stamped := fun h => absurd rfl h }

/-- The first action of `record_failure`: the counter, a `u32`, is incremented. -/
def fetchAdd : CircuitBreaker :=
  { brk with consecutiveFailures := (brk.consecutiveFailures + 1) % 2 ^ 32 }

/-- The second action of `record_failure`, with the count that the first one saw. -/
def trip (failures now : Nat) : CircuitBreaker :=
  { brk with
    state := if brk.failureThreshold ≤ failures then .opened else brk.state
    lastFailure := some now
    stamped := fun _ => by simp }

variable {brk}

/-- A sender that is turned away changes nothing; one that is let through finds the breaker closed
or takes the probe. -/
theorem isAvailable_cases (now : Nat) :
    brk.isAvailable now = (false, brk) ∨ brk.isAvailable now = (true, brk) ∨
      ∃ h, brk.isAvailable now = (true, brk.probe h) := by
  unfold isAvailable
  split
  · exact .inr (.inl rfl)
  · next h =>
    split
    · exact .inr (.inr ⟨h, rfl⟩)
    · exact .inl rfl
  · exact .inl rfl

theorem isAvailable_of_halfOpen (h : brk.state = .halfOpen) (now : Nat) :
    brk.isAvailable now = (false, brk) := by
  unfold isAvailable
  split
  · next h' => simp [h] at h'
  · next h' => simp [h] at h'
  · rfl

/-- A breaker that is not half-open lets a sender through once its cooldown is over. -/
theorem isAvailable_of_ne_halfOpen (h : brk.state ≠ .halfOpen) {now : Nat}
    (hc : brk.lastFailure ≠ none → brk.cooledDown now = true) :
    (brk.isAvailable now).1 = true := by
  unfold isAvailable
  split
  · rfl
  · next ho =>
    rw [if_pos (hc (brk.stamped (by rw [ho]; simp)))]
  · next h' => exact absurd h' h

end CircuitBreaker

end AgentOS
