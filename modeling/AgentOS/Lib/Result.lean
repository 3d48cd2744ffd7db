import Mathlib

/-!
# Early exits

A function that checks its inputs one after another and leaves at the first failed check is
written in `Except ε` with two combinators: `rejectIf` leaves when a test holds, `orReject` leaves
when an option is empty. The lemmas below turn the equation `f x = .ok r` of such a function into
the conjunction of its checks; every inversion lemma of the development is `simp only` with them.
-/

namespace AgentOS.Lib

variable {ε ε' α β : Type}

/-- Leave with `e` when `bad` holds. -/
def rejectIf (bad : Prop) [Decidable bad] (e : ε) : Except ε Unit :=
  if bad then .error e else .ok ()

/-- The value of an option, or leave with `e`. -/
def orReject : Option α → ε → Except ε α
  | some a, _ => .ok a
  | none, e => .error e

/-- `Result::is_ok`. -/
def isOk : Except ε α → Bool
  | .ok _ => true
  | .error _ => false

theorem ok_bind (a : α) (f : α → Except ε β) : (.ok a >>= f) = f a := rfl

theorem error_bind (e : ε) (f : α → Except ε β) : (.error e >>= f) = .error e := rfl

theorem bind_of_ok {x : Except ε α} {a : α} (h : x = .ok a) (f : α → Except ε β) :
    (x >>= f) = f a := by
  rw [h]
  rfl

theorem bind_of_error {x : Except ε α} {e : ε} (h : x = .error e) (f : α → Except ε β) :
    (x >>= f) = .error e := by
  rw [h]
  rfl

theorem rejectIf_true {bad : Prop} [Decidable bad] {e : ε} (h : bad) :
    rejectIf bad e = .error e := if_pos h

theorem rejectIf_false {bad : Prop} [Decidable bad] {e : ε} (h : ¬ bad) :
    rejectIf bad e = .ok () := if_neg h

theorem bind_eq_ok {x : Except ε α} {f : α → Except ε β} {b : β} :
    (x >>= f) = .ok b ↔ ∃ a, x = .ok a ∧ f a = .ok b := by
  constructor
  · intro h
    cases x with
    | error e => exact absurd h (by simp [bind, Except.bind])
    | ok a => exact ⟨a, rfl, h⟩
  · rintro ⟨a, rfl, h⟩
    exact h

theorem pure_eq_ok {a b : α} : (pure a : Except ε α) = .ok b ↔ a = b := by
  simp [pure, Except.pure]

theorem mapError_eq_ok {x : Except ε α} {f : ε → ε'} {a : α} :
    x.mapError f = .ok a ↔ x = .ok a := by
  cases x with
  | error e => simp [Except.mapError]
  | ok b => simp [Except.mapError]

@[simp] theorem rejectIf_eq_ok {bad : Prop} [Decidable bad] {e : ε} {u : Unit} :
    rejectIf bad e = .ok u ↔ ¬ bad := by
  by_cases h : bad
  · simp [rejectIf, h]
  · simp [rejectIf, h]

@[simp] theorem orReject_eq_ok {o : Option α} {e : ε} {a : α} :
    orReject o e = .ok a ↔ o = some a := by
  cases o with
  | none => simp [orReject]
  | some b => simp [orReject]

theorem isOk_iff {x : Except ε α} : isOk x = true ↔ ∃ a, x = .ok a := by
  cases x with
  | error e => simp [isOk]
  | ok a => simp [isOk]

theorem ok_unit_iff {x : Except ε Unit} : (∃ u, x = .ok u) ↔ x = .ok () := by
  constructor
  · rintro ⟨u, h⟩
    exact h
  · intro h
    exact ⟨(), h⟩

end AgentOS.Lib
