import Mathlib

/-!
# Procedures that may fail or be cut short

A procedure works on a state by calls to its surroundings. The surroundings decide the fate of
each call: it is carried out, it fails with an error, or it is never made because of a crash. A
`Plan` holds these decisions; the procedure is a function of the plan, so one statement over all
plans covers every failing call and every crash point.

`Meets` is the specification of a procedure from one state: which states it passes through, what
holds when it returns, and what holds when it returns an error. Its rules follow the combinators
(`meets_bind`, `meets_call`, `meets_attempt`, …); `Meets.outcome` turns a proved specification into
facts about a run.
-/

namespace AgentOS.Lib

variable {σ ο ι ε ε' α β : Type}

/-! ## Procedures -/

/-- What the surroundings make of one call. -/
inductive Fate (ι : Type) where
  | done
  | failed (error : ι)
  | crash
  deriving DecidableEq

/-- The fate of the `n`-th call, which also depends on what is called. -/
abbrev Plan (ο ι : Type) : Type := Nat → ο → Fate ι

/-- The state, the number of calls made, and every state reached so far, newest first. -/
structure Track (σ : Type) where
  state : σ
  calls : Nat
  moments : List σ

/-- A system in a state, with no call made. -/
def Track.start (s : σ) : Track σ := ⟨s, 0, [s]⟩

/-- How a procedure ends. -/
inductive Ending (ε α : Type) where
  | ok (value : α)
  | error (e : ε)
  | crashed
  deriving DecidableEq

/-- A procedure: calls of kind `ο` that fail with `ι`, its own errors `ε`, results `α`. -/
def Proc (σ ο ι ε α : Type) : Type := Plan ο ι → Track σ → Ending ε α × Track σ

namespace Proc

/-- Return a value. -/
def ret (a : α) : Proc σ ο ι ε α := fun _ t => (.ok a, t)

/-- Leave with an error. -/
def throw (e : ε) : Proc σ ο ι ε α := fun _ t => (.error e, t)

/-- Go on with the value of a procedure. -/
def bind (m : Proc σ ο ι ε α) (f : α → Proc σ ο ι ε β) : Proc σ ο ι ε β := fun plan t =>
  match m plan t with
  | (.ok a, t') => f a plan t'
  | (.error e, t') => (.error e, t')
  | (.crashed, t') => (.crashed, t')

instance : Monad (Proc σ ο ι ε) where
  pure := ret
  bind

/-- One call. An action that fails by itself leaves the state alone, and so does a call that the
surroundings refuse. -/
def call (op : ο) (raise : ι → ε) (act : σ → Except ε (α × σ)) : Proc σ ο ι ε α := fun plan t =>
  match plan t.calls op with
  | .done =>
    match act t.state with
    | .ok (a, s) => (.ok a, ⟨s, t.calls + 1, s :: t.moments⟩)
    | .error e => (.error e, { t with calls := t.calls + 1 })
  | .failed e => (.error (raise e), { t with calls := t.calls + 1 })
  | .crash => (.crashed, t)

/-- `map_err`. -/
def mapError (f : ε → ε') (m : Proc σ ο ι ε α) : Proc σ ο ι ε' α := fun plan t =>
  match m plan t with
  | (.ok a, t') => (.ok a, t')
  | (.error e, t') => (.error (f e), t')
  | (.crashed, t') => (.crashed, t')

/-- The result of a procedure as a value; only a crash still cuts it short. -/
def attempt (m : Proc σ ο ι ε α) : Proc σ ο ι ε' (Except ε α) := fun plan t =>
  match m plan t with
  | (.ok a, t') => (.ok (.ok a), t')
  | (.error e, t') => (.ok (.error e), t')
  | (.crashed, t') => (.crashed, t')

/-- An `Except` value as a procedure without calls. -/
def lift : Except ε α → Proc σ ο ι ε α
  | .ok a => ret a
  | .error e => throw e

/-- A procedure whose errors are dropped: `let _ = …`. -/
def ignore (m : Proc σ ο ι ε α) : Proc σ ο ι ε' Unit := do
  let _ ← (attempt m : Proc σ ο ι ε' (Except ε α))
  ret ()

end Proc

/-! ## Specifications -/

/-- What an ending and the state it leaves have to satisfy. -/
def Ending.Sat (I : σ → Prop) (Q : α → σ → Prop) (E : ε → σ → Prop) : Ending ε α → σ → Prop
  | .ok a, s => Q a s
  | .error e, s => E e s
  | .crashed, s => I s

/-- From the state `s`, under every plan with fates allowed by `A`: all states passed through
satisfy `I`, a return satisfies `Q`, an error satisfies `E`. -/
def Meets (A : ο → Fate ι → Prop) (I : σ → Prop) (m : Proc σ ο ι ε α) (s : σ)
    (Q : α → σ → Prop) (E : ε → σ → Prop) : Prop :=
  ∀ plan : Plan ο ι, (∀ n op, A op (plan n op)) → ∀ t : Track σ, t.state = s →
    (∀ x ∈ t.moments, I x) →
    (∀ x ∈ (m plan t).2.moments, I x) ∧ (m plan t).1.Sat I Q E (m plan t).2.state

/-- Some call may fail. -/
def MayFail (A : ο → Fate ι → Prop) : Prop := ∃ op e, A op (.failed e)

section Rules

variable {A : ο → Fate ι → Prop} {I : σ → Prop} {s : σ}

variable {Q : α → σ → Prop} {E : ε → σ → Prop}

theorem meets_ret {a : α} (h : Q a s) : Meets A I (Proc.ret a : Proc σ ο ι ε α) s Q E := by
  rintro plan - t rfl hmo
  exact ⟨hmo, h⟩

theorem meets_throw {e : ε} (h : E e s) : Meets A I (Proc.throw e : Proc σ ο ι ε α) s Q E := by
  rintro plan - t rfl hmo
  exact ⟨hmo, h⟩

theorem meets_lift {r : Except ε α} (hok : ∀ a, r = .ok a → Q a s)
    (he : ∀ e, r = .error e → E e s) : Meets A I (Proc.lift r : Proc σ ο ι ε α) s Q E := by
  cases r with
  | ok a => exact meets_ret (hok a rfl)
  | error e => exact meets_throw (he e rfl)

variable {m : Proc σ ο ι ε α}

theorem meets_bind {f : α → Proc σ ο ι ε β} {Q : β → σ → Prop}
    (h : Meets A I m s (fun a s' => Meets A I (f a) s' Q E) E) : Meets A I (m >>= f) s Q E := by
  intro plan hplan t ht hmo
  obtain ⟨hm, hsat⟩ := h plan hplan t ht hmo
  change (∀ x ∈ (Proc.bind m f plan t).2.moments, I x) ∧
    (Proc.bind m f plan t).1.Sat I Q E (Proc.bind m f plan t).2.state
  unfold Proc.bind
  -- the first part decides whether the second one runs at all
  rcases hr : m plan t with ⟨_ | _ | _, t'⟩
  case ok a =>
    rw [hr] at hm hsat
    exact hsat plan hplan t' rfl hm
  case error e =>
    rw [hr] at hm hsat
    exact ⟨hm, hsat⟩
  case crashed =>
    rw [hr] at hm hsat
    exact ⟨hm, hsat⟩

theorem meets_consequence {Q' : α → σ → Prop} {E' : ε → σ → Prop} (h : Meets A I m s Q E)
    (hQ : ∀ a s', Q a s' → Q' a s') (hE : ∀ e s', E e s' → E' e s') : Meets A I m s Q' E' := by
  intro plan hplan t ht hmo
  obtain ⟨hm, hsat⟩ := h plan hplan t ht hmo
  refine ⟨hm, ?_⟩
  cases hr : (m plan t).1 with
  | ok a =>
    rw [hr] at hsat
    exact hQ a _ hsat
  | error e =>
    rw [hr] at hsat
    exact hE e _ hsat
  | crashed =>
    rw [hr] at hsat
    exact hsat

theorem meets_call {op : ο} {raise : ι → ε} {act : σ → Except ε (α × σ)} (hnow : I s)
    (hok : ∀ a s', act s = .ok (a, s') → I s' ∧ Q a s') (he : ∀ e, act s = .error e → E e s)
    (hf : ∀ e, A op (.failed e) → E (raise e) s) : Meets A I (Proc.call op raise act) s Q E := by
  rintro plan hplan t rfl hmo
  unfold Proc.call
  cases hfate : plan t.calls op with
  | done =>
    cases hact : act t.state with
    | ok r =>
      obtain ⟨hI, hQ⟩ := hok r.1 r.2 hact
      refine ⟨fun x hx => ?_, hQ⟩
      rcases List.mem_cons.1 hx with rfl | hx
      · exact hI
      · exact hmo x hx
    | error e => exact ⟨hmo, he e hact⟩
  | failed e => exact ⟨hmo, hf e (hfate ▸ hplan t.calls op)⟩
  | crash => exact ⟨hmo, hnow⟩

theorem meets_mapError {f : ε → ε'} {E : ε' → σ → Prop}
    (h : Meets A I m s Q fun e s' => E (f e) s') : Meets A I (Proc.mapError f m) s Q E := by
  intro plan hplan t ht hmo
  obtain ⟨hm, hsat⟩ := h plan hplan t ht hmo
  unfold Proc.mapError
  rcases hr : m plan t with ⟨_ | _ | _, t'⟩ <;> rw [hr] at hm hsat <;> exact ⟨hm, hsat⟩

theorem meets_attempt {Q : Except ε α → σ → Prop} {E : ε' → σ → Prop}
    (h : Meets A I m s (fun a s' => Q (.ok a) s') fun e s' => Q (.error e) s') :
    Meets A I (Proc.attempt m : Proc σ ο ι ε' _) s Q E := by
  intro plan hplan t ht hmo
  obtain ⟨hm, hsat⟩ := h plan hplan t ht hmo
  unfold Proc.attempt
  rcases hr : m plan t with ⟨_ | _ | _, t'⟩ <;> rw [hr] at hm hsat <;> exact ⟨hm, hsat⟩

theorem meets_ignore {Q : Unit → σ → Prop} {E : ε' → σ → Prop}
    (h : Meets A I m s (fun _ s' => Q () s') fun _ s' => Q () s') :
    Meets A I (Proc.ignore m : Proc σ ο ι ε' _) s Q E := by
  apply meets_bind
  apply meets_attempt
  exact meets_consequence h (fun _ _ hQ => meets_ret hQ) fun _ _ hQ => meets_ret hQ

variable {plan : Plan ο ι} {t : Track σ}

section

variable (h : Meets A I m t.state Q E)
include h

variable (hplan : ∀ n op, A op (plan n op))
include hplan

variable (hmo : ∀ x ∈ t.moments, I x)
include hmo

/-- What a specification says about one run. -/
theorem Meets.outcome :
    (∀ x ∈ (m plan t).2.moments, I x) ∧ (m plan t).1.Sat I Q E (m plan t).2.state :=
  h plan hplan t rfl hmo

/-- What a specification says about a run that returns. -/
theorem Meets.of_ok {a : α} (hr : (m plan t).1 = .ok a) : Q a (m plan t).2.state := by
  have hsat := (h.outcome hplan hmo).2
  rw [hr] at hsat
  exact hsat

/-- What a specification says about a run that fails. -/
theorem Meets.of_error {e : ε} (hr : (m plan t).1 = .error e) : E e (m plan t).2.state := by
  have hsat := (h.outcome hplan hmo).2
  rw [hr] at hsat
  exact hsat

end

/-! ### Repeated runs -/

/-- The state and every state before it satisfy `I`. -/
def Track.Within (I : σ → Prop) (t : Track σ) : Prop := I t.state ∧ ∀ x ∈ t.moments, I x

theorem Track.within_start (h : I s) : (Track.start s).Within I := by
  refine ⟨h, fun x hx => ?_⟩
  rw [List.mem_singleton.1 hx]
  exact h

theorem Meets.within (h : Meets A I m t.state Q E) (hplan : ∀ n op, A op (plan n op))
    (ht : t.Within I) (hQ : ∀ a s', Q a s' → I s') (hE : ∀ e s', E e s' → I s') :
    (m plan t).2.Within I := by
  obtain ⟨hmo, hsat⟩ := h.outcome hplan ht.2
  refine ⟨?_, hmo⟩
  cases hr : (m plan t).1 with
  | ok a =>
    rw [hr] at hsat
    exact hQ a _ hsat
  | error e =>
    rw [hr] at hsat
    exact hE e _ hsat
  | crashed =>
    rw [hr] at hsat
    exact hsat

/-- One run of a procedure after another, each under its own plan. -/
def runs (m : Proc σ ο ι ε α) (t : Track σ) (plans : List (Plan ο ι)) : Track σ :=
  plans.foldl (fun t plan => (m plan t).2) t

/-- What every run keeps holds after any number of runs. -/
theorem runs_within {plans : List (Plan ο ι)}
    (hstep : ∀ s, I s → Meets A I m s (fun _ s' => I s') fun _ s' => I s')
    (hpl : ∀ plan ∈ plans, ∀ n op, A op (plan n op)) (ht : t.Within I) :
    (runs m t plans).Within I := by
  induction plans generalizing t with
  | nil => exact ht
  | cons plan plans ih =>
    have hf : (m plan t).2.Within I :=
      (hstep t.state ht.1).within (hpl plan List.mem_cons_self) ht (fun _ _ h => h)
        fun _ _ h => h
    exact ih (fun p hp => hpl p (List.mem_cons_of_mem _ hp)) hf

end Rules

end AgentOS.Lib
