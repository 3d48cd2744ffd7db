import AgentOS.Lib.Run

/-!
# Durable cells

`transaction s body` runs a fallible body against the state `s`: an error leaves the state, a
result commits it. A durable cell holds an option of a value and may only move up an order;
`Advances` is that relation on options. A value stamped with a generation is replaced only under a
higher generation; `Stamped.Follows` is that relation. Both compose along a run (`run_related`).
-/

namespace AgentOS.Lib

variable {σ α ι ε : Type}

/-! ## Transactions -/

/-- The answer of a transaction and the state it leaves. -/
def transaction (s : σ) (body : Except ε (α × σ)) : Except ε α × σ :=
  match body with
  | .error e => (.error e, s)
  | .ok (a, s') => (.ok a, s')

variable {body : Except ε (α × σ)}

theorem transaction_of_error {s : σ} {e : ε} (h : body = .error e) :
    transaction s body = (.error e, s) := by
  rw [h]
  rfl

theorem transaction_of_ok {s : σ} {a : α} {s' : σ} (h : body = .ok (a, s')) :
    transaction s body = (.ok a, s') := by
  rw [h]
  rfl

/-- A transaction fails and leaves the state, or it commits what its body computed. -/
theorem transaction_cases {s : σ} :
    (∃ e, transaction s body = (.error e, s)) ∨
      ∃ a s', body = .ok (a, s') ∧ transaction s body = (.ok a, s') := by
  cases body with
  | error e => exact .inl ⟨e, rfl⟩
  | ok r => exact .inr ⟨r.1, r.2, rfl, rfl⟩

/-! ## Cells that only advance -/

/-- The cell keeps its value or moves up the order; an empty cell may be filled. -/
def Advances (le : α → α → Prop) : Option α → Option α → Prop
  | none, _ => True
  | some _, none => False
  | some a, some b => le a b

variable {le : α → α → Prop}

theorem Advances.refl (hrefl : ∀ a, le a a) (o : Option α) : Advances le o o := by
  cases o with
  | none => trivial
  | some a => exact hrefl a

theorem Advances.trans (ht : ∀ a b c, le a b → le b c → le a c) {o p q : Option α}
    (hop : Advances le o p) (hpq : Advances le p q) : Advances le o q := by
  cases o with
  | none => trivial
  | some a =>
    cases p with
    | none => exact hop.elim
    | some b =>
      cases q with
      | none => exact hpq.elim
      | some c => exact ht a b c hop hpq

theorem Advances.exists_of_some {a : α} {o : Option α} (h : Advances le (some a) o) :
    ∃ b, o = some b ∧ le a b := by
  cases o with
  | none => exact h.elim
  | some b => exact ⟨b, rfl, h⟩

/-! ## Values stamped with a generation -/

/-- A value and the generation that published it. -/
structure Stamped (α : Type) where
  generation : Nat
  value : α

namespace Stamped

/-- Generations only grow, and one generation has one value. -/
def Follows (earlier later : Stamped α) : Prop :=
  earlier.generation ≤ later.generation ∧
    (earlier.generation = later.generation → earlier.value = later.value)

theorem Follows.refl (s : Stamped α) : s.Follows s := ⟨Nat.le_refl _, fun _ => rfl⟩

theorem Follows.trans {s t u : Stamped α} (hst : s.Follows t) (htu : t.Follows u) :
    s.Follows u := by
  refine ⟨hst.1.trans htu.1, ?_⟩
  intro hsame
  have hmid : s.generation = t.generation :=
    Nat.le_antisymm hst.1 (hsame ▸ htu.1)
  rw [hst.2 hmid]
  exact htu.2 (hmid.symm.trans hsame)

theorem follows_of_succ {s t : Stamped α} (h : t.generation = s.generation + 1) : s.Follows t :=
  ⟨by omega, by omega⟩

end Stamped

/-! ## Relations along a run -/

/-- A reflexive and transitive relation that every step extends, from the states that an invariant
allows, relates any point of a run to every later one. -/
theorem run_related {step : σ → ι → σ} {init : σ} {I : σ → Prop} {R : σ → σ → Prop}
    (hrefl : ∀ s, R s s) (ht : ∀ s t u, R s t → R t u → R s u) (hinit : I init)
    (hkeep : ∀ s i, I s → I (step s i)) (hstep : ∀ s i, I s → R s (step s i))
    (prior later : List ι) : R (run step init prior) (run step init (prior ++ later)) := by
  induction later using List.reverseRecOn with
  | nil =>
    rw [List.append_nil]
    exact hrefl _
  | append_singleton later i ih =>
    rw [← List.append_assoc, run_snoc]
    exact ht _ _ _ ih (hstep _ i (run_invariant hinit hkeep _))

end AgentOS.Lib
