import Mathlib

/-!
# Terminal standing

A directory records the standing of its nodes, the holder of every live lease and the nodes that
have an operation under way. Its steps never restore a node that was expelled, and they give leases
and start operations only for nodes in good standing (`DirectoryStep`). An expelled node without
leases and operations therefore stays without them (`Evicted.step`).
-/

namespace AgentOS.Lib

inductive Standing
  | good
  | away
  | expelled
  deriving DecidableEq

/-- Nodes, the live leases they hold and the operations they have under way. -/
structure Directory (N A : Type) where
  standing : N → Option Standing
  holder : A → Option N
  busy : N → Prop

variable {N A : Type}

/-- What every change of the directory respects. -/
structure DirectoryStep (d d' : Directory N A) : Prop where
  terminal : ∀ n, d.standing n = some .expelled → d'.standing n = some .expelled
  granted : ∀ a n, d'.holder a = some n → d.holder a = some n ∨ d.standing n = some .good
  started : ∀ n, d'.busy n → d.busy n ∨ d.standing n = some .good

/-- A node that was expelled and has no operation under way. -/
structure Expelled (d : Directory N A) (n : N) : Prop where
  standing : d.standing n = some .expelled
  idle : ¬ d.busy n

/-- An expelled node that holds no live lease. -/
structure Evicted (d : Directory N A) (n : N) : Prop extends Expelled d n where
  holder : ∀ a, d.holder a ≠ some n

theorem Expelled.not_good {d : Directory N A} {n : N} (h : Expelled d n) :
    d.standing n ≠ some .good := by
  rw [h.standing]
  simp

theorem Expelled.step {d d' : Directory N A} {n : N} (h : Expelled d n)
    (hstep : DirectoryStep d d') : Expelled d' n := by
  refine ⟨hstep.terminal n h.standing, fun hbusy => ?_⟩
  rcases hstep.started n hbusy with hbusy | hgood
  · exact h.idle hbusy
  · exact h.not_good hgood

theorem Evicted.step {d d' : Directory N A} {n : N} (h : Evicted d n)
    (hstep : DirectoryStep d d') : Evicted d' n := by
  refine ⟨h.toExpelled.step hstep, fun a ha => ?_⟩
  rcases hstep.granted a n ha with hheld | hgood
  · exact h.holder a hheld
  · exact h.not_good hgood

end AgentOS.Lib
