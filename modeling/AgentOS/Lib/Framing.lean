import Mathlib

/-!
# Unambiguous framing

A code is framed when a message that begins with a code word determines a view of the value behind
the word, and the rest. A length makes a list framed (`Framed.sized`), and a list of framed words
that are not empty is read back even without its length (`Framed.flatMap_inj`).
-/

namespace AgentOS.Lib

variable {α β γ : Type} {P : α → Prop} {f : α → List β} {view : α → γ}

/-- The words of values with `P` are read off the front of a message, up to `view`. -/
def Framed (P : α → Prop) (f : α → List β) (view : α → γ) : Prop :=
  ∀ ⦃a b⦄, P a → P b → ∀ {r r'}, f a ++ r = f b ++ r' → view a = view b ∧ r = r'

theorem framed_of_length (hlen : ∀ a b, (f a).length = (f b).length)
    (hinj : ∀ a b, P a → P b → f a = f b → a = b) : Framed P f id := by
  intro a b ha hb r r' h
  obtain ⟨hf, hr⟩ := List.append_inj h (hlen a b)
  exact ⟨hinj a b ha hb hf, hr⟩

variable {Q : Nat → Prop} {size : Nat → List β} (hs : Framed Q size id)
include hs

/-- A list after its length. -/
theorem Framed.sized {g : α → List β} (hg : Function.Injective g) :
    Framed (fun a => Q (g a).length) (fun a => size (g a).length ++ g a) id := by
  intro a b ha hb r r' h
  rw [List.append_assoc, List.append_assoc] at h
  obtain ⟨hlen, hrest⟩ := hs ha hb h
  obtain ⟨hg', hr⟩ := List.append_inj hrest hlen
  exact ⟨hg hg', hr⟩

omit hs

theorem Framed.flatMap_inj (h : Framed P f id) (hne : ∀ a, f a ≠ []) {l l' : List α}
    (hl : ∀ a ∈ l, P a) (hl' : ∀ a ∈ l', P a) (heq : l.flatMap f = l'.flatMap f) : l = l' := by
  induction l generalizing l' with
  | nil =>
    cases l' with
    | nil => rfl
    | cons b l' => exact absurd (List.append_eq_nil_iff.1 heq.symm).1 (hne b)
  | cons a l ih =>
    cases l' with
    | nil => exact absurd (List.append_eq_nil_iff.1 heq).1 (hne a)
    | cons b l' =>
      obtain ⟨ha, ht⟩ := List.forall_mem_cons.1 hl
      obtain ⟨hb, ht'⟩ := List.forall_mem_cons.1 hl'
      rw [List.flatMap_cons, List.flatMap_cons] at heq
      obtain ⟨hab, hrest⟩ := h ha hb heq
      exact congrArg₂ List.cons hab (ih ht ht' hrest)

end AgentOS.Lib
