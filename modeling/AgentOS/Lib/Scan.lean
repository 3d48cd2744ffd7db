import AgentOS.Lib.Result

/-!
# Loops with accumulators and early exit

A loop over a list that checks each element against what it has accumulated so far and then
updates the accumulator is `List.foldlM` in `Except ε`. When one round succeeds exactly if a test
`good` holds, with the new accumulator `upd`, the loop succeeds exactly if every element passes
the test after its own prefix (`foldlM_eq_ok_iff`). `EachAfter` is that condition; it grows by one
conjunct when the list grows by one element (`eachAfter_snoc`), so appending to an append-only
history needs one new check.
-/

namespace AgentOS.Lib

variable {ε α σ : Type}

/-- Every element of `l` satisfies `P` after the prefix that precedes it. -/
def EachAfter (P : List α → α → Prop) (l : List α) : Prop :=
  ∀ pre a post, l = pre ++ a :: post → P pre a

variable {P : List α → α → Prop}

@[simp] theorem eachAfter_nil : EachAfter P [] := by
  intro pre a post h
  simp at h

variable {l : List α}

theorem eachAfter_snoc {a : α} : EachAfter P (l ++ [a]) ↔ EachAfter P l ∧ P l a := by
  constructor
  · intro h
    refine ⟨?_, h l a [] rfl⟩
    intro pre b post hl
    exact h pre b (post ++ [a]) (by simp [hl])
  · rintro ⟨hl, ha⟩ pre b post h
    -- the element `b` is the last one exactly when nothing follows it
    rcases List.eq_nil_or_concat post with rfl | ⟨post', c, rfl⟩
    · have h' : l ++ [a] = pre ++ [b] := h
      obtain ⟨rfl, hab⟩ := List.append_inj' h' rfl
      obtain rfl : a = b := by simpa using hab
      exact ha
    · have h' : l ++ [a] = (pre ++ b :: post') ++ [c] := by simpa using h
      obtain ⟨hl', -⟩ := List.append_inj' h' rfl
      exact hl pre b post' hl'

theorem EachAfter.mono {Q : List α → α → Prop} (h : EachAfter P l)
    (hPQ : ∀ pre a, a ∈ l → P pre a → Q pre a) : EachAfter Q l := by
  intro pre a post hl
  exact hPQ pre a (by simp [hl]) (h pre a post hl)

theorem EachAfter.and_iff {Q : List α → α → Prop} :
    EachAfter (fun pre a => P pre a ∧ Q pre a) l ↔ EachAfter P l ∧ EachAfter Q l := by
  constructor
  · intro h
    exact ⟨fun pre a post hl => (h pre a post hl).1, fun pre a post hl => (h pre a post hl).2⟩
  · rintro ⟨hP, hQ⟩ pre a post hl
    exact ⟨hP pre a post hl, hQ pre a post hl⟩

theorem eachAfter_append {l' : List α} :
    EachAfter P (l ++ l') ↔ EachAfter P l ∧ EachAfter (fun pre a => P (l ++ pre) a) l' := by
  induction l' using List.reverseRecOn with
  | nil => simp
  | append_singleton l' a ih =>
    rw [← List.append_assoc, eachAfter_snoc, eachAfter_snoc, ih, and_assoc]

theorem eachAfter_cons {a : α} :
    EachAfter P (a :: l) ↔ P [] a ∧ EachAfter (fun pre b => P (a :: pre) b) l := by
  have ha : a :: l = [a] ++ l := rfl
  rw [ha, eachAfter_append, ← List.nil_append [a], eachAfter_snoc]
  simp

theorem eachAfter_map {β : Type} {P : List β → β → Prop} {f : α → β} :
    EachAfter P (l.map f) ↔ EachAfter (fun pre a => P (pre.map f) (f a)) l := by
  induction l using List.reverseRecOn with
  | nil => simp
  | append_singleton l a ih =>
    rw [List.map_append, List.map_singleton, eachAfter_snoc, eachAfter_snoc, ih]

theorem eachAfter_iff_forall_mem {P : α → Prop} : EachAfter (fun _ a => P a) l ↔ ∀ a ∈ l, P a := by
  constructor
  · intro h a ha
    obtain ⟨pre, post, rfl⟩ := List.append_of_mem ha
    exact h pre a post rfl
  · intro h pre a post hl
    exact h a (by simp [hl])

theorem eachAfter_iff_pairwise {R : α → α → Prop} :
    EachAfter (fun pre a => ∀ b ∈ pre, R b a) l ↔ l.Pairwise R := by
  induction l using List.reverseRecOn with
  | nil => simp
  | append_singleton l a ih => simp [eachAfter_snoc, ih, List.pairwise_append]

/-- The condition checked position by position, which decides it for a given list. -/
theorem eachAfter_of_take (h : ∀ i : Fin l.length, P (l.take i) l[i]) : EachAfter P l := by
  intro pre a post hl
  have hlt : pre.length < l.length := by simp [hl]
  have hget : l[pre.length] = a := by simp [hl]
  have htake : l.take pre.length = pre := by simp [hl]
  have hpre := h ⟨pre.length, hlt⟩
  rwa [Fin.getElem_fin, hget, htake] at hpre

theorem foldlM_snoc (step : σ → α → Except ε σ) (init : σ) (l : List α) (a : α) :
    (l ++ [a]).foldlM step init = l.foldlM step init >>= fun acc => step acc a := by
  simp

/-- A loop that succeeds has passed the test of every round. -/
theorem forall_of_foldlM_ok {step : σ → α → Except ε σ} {Q : α → Prop} {acc acc' : σ}
    (h : l.foldlM step acc = .ok acc') (hstep : ∀ acc a acc', step acc a = .ok acc' → Q a) :
    ∀ a ∈ l, Q a := by
  induction l generalizing acc with
  | nil => simp
  | cons a l ih =>
    obtain ⟨mid, ha, hrest⟩ := bind_eq_ok.1 (List.foldlM_cons.symm.trans h)
    exact List.forall_mem_cons.2 ⟨hstep _ _ _ ha, ih hrest⟩

/-- A loop whose rounds test and update succeeds exactly when every element passes its test, and
then returns the plain fold of the updates. -/
theorem foldlM_eq_ok_iff {step : σ → α → Except ε σ} {good : σ → α → Prop} {upd : σ → α → σ}
    (hstep : ∀ acc a acc', step acc a = .ok acc' ↔ good acc a ∧ upd acc a = acc')
    (init : σ) (l : List α) (acc : σ) :
    l.foldlM step init = .ok acc ↔
      EachAfter (fun pre a => good (pre.foldl upd init) a) l ∧ l.foldl upd init = acc := by
  induction l using List.reverseRecOn generalizing acc with
  | nil => simp [pure_eq_ok]
  | append_singleton l a ih =>
    rw [foldlM_snoc, bind_eq_ok, eachAfter_snoc]
    constructor
    · rintro ⟨mid, hmid, hlast⟩
      obtain ⟨hl, rfl⟩ := (ih mid).1 hmid
      obtain ⟨hgood, rfl⟩ := (hstep _ a acc).1 hlast
      exact ⟨⟨hl, hgood⟩, by simp⟩
    · rintro ⟨⟨hl, hgood⟩, rfl⟩
      refine ⟨l.foldl upd init, (ih _).2 ⟨hl, rfl⟩, ?_⟩
      exact (hstep _ a _).2 ⟨hgood, by simp⟩

/-- The loop over a list of checks without an accumulator. -/
theorem forM_eq_ok_iff {check : α → Except ε Unit} {good : α → Prop}
    (hc : ∀ a, check a = .ok () ↔ good a) (l : List α) :
    l.forM check = .ok () ↔ ∀ a ∈ l, good a := by
  induction l with
  | nil => simp [pure_eq_ok]
  | cons a l ih =>
    show (check a >>= fun _ => l.forM check) = .ok () ↔ _
    rw [bind_eq_ok]
    constructor
    · rintro ⟨u, ha, hl⟩ b hb
      rcases List.mem_cons.1 hb with rfl | hb
      · exact (hc b).1 ha
      · exact ih.1 hl b hb
    · intro h
      refine ⟨(), (hc a).2 (h a (by simp)), ih.2 fun b hb => h b (by simp [hb])⟩

theorem forM_eq_ok {check : α → Except ε Unit} (h : ∀ a ∈ l, check a = .ok ()) :
    l.forM check = .ok () :=
  (forM_eq_ok_iff (fun _ => Iff.rfl) l).2 h

/-- The loop that collects the results of calls that all succeed. -/
theorem mapM_eq_ok {β : Type} {f : α → Except ε β} {g : α → β} (h : ∀ a ∈ l, f a = .ok (g a)) :
    l.mapM f = .ok (l.map g) := by
  induction l with
  | nil => rfl
  | cons a l ih =>
    rw [List.mapM_cons, h a (by simp), ih fun b hb => h b (by simp [hb])]
    rfl

end AgentOS.Lib
