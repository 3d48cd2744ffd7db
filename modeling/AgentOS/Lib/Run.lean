import AgentOS.Lib.Scan

/-!
# Runs of a deterministic machine

`run step init inputs` is the state after a list of inputs. Two rules carry a property along a
run: `run_invariant_of` from a condition on every step, and `run_prefixes_iff`, which says that the
property holds at every point of the run exactly when every step meets the condition.

`changes` logs the successive values of an observation, each with the input that produced it.
When every change follows the value before it (`changes_linked`), the log is `Linked`, and facts
about consecutive values extend to the whole log (`Linked.isChain`).
-/

namespace AgentOS.Lib

variable {σ α β α' β' : Type}

/-! ## Runs -/

section Run

variable (step : σ → α → σ) (init : σ)

/-- The state after a list of inputs. -/
def run (inputs : List α) : σ := inputs.foldl step init

@[simp] theorem run_nil : run step init [] = init := rfl

theorem run_snoc (xs : List α) (a : α) :
    run step init (xs ++ [a]) = step (run step init xs) a := by
  simp [run]

theorem run_append (xs xs' : List α) :
    run step init (xs ++ xs') = run step (run step init xs) xs' := by
  simp [run]

variable {step init}

/-- A property that holds initially, and that every allowed step keeps, holds after every run of
allowed steps. -/
theorem run_invariant_of (P : σ → Prop) (allowed : σ → α → Prop) (hinit : P init)
    (hstep : ∀ s a, P s → allowed s a → P (step s a)) {xs : List α}
    (h : EachAfter (fun pre a => allowed (run step init pre) a) xs) : P (run step init xs) := by
  induction xs using List.reverseRecOn with
  | nil => exact hinit
  | append_singleton xs a ih =>
    obtain ⟨hi, ha⟩ := eachAfter_snoc.1 h
    rw [run_snoc]
    exact hstep _ a (ih hi) ha

/-- A property that holds initially and that every step keeps holds after every run. -/
theorem run_invariant {P : σ → Prop} (hinit : P init) (hstep : ∀ s a, P s → P (step s a))
    (xs : List α) : P (run step init xs) := by
  apply run_invariant_of P (fun _ _ => True) hinit
  · intro s a hs _
    exact hstep s a hs
  · intro pre a post _
    trivial

/-- A property that a step keeps exactly when it is allowed holds at every point of a run exactly
when every step of the run is allowed. -/
theorem run_prefixes_iff {P : σ → Prop} {allowed : List α → α → Prop} {xs : List α} (hinit : P init)
    (hstep : EachAfter (fun pre a => P (run step init pre) → (P (step (run step init pre) a) ↔
      allowed pre a)) xs) :
    (∀ pre, pre <+: xs → P (run step init pre)) ↔ EachAfter allowed xs := by
  induction xs using List.reverseRecOn with
  | nil =>
    refine ⟨fun _ => eachAfter_nil, fun _ pre hpre => ?_⟩
    rw [List.prefix_nil.1 hpre]
    exact hinit
  | append_singleton xs a ih =>
    obtain ⟨he, hlast⟩ := eachAfter_snoc.1 hstep
    rw [eachAfter_snoc, ← ih he]
    constructor
    · intro h
      have hall : ∀ pre, pre <+: xs → P (run step init pre) :=
        fun pre hpre => h pre (hpre.trans (List.prefix_append _ _))
      have hw := h _ (List.prefix_refl _)
      rw [run_snoc] at hw
      exact ⟨hall, (hlast (hall xs (List.prefix_refl _))).1 hw⟩
    · rintro ⟨hall, ha⟩ pre hpre
      rcases List.prefix_concat_iff.1 hpre with rfl | hpre
      · rw [run_snoc]
        exact (hlast (hall xs (List.prefix_refl _))).2 ha
      · exact hall pre hpre

end Run

/-! ## Logs of values that follow each other -/

/-- Every entry of the log continues the value before it. -/
def Linked (next : α → Option β → β → Prop) (log : List (α × β)) : Prop :=
  EachAfter (fun pre p => next p.1 (pre.getLast?.map Prod.snd) p.2) log

variable {next : α → Option β → β → Prop} {log : List (α × β)}

theorem linked_snoc {p : α × β} :
    Linked next (log ++ [p]) ↔ Linked next log ∧ next p.1 (log.getLast?.map Prod.snd) p.2 :=
  eachAfter_snoc

theorem linked_map {next : α' → Option β' → β' → Prop} (f : α → α') (g : β → β') :
    Linked next (log.map (Prod.map f g)) ↔
      Linked (fun a prev b => next (f a) (prev.map g) (g b)) log := by
  refine eachAfter_map.trans (iff_of_eq (congrArg (EachAfter · log) ?_))
  funext pre p
  rw [List.getLast?_map, Option.map_map]
  show _ = next _ (Option.map g (Option.map Prod.snd pre.getLast?)) _
  rw [Option.map_map]
  rfl

theorem Linked.isChain (h : Linked next log) : log.IsChain fun p q => next q.1 (some p.2) q.2 := by
  induction log using List.reverseRecOn with
  | nil => exact .nil
  | append_singleton log q ih =>
    obtain ⟨hlog, hq⟩ := linked_snoc.1 h
    refine List.isChain_append.2 ⟨ih hlog, .singleton q, ?_⟩
    intro p hp q' hq'
    obtain rfl : q = q' := by simpa using hq'
    rw [Option.mem_def] at hp
    rwa [hp] at hq

/-- A property of a value that follows another one holds of every value in the log. -/
theorem Linked.forall_mem (h : Linked next log) {P : β → Prop}
    (hP : ∀ a prev b, next a prev b → P b) : ∀ p ∈ log, P p.2 :=
  eachAfter_iff_forall_mem.1 (h.mono fun _ _ _ hp => hP _ _ _ hp)

/-! ## Changes of an observation -/

section Changes

variable [DecidableEq β] (step : σ → α → σ) (observe : σ → Option β) (init : σ)

/-- What one step adds to the log of observed values. -/
def change (s : σ) (a : α) : List (α × β) :=
  if observe (step s a) = observe s then [] else (observe (step s a)).toList.map fun b => (a, b)

/-- The successive values that a run observes, each with the input that produced it. -/
def changes (inputs : List α) : List (α × β) :=
  (inputs.foldl (fun acc a => (step acc.1 a, acc.2 ++ change step observe acc.1 a)) (init, [])).2

theorem changes_snoc (xs : List α) (a : α) :
    changes step observe init (xs ++ [a]) =
      changes step observe init xs ++ change step observe (run step init xs) a := by
  have hs : ∀ l : List α,
      (l.foldl (fun acc a => (step acc.1 a, acc.2 ++ change step observe acc.1 a))
        (init, ([] : List (α × β)))).1 = run step init l := by
    intro l
    induction l using List.reverseRecOn with
    | nil => rfl
    | append_singleton l b ih => rw [List.foldl_append, List.foldl_cons, List.foldl_nil, ih,
        run_snoc]
  rw [changes, List.foldl_append, List.foldl_cons, List.foldl_nil, hs]
  rfl

variable {step observe init}

/-- If every step keeps the observed value or replaces it by one that follows it, then the log of
the values is linked and ends with the present one. -/
theorem changes_linked {I : σ → Prop} (hinit : I init) (hnone : observe init = none)
    (hkeep : ∀ s a, I s → I (step s a))
    (hstep : ∀ s a, I s → observe (step s a) = observe s ∨ ∃ b, observe (step s a) = some b ∧ next a
      (observe s) b) (inputs : List α) :
    Linked next (changes step observe init inputs) ∧
      (changes step observe init inputs).getLast?.map Prod.snd =
        observe (run step init inputs) := by
  induction inputs using List.reverseRecOn with
  | nil => exact ⟨eachAfter_nil, hnone.symm⟩
  | append_singleton inputs a ih =>
    obtain ⟨hl, hlast⟩ := ih
    rw [changes_snoc, run_snoc]
    by_cases hsame : observe (step (run step init inputs) a) = observe (run step init inputs)
    · rw [change, if_pos hsame, List.append_nil, hsame]
      exact ⟨hl, hlast⟩
    · rcases hstep _ a (run_invariant hinit hkeep inputs) with h | ⟨b, hb, hnext⟩
      · exact absurd h hsame
      · rw [change, if_neg hsame, hb, Option.toList_some, List.map_singleton,
          List.getLast?_concat]
        exact ⟨linked_snoc.2 ⟨hl, by rw [hlast]; exact hnext⟩, rfl⟩

end Changes

end AgentOS.Lib
