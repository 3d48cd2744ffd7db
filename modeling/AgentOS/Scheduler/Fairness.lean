import AgentOS.Scheduler.Cfs

/-!
# Weighted service

Agents of the normal class are enqueued together, and every turn charges the agent that is picked.
The tokens of an agent are its virtual runtime times its weight plus what the divisions truncated
(`Balanced.tokens`), and no two virtual runtimes are further apart than one turn
(`Balanced.apart`). Service is weighted fair as long as no word overflows and no agent lost more
than two units of virtual time (`served_fair`); small charges of a heavy agent are all lost, and the
agent is picked forever (`truncated_unfair`).
-/

namespace AgentOS.CfsScheduler

open Lib

/-- A fresh scheduler with agents of the normal class, given by id and nice value. -/
def together (slice : Nat) (agents : List (Nat × Int)) : CfsScheduler :=
  after slice (agents.map fun a => .enqueue a.1 a.2 .normal)

/-- The scheduler after turns, given by agent and tokens, with words of 64 bits. -/
def turns (s : CfsScheduler) (charges : List (Nat × Nat)) : CfsScheduler :=
  run (fun s c => s.accountTokensWord c.1 c.2) s charges

/-- Every turn is of the agent that is picked and takes at most `most` tokens. -/
def Picked (s : CfsScheduler) (most : Nat) : List (Nat × Nat) → Prop :=
  EachAfter fun pre c => (s.turns pre).pickNext = some c.1 ∧ 1 ≤ c.2 ∧ c.2 ≤ most

/-- A sum over the charges of an agent. -/
def tally (f : Nat → Nat) (charges : List (Nat × Nat)) (agentId : Nat) : Nat :=
  ((charges.filter (·.1 == agentId)).map fun c => f c.2).sum

def served : List (Nat × Nat) → Nat → Nat := tally id

/-- What the charges of an agent lose to truncation, in parts of its weight. -/
def lost (weight : Nat) : List (Nat × Nat) → Nat → Nat := tally (· * 1024 % weight)

theorem tally_snoc (f : Nat → Nat) (charges : List (Nat × Nat)) (c : Nat × Nat) (agentId : Nat) :
    tally f (charges ++ [c]) agentId =
      tally f charges agentId + if c.1 = agentId then f c.2 else 0 := by
  rw [tally, List.filter_append, List.map_append, List.sum_append]
  split_ifs with hc <;> simp [tally, hc]

/-! ## Agents that start together -/

/-- The run queue has the given agents, and the other queues are empty. -/
structure Normal (s : CfsScheduler) (agents : List (Nat × Int)) : Prop where
  sound : s.Sound
  others : s.rtQueue = [] ∧ s.bgQueue = []
  entry : ∀ a ∈ agents, ∃ e ∈ s.runqueue, e.agentId = a.1 ∧ e.weight = niceToWeight a.2

structure Started (s : CfsScheduler) (agents : List (Nat × Int)) : Prop
    extends s.Normal agents where
  floor : s.minVruntime = 0
  ids : s.agents.Perm (agents.map Prod.fst)
  zero : ∀ e ∈ s.runqueue, e.vruntime = 0

theorem started_together (slice : Nat) {agents : List (Nat × Int)}
    (h : (agents.map Prod.fst).Nodup) : (together slice agents).Started agents := by
  induction agents using List.reverseRecOn with
  | nil =>
    have hnil : ∀ {α : Type} {P : α → Prop}, ∀ a ∈ ([] : List α), P a := by simp
    exact ⟨⟨sound_new, ⟨rfl, rfl⟩, hnil⟩, rfl, .nil, hnil⟩
  | append_singleton agents a ih =>
    rw [List.map_append, List.map_singleton] at h
    have hs := ih h.of_append_left
    have hno : a.1 ∉ (together slice agents).agents := fun hm =>
      (List.nodup_append.1 h).2.2 _ (hs.ids.mem_iff.1 hm) _ List.mem_cons_self rfl
    obtain ⟨hso, hids⟩ := hs.sound.enqueue a.2 .normal hno
    have hq : ((together slice agents).enqueue a.1 a.2 .normal).runqueue.Perm _ :=
      perm_insertEntry fun hm => hno (mem_agents hm)
    rw [together, List.map_append, List.map_singleton, after, run_snoc]
    refine ⟨⟨hso, hs.others, fun b hb => ?_⟩, hs.floor, ?_, fun e he => ?_⟩
    · rcases List.mem_append.1 hb with hb | hb
      · obtain ⟨e, he, hid⟩ := hs.entry b hb
        exact ⟨e, hq.mem_iff.2 (List.mem_cons_of_mem _ he), hid⟩
      · obtain rfl := List.mem_singleton.1 hb
        exact ⟨_, hq.mem_iff.2 List.mem_cons_self, rfl, rfl⟩
    · rw [List.map_append, List.map_singleton]
      exact hids.trans ((hs.ids.cons _).trans (List.perm_append_singleton _ _).symm)
    · rcases List.mem_cons.1 (hq.mem_iff.1 he) with rfl | he
      · exact hs.floor
      · exact hs.zero e he

/-! ## Turns -/

/-- The scheduler after turns of at most `most` tokens. -/
structure Balanced (s : CfsScheduler) (agents : List (Nat × Int)) (most : Nat)
    (charges : List (Nat × Nat)) : Prop extends s.Normal agents where
  tokens : ∀ e ∈ s.runqueue, served charges e.agentId * 1024 =
    e.weight * e.vruntime + lost e.weight charges e.agentId
  apart : ∀ e ∈ s.runqueue, ∀ e' ∈ s.runqueue,
    e.weight * e.vruntime ≤ e.weight * e'.vruntime + most * 1024

variable {s : CfsScheduler} {agents : List (Nat × Int)} {slice most : Nat}
  {charges : List (Nat × Nat)}

theorem Started.balanced (h : s.Started agents) : s.Balanced agents most [] := by
  refine ⟨h.toNormal, fun e he => ?_, fun e he _ _ => ?_⟩
  · simp [h.zero e he, served, lost, tally]
  · simp [h.zero e he]

/-- A charge overflows no word while the tokens of the agent fit in one. -/
theorem vruntime_chargedWord {e : CfsEntry} {tokens : Nat} (hweight : 0 < e.weight)
    (hfit : e.weight * e.vruntime + tokens * 1024 < 2 ^ 64) :
    (chargedWord e tokens).vruntime = (charged e tokens).vruntime := by
  have hsum : e.weight * (e.vruntime + tokens * 1024 / e.weight) ≤
      e.weight * e.vruntime + tokens * 1024 := by
    rw [Nat.mul_add]
    exact Nat.add_le_add_left (Nat.mul_div_le _ _) _
  have hone := Nat.le_mul_of_pos_left (e.vruntime + tokens * 1024 / e.weight) hweight
  rw [chargedWord, charged, Nat.mod_eq_of_lt (by omega : tokens * 1024 < 2 ^ 64)]
  exact Nat.mod_eq_of_lt (by omega)

theorem Balanced.turn (h : s.Balanced agents most charges) {agentId tokens : Nat}
    (hp : s.pickNext = some agentId) (hle : tokens ≤ most)
    (hfit : (served charges agentId + tokens) * 1024 < 2 ^ 64) :
    (s.accountTokensWord agentId tokens).Balanced agents most (charges ++ [(agentId, tokens)]) := by
  -- the agent that is picked is the first of the run queue
  obtain ⟨e, he, hf⟩ : ∃ e, entryOf agentId s.runqueue = some e ∧
      ∀ x ∈ s.runqueue, e.vruntime ≤ x.vruntime := by
    cases hq : s.runqueue with
    | nil => simp [pickNext, h.others, hq] at hp
    | cons e rest =>
      obtain rfl : e.agentId = agentId := by simpa [pickNext, h.others.1, hq] using hp
      refine ⟨e, by simp [entryOf], fun x hx => ?_⟩
      rcases List.mem_cons.1 hx with rfl | hx
      · exact le_rfl
      · have hb := (List.pairwise_cons.1 (hq ▸ h.sound.sorted)).1 x hx
        unfold CfsEntry.Before at hb
        omega
  obtain ⟨rfl, hperm⟩ := perm_without he
  obtain ⟨hperm', -⟩ := h.sound.replaced (chargedWord e tokens) he rfl
  have ho : ∀ x ∈ without e.agentId s.runqueue, x ∈ s.runqueue ∧ x.agentId ≠ e.agentId := by
    intro x hx
    have hnd := (hperm.map CfsEntry.agentId).nodup_iff.1 h.sound.distinct_runqueue
    rw [List.map_cons, List.nodup_cons] at hnd
    exact ⟨List.mem_of_mem_eraseP hx, fun heq => hnd.1 (List.mem_map.2 ⟨x, hx, heq⟩)⟩
  have hmem : e ∈ s.runqueue := hperm.mem_iff.2 List.mem_cons_self
  have ht := h.tokens e hmem
  have hword := vruntime_chargedWord (h.sound.weight_pos he)
    (by omega : e.weight * e.vruntime + tokens * 1024 < 2 ^ 64)
  have hself : e.weight * (chargedWord e tokens).vruntime + tokens * 1024 % e.weight =
      e.weight * e.vruntime + tokens * 1024 := by
    rw [hword, charged, Nat.mul_add, Nat.add_assoc, Nat.div_add_mod]
  have hgrow : e.vruntime ≤ (chargedWord e tokens).vruntime := by
    rw [hword]
    exact Nat.le_add_right _ _
  have hs := (h.sound.account e.agentId (chargedWord · tokens) (fun _ => rfl) (fun _ => rfl)
    fun _ => rfl).1
  rw [accountTokensWord]
  rw [account, he] at hs ⊢
  refine ⟨⟨hs, h.others, fun a ha => ?_⟩, fun x hx => ?_, fun x hx y hy => ?_⟩
  · obtain ⟨x, hx, hid, hw⟩ := h.entry a ha
    rcases List.mem_cons.1 (hperm.mem_iff.1 hx) with rfl | hx
    · exact ⟨_, hperm'.mem_iff.2 List.mem_cons_self, hid, hw⟩
    · exact ⟨x, hperm'.mem_iff.2 (List.mem_cons_of_mem _ hx), hid, hw⟩
  · rw [served, lost, tally_snoc, tally_snoc]
    rcases List.mem_cons.1 (hperm'.mem_iff.1 hx) with rfl | hx
    · rw [served, lost] at ht
      have hid : (chargedWord e tokens).agentId = e.agentId := rfl
      have hw : (chargedWord e tokens).weight = e.weight := rfl
      simp only [hid, hw, if_true, id_eq]
      linarith
    · obtain ⟨hx, hne⟩ := ho x hx
      rw [if_neg hne.symm, if_neg hne.symm]
      exact h.tokens x hx
  · rcases List.mem_cons.1 (hperm'.mem_iff.1 hx) with rfl | hx <;>
      rcases List.mem_cons.1 (hperm'.mem_iff.1 hy) with rfl | hy
    · exact Nat.le_add_right _ _
    · have hle' := Nat.mul_le_mul_left e.weight (hf y (ho y hy).1)
      show e.weight * _ ≤ e.weight * _ + _
      omega
    · have hle' := h.apart x (ho x hx).1 e hmem
      have hmul := Nat.mul_le_mul_left x.weight hgrow
      omega
    · exact h.apart x (ho x hx).1 y (ho y hy).1

theorem Balanced.turns (h : s.Balanced agents most []) (hp : s.Picked most charges)
    (hfit : ∀ agentId, served charges agentId * 1024 < 2 ^ 64) :
    (s.turns charges).Balanced agents most charges := by
  induction charges using List.reverseRecOn with
  | nil => exact h
  | append_singleton charges c ih =>
    obtain ⟨hp, hc⟩ := eachAfter_snoc.1 hp
    have hsum := tally_snoc id charges c
    have hall : ∀ agentId, served charges agentId * 1024 < 2 ^ 64 := by
      intro agentId
      have hlast := hfit agentId
      rw [served, hsum] at hlast
      exact (Nat.mul_le_mul_right _ (Nat.le_add_right _ _)).trans_lt hlast
    have hnow := hfit c.1
    rw [served, hsum, if_pos rfl] at hnow
    rw [CfsScheduler.turns, run_snoc]
    exact (ih hp hall).turn hc.1 hc.2.2 hnow

/-- One side of the bound. -/
theorem Balanced.le (h : s.Balanced agents most charges) {a b : Nat × Int} (ha : a ∈ agents)
    (hb : b ∈ agents) (hl : lost (niceToWeight a.2) charges a.1 ≤ 2 * niceToWeight a.2) :
    (served charges a.1 / niceToWeight a.2 : ℚ) ≤
      served charges b.1 / niceToWeight b.2 + most / niceToWeight a.2 + 2 / 1024 := by
  obtain ⟨x, hx, hxa, hxw⟩ := h.entry a ha
  obtain ⟨y, hy, hyb, hyw⟩ := h.entry b hb
  have hwa : (0 : ℚ) < niceToWeight a.2 := Nat.cast_pos.2 (niceToWeight_pos _)
  have hwb : (0 : ℚ) < niceToWeight b.2 := Nat.cast_pos.2 (niceToWeight_pos _)
  have hxt := h.tokens x hx
  have hyt := h.tokens y hy
  have hap := h.apart x hx y hy
  rw [hxa, hxw] at hxt
  rw [hyb, hyw] at hyt
  rw [hxw] at hap
  -- in units of virtual time
  have hle : (served charges a.1 * 1024 : ℚ) ≤
      niceToWeight a.2 * y.vruntime + most * 1024 + 2 * niceToWeight a.2 := by
    exact_mod_cast (by omega : served charges a.1 * 1024 ≤
      niceToWeight a.2 * y.vruntime + most * 1024 + 2 * niceToWeight a.2)
  have hge : (niceToWeight b.2 * y.vruntime : ℚ) ≤ served charges b.1 * 1024 := by
    exact_mod_cast (by omega : niceToWeight b.2 * y.vruntime ≤ served charges b.1 * 1024)
  have hy' : (y.vruntime : ℚ) / 1024 ≤ served charges b.1 / niceToWeight b.2 := by
    rw [div_le_div_iff₀ (by norm_num) hwb]
    linarith
  calc (served charges a.1 / niceToWeight a.2 : ℚ)
      ≤ (niceToWeight a.2 * y.vruntime + most * 1024 + 2 * niceToWeight a.2) / 1024 /
          niceToWeight a.2 := by
        gcongr
        linarith
    _ = y.vruntime / 1024 + most / niceToWeight a.2 + 2 / 1024 := by
        field_simp
    _ ≤ _ := by gcongr

/-- Service is weighted fair while no word overflows and the charges of no agent lost more than two
units of virtual time. -/
theorem served_fair (hids : (agents.map Prod.fst).Nodup)
    (hp : (together slice agents).Picked most charges)
    (hfit : ∀ agentId, served charges agentId * 1024 < 2 ^ 64)
    (hl : ∀ a ∈ agents, lost (niceToWeight a.2) charges a.1 ≤ 2 * niceToWeight a.2) :
    ∀ a ∈ agents, ∀ b ∈ agents,
      |(served charges a.1 / niceToWeight a.2 - served charges b.1 / niceToWeight b.2 : ℚ)| ≤
        most / niceToWeight a.2 + most / niceToWeight b.2 + 2 / 1024 := by
  intro a ha b hb
  have h := (started_together slice hids).balanced.turns hp hfit
  have hab := h.le ha hb (hl a ha)
  have hba := h.le hb ha (hl b hb)
  have hpos : ∀ c : Nat × Int, (0 : ℚ) ≤ most / niceToWeight c.2 := fun c => by positivity
  rw [abs_le]
  constructor <;> linarith [hpos a, hpos b]

theorem served_fair_exact :
    (together 10 [(1, 0), (2, 5)]).Picked 8 [(1, 8), (2, 3)] ∧
      |(served [(1, 8), (2, 3)] 1 / niceToWeight 0 -
          served [(1, 8), (2, 3)] 2 / niceToWeight 5 : ℚ)| ≤
        (8 : ℕ) / niceToWeight 0 + (8 : ℕ) / niceToWeight 5 + 2 / 1024 := by
  have hp : (together 10 [(1, 0), (2, 5)]).Picked 8 [(1, 8), (2, 3)] := by
    simp only [Picked, eachAfter_cons, eachAfter_nil, and_true]
    decide +kernel
  have hfit : ∀ agentId, served [(1, 8), (2, 3)] agentId * 1024 < 2 ^ 64 := by
    intro agentId
    simp only [served, tally, List.filter_cons, List.filter_nil]
    split_ifs <;> decide
  exact ⟨hp, served_fair (by decide) hp hfit (by decide +kernel) (1, 0) (by decide) (2, 5)
    (by decide)⟩

/-- One token of an agent at nice -1 is no virtual time: the agent is picked again and again. -/
theorem truncated_unfair :
    (together 10 [(1, -1), (2, 0)]).Picked 1 (List.replicate 10 (1, 1)) ∧
      ¬ |(served (List.replicate 10 (1, 1)) 1 / niceToWeight (-1) -
          served (List.replicate 10 (1, 1)) 2 / niceToWeight 0 : ℚ)| ≤
        (1 : ℕ) / niceToWeight (-1) + (1 : ℕ) / niceToWeight 0 + 2 / 1024 := by
  have hw : niceToWeight (-1) = 1277 ∧ niceToWeight 0 = 1024 ∧
      served (List.replicate 10 (1, 1)) 1 = 10 ∧ served (List.replicate 10 (1, 1)) 2 = 0 := by
    decide +kernel
  constructor
  · simp only [Picked, List.replicate, eachAfter_cons, eachAfter_nil, and_true]
    decide +kernel
  · rw [hw.1, hw.2.1, hw.2.2.1, hw.2.2.2]
    norm_num

end AgentOS.CfsScheduler
