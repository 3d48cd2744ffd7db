import AgentOS.Lib.Run

/-!
# The turn scheduler

`CfsScheduler` orders agents by virtual runtime, which grows by the tokens of a turn over the
weight of the agent's nice value. `accountTokens` is about token amounts that do not overflow, with
natural numbers for words; `accountTokensWord` wraps its words as the code does.

The weights and the queues stay consistent over every run (`Sound`). The floor at which new agents
start does not: it is recomputed while the charged agent is out of the queue, so it passes an agent
that stays first after its charge (`floor_documented_iff`). Service is fair up to the virtual time
that the division of every charge truncates (`served_fair`).
-/

namespace AgentOS

open Lib

inductive SchedClass where
  | realTime
  | normal
  | background
  | deadline (deadlineMs : Nat)
  deriving DecidableEq

def weights : List Nat :=
  [88761, 71755, 56483, 46273, 36291, 29154, 23254, 18705, 14949, 11916, 9548, 7620, 6100, 4904,
    3906, 3121, 2501, 1991, 1586, 1277, 1024, 820, 655, 526, 423, 335, 272, 215, 172, 137, 110, 87,
    70, 56, 45, 36, 29, 23, 18, 15]

def clampNice (nice : Int) : Int := max (-20) (min nice 19)

def niceToWeight (nice : Int) : Nat := weights.getD (clampNice nice + 20).toNat 0

theorem niceToWeight_pos (nice : Int) : 0 < niceToWeight nice := by
  have hall : ∀ i < 40, 0 < weights.getD i 0 := by decide
  apply hall
  rw [clampNice]
  omega

structure CfsEntry where
  (agentId vruntime weight : Nat)
  nice : Int
  schedClass : SchedClass
  tokensUsed : Nat
  deriving DecidableEq

/-- The order of the keys `(vruntime, agent_id)`. -/
def CfsEntry.Before (a b : CfsEntry) : Prop :=
  a.vruntime < b.vruntime ∨ a.vruntime = b.vruntime ∧ a.agentId ≤ b.agentId

instance : DecidableRel CfsEntry.Before :=
  fun a b => inferInstanceAs (Decidable (a.vruntime < b.vruntime ∨ _ ∧ _))

instance : Std.Total CfsEntry.Before := ⟨fun a b => by unfold CfsEntry.Before; omega⟩

instance : IsTrans CfsEntry CfsEntry.Before := ⟨fun a b c => by unfold CfsEntry.Before; omega⟩

/-- The scheduler; the run queue lists its map in the order of the keys. -/
structure CfsScheduler where
  (runqueue rtQueue bgQueue : List CfsEntry)
  (minVruntime timeSliceTokens totalWeight : Nat)
  deriving DecidableEq

namespace CfsScheduler

def new (timeSliceTokens : Nat) : CfsScheduler := ⟨[], [], [], 0, timeSliceTokens, 0⟩

/-- Insertion at a key; an entry at the key is replaced. -/
def insertEntry (entry : CfsEntry) (queue : List CfsEntry) : List CfsEntry :=
  (queue.filter fun e =>
    !(e.vruntime == entry.vruntime && e.agentId == entry.agentId)).orderedInsert
      CfsEntry.Before entry

def entryOf (agentId : Nat) (queue : List CfsEntry) : Option CfsEntry :=
  queue.find? (·.agentId == agentId)

def without (agentId : Nat) (queue : List CfsEntry) : List CfsEntry :=
  queue.eraseP (·.agentId == agentId)

/-- The first entry of an agent with another nice value. -/
def renice (agentId : Nat) (nice : Int) : List CfsEntry → List CfsEntry
  | [] => []
  | e :: rest =>
    if e.agentId = agentId then { e with nice, weight := niceToWeight nice } :: rest
    else e :: renice agentId nice rest

variable (s : CfsScheduler)

def enqueue (agentId : Nat) (nice : Int) (schedClass : SchedClass) : CfsScheduler :=
  let weight := niceToWeight nice
  let entry : CfsEntry := ⟨agentId, s.minVruntime, weight, nice, schedClass, 0⟩
  match schedClass with
  | .realTime => { s with rtQueue := s.rtQueue ++ [entry] }
  | .background => { s with bgQueue := s.bgQueue ++ [entry] }
  | _ => { s with totalWeight := s.totalWeight + weight, runqueue := insertEntry entry s.runqueue }

def dequeue (agentId : Nat) : CfsScheduler :=
  match entryOf agentId s.runqueue with
  | some entry =>
    { s with
      runqueue := without agentId s.runqueue
      totalWeight := s.totalWeight - entry.weight }
  | none =>
    { s with
      rtQueue := s.rtQueue.filter (·.agentId != agentId)
      bgQueue := s.bgQueue.filter (·.agentId != agentId) }

def updateNice (agentId : Nat) (nice : Int) : Bool × CfsScheduler :=
  let nice := clampNice nice
  let weight := niceToWeight nice
  match entryOf agentId s.runqueue with
  | some entry =>
    (true, { s with
      totalWeight := s.totalWeight - entry.weight + weight
      runqueue := insertEntry { entry with nice, weight } (without agentId s.runqueue) })
  | none =>
    if s.rtQueue.any (·.agentId == agentId) then
      (true, { s with rtQueue := renice agentId nice s.rtQueue })
    else if s.bgQueue.any (·.agentId == agentId) then
      (true, { s with bgQueue := renice agentId nice s.bgQueue })
    else (false, s)

def pickNext : Option Nat :=
  match s.rtQueue, s.runqueue, s.bgQueue with
  | e :: _, _, _ | [], e :: _, _ | [], [], e :: _ => some e.agentId
  | [], [], [] => none

/-- An entry that is charged for a turn, where nothing overflows. -/
def charged (entry : CfsEntry) (tokens : Nat) : CfsEntry :=
  { entry with
    vruntime := entry.vruntime + tokens * 1024 / entry.weight
    tokensUsed := entry.tokensUsed + tokens }

/-- An entry that is charged for a turn, with words of 64 bits. -/
def chargedWord (entry : CfsEntry) (tokens : Nat) : CfsEntry :=
  { entry with
    vruntime := (entry.vruntime + tokens * 1024 % 2 ^ 64 / entry.weight) % 2 ^ 64
    tokensUsed := (entry.tokensUsed + tokens) % 2 ^ 64 }

/-- `account_tokens` with a charge for the agent's entry. -/
def account (charge : CfsEntry → CfsEntry) (agentId : Nat) : CfsScheduler :=
  match entryOf agentId s.runqueue with
  | none => s
  | some entry =>
    let entry := charge entry
    let rest := without agentId s.runqueue
    { s with
      minVruntime :=
        if s.minVruntime < entry.vruntime then (rest.head?.map (·.vruntime)).getD entry.vruntime
        else s.minVruntime
      runqueue := insertEntry entry rest }

def accountTokens (agentId tokens : Nat) : CfsScheduler := s.account (charged · tokens) agentId

def accountTokensWord (agentId tokens : Nat) : CfsScheduler :=
  s.account (chargedWord · tokens) agentId

/-! ## Queues -/

variable {s} {queue : List CfsEntry} {entry e : CfsEntry} {agentId tokens : Nat}

theorem perm_without (h : entryOf agentId queue = some e) :
    e.agentId = agentId ∧ queue.Perm (e :: without agentId queue) := by
  induction queue with
  | nil => cases h
  | cons x rest ih =>
    rw [entryOf, List.find?_cons] at h
    rw [without, List.eraseP_cons]
    cases hx : x.agentId == agentId with
    | true =>
      rw [hx] at h
      obtain rfl := Option.some.inj h
      exact ⟨beq_iff_eq.1 hx, .refl _⟩
    | false =>
      rw [hx] at h
      obtain ⟨hid, hp⟩ := ih h
      exact ⟨hid, (hp.cons x).trans (.swap e x _)⟩

theorem sorted_without (h : queue.Pairwise CfsEntry.Before) :
    (without agentId queue).Pairwise CfsEntry.Before :=
  h.sublist List.eraseP_sublist

theorem entryOf_eq_none (h : entryOf agentId queue = none) :
    agentId ∉ queue.map CfsEntry.agentId := by
  intro hm
  obtain ⟨e, he, hid⟩ := List.mem_map.1 hm
  simpa [hid] using List.find?_eq_none.1 h e he

theorem mem_insertEntry (h : e ∈ insertEntry entry queue) : e = entry ∨ e ∈ queue :=
  ((List.mem_orderedInsert _).1 h).imp_right fun h => (List.mem_filter.1 h).1

theorem perm_insertEntry (h : entry.agentId ∉ queue.map CfsEntry.agentId) :
    (insertEntry entry queue).Perm (entry :: queue) := by
  rw [insertEntry, List.filter_eq_self.2]
  · exact List.perm_orderedInsert _ _ _
  · intro e he
    have hne : e.agentId ≠ entry.agentId := fun heq => h (heq ▸ List.mem_map_of_mem he)
    simp [hne]

theorem sorted_insertEntry (h : queue.Pairwise CfsEntry.Before) :
    (insertEntry entry queue).Pairwise CfsEntry.Before :=
  List.Pairwise.orderedInsert _ _ (h.sublist List.filter_sublist)

theorem map_renice (nice : Int) :
    (renice agentId nice queue).map CfsEntry.agentId = queue.map CfsEntry.agentId := by
  induction queue with
  | nil => rfl
  | cons e rest ih =>
    rw [renice]
    split_ifs with he
    · rfl
    · rw [List.map_cons, List.map_cons, ih]

/-! ## Runs -/

/-- The agents in the three queues. -/
def agents (s : CfsScheduler) : List Nat :=
  (s.runqueue ++ (s.rtQueue ++ s.bgQueue)).map CfsEntry.agentId

theorem mem_agents (h : agentId ∈ s.runqueue.map CfsEntry.agentId) : agentId ∈ s.agents := by
  rw [agents, List.map_append]
  exact List.mem_append_left _ h

/-- What every operation keeps. -/
structure Sound (s : CfsScheduler) : Prop where
  sorted : s.runqueue.Pairwise CfsEntry.Before
  distinct : s.agents.Nodup
  weights : ∀ e ∈ s.runqueue, e.weight = niceToWeight e.nice
  total : s.totalWeight = (s.runqueue.map CfsEntry.weight).sum

theorem Sound.distinct_runqueue (hs : s.Sound) : (s.runqueue.map CfsEntry.agentId).Nodup := by
  have h := hs.distinct
  rw [agents, List.map_append] at h
  exact h.of_append_left

inductive Op where
  | enqueue (agentId : Nat) (nice : Int) (schedClass : SchedClass)
  | dequeue (agentId : Nat)
  | updateNice (agentId : Nat) (nice : Int)
  | accountTokens (agentId tokens : Nat)

def step (s : CfsScheduler) : Op → CfsScheduler
  | .enqueue agentId nice schedClass => s.enqueue agentId nice schedClass
  | .dequeue agentId => s.dequeue agentId
  | .updateNice agentId nice => (s.updateNice agentId nice).2
  | .accountTokens agentId tokens => s.accountTokens agentId tokens

/-- The agents that were enqueued and not dequeued since. -/
def Op.enqueued (waiting : List Nat) : Op → List Nat
  | .enqueue agentId _ _ => agentId :: waiting
  | .dequeue agentId => waiting.filter (· != agentId)
  | _ => waiting

/-- An operation enqueues no agent that is enqueued. -/
def Op.Fresh (waiting : List Nat) : Op → Prop
  | .enqueue agentId _ _ => agentId ∉ waiting
  | _ => True

/-- An entry that is put back in place of the agent's own. -/
theorem Sound.replaced (hs : s.Sound) (e' : CfsEntry) (h : entryOf agentId s.runqueue = some e)
    (hid : e'.agentId = e.agentId) :
    (insertEntry e' (without agentId s.runqueue)).Perm (e' :: without agentId s.runqueue) ∧
      (insertEntry e' (without agentId s.runqueue)).Pairwise CfsEntry.Before := by
  obtain ⟨-, hp⟩ := perm_without h
  refine ⟨perm_insertEntry ?_, sorted_insertEntry (sorted_without hs.sorted)⟩
  have hnd := (hp.map CfsEntry.agentId).nodup_iff.1 hs.distinct_runqueue
  rw [hid]
  exact (List.nodup_cons.1 hnd).1

/-- The queues after an entry with the agent's id is put back. -/
theorem Sound.put (hs : s.Sound) (e' : CfsEntry) (h : entryOf agentId s.runqueue = some e)
    (hid : e'.agentId = e.agentId) (hw : e'.weight = niceToWeight e'.nice) (fl : Nat) :
    let s' := { s with
      runqueue := insertEntry e' (without agentId s.runqueue)
      minVruntime := fl
      totalWeight := s.totalWeight - e.weight + e'.weight }
    s'.Sound ∧ s'.agents.Perm s.agents := by
  obtain ⟨-, hp⟩ := perm_without h
  obtain ⟨hp', hso⟩ := hs.replaced e' h hid
  have ha : ((insertEntry e' (without agentId s.runqueue) ++ (s.rtQueue ++ s.bgQueue)).map
      CfsEntry.agentId).Perm s.agents := by
    refine ((hp'.append_right _).map _).trans (.trans ?_ ((hp.append_right _).map _).symm)
    rw [List.cons_append, List.map_cons, hid]
    exact .refl _
  refine ⟨⟨hso, ha.nodup_iff.2 hs.distinct, fun x hx => ?_, ?_⟩, ha⟩
  · rcases List.mem_cons.1 (hp'.mem_iff.1 hx) with rfl | hx
    · exact hw
    · exact hs.weights x (hp.mem_iff.2 (List.mem_cons_of_mem e hx))
  · have hsum := (hp.map CfsEntry.weight).sum_eq
    have hsum' := (hp'.map CfsEntry.weight).sum_eq
    rw [List.map_cons, List.sum_cons] at hsum hsum'
    show s.totalWeight - e.weight + e'.weight = _
    rw [hsum', hs.total, hsum]
    omega

/-- A charge keeps the agent, its weight and its nice value. -/
theorem Sound.account (hs : s.Sound) (agentId : Nat) (charge : CfsEntry → CfsEntry)
    (hid : ∀ e, (charge e).agentId = e.agentId) (hweight : ∀ e, (charge e).weight = e.weight)
    (hnice : ∀ e, (charge e).nice = e.nice) :
    (s.account charge agentId).Sound ∧ (s.account charge agentId).agents.Perm s.agents := by
  rw [CfsScheduler.account]
  cases h : entryOf agentId s.runqueue with
  | none => exact ⟨hs, .refl _⟩
  | some e =>
    have hmem := (perm_without h).2.mem_iff.2 List.mem_cons_self
    have hle : e.weight ≤ s.totalWeight := by
      rw [hs.total]
      exact List.le_sum_of_mem (List.mem_map_of_mem hmem)
    have hput := hs.put (charge e) h (hid e) (by rw [hweight, hnice, hs.weights e hmem])
    rw [hweight, Nat.sub_add_cancel hle] at hput
    exact hput _

theorem Sound.enqueue (hs : s.Sound) (nice : Int) (cls : SchedClass) (hf : agentId ∉ s.agents) :
    (s.enqueue agentId nice cls).Sound ∧
      (s.enqueue agentId nice cls).agents.Perm (agentId :: s.agents) := by
  have hq : ∀ cls,
      let entry : CfsEntry := ⟨agentId, s.minVruntime, niceToWeight nice, nice, cls, 0⟩
      (insertEntry entry s.runqueue).Perm (entry :: s.runqueue) := by
    intro cls entry
    exact perm_insertEntry fun hm => hf (mem_agents hm)
  have hp : (s.enqueue agentId nice cls).agents.Perm (agentId :: s.agents) := by
    refine List.perm_iff_count.2 fun x => ?_
    cases cls <;>
      simp [CfsScheduler.enqueue, agents, List.count_append, List.count_cons,
        ((hq _).map CfsEntry.agentId).count_eq] <;> omega
  refine ⟨⟨?_, hp.nodup_iff.2 (List.nodup_cons.2 ⟨hf, hs.distinct⟩), ?_, ?_⟩, hp⟩
  · cases cls with
    | realTime | background => exact hs.sorted
    | normal | deadline => exact sorted_insertEntry hs.sorted
  · cases cls with
    | realTime | background => exact hs.weights
    | normal | deadline =>
      intro e he
      rcases List.mem_cons.1 ((hq _).mem_iff.1 he) with rfl | he
      · rfl
      · exact hs.weights e he
  · cases cls with
    | realTime | background => exact hs.total
    | normal | deadline =>
      refine .trans ?_ ((hq _).map CfsEntry.weight).sum_eq.symm
      exact (congrArg (· + _) hs.total).trans (Nat.add_comm _ _)

theorem Sound.dequeue (hs : s.Sound) (agentId : Nat) :
    (s.dequeue agentId).Sound ∧
      (s.dequeue agentId).agents.Perm (s.agents.filter (· != agentId)) := by
  rw [CfsScheduler.dequeue]
  cases h : entryOf agentId s.runqueue with
  | some e =>
    obtain ⟨hid, hp⟩ := perm_without h
    have hall := (hp.append_right (s.rtQueue ++ s.bgQueue)).map CfsEntry.agentId
    rw [List.cons_append, List.map_cons, hid] at hall
    obtain ⟨hno, hnd⟩ := List.nodup_cons.1 (hall.nodup_iff.1 hs.distinct)
    refine ⟨⟨sorted_without hs.sorted, hnd, fun x hx => hs.weights x (List.mem_of_mem_eraseP hx),
      ?_⟩, ?_⟩
    · have hsum := (hp.map CfsEntry.weight).sum_eq
      rw [List.map_cons, List.sum_cons] at hsum
      show s.totalWeight - e.weight = _
      rw [hs.total, hsum, Nat.add_sub_cancel_left]
    · refine .symm ((hall.filter _).trans ?_)
      rw [List.filter_cons_of_neg (by simp), List.filter_eq_self.2]
      · exact .refl _
      · exact fun x hx => bne_iff_ne.2 (ne_of_mem_of_not_mem hx hno)
  | none =>
    have hno := entryOf_eq_none h
    have hp : ((s.runqueue ++ (s.rtQueue.filter (·.agentId != agentId) ++
        s.bgQueue.filter (·.agentId != agentId))).map CfsEntry.agentId) =
        s.agents.filter (· != agentId) := by
      have hkept := List.filter_eq_self.2 fun x hx => bne_iff_ne.2 (ne_of_mem_of_not_mem hx hno)
      simp only [agents, List.map_append, List.filter_append, List.filter_map] at hkept ⊢
      rw [hkept]
      rfl
    refine ⟨⟨hs.sorted, ?_, hs.weights, hs.total⟩, .of_eq hp⟩
    rw [agents, hp]
    exact hs.distinct.filter _

theorem Sound.updateNice (hs : s.Sound) (agentId : Nat) (nice : Int) :
    (s.updateNice agentId nice).2.Sound ∧ (s.updateNice agentId nice).2.agents.Perm s.agents := by
  rw [CfsScheduler.updateNice]
  cases h : entryOf agentId s.runqueue with
  | some e => exact hs.put { e with nice := clampNice nice, weight := _ } h rfl rfl _
  | none =>
    -- the agents of the other two queues stay in place
    have ho : ∀ rtQueue bgQueue : List CfsEntry,
        rtQueue.map CfsEntry.agentId = s.rtQueue.map CfsEntry.agentId →
        bgQueue.map CfsEntry.agentId = s.bgQueue.map CfsEntry.agentId →
        Sound { s with rtQueue, bgQueue } ∧ (agents { s with rtQueue, bgQueue }).Perm s.agents := by
      intro rtQueue bgQueue hrt hbg
      have hall : agents { s with rtQueue, bgQueue } = s.agents := by
        simp only [agents, List.map_append, hrt, hbg]
      exact ⟨⟨hs.sorted, hall ▸ hs.distinct, hs.weights, hs.total⟩, .of_eq hall⟩
    dsimp only
    split_ifs
    · exact ho _ _ (map_renice _) rfl
    · exact ho _ _ rfl (map_renice _)
    · exact ⟨hs, .refl _⟩

theorem Sound.step (hs : s.Sound) {op : Op} (hf : op.Fresh s.agents) :
    (s.step op).Sound ∧ (s.step op).agents.Perm (op.enqueued s.agents) := by
  cases op with
  | enqueue agentId nice cls => exact hs.enqueue nice cls hf
  | dequeue agentId => exact hs.dequeue agentId
  | updateNice agentId nice => exact hs.updateNice agentId nice
  | accountTokens agentId tokens =>
    exact hs.account agentId (charged · tokens) (fun _ => rfl) (fun _ => rfl) fun _ => rfl

/-! ## The floor -/

/-- The floor exceeds no virtual runtime of the run queue. -/
def Floor (s : CfsScheduler) : Prop := ∀ e ∈ s.runqueue, s.minVruntime ≤ e.vruntime

/-- A charge takes the agent to another one of the run queue at least, where there is one, or leaves
it at the floor. -/
def Op.Catches (s : CfsScheduler) : Op → Prop
  | .accountTokens agentId tokens => ∀ e, entryOf agentId s.runqueue = some e →
    without agentId s.runqueue = [] ∨
      (∃ other ∈ without agentId s.runqueue,
        e.weight * other.vruntime ≤ e.weight * e.vruntime + tokens * 1024) ∨
      e.vruntime = s.minVruntime ∧ tokens * 1024 < e.weight
  | _ => True

theorem vruntime_le_charged (hw : 0 < e.weight) (vruntime : Nat) :
    vruntime ≤ (charged e tokens).vruntime ↔
      e.weight * vruntime ≤ e.weight * e.vruntime + tokens * 1024 := by
  have hdiv : (charged e tokens).vruntime = (e.weight * e.vruntime + tokens * 1024) / e.weight :=
    (Nat.mul_add_div hw _ _).symm
  rw [hdiv, Nat.le_div_iff_mul_le hw, Nat.mul_comm]

theorem Sound.weight_pos (hs : s.Sound) (h : entryOf agentId s.runqueue = some e) :
    0 < e.weight := by
  rw [hs.weights e ((perm_without h).2.mem_iff.2 List.mem_cons_self)]
  exact niceToWeight_pos _

/-- The floor after a charge, on the queue that it was charged in. -/
theorem Sound.floor_accountTokens (hs : s.Sound) (hf : s.Floor) (agentId tokens : Nat) :
    s.minVruntime ≤ (s.accountTokens agentId tokens).minVruntime ∧
      ((s.accountTokens agentId tokens).Floor ↔ (Op.accountTokens agentId tokens).Catches s) := by
  rw [CfsScheduler.accountTokens, CfsScheduler.account, Op.Catches]
  cases h : entryOf agentId s.runqueue with
  | none => exact ⟨le_rfl, fun _ => nofun, fun _ => hf⟩
  | some e =>
    obtain ⟨-, hp⟩ := perm_without h
    obtain ⟨hp', -⟩ := hs.replaced (charged e tokens) h rfl
    have hw := hs.weight_pos h
    have hrest : ∀ x ∈ without agentId s.runqueue, s.minVruntime ≤ x.vruntime := fun x hx =>
      hf x (hp.mem_iff.2 (List.mem_cons_of_mem e hx))
    have hself : s.minVruntime ≤ e.vruntime := hf e (hp.mem_iff.2 List.mem_cons_self)
    have hgrow : e.vruntime ≤ (charged e tokens).vruntime := Nat.le_add_right _ _
    simp only [Floor, hp'.mem_iff, List.forall_mem_cons, Option.some.injEq, forall_eq']
    split_ifs with hpast
    · -- the floor becomes the first of the others
      have hso := @sorted_without s.runqueue agentId hs.sorted
      cases hq : without agentId s.runqueue with
      | nil => exact ⟨hpast.le, by simp⟩
      | cons fst rest =>
        rw [hq] at hso hrest
        have hfi : ∀ x ∈ rest, fst.vruntime ≤ x.vruntime := fun x hx => by
          rcases (List.pairwise_cons.1 hso).1 x hx with hlt | ⟨heq, -⟩
          · exact hlt.le
          · exact heq.le
        refine ⟨hrest fst List.mem_cons_self, ?_⟩
        simp only [List.head?_cons, Option.map_some, Option.getD_some, ← vruntime_le_charged hw]
        constructor
        · exact fun hfl => .inr (.inl ⟨fst, List.mem_cons_self, hfl.1⟩)
        · rintro (hnil | ⟨o, ho, hle⟩ | ⟨heq, hlt⟩)
          · cases hnil
          · refine ⟨?_, fun x hx => ?_⟩
            · rcases List.mem_cons.1 ho with rfl | ho
              · exact hle
              · exact (hfi o ho).trans hle
            · rcases List.mem_cons.1 hx with rfl | hx
              · exact le_rfl
              · exact hfi x hx
          · have hst : ¬ e.vruntime + 1 ≤ (charged e tokens).vruntime := by
              rw [vruntime_le_charged hw, Nat.mul_add]
              omega
            omega
    · -- the charge was truncated to nothing
      have hst : ¬ e.vruntime + 1 ≤ (charged e tokens).vruntime := by omega
      rw [vruntime_le_charged hw, Nat.mul_add] at hst
      exact ⟨le_rfl, fun _ => .inr (.inr (by omega)), fun _ => ⟨by omega, hrest⟩⟩

theorem Sound.floor_step (hs : s.Sound) (hf : s.Floor) {op : Op} (hfr : op.Fresh s.agents) :
    s.minVruntime ≤ (s.step op).minVruntime ∧ ((s.step op).Floor ↔ op.Catches s) := by
  cases op with
  | enqueue agentId nice cls =>
    cases cls with
    | realTime | background => exact ⟨le_rfl, fun _ => trivial, fun _ => hf⟩
    | normal | deadline =>
      refine ⟨le_rfl, fun _ => trivial, fun _ e he => ?_⟩
      rcases mem_insertEntry he with rfl | he
      · exact le_rfl
      · exact hf e he
  | dequeue agentId =>
    rw [CfsScheduler.step, CfsScheduler.dequeue]
    cases h : entryOf agentId s.runqueue with
    | some e => exact ⟨le_rfl, fun _ => trivial, fun _ x hx => hf x (List.mem_of_mem_eraseP hx)⟩
    | none => exact ⟨le_rfl, fun _ => trivial, fun _ => hf⟩
  | updateNice agentId nice =>
    rw [CfsScheduler.step, CfsScheduler.updateNice]
    cases h : entryOf agentId s.runqueue with
    | some e =>
      refine ⟨le_rfl, fun _ => trivial, fun _ x hx => ?_⟩
      obtain ⟨-, hp⟩ := perm_without h
      rcases mem_insertEntry hx with rfl | hx
      · exact hf e (hp.mem_iff.2 List.mem_cons_self)
      · exact hf x (List.mem_of_mem_eraseP hx)
    | none =>
      dsimp only
      split_ifs <;> exact ⟨le_rfl, fun _ => trivial, fun _ => hf⟩
  | accountTokens agentId tokens => exact hs.floor_accountTokens hf agentId tokens

/-- The scheduler after a run from the start. -/
abbrev after (slice : Nat) (ops : List Op) : CfsScheduler := run step (new slice) ops

variable {slice : Nat} {ops : List Op}

/-- No agent is enqueued twice at a time. -/
abbrev Once (slice : Nat) : List Op → Prop :=
  EachAfter fun pre op => op.Fresh (after slice pre).agents

/-- What is documented of a step: the floor is one and does not fall, the total is that of the
weights in the run queue, and every enqueued agent is in exactly one queue. -/
structure Documented (s : CfsScheduler) (op : Op) : Prop where
  floor : (s.step op).Floor
  rises : s.minVruntime ≤ (s.step op).minVruntime
  total : (s.step op).totalWeight = ((s.step op).runqueue.map CfsEntry.weight).sum
  distinct : (s.step op).agents.Nodup
  queued : (s.step op).agents.Perm (op.enqueued s.agents)

theorem sound_new : (new slice).Sound := ⟨.nil, .nil, fun _ h => (List.not_mem_nil h).elim, rfl⟩

theorem floor_run (h : Once slice ops)
    (hc : EachAfter (fun pre op => op.Catches (after slice pre)) ops) :
    (after slice ops).Sound ∧ (after slice ops).Floor := by
  apply run_invariant_of (fun s : CfsScheduler => s.Sound ∧ s.Floor)
    (fun s op => op.Fresh s.agents ∧ op.Catches s) ⟨sound_new, fun _ h => (List.not_mem_nil h).elim⟩
  · rintro s op ⟨hs, hf⟩ ⟨hfr, hc⟩
    exact ⟨(hs.step hfr).1, (hs.floor_step hf hfr).2.2 hc⟩
  · exact EachAfter.and_iff.2 ⟨h, hc⟩

/-- Every step of a run is as documented exactly when every charge takes its agent to another one of
the run queue, where there is one, or leaves it at the floor. -/
theorem floor_documented_iff (h : Once slice ops) :
    EachAfter (fun pre op => Documented (after slice pre) op) ops ↔
      EachAfter (fun pre op => op.Catches (after slice pre)) ops := by
  induction ops using List.reverseRecOn with
  | nil => simp
  | append_singleton ops op ih =>
    obtain ⟨h, hop⟩ := eachAfter_snoc.1 h
    rw [eachAfter_snoc, eachAfter_snoc, ih h]
    refine and_congr_right fun hc => ?_
    obtain ⟨hs, hf⟩ := floor_run h hc
    obtain ⟨hs', hp⟩ := hs.step hop
    obtain ⟨hrises, hiff⟩ := hs.floor_step hf hop
    exact ⟨fun hd => hiff.1 hd.floor, fun hc => ⟨hiff.2 hc, hrises, hs'.total, hs'.distinct, hp⟩⟩

/-- Two agents at the default nice value; the one charged less stays first. -/
def Sample.overtaken : List Op :=
  [.enqueue 1 0 .normal, .enqueue 2 0 .normal, .accountTokens 2 100, .accountTokens 1 50]

theorem floor_documented_iff_caught :
    Once 10 (Sample.overtaken.take 3) ∧
      EachAfter (fun pre op => Documented (after 10 pre) op) (Sample.overtaken.take 3) := by
  have h : Once 10 (Sample.overtaken.take 3) := by
    simp [Once, Sample.overtaken, eachAfter_cons, Op.Fresh, run, step, enqueue, agents, new]
    decide +kernel
  refine ⟨h, (floor_documented_iff h).2 ?_⟩
  simp [Sample.overtaken, eachAfter_cons, Op.Catches]
  decide +kernel

/-- The floor passes the agent that is first, an agent enqueued then starts behind it, and the next
charge takes the floor back. -/
theorem floor_overtakes :
    (after 10 Sample.overtaken).minVruntime = 100 ∧
      ((after 10 Sample.overtaken).runqueue.map fun e => (e.agentId, e.vruntime)) =
        [(1, 50), (2, 100)] ∧
      ((after 10 (Sample.overtaken ++ [.dequeue 2, .enqueue 3 0 .normal])).runqueue.map
        fun e => (e.agentId, e.vruntime)) = [(1, 50), (3, 100)] ∧
      (after 10 (Sample.overtaken ++ [.accountTokens 2 10])).minVruntime = 50 := by
  decide +kernel

end CfsScheduler

end AgentOS
