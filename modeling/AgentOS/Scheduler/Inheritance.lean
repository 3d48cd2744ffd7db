import AgentOS.Lib.Interleave

/-!
# Priority inheritance

`PriorityScheduler` gives exclusive access to a shared resource. The holder and the waiters are
under one lock and the agents under another, so every operation is a sequence of actions, and
operations interleave action by action. Agents are only compared, so their ids are numbers; a lower
value is a higher priority. Throttling is left out.

An action writes what it has read in an earlier one, and a queue may shrink without a refresh.
Inheritance is exact at rest in every interleaving in which a write is still what a refresh would
write or another operation has yet to write there, and in which an agent that leaves the queue
without a refresh leaves its top priority as it is (`inheritance_exact`). Without the latter it is
not, even without a race (`descheduled_waiter_inherited`).
-/

namespace AgentOS

open Lib

structure AgentScheduleInfo where
  priority : Nat
  inheritedPriority : Option Nat
  deriving DecidableEq

structure PriorityEntry where
  (agentId priority sequence : Nat)
  deriving DecidableEq

structure PriorityScheduler where
  agents : Nat → Option AgentScheduleInfo
  holder : Option Nat
  waiters : List PriorityEntry
  sequence : Nat

/-- An operation on the resource. -/
inductive AccessCall where
  | requestResourceAccess (agentId : Nat)
  | releaseResourceAccess (agentId : Nat)
  | setPriority (agentId priority : Nat)
  | deschedule (agentId : Nat)

/-- An operation before its next action. A request waits for `try_acquire_resource`. -/
inductive AccessTask where
  | call (call : AccessCall)
  | push (entry : PriorityEntry)
  | refreshHolderInheritance (waiting : Option Nat)
  | setInheritedPriority (holder inherited waiting : Option Nat)
  | waitForTurn (agentId : Nat)
  | dropRegistration (agentId : Nat)
  | removeReleased (agentId : Nat)
  | clearInherited (agentId : Nat)
  | removeDescheduled (agentId : Nat)
  | done

namespace PriorityScheduler

def outranks (a b : PriorityEntry) : Bool :=
  a.priority < b.priority || a.priority == b.priority && a.sequence < b.sequence

/-- The top of the heap. -/
def peek : List PriorityEntry → Option PriorityEntry
  | [] => none
  | e :: rest =>
    match peek rest with
    | none => some e
    | some best => if outranks best e then some best else some e

variable (s : PriorityScheduler)

variable (agentId : Nat)

def removeFromQueue : PriorityScheduler :=
  { s with waiters := s.waiters.filter (·.agentId != agentId) }

def setRow (row : Option AgentScheduleInfo) : PriorityScheduler :=
  { s with agents := Function.update s.agents agentId row }

def updateAgent (f : AgentScheduleInfo → AgentScheduleInfo) : PriorityScheduler :=
  s.setRow agentId ((s.agents agentId).map f)

/-- A request that waits, or an operation that is over. -/
def resume : Option Nat → AccessTask
  | some agentId => .waitForTurn agentId
  | none => .done

/-- One action. A request that waits polls, or is cancelled or timed out. -/
def act (cancel : Bool) : AccessTask → PriorityScheduler × AccessTask
  | .call (.requestResourceAccess agentId) =>
    let priority := ((s.agents agentId).map (·.priority)).getD 3
    ({ s with sequence := s.sequence + 1 }, .push ⟨agentId, priority, s.sequence⟩)
  | .call (.releaseResourceAccess agentId) =>
    ({ s with holder := if s.holder = some agentId then none else s.holder },
      .removeReleased agentId)
  | .call (.setPriority agentId priority) =>
    (s.updateAgent agentId ({ · with priority }), .refreshHolderInheritance none)
  | .call (.deschedule agentId) => (s.setRow agentId none, .removeDescheduled agentId)
  | .push entry =>
    if s.holder = some entry.agentId then (s, .done)
    else ({ s with waiters := entry :: s.waiters }, .refreshHolderInheritance entry.agentId)
  | .refreshHolderInheritance waiting =>
    (s, .setInheritedPriority s.holder ((peek s.waiters).map (·.priority)) waiting)
  | .setInheritedPriority holder inherited waiting =>
    match holder with
    | some agentId =>
      (s.updateAgent agentId ({ · with inheritedPriority := inherited }), resume waiting)
    | none => (s, resume waiting)
  | .waitForTurn agentId =>
    if cancel then (s, .dropRegistration agentId)
    else if s.holder = some agentId then (s, .refreshHolderInheritance none)
    else match s.holder, peek s.waiters with
      | none, some entry =>
        if entry.agentId = agentId then
          ({ s with waiters := s.waiters.erase entry, holder := some agentId },
            .refreshHolderInheritance none)
        else (s, .waitForTurn agentId)
      | _, _ => (s, .waitForTurn agentId)
  | .dropRegistration agentId => (s.removeFromQueue agentId, .refreshHolderInheritance none)
  | .removeReleased agentId => (s.removeFromQueue agentId, .clearInherited agentId)
  | .clearInherited agentId => (s.updateAgent agentId ({ · with inheritedPriority := none }), .done)
  | .removeDescheduled agentId => (s.removeFromQueue agentId, .done)
  | .done => (s, .done)

def program : Program PriorityScheduler AccessTask AccessCall Bool Unit where
  start s call := (s, .call call)
  act s task cancel := s.act cancel task
  outside s _ := s

/-! ## Rest -/

def idle : AccessTask → Bool
  | .waitForTurn _ | .done => true
  | _ => false

def inherited : Option Nat := (s.agents agentId).bind (·.inheritedPriority)

/-- What a refresh reads in the queue. -/
def top : Option Nat := (peek s.waiters).map (·.priority)

/-- What a refresh now would let an agent inherit. -/
def due : Option Nat := if s.holder = some agentId then s.top else none

/-! ## Conditions on actions -/

/-- The operation has yet to write what an agent that holds the resource inherits. -/
def refreshes : AccessTask → Bool
  | .refreshHolderInheritance _ => true
  | .setInheritedPriority (some holder) _ _ => holder == agentId
  | _ => false

/-- The operation has yet to clear what an agent inherits. -/
def clears : AccessTask → Bool
  | .removeReleased released | .clearInherited released => released == agentId
  | _ => false

/-- The operation has yet to write what the agent inherits. -/
def owes (task : AccessTask) : Bool :=
  if s.holder = some agentId then refreshes agentId task else clears agentId task

variable (others : List AccessTask)

/-- Another operation has yet to write what the agent inherits. -/
abbrev Owed : Prop := ∃ task ∈ others, s.owes agentId task = true

/-- An agent is not queued. -/
abbrev Unqueued : Prop := ∀ e ∈ s.waiters, e.agentId ≠ agentId

/-- An entry has the priority of its agent, which is registered. -/
abbrev Current (entry : PriorityEntry) : Prop :=
  (s.agents entry.agentId).map (·.priority) = some entry.priority

/-- The write is what a refresh would write, or will be written over. -/
abbrev Writable (inherited : Option Nat) : Prop :=
  inherited = s.due agentId ∨ s.Owed agentId others

/-- A refresh would read the same without the agent, or what the holder inherits has yet to be
written. -/
abbrev Removable : Prop :=
  ∀ holder ∈ s.holder, (s.removeFromQueue agentId).top = s.top ∨ s.Owed holder others

/-- The next action of an operation finds what it relies on. -/
def undisturbed : AccessTask → Bool
  | .call (.setPriority agentId _) => decide (s.Unqueued agentId)
  | .call (.deschedule agentId) => decide (s.holder ≠ some agentId)
  | .push entry => decide (s.holder = some entry.agentId ∨ s.Current entry)
  | .setInheritedPriority (some holder) inherited _ => decide (s.Writable holder others inherited)
  | .waitForTurn agentId => decide (s.holder = none →
      (peek s.waiters).map (·.agentId) = some agentId → (s.agents agentId).isSome)
  | .removeReleased agentId | .removeDescheduled agentId => decide (s.Removable agentId others)
  | .clearInherited agentId => decide (s.Writable agentId others none)
  | _ => true

/-- What holds between any two actions: an entry is current or about to be removed, the holder is
registered, and an agent inherits what it should or an operation has yet to write it. -/
structure Kept (tasks : List AccessTask) : Prop where
  waiter : ∀ e ∈ s.waiters, s.Current e ∨ .removeDescheduled e.agentId ∈ tasks
  holder : ∀ a, s.holder = some a → (s.agents a).isSome
  exact : ∀ a, s.inherited a = s.due a ∨ s.Owed a tasks

variable {s others} {agentId : Nat} {task : AccessTask} {tasks : List AccessTask}

theorem Kept.perm {tasks' : List AccessTask} (h : s.Kept tasks) (hperm : tasks.Perm tasks') :
    s.Kept tasks' := by
  refine ⟨fun e he => ?_, h.holder, fun a => ?_⟩
  · rw [← hperm.mem_iff]
    exact h.waiter e he
  · simp only [Owed, ← hperm.mem_iff]
    exact h.exact a

theorem Owed.mono (h : s.Owed agentId others) (task : AccessTask) :
    s.Owed agentId (task :: others) := by
  obtain ⟨o, ho, hw⟩ := h
  exact ⟨o, List.mem_cons_of_mem _ ho, hw⟩

theorem owed_cons : s.Owed agentId (task :: others) ↔
    s.owes agentId task = true ∨ s.Owed agentId others := by
  simp [Owed]

theorem agents_setRow (row : Option AgentScheduleInfo) (a : Nat) :
    (s.setRow agentId row).agents a = if a = agentId then row else s.agents a :=
  Function.update_apply _ _ _ _

theorem inherited_setRow (row : Option AgentScheduleInfo) (a : Nat) :
    (s.setRow agentId row).inherited a =
      if a = agentId then row.bind (·.inheritedPriority) else s.inherited a := by
  rw [inherited, agents_setRow]
  split_ifs <;> rfl

variable {s' : PriorityScheduler} {task' : AccessTask}

/-- An agent whose row, role and due the action leaves alone, while the operation still owes what it
owed. -/
theorem exact_frame (h : s.inherited agentId = s.due agentId ∨ s.Owed agentId (task :: others))
    (hi : s'.inherited agentId = s.inherited agentId)
    (hh : s'.holder = some agentId ↔ s.holder = some agentId)
    (hd : s.holder = some agentId → s'.top = s.top)
    (ho : s.owes agentId task = true → s'.owes agentId task' = true) :
    s'.inherited agentId = s'.due agentId ∨ s'.Owed agentId (task' :: others) := by
  have hdue : s'.due agentId = s.due agentId := by
    unfold due
    by_cases hold : s.holder = some agentId
    · rw [if_pos hold, if_pos (hh.2 hold), hd hold]
    · rw [if_neg hold, if_neg (hold ∘ hh.1)]
  have hsame : ∀ o, s'.owes agentId o = s.owes agentId o := by
    intro o
    unfold owes
    by_cases hold : s.holder = some agentId
    · rw [if_pos hold, if_pos (hh.2 hold)]
    · rw [if_neg hold, if_neg (hold ∘ hh.1)]
  rcases h with h | h
  · exact .inl (hi.trans (h.trans hdue.symm))
  · refine .inr (owed_cons.2 ?_)
    rcases owed_cons.1 h with h | ⟨o, hm, how⟩
    · exact .inl (ho h)
    · exact .inr ⟨o, hm, (hsame o).trans how⟩

/-- An entry that the action leaves alone. -/
theorem waiter_frame {e : PriorityEntry}
    (h : s.Current e ∨ .removeDescheduled e.agentId ∈ task :: others)
    (hc : s.Current e → s'.Current e) (ht : task ≠ .removeDescheduled e.agentId) :
    s'.Current e ∨ .removeDescheduled e.agentId ∈ task' :: others := by
  rcases h with h | h
  · exact .inl (hc h)
  · exact .inr (List.mem_cons_of_mem _ ((List.mem_cons.1 h).resolve_left (Ne.symm ht)))

/-- An action that changes nothing but the operation itself. -/
theorem Kept.move (h : s.Kept (task :: others)) (ht : ∀ a, task ≠ .removeDescheduled a)
    (ho : ∀ a, s.owes a task = true → s.owes a task' = true) : s.Kept (task' :: others) :=
  ⟨fun e he => waiter_frame (h.waiter e he) id (ht _), h.holder,
    fun a => exact_frame (h.exact a) rfl Iff.rfl (fun _ => rfl) (ho a)⟩

/-- A write of what an agent inherits. -/
theorem Kept.write (h : s.Kept (task :: others)) {inherited : Option Nat}
    (hw : s.Writable agentId others inherited) (ht : ∀ a, task ≠ .removeDescheduled a)
    (ho : ∀ a, a ≠ agentId → s.owes a task = false) :
    (s.updateAgent agentId ({ · with inheritedPriority := inherited })).Kept (task' :: others) := by
  refine ⟨fun e he => ?_, fun a ha => ?_, fun a => ?_⟩
  · refine waiter_frame (h.waiter e he) (fun hc => ?_) (ht _)
    rw [Current, updateAgent, agents_setRow]
    split_ifs with hid
    · rw [← hid, Option.map_map]
      exact hc
    · exact hc
  · have hrow := h.holder a ha
    rw [updateAgent, agents_setRow]
    split_ifs with hid
    · rw [Option.isSome_map, ← hid]
      exact hrow
    · exact hrow
  · by_cases hid : a = agentId
    · subst hid
      rcases hw with rfl | ⟨o, hm, how⟩
      · left
        rw [updateAgent, inherited_setRow, if_pos rfl]
        show _ = s.due a
        cases hrow : s.agents a with
        | some info => rfl
        | none =>
          have hold : s.holder ≠ some a := by
            intro hold
            simpa [hrow] using h.holder a hold
          rw [due, if_neg hold]
          rfl
      · exact .inr (Owed.mono ⟨o, hm, how⟩ _)
    · refine exact_frame (h.exact a) ?_ Iff.rfl (fun _ => rfl) ?_
      · rw [updateAgent, inherited_setRow, if_neg hid]
      · rw [ho a hid]
        exact nofun

/-- A removal from the queue. -/
theorem Kept.remove (h : s.Kept (task :: others)) (hr : s.Removable agentId (task' :: others))
    (ht : ∀ a, a ≠ agentId → task ≠ .removeDescheduled a)
    (ho : ∀ a, s.owes a task = true → s.owes a task' = true) :
    (s.removeFromQueue agentId).Kept (task' :: others) := by
  refine ⟨fun e he => ?_, h.holder, fun a => ?_⟩
  · obtain ⟨he, hne⟩ := List.mem_filter.1 he
    exact waiter_frame (h.waiter e he) id (ht _ (bne_iff_ne.1 hne))
  · by_cases hold : s.holder = some a
    · rcases hr a hold with htop | howed
      · exact exact_frame (h.exact a) rfl Iff.rfl (fun _ => htop) (ho a)
      · exact .inr howed
    · exact exact_frame (h.exact a) rfl Iff.rfl (absurd · hold) (ho a)

theorem Kept.call {call : AccessCall} (h : s.Kept (.call call :: others))
    (hu : s.undisturbed others (.call call) = true) (cancel : Bool) :
    (s.act cancel (.call call)).1.Kept ((s.act cancel (.call call)).2 :: others) := by
  have hnone : ∀ a, s.owes a (.call call) = false := by simp [owes, refreshes, clears]
  cases call with
  | requestResourceAccess agentId =>
    exact ⟨fun e he => waiter_frame (h.waiter e he) id nofun, h.holder,
      fun a => exact_frame (h.exact a) rfl Iff.rfl (fun _ => rfl) (by simp [hnone])⟩
  | releaseResourceAccess agentId =>
    rw [act]
    refine ⟨fun e he => waiter_frame (h.waiter e he) id nofun, fun a ha => ?_, fun a => ?_⟩
    · dsimp only at ha
      split_ifs at ha
      exact h.holder a ha
    · split_ifs with hh
      · by_cases hid : a = agentId
        · exact .inr (owed_cons.2 (.inl (by simp [owes, clears, hid])))
        · exact exact_frame (h.exact a) rfl (by simp [hh, Ne.symm hid]) (fun _ => rfl)
            (by simp [hnone])
      · exact exact_frame (h.exact a) rfl Iff.rfl (fun _ => rfl) (by simp [hnone])
  | setPriority agentId priority =>
    rw [act]
    refine ⟨fun e he => waiter_frame (h.waiter e he) (fun hc => ?_) nofun, fun a ha => ?_,
      fun a => exact_frame (h.exact a) ?_ Iff.rfl (fun _ => rfl) (by simp [hnone])⟩
    · rw [Current, updateAgent, agents_setRow, if_neg (of_decide_eq_true hu e he)]
      exact hc
    · have hrow := h.holder a ha
      rw [updateAgent, agents_setRow]
      split_ifs with hid
      · rw [Option.isSome_map, ← hid]
        exact hrow
      · exact hrow
    · rw [updateAgent, inherited_setRow]
      split_ifs with hid
      · rw [hid, inherited, Option.bind_map]
        rfl
      · rfl
  | deschedule agentId =>
    have hne : s.holder ≠ some agentId := of_decide_eq_true hu
    rw [act]
    refine ⟨fun e he => ?_, fun a ha => ?_, fun a => ?_⟩
    · by_cases hid : e.agentId = agentId
      · exact .inr (hid ▸ List.mem_cons_self)
      · refine waiter_frame (h.waiter e he) (fun hc => ?_) nofun
        rw [Current, agents_setRow, if_neg hid]
        exact hc
    · have hid : a ≠ agentId := by
        rintro rfl
        exact hne ha
      rw [agents_setRow, if_neg hid]
      exact h.holder a ha
    · by_cases hid : a = agentId
      · left
        rw [inherited_setRow, if_pos hid, due, if_neg (hid ▸ hne)]
        rfl
      · exact exact_frame (h.exact a) (by rw [inherited_setRow, if_neg hid]) Iff.rfl (fun _ => rfl)
          (by simp [hnone])

theorem Kept.act (h : s.Kept (task :: others)) (hu : s.undisturbed others task = true)
    (cancel : Bool) : (s.act cancel task).1.Kept ((s.act cancel task).2 :: others) := by
  cases task with
  | call call => exact h.call hu cancel
  | push entry =>
    rw [PriorityScheduler.act]
    split_ifs with hh
    · exact h.move nofun (by simp [owes, refreshes, clears])
    · have hnew := (of_decide_eq_true hu).resolve_left hh
      refine ⟨List.forall_mem_cons.2 ⟨.inl hnew, fun e he => ?_⟩, h.holder, fun a => ?_⟩
      · exact waiter_frame (h.waiter e he) id nofun
      · by_cases hold : s.holder = some a
        · exact .inr (owed_cons.2 (.inl (by simp [owes, refreshes, hold])))
        · exact exact_frame (h.exact a) rfl Iff.rfl (absurd · hold)
            (by simp [owes, refreshes, clears])
  | refreshHolderInheritance waiting =>
    rw [PriorityScheduler.act]
    refine h.move nofun fun a => ?_
    by_cases hold : s.holder = some a <;> simp [owes, refreshes, clears, hold]
  | setInheritedPriority holder inherited waiting =>
    cases holder with
    | none => exact h.move nofun (by simp [owes, refreshes, clears])
    | some agentId =>
      exact h.write (of_decide_eq_true hu) nofun fun a ha => by
        simp [owes, refreshes, clears, Ne.symm ha]
  | waitForTurn agentId =>
    rw [PriorityScheduler.act]
    split_ifs with hc hh
    · exact h.move nofun (by simp [owes, refreshes, clears])
    · exact h.move nofun (by simp [owes, refreshes, clears])
    · split
      · next entry hn hp =>
        split_ifs with hid
        · refine ⟨fun e he => waiter_frame (h.waiter e (List.mem_of_mem_erase he)) id nofun,
            fun a ha => ?_, fun a => ?_⟩
          · rw [← Option.some.inj ha]
            exact of_decide_eq_true hu hn (by rw [hp, ← hid]; rfl)
          · by_cases hself : a = agentId
            · exact .inr (owed_cons.2 (.inl (by simp [owes, refreshes, hself])))
            · exact exact_frame (h.exact a) rfl (by simp [hn, Ne.symm hself]) (by simp [hn])
                (by simp [owes, refreshes, clears])
        · exact h.move nofun (by simp [owes, refreshes, clears])
      · exact h.move nofun (by simp [owes, refreshes, clears])
  | dropRegistration agentId =>
    rw [PriorityScheduler.act]
    refine h.remove (fun a ha => .inr (owed_cons.2 (.inl ?_))) nofun
      (by simp [owes, refreshes, clears])
    simp [owes, refreshes, show s.holder = some a from ha]
  | removeReleased agentId =>
    rw [PriorityScheduler.act]
    refine h.remove (fun a ha => (of_decide_eq_true hu a ha).imp_right (·.mono _)) nofun
      fun a => ?_
    by_cases hold : s.holder = some a <;> simp [owes, refreshes, clears, hold]
  | clearInherited agentId =>
    exact h.write (of_decide_eq_true hu) nofun fun a ha => by
      simp [owes, refreshes, clears, Ne.symm ha]
  | removeDescheduled agentId =>
    refine h.remove (fun a ha => (of_decide_eq_true hu a ha).imp_right (·.mono _))
      (fun a ha heq => ?_) (by simp [owes, refreshes, clears])
    exact ha (AccessTask.removeDescheduled.inj heq).symm
  | done => exact h

/-! ## Runs -/

/-- The condition on an event; the operations that act are named by their position. -/
def respects (w : World PriorityScheduler AccessTask) : Event AccessCall Bool Unit → Bool
  | .act i _ => w.tasks[i]?.all (w.shared.undisturbed (w.tasks.eraseIdx i))
  | _ => true

theorem Kept.step {w : World PriorityScheduler AccessTask} (h : w.shared.Kept w.tasks)
    {ev : Event AccessCall Bool Unit} (ho : respects w ev = true) :
    (program.step w ev).shared.Kept (program.step w ev).tasks := by
  cases ev with
  | start call =>
    refine ⟨fun e he => (h.waiter e he).imp_right (List.mem_append_left _), h.holder, fun a => ?_⟩
    exact (h.exact a).imp_right fun ⟨o, hm, how⟩ => ⟨o, List.mem_append_left _ hm, how⟩
  | act i cancel =>
    cases hi : w.tasks[i]? with
    | none => rwa [Program.step_act_of_none cancel hi]
    | some task =>
      obtain ⟨hlt, rfl⟩ := List.getElem?_eq_some_iff.1 hi
      rw [Program.step_act_of_some cancel hi]
      have hnow := h.perm (List.getElem_cons_eraseIdx_perm hlt).symm
      rw [respects, hi] at ho
      exact (hnow.act ho cancel).perm (List.set_perm_cons_eraseIdx hlt _).symm
  | outside => exact h

/-- No operation yet, and a free resource. -/
def fresh (agents : Nat → Option AgentScheduleInfo) : World PriorityScheduler AccessTask :=
  ⟨⟨agents, none, [], 0⟩, []⟩

/-- Three agents; the later ones have the higher priorities. -/
def Sample.agents : Nat → Option AgentScheduleInfo
  | 1 => some ⟨3, none⟩
  | 2 => some ⟨1, none⟩
  | 3 => some ⟨0, none⟩
  | _ => none

end PriorityScheduler

end AgentOS
