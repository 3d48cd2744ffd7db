import AgentOS.Lib.Run

/-!
# Interleaved tasks over a shared state

A `Program` says how a task starts, what one atomic action of a task does to the shared state and to
the task, and how the shared state changes from outside. A `World` is a shared state with the tasks
that were started, in order; an `Event` starts a task, lets one task act or changes the shared state
from outside, so a list of events is an interleaving.

Two rules are used for safety. A property of single tasks that starting and acting respect holds of
every task (`forall_tasks_run`). A resource that is held in the shared state has a task that owns it
as long as no owner walks away from a held resource (`owned_run`); once a held resource has no
owner, it stays held and without owner (`unowned_run`).
-/

namespace AgentOS.Lib

variable {σ π β α ε κ : Type}

/-- A shared state and the local states of the tasks, in the order of their start. -/
structure World (σ π : Type) where
  shared : σ
  tasks : List π

/-- Tasks that act atomically on a shared state. The last argument of `act` is what the task finds
out from its surroundings in this action. -/
structure Program (σ π β α ε : Type) where
  start : σ → β → σ × π
  act : σ → π → α → σ × π
  outside : σ → ε → σ

/-- One event of an interleaving; tasks are named by their position. -/
inductive Event (β α ε : Type) where
  | start (input : β)
  | act (index : Nat) (input : α)
  | outside (input : ε)
  deriving DecidableEq

namespace Program

variable (program : Program σ π β α ε)

/-- The task at a position acts. -/
def actAt (world : World σ π) (index : Nat) (task : π) (input : α) : World σ π :=
  { shared := (program.act world.shared task input).1
    tasks := world.tasks.set index (program.act world.shared task input).2 }

/-- One event. An action of a task that was never started is none. -/
def step (world : World σ π) : Event β α ε → World σ π
  | .start input =>
    { shared := (program.start world.shared input).1
      tasks := world.tasks ++ [(program.start world.shared input).2] }
  | .act index input =>
    match world.tasks[index]? with
    | none => world
    | some task => program.actAt world index task input
  | .outside input => { world with shared := program.outside world.shared input }

/-- The world after an interleaving. -/
def interleave (world : World σ π) (events : List (Event β α ε)) : World σ π :=
  run program.step world events

variable {program}

variable {world : World σ π} {index : Nat} {task : π}

theorem step_act_of_some (input : α) (h : world.tasks[index]? = some task) :
    program.step world (.act index input) = program.actAt world index task input := by
  rw [step, h]

theorem step_act_of_none (input : α) (h : world.tasks[index]? = none) :
    program.step world (.act index input) = world := by
  rw [step, h]

variable {input : α}

/-- A task after an action is the one that acted or was there before, at another position. -/
theorem mem_actAt {o : π} (h : o ∈ (program.actAt world index task input).tasks) :
    o = (program.act world.shared task input).2 ∨
      ∃ pos, pos ≠ index ∧ world.tasks[pos]? = some o := by
  obtain ⟨pos, hp⟩ := List.mem_iff_getElem?.1 h
  rw [actAt, List.getElem?_set] at hp
  split at hp
  · next heq =>
    split at hp
    · exact .inl (Option.some.inj hp).symm
    · simp at hp
  · next hne => exact .inr ⟨pos, fun heq => hne heq.symm, hp⟩

theorem act_mem_actAt (program : Program σ π β α ε) (input : α)
    (h : world.tasks[index]? = some task) :
    (program.act world.shared task input).2 ∈ (program.actAt world index task input).tasks :=
  List.mem_set (List.getElem?_eq_some_iff.1 h).1 _

theorem other_mem_actAt {pos : Nat} {o : π} (input : α) (hne : pos ≠ index)
    (h : world.tasks[pos]? = some o) : o ∈ (program.actAt world index task input).tasks := by
  refine List.mem_iff_getElem?.2 ⟨pos, ?_⟩
  rw [actAt, List.getElem?_set_ne (Ne.symm hne)]
  exact h

/-- What the acting task has afterwards, and what the others keep. -/
theorem forall_actAt {J : π → Prop} (hself : J (program.act world.shared task input).2)
    (ho : ∀ o ∈ world.tasks, J o) : ∀ o ∈ (program.actAt world index task input).tasks, J o := by
  intro o hot
  rcases mem_actAt hot with rfl | ⟨pos, -, hp⟩
  · exact hself
  · exact ho o (List.mem_of_getElem? hp)

/-- A relation between tasks: what the acting task has with the others afterwards, and what the
others keep. -/
theorem forall_pairs_actAt {R : π → π → Prop} {acted : π}
    (hac : (program.act world.shared task input).2 = acted) (hself : R acted acted)
    (hleft : ∀ b ∈ world.tasks, R acted b) (hr : ∀ a ∈ world.tasks, R a acted)
    (ho : ∀ a ∈ world.tasks, ∀ b ∈ world.tasks, R a b) :
    ∀ a ∈ (program.actAt world index task input).tasks,
      ∀ b ∈ (program.actAt world index task input).tasks, R a b := by
  subst hac
  refine forall_actAt (J := fun a => ∀ b ∈ (program.actAt world index task input).tasks, R a b)
    ?_ ?_
  · exact forall_actAt hself hleft
  · intro a ha
    exact forall_actAt (hr a ha) (ho a ha)

/-- A task with a property is still there if the acting task hands the property on, to itself or to
another task, and the others keep it. -/
theorem exists_actAt {P Q : π → Prop} (hi : world.tasks[index]? = some task)
    (hw : ∃ o ∈ world.tasks, P o)
    (hself : P task → Q (program.act world.shared task input).2 ∨ ∃ o ∈ world.tasks.eraseIdx index,
      Q o) (hot : ∀ o ∈ world.tasks, P o → Q o) :
    ∃ o ∈ (program.actAt world index task input).tasks, Q o := by
  obtain ⟨o, ho, hp⟩ := hw
  obtain ⟨pos, hpo⟩ := List.mem_iff_getElem?.1 ho
  by_cases hsame : pos = index
  · subst hsame
    obtain rfl : task = o := Option.some.inj (hi.symm.trans hpo)
    rcases hself hp with hq | ⟨elsewhere, he, hq⟩
    · exact ⟨_, act_mem_actAt program input hi, hq⟩
    · obtain ⟨pl, hne, hpl⟩ := List.mem_eraseIdx_iff_getElem?.1 he
      exact ⟨elsewhere, other_mem_actAt input hne hpl, hq⟩
  · exact ⟨o, other_mem_actAt input hsame hpo, hot o ho hp⟩

/-! ## Properties of single tasks -/

section Tasks

variable {J : π → Prop}

theorem forall_tasks_step (hs : ∀ s b, J (program.start s b).2)
    (hact : ∀ s task a, J task → J (program.act s task a).2) (hw : ∀ task ∈ world.tasks, J task)
    (ev : Event β α ε) : ∀ task ∈ (program.step world ev).tasks, J task := by
  cases ev with
  | start input =>
    intro task htask
    rcases List.mem_append.1 htask with htask | htask
    · exact hw task htask
    · rw [List.mem_singleton.1 htask]
      exact hs _ input
  | act index input =>
    cases hi : world.tasks[index]? with
    | none =>
      rw [step_act_of_none input hi]
      exact hw
    | some acting =>
      rw [step_act_of_some input hi]
      intro task htask
      rcases mem_actAt htask with rfl | ⟨pos, -, hp⟩
      · exact hact _ acting input (hw acting (List.mem_of_getElem? hi))
      · exact hw task (List.mem_of_getElem? hp)
  | outside input => exact hw

/-- What every task has when it starts and keeps when it acts, every task of a run has. -/
theorem forall_tasks_run (hs : ∀ s b, J (program.start s b).2)
    (hact : ∀ s task a, J task → J (program.act s task a).2) (hwo : ∀ task ∈ world.tasks, J task)
    (evs : List (Event β α ε)) : ∀ task ∈ (program.interleave world evs).tasks, J task :=
  run_invariant (P := fun w : World σ π => ∀ task ∈ w.tasks, J task) hwo
    (fun _ ev hw => forall_tasks_step hs hact hw ev) evs

/-- A property of the task at one position that its own actions keep. -/
theorem task_step (hact : ∀ s task a, J task → J (program.act s task a).2)
    (hw : ∃ task, world.tasks[index]? = some task ∧ J task) (ev : Event β α ε) :
    ∃ task, (program.step world ev).tasks[index]? = some task ∧ J task := by
  obtain ⟨task, htask, hj⟩ := hw
  cases ev with
  | start input =>
    refine ⟨task, ?_, hj⟩
    rw [step, List.getElem?_append_left (List.getElem?_eq_some_iff.1 htask).1]
    exact htask
  | act pos input =>
    cases hp : world.tasks[pos]? with
    | none =>
      rw [step_act_of_none input hp]
      exact ⟨task, htask, hj⟩
    | some acting =>
      rw [step_act_of_some input hp]
      by_cases hsame : pos = index
      · subst hsame
        obtain rfl : acting = task := Option.some.inj (hp.symm.trans htask)
        refine ⟨_, ?_, hact world.shared acting input hj⟩
        rw [actAt, List.getElem?_set_self (List.getElem?_eq_some_iff.1 htask).1]
      · refine ⟨task, ?_, hj⟩
        rw [actAt, List.getElem?_set_ne hsame]
        exact htask
  | outside input => exact ⟨task, htask, hj⟩

theorem task_run (hact : ∀ s task a, J task → J (program.act s task a).2)
    (hwo : ∃ task, world.tasks[index]? = some task ∧ J task) (evs : List (Event β α ε)) :
    ∃ task, (program.interleave world evs).tasks[index]? = some task ∧ J task :=
  run_invariant (P := fun w : World σ π => ∃ task, w.tasks[index]? = some task ∧ J task) hwo
    (fun _ ev hw => task_step hact hw ev) evs

end Tasks

/-! ## Counters of tasks -/

section Tallies

variable {p : π → Bool} {n : σ → Nat}

/-- A number in the shared state counts the tasks with a property. -/
def Tallied (p : π → Bool) (n : σ → Nat) (world : World σ π) : Prop :=
  world.tasks.countP p = n world.shared

theorem countP_actAt (program : Program σ π β α ε) (p : π → Bool) (input : α)
    (h : world.tasks[index]? = some task) :
    (program.actAt world index task input).tasks.countP p + (p task).toNat =
      world.tasks.countP p + (p (program.act world.shared task input).2).toNat := by
  obtain ⟨hlt, rfl⟩ := List.getElem?_eq_some_iff.1 h
  rw [actAt, List.countP_set hlt]
  cases hp : p world.tasks[index] with
  | true =>
    have hpos : 0 < world.tasks.countP p :=
      List.countP_pos_iff.2 ⟨_, List.getElem_mem hlt, hp⟩
    cases p (program.act world.shared world.tasks[index] input).2 <;> simp <;> omega
  | false => cases p (program.act world.shared world.tasks[index] input).2 <;> simp

/-- The counter is positive while a task has the property. -/
theorem Tallied.pos (hw : Tallied p n world) (htask : task ∈ world.tasks) (hp : p task = true) :
    0 < n world.shared := by
  rw [← show world.tasks.countP p = n world.shared from hw]
  exact List.countP_pos_iff.2 ⟨task, htask, hp⟩

end Tallies

/-! ## Resources with an owner -/

section Owners

variable (program) (Held : κ → σ → Prop) (Owns : κ → π → Prop)

/-- Every held resource has a task that owns it. -/
def Owned (world : World σ π) : Prop :=
  ∀ k, Held k world.shared → ∃ task ∈ world.tasks, Owns k task

/-- The resource is held and no task owns it. -/
def Unowned (k : κ) (world : World σ π) : Prop :=
  Held k world.shared ∧ ∀ task ∈ world.tasks, ¬ Owns k task

/-- Some task at another position owns the resource. -/
def OwnedElsewhere (world : World σ π) (index : Nat) (k : κ) : Prop :=
  ∃ position other, position ≠ index ∧ world.tasks[position]? = some other ∧ Owns k other

/-- Resources become held by an action of a task that then owns them, and only then. -/
structure Acquires : Prop where
  start : ∀ k s b, Held k (program.start s b).1 → Held k s
  outside : ∀ k s e, Held k (program.outside s e) → Held k s
  act : ∀ k s task a, Held k (program.act s task a).1 → Held k s ∨
    Owns k (program.act s task a).2

/-- The event does not take the last owner of a resource away while the resource stays held. -/
def Orderly (world : World σ π) : Event β α ε → Prop
  | .act index input => ∀ task k, world.tasks[index]? = some task → Owns k task →
      Held k (program.act world.shared task input).1 →
      Owns k (program.act world.shared task input).2 ∨ OwnedElsewhere Owns world index k
  | _ => True

variable {program Held Owns}

theorem owned_step (ha : Acquires program Held Owns) (hw : Owned Held Owns world) {ev : Event β α ε}
    (ho : Orderly program Held Owns world ev) : Owned Held Owns (program.step world ev) := by
  intro k hk
  cases ev with
  | start input =>
    obtain ⟨task, htask, howns⟩ := hw k (ha.start k _ input hk)
    exact ⟨task, List.mem_append_left _ htask, howns⟩
  | outside input => exact hw k (ha.outside k _ input hk)
  | act index input =>
    cases hi : world.tasks[index]? with
    | none =>
      rw [step_act_of_none input hi] at hk ⊢
      exact hw k hk
    | some acting =>
      rw [step_act_of_some input hi] at hk ⊢
      have hself := act_mem_actAt program input hi
      rcases ha.act k _ acting input hk with hheld | howns
      · obtain ⟨task, htask, howns⟩ := hw k hheld
        obtain ⟨pos, hpo⟩ := List.mem_iff_getElem?.1 htask
        by_cases hsame : pos = index
        · -- the owner itself acts
          subst hsame
          obtain rfl : acting = task := Option.some.inj (hi.symm.trans hpo)
          rcases ho acting k hi howns hk with howns | ⟨p, o, hp, hot, howns⟩
          · exact ⟨_, hself, howns⟩
          · exact ⟨o, other_mem_actAt input hp hot, howns⟩
        · exact ⟨task, other_mem_actAt input hsame hpo, howns⟩
      · exact ⟨_, hself, howns⟩

/-- In a run of orderly events a held resource always has an owner. -/
theorem owned_run (ha : Acquires program Held Owns) (hwo : Owned Held Owns world)
    {evs : List (Event β α ε)}
    (hor : EachAfter (fun pre ev => Orderly program Held Owns (program.interleave world pre) ev)
      evs) : Owned Held Owns (program.interleave world evs) :=
  run_invariant_of (Owned Held Owns) (Orderly program Held Owns) hwo
    (fun _ _ hw ho => owned_step ha hw ho) hor

/-- Only owners let a held resource go, and a held resource gets no new owner. -/
structure Retains (program : Program σ π β α ε) (Held : κ → σ → Prop) (Owns : κ → π → Prop) :
    Prop where
  start : ∀ k s b, Held k s → Held k (program.start s b).1 ∧ ¬ Owns k (program.start s b).2
  outside : ∀ k s e, Held k s → Held k (program.outside s e)
  act : ∀ k s task a, Held k s → ¬ Owns k task →
    Held k (program.act s task a).1 ∧ ¬ Owns k (program.act s task a).2

theorem unowned_step (hr : Retains program Held Owns) {k : κ} (hw : Unowned Held Owns k world)
    (ev : Event β α ε) : Unowned Held Owns k (program.step world ev) := by
  obtain ⟨hheld, hnone⟩ := hw
  cases ev with
  | start input =>
    obtain ⟨hkept, hf⟩ := hr.start k _ input hheld
    refine ⟨hkept, fun task htask => ?_⟩
    rcases List.mem_append.1 htask with htask | htask
    · exact hnone task htask
    · rw [List.mem_singleton.1 htask]
      exact hf
  | outside input => exact ⟨hr.outside k _ input hheld, hnone⟩
  | act index input =>
    cases hi : world.tasks[index]? with
    | none =>
      rw [step_act_of_none input hi]
      exact ⟨hheld, hnone⟩
    | some acting =>
      rw [step_act_of_some input hi]
      obtain ⟨hkept, hnot⟩ := hr.act k _ acting input hheld (hnone acting (List.mem_of_getElem? hi))
      refine ⟨hkept, fun task htask => ?_⟩
      rcases mem_actAt htask with rfl | ⟨pos, -, hp⟩
      · exact hnot
      · exact hnone task (List.mem_of_getElem? hp)

/-- A held resource that has lost its owner is lost for good. -/
theorem unowned_run (hr : Retains program Held Owns) {k : κ} (hwo : Unowned Held Owns k world)
    (evs : List (Event β α ε)) : Unowned Held Owns k (program.interleave world evs) :=
  run_invariant hwo (fun _ ev hw => unowned_step hr hw ev) evs

end Owners

end Program

end AgentOS.Lib
