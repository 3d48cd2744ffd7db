import AgentOS.Auth.Drains

/-!
# The boundary of a revocation

Besides the drains (`Guarded`), a fact about the entries of the table makes revocation a boundary.
The entry of a credential that is still in the records is closed only while an operation that holds
`auth_mutation_lock` has it in hand (`Blocks`), so operations do not get in the way of other
credentials, and one that fails leaves none closed.
-/

namespace AgentOS

open Lib

/-! ## Entries of the table -/

namespace LeaseTable

variable {ls ls' : LeaseTable} {i : CredentialIdentity} {entry o : Nat}
  {before after state : LeaseEntry} {cur : Option Nat}

/-- The table has the entry for the credential. -/
def Resident (ls : LeaseTable) (i : CredentialIdentity) (entry : Nat) (state : LeaseEntry) :
    Prop :=
  ls.table[i]? = some entry ∧ ls.heap[entry]? = some state

variable (hw : Writes ls ls' entry before after cur)
include hw

variable (hf : ls.Filed)
include hf

section

variable (hc : cur = some entry ∨ cur = none)
include hc

/-- An entry of the table after a write is the written one, or was there before. -/
theorem Writes.resident (h : ls'.Resident i o state) :
    before.identity = i ∧ o = entry ∧ state = after ∧ cur = some entry ∨
      before.identity ≠ i ∧ ls.Resident i o state := by
  obtain ⟨ht, hheap⟩ := h
  rw [hw.table] at ht
  rw [hw.heap] at hheap
  by_cases hi : before.identity = i
  · rw [if_pos hi] at ht
    rcases hc with rfl | rfl
    · cases ht
      rw [if_pos rfl] at hheap
      exact .inl ⟨hi, rfl, (Option.some.inj hheap).symm, rfl⟩
    · cases ht
  · rw [if_neg hi] at ht
    refine .inr ⟨hi, ht, ?_⟩
    by_cases heq : entry = o
    · -- the table has an entry for one credential only
      exfalso
      subst heq
      obtain ⟨fd, hfo, hid⟩ := hf.filed i entry ht
      rcases hw.current_or_new with ⟨-, hb⟩ | ⟨-, hnone, -⟩
      · rw [hb] at hfo
        cases hfo
        exact hi hid
      · rw [hnone] at hfo
        cases hfo
    · rwa [if_neg heq] at hheap

/-- A closed entry after a write that opens and closes nothing and adds no lease. -/
theorem Writes.closed_before (ha : after.accepting = before.accepting)
    (hac : after.active ≤ before.active) (h : ls'.Resident i o state)
    (hcl : state.accepting = false) :
    ∃ fd, ls.Resident i o fd ∧ fd.accepting = false ∧ state.active ≤ fd.active := by
  rcases hw.resident hf hc h with ⟨hi, rfl, rfl, -⟩ | ⟨-, h⟩
  · rw [ha] at hcl
    rcases hw.current_or_new with ⟨ht, hheap⟩ | ⟨-, -, hnew⟩
    · exact ⟨before, ⟨by rw [← hi]; exact ht, hheap⟩, hcl, hac⟩
    · -- a new entry is open
      rw [hnew] at hcl
      cases hcl
  · exact ⟨state, h, hcl, Nat.le_refl _⟩

/-- A closed entry after a write that leaves its own entry open. -/
theorem Writes.closed_other (ha : after.accepting = true) (h : ls'.Resident i o state)
    (hcl : state.accepting = false) : before.identity ≠ i ∧ ls.Resident i o state := by
  rcases hw.resident hf hc h with ⟨-, -, rfl, -⟩ | h
  · rw [ha] at hcl
    cases hcl
  · exact h

end

/-- What a reopening opens is not closed afterwards, what an eviction removes is not there. -/
theorem Writes.ne_of_closed (hc : cur = some entry ∧ after.accepting = true ∨ cur = none)
    (h : ls'.Resident i o state) (hcl : state.accepting = false) : before.identity ≠ i := by
  rcases hc with ⟨hown, hopen⟩ | hnone
  · exact (hw.closed_other hf (.inl hown) hopen h hcl).1
  · rcases hw.resident hf (.inr hnone) h with ⟨-, -, -, hown⟩ | ⟨hne, -⟩
    · rw [hown] at hnone
      cases hnone
    · exact hne

end LeaseTable

namespace AuthTask

variable {sh sh' : AuthState} {task task' : AuthTask}

/-- An operation closes the entry in this action. -/
def Closes (i : CredentialIdentity) (entry : Nat) : AuthTask → Prop
  | .request _ => False
  | .closer c => (∃ remaining, c.phase = .closing remaining) ∧
      ⟨i, entry, .waiting⟩ ∈ c.waiters

/-- A closed entry was closed before, or is closed in this action. -/
theorem Acts.closed_cases (hacts : Acts sh task sh' task') (hf : sh.leases.Filed)
    {i : CredentialIdentity} {entry : Nat} {state : LeaseEntry}
    (h : sh'.leases.Resident i entry state) (hcl : state.accepting = false) :
    (∃ fd, sh.leases.Resident i entry fd ∧ fd.accepting = false ∧ state.active ≤ fd.active) ∨
      Closes i entry task' := by
  have hsame : sh'.leases = sh.leases →
      ∃ fd, sh.leases.Resident i entry fd ∧ fd.accepting = false ∧
        state.active ≤ fd.active := by
    intro heq
    rw [heq] at h
    exact ⟨state, h, hcl, Nat.le_refl _⟩
  cases hacts with
  | acquired hi ha hw =>
    obtain ⟨-, hb⟩ := hw.closed_other hf (.inl rfl) ha h hcl
    exact .inl ⟨state, hb, hcl, Nat.le_refl _⟩
  | bound hac ho hw => exact .inl (hw.closed_before hf (.inl rfl) rfl (Nat.le_refl _) h hcl)
  | released hi hac hw => exact .inl (hw.closed_before hf (.inl rfl) rfl (Nat.sub_le _ _) h hcl)
  | evicted hi hidle hw | waiterEvicted hs hin hp hidle hw =>
    exact .inl (hw.closed_before hf (.inr rfl) rfl (Nat.le_refl _) h hcl)
  | @closed c remaining index own before ls hp hin hw =>
    rcases hw.resident hf (.inl rfl) h with ⟨rfl, rfl, -, -⟩ | ⟨-, hb⟩
    · exact .inr ⟨⟨_, rfl⟩, List.mem_append_right _ (List.mem_singleton.2 rfl)⟩
    · exact .inl ⟨state, hb, hcl, Nat.le_refl _⟩
  | @reopened c remaining result index own before ls hp hin hw =>
    have hc : (if before.active = 0 then none else some own) = some own ∨
        (if before.active = 0 then none else some own) = none := by
      split
      · exact .inr rfl
      · exact .inl rfl
    obtain ⟨-, hb⟩ := hw.closed_other hf hc rfl h hcl
    exact .inl ⟨state, hb, hcl, Nat.le_refl _⟩
  | _ => exact .inl (hsame rfl)

end AuthTask

/-! ## Closed entries of live credentials -/

namespace Closer

/-- The operation has the credential in hand: it has closed it, or it has yet to reopen it. -/
def Touches (closer : Closer) (i : CredentialIdentity) : Prop :=
  match closer.phase with
  | .reopening remaining _ => i ∈ remaining
  | _ => ∃ waiter ∈ closer.waiters, waiter.identity = i

theorem lists_of_touches {cl : Closer} {i : CredentialIdentity} (h : cl.Touches i) :
    cl.Lists i := by
  unfold Touches at h
  split at h
  · next hp => exact .inl (by rw [remaining, hp]; exact h)
  · exact .inr (.inr h)

end Closer

namespace AuthTask

variable {sh sh' : AuthState} {task task' : AuthTask}

/-- The task holds `auth_mutation_lock` and has the credential in hand. -/
def Blocks (i : CredentialIdentity) : AuthTask → Prop
  | .request _ => False
  | .closer c => c.holdsMutation = true ∧ c.Touches i

/-- The waiters keep their entries while one of them acts. -/
theorem exists_mem_set {waiters : List Waiter} {index : Nat} {acting wt : Waiter}
    (phase : WaiterPhase) (hi : waiters[index]? = some acting) (hwa : wt ∈ waiters) :
    ∃ o ∈ waiters.set index { acting with phase },
      o.identity = wt.identity ∧ o.entry = wt.entry := by
  obtain ⟨pl, hp⟩ := List.mem_iff_getElem?.1 hwa
  by_cases hsame : pl = index
  · subst hsame
    rw [hi] at hp
    cases hp
    exact ⟨_, List.mem_set (List.getElem?_eq_some_iff.1 hi).1 _, rfl, rfl⟩
  · refine ⟨wt, List.mem_iff_getElem?.2 ⟨pl, ?_⟩, rfl, rfl⟩
    rw [List.getElem?_set_ne (Ne.symm hsame)]
    exact hp

/-- An operation that has closed the entry of a live credential keeps it in hand. -/
theorem Acts.blocks {auth₀ : AuthSystem} {c c' : Closer}
    (hacts : Acts sh (.closer c) sh' (.closer c')) (hf : sh.leases.Filed)
    (hs : CloserSound auth₀ sh c) {i : CredentialIdentity} {entry : Nat} {state : LeaseEntry}
    (hre : ∀ owner, sh.auth.owner i = some owner → auth₀.owner i = some owner)
    (hr : sh'.leases.Resident i entry state) (hcl : state.accepting = false)
    (hlive : sh'.auth.owner i ≠ none) (h : Blocks i (.closer c)) : Blocks i (.closer c') := by
  obtain ⟨hh, ht⟩ := h
  have hcovered := hs.covered i (Closer.lists_of_touches ht)
  have hb : sh.auth.owner i ≠ none := by
    obtain ⟨owner, how⟩ := Option.ne_none_iff_exists'.1 hlive
    rw [hacts.owner_of how]
    simp
  have hgone : sh'.auth = c.removed sh → False := by
    intro hrm
    rw [hrm] at hlive
    exact hlive (owner_removed_eq_none hre hcovered)
  have hset : ∀ {index : Nat} {acting : Waiter} (phase : WaiterPhase),
      c.waiters[index]? = some acting →
      Blocks i (.closer { c with waiters := c.waiters.set index { acting with phase } }) := by
    intro index acting phase hi
    refine ⟨hh, ?_⟩
    unfold Closer.Touches at ht ⊢
    split at ht
    · next left r hp =>
      dsimp only
      rw [hp]
      exact ht
    · obtain ⟨wt, hwa, rfl⟩ := ht
      obtain ⟨o, ho, hid, -⟩ := exists_mem_set phase hi hwa
      exact ⟨o, ho, hid⟩
  cases hacts with
  | idle => exact ⟨hh, ht⟩
  | locked hp => simp [Closer.holdsMutation, hp] at hh
  | listed hp =>
    rw [Closer.Touches, hp] at ht
    exact ⟨rfl, ht⟩
  | closed hp =>
    rw [Closer.Touches, hp] at ht
    obtain ⟨wt, hwa, hid⟩ := ht
    exact ⟨rfl, wt, List.mem_append_left _ hwa, hid⟩
  | closedAll hp =>
    rw [Closer.Touches, hp] at ht
    cases he : c.operation.isErasure with
    | true => exact ⟨he, ht⟩
    | false => exact ⟨rfl, ht⟩
  | committed | removed => exact (hgone rfl).elim
  | failed hp => exact ⟨rfl, hs.complete (by simp [Closer.isListed, hp]) i hcovered hb⟩
  | timedOut hp =>
    have he : c.operation.isErasure = true := by simpa [Closer.holdsMutation, hp] using hh
    simp only [he, if_true]
    exact ⟨rfl, hs.complete (by simp [Closer.isListed, hp]) i hcovered hb⟩
  | drained hp =>
    have he : c.operation.isErasure = true := by simpa [Closer.holdsMutation, hp] using hh
    rw [Closer.Touches, hp] at ht
    simp only [he, if_true]
    exact ⟨rfl, ht⟩
  | erased hp hnext =>
    have hmem := hs.complete (by simp [Closer.isListed, hp]) i hcovered hb
    rw [Closer.Touches, hp] at ht
    rcases hnext with ⟨rfl, -⟩ | rfl | ⟨rfl, -⟩
    · exact ⟨rfl, ht⟩
    · exact ⟨rfl, hmem⟩
    · exact ⟨rfl, hmem⟩
  | @reopened _ left r index own before ls hp hi hw =>
    rw [Closer.Touches, hp] at ht
    have hne : before.identity ≠ i := by
      refine hw.ne_of_closed hf ?_ hr hcl
      split
      · exact .inr rfl
      · exact .inl ⟨rfl, rfl⟩
    obtain ⟨pl, hpl⟩ := List.mem_iff_getElem?.1 ht
    refine ⟨rfl, List.mem_eraseIdx_iff_getElem?.2 ⟨pl, ?_, hpl⟩⟩
    rintro rfl
    rw [hi] at hpl
    exact hne (Option.some.inj hpl)
  | reopenedAll hp =>
    rw [Closer.Touches, hp] at ht
    cases ht
  | sawZero hsp hi | waiterEvicted hsp hi | waiterStale hsp hi => exact hset _ hi

end AuthTask

/-! ## Every interleaving -/

/-- What makes revocation a boundary, in every world. -/
structure Bounded (auth₀ : AuthSystem) (world : World AuthState AuthTask) : Prop where
  sound : Sound auth₀ world
  guarded : ∀ a ∈ world.tasks, ∀ b ∈ world.tasks, AuthTask.Guarded auth₀ a b
  blocked : ∀ (i : CredentialIdentity) (entry : Nat) (state : LeaseEntry),
    world.shared.leases.Resident i entry state → state.accepting = false →
      world.shared.auth.owner i ≠ none → ∃ task ∈ world.tasks, AuthTask.Blocks i task

namespace Bounded

open AuthTask

variable {auth₀ : AuthSystem} {world : World AuthState AuthTask}

theorem initial (auth : AuthSystem) (now : Nat) :
    Bounded auth ⟨AuthState.initial auth now, []⟩ where
  sound := Sound.initial auth now
  guarded _ h := by cases h
  blocked _ _ _ h := by
    obtain ⟨ht, -⟩ := h
    simp [AuthState.initial, LeaseTable.empty] at ht

section

variable (h : Bounded auth₀ world)
include h

theorem blocked_actAt {index : Nat} {task : AuthTask} (hi : world.tasks[index]? = some task)
    (choice : AuthChoice) (i : CredentialIdentity) (entry : Nat) (state : LeaseEntry)
    (hr : (act world.shared task choice).1.leases.Resident i entry state)
    (hclo : state.accepting = false)
    (hlive : (act world.shared task choice).1.auth.owner i ≠ none) :
    ∃ o ∈ (AuthTask.program.actAt world index task choice).tasks, Blocks i o := by
  have htask : task ∈ world.tasks := List.mem_of_getElem? hi
  have hacts := h.sound.acts htask choice
  rcases hacts.closed_cases h.sound.filed hr hclo with
    ⟨fd, hfo, hshut, -⟩ | hcl
  · have hbe : world.shared.auth.owner i ≠ none := by
      obtain ⟨owner, how⟩ := Option.ne_none_iff_exists'.1 hlive
      rw [hacts.owner_of how]
      simp
    refine Program.exists_actAt hi (h.blocked i entry fd hfo hshut hbe) ?_ fun _ _ ho => ho
    intro hb
    left
    show Blocks i (act world.shared task choice).2
    revert hacts hr hlive
    generalize (act world.shared task choice).1 = sh'
    generalize (act world.shared task choice).2 = task'
    intro hr hlive hacts
    cases task with
    | request => exact hb.elim
    | closer c =>
      cases task' with
      | request => cases hacts
      | closer =>
        exact hacts.blocks h.sound.filed (h.sound.tasks _ htask) (h.sound.records i) hr
          hclo hlive hb
  · refine ⟨_, Program.act_mem_actAt AuthTask.program choice hi, ?_⟩
    show Blocks i (act world.shared task choice).2
    revert hcl
    generalize (act world.shared task choice).2 = task'
    intro hcl
    cases task' with
    | request => exact hcl.elim
    | closer =>
      obtain ⟨⟨remaining, hp⟩, hwa⟩ := hcl
      refine ⟨by simp [Closer.holdsMutation, hp], ?_⟩
      rw [Closer.Touches, hp]
      exact ⟨_, hwa, rfl⟩

theorem start (x : AuthInput) :
    Bounded auth₀ (AuthTask.program.step world (.start x)) where
  sound := h.sound.step _
  guarded a ha b hb := by
    rcases List.mem_append.1 ha with ha | ha
    · rcases List.mem_append.1 hb with hb | hb
      · exact h.guarded a ha b hb
      · -- a new request is not admitted yet
        rw [List.mem_singleton.1 hb]
        cases a with
        | request => trivial
        | closer c =>
          cases x with
          | request => rintro - entry prin ⟨⟩
          | operation => trivial
    · -- a new operation has listed nothing
      rw [List.mem_singleton.1 ha]
      cases x with
      | request => trivial
      | operation operation =>
        cases b with
        | closer => trivial
        | request =>
          intro har
          cases hi : operation.isInvalid <;> simp [Closer.isArmed, hi] at har
  blocked i entry state hr hcl hlive := by
    have hs : (AuthTask.program.step world (.start x)).shared = world.shared := by cases x <;> rfl
    rw [hs] at hr hlive
    obtain ⟨task, htask, hbl⟩ := h.blocked i entry state hr hcl hlive
    exact ⟨task, List.mem_append_left _ htask, hbl⟩

theorem step (ev : Event AuthInput AuthChoice Nat) :
    Bounded auth₀ (AuthTask.program.step world ev) := by
  cases ev with
  | start x => exact h.start x
  | act index c =>
    cases hi : world.tasks[index]? with
    | none =>
      rw [Program.step_act_of_none c hi]
      exact h
    | some =>
      rw [Program.step_act_of_some c hi]
      exact ⟨h.sound.actAt hi c, h.sound.guarded_actAt h.guarded hi c, h.blocked_actAt hi c⟩
  | outside => exact ⟨h.sound.step _, h.guarded, h.blocked⟩

end

theorem run (auth : AuthSystem) (now : Nat) (evs : List (Event AuthInput AuthChoice Nat)) :
    Bounded auth (AuthTask.program.interleave ⟨AuthState.initial auth now, []⟩ evs) :=
  run_invariant (P := Bounded auth) (initial auth now) (fun _ ev h => h.step ev) evs

end Bounded

end AgentOS
