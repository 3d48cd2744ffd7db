import AgentOS.Auth.Boundary

/-!
# What stays in the lease table

An entry without use has somebody who will take it out of the table: a closed one has an operation,
an open idle one the request that left it (`Kept`). So the table is empty when nothing is in
progress.

There is one exception. A revocation of a user or of a tenant closes the entries of the credentials
that are in the records and of those that are not, because a narrower revocation still drains them.
If its durable write fails it drops its drains and reopens the former. An entry of the latter stays
closed, and if the narrower revocation has ended meanwhile then nobody is left to remove it.
`leavesNoOrphan` is the condition that a failing write does not do this.
-/

namespace AgentOS

open Lib
open AuthTask (program)

/-! ## Who removes an entry -/

/-- The waiter will try to remove the entry, and will find it idle. -/
def Waiter.drains (sh : AuthState) (entry : Nat) (waiter : Waiter) : Bool :=
  waiter.entry == entry &&
    (waiter.phase == .waiting || waiter.phase == .sawZero && sh.leases.isIdle entry)

variable {c : Closer} {index : Nat}

namespace AuthTask

/-- One of the drains of the task will remove the entry. -/
def drains (sh : AuthState) (entry : Nat) : AuthTask → Bool
  | .request _ => false
  | .closer c => c.waiters.any (Waiter.drains sh entry)

/-- The task will remove the closed entry, or reopen it. -/
def Keeps (sh : AuthState) (i : CredentialIdentity) (entry : Nat) (task : AuthTask) : Prop :=
  task.drains sh entry = true ∨
    ∃ c remaining result, task = .closer c ∧ c.phase = .reopening remaining result ∧ i ∈ remaining

/-- If the event is a failing write, then every credential that the revocation has closed is in the
records, has no entry any more, or is drained by another operation too. -/
def leavesNoOrphan (world : World AuthState AuthTask) : Event AuthInput AuthChoice Nat → Bool
  | .act index (.closer .fail) =>
    match world.tasks[index]? with
    | some (.closer c) =>
      c.phase != .committing || c.waiters.all fun waiter =>
        c.live.contains waiter.identity ||
          world.shared.leases.table[waiter.identity]? != some waiter.entry ||
          (world.tasks.eraseIdx index).any (drains world.shared waiter.entry)
    | _ => true
  | _ => true

variable {sh sh' : AuthState} {task task' : AuthTask} {i : CredentialIdentity}
  {entry : Nat}

theorem drains_iff :
    drains sh entry (.closer c) = true ↔ ∃ wt ∈ c.waiters, wt.entry = entry ∧
      (wt.phase = .waiting ∨ wt.phase = .sawZero ∧ sh.leases.isIdle entry = true) := by
  simp [drains, Waiter.drains, List.any_eq_true]

variable {state : LeaseEntry}

/-- An idle closed entry stays idle. -/
theorem isIdle_of_le {fd : LeaseEntry} (h : sh.leases.heap[entry]? = some fd)
    (h' : sh'.leases.heap[entry]? = some state) (hle : state.active ≤ fd.active)
    (hidle : sh.leases.isIdle entry = true) : sh'.leases.isIdle entry = true := by
  have hzero : fd.active = 0 := by simpa [LeaseTable.isIdle, h] using hidle
  have hzero' : state.active = 0 := by omega
  simp [LeaseTable.isIdle, h', hzero']

/-- The others go on as before. -/
theorem Keeps.mono (hidle : sh.leases.isIdle entry = true → sh'.leases.isIdle entry = true)
    (h : Keeps sh i entry task) : Keeps sh' i entry task := by
  rcases h with hd | hr
  · cases task with
    | request => cases hd
    | closer =>
      obtain ⟨wt, hw, he, hp⟩ := drains_iff.1 hd
      exact .inl (drains_iff.2 ⟨wt, hw, he, hp.imp_right fun h =>
        ⟨h.1, hidle h.2⟩⟩)
  · exact .inr hr

/-- The waiters that do not act go on as before. -/
theorem drains_set {acting acted wt : Waiter} (hi : c.waiters[index]? = some acting)
    (hw : wt ∈ c.waiters) (hne : wt ≠ acting) (he : wt.entry = entry)
    (hph : wt.phase = .waiting ∨ wt.phase = .sawZero ∧ sh.leases.isIdle entry = true) :
    drains sh entry (.closer { c with waiters := c.waiters.set index acted }) = true := by
  obtain ⟨pl, hp⟩ := List.mem_iff_getElem?.1 hw
  refine drains_iff.2 ⟨wt, List.mem_iff_getElem?.2 ⟨pl, ?_⟩, he, hph⟩
  rw [List.getElem?_set_ne]
  · exact hp
  · rintro rfl
    rw [hi] at hp
    exact hne (Option.some.inj hp).symm

/-- An operation goes on keeping a closed entry, unless its write fails and it will not reopen the
credential. -/
theorem Acts.keeps {auth₀ : AuthSystem} {c' : Closer} (hacts : Acts sh (.closer c) sh' (.closer c'))
    (hfi : sh.leases.Filed) (hso : CloserSound auth₀ sh c) {fd : LeaseEntry}
    (hf : sh.leases.Resident i entry fd) (hre : sh'.leases.Resident i entry state)
    (hc : state.accepting = false) (hshut : fd.accepting = false) (hle : state.active ≤ fd.active)
    (h : Keeps sh i entry (.closer c)) :
    Keeps sh' i entry (.closer c') ∨
      c.phase = .committing ∧ (∃ remaining r, c'.phase = .reopening remaining r) ∧
        i ∉ c.live ∧ ∃ wt ∈ c.waiters, wt.identity = i ∧ wt.entry = entry := by
  have hidle := isIdle_of_le hf.2 hre.2 hle
  have hidn : ∀ wt ∈ c.waiters, wt.entry = entry → wt.identity = i := by
    intro wt hw he
    obtain ⟨own, hown, hid⟩ := hso.filed wt hw
    obtain ⟨cur, hcu, hi⟩ := hfi.filed i entry hf.1
    rw [he, hcu] at hown
    cases hown
    rw [← hid, hi]
  -- the waiters stay and nothing is left to reopen
  have hst : c'.waiters = c.waiters →
      (∀ remaining r, c.phase = .reopening remaining r → remaining = []) →
      Keeps sh' i entry (.closer c') := by
    intro hwai hnone
    rcases h.mono hidle with hd | ⟨_, remaining, r, ⟨rfl⟩, hp, hi⟩
    · left
      rw [drains, hwai]
      exact hd
    · rw [hnone remaining r hp] at hi
      cases hi
  cases hacts with
  | idle => exact .inl (h.mono hidle)
  | locked hp | listed hp | closedAll hp | committed hp | timedOut hp
  | drained hp | erased hp | removed hp => exact .inl (hst rfl (by simp [hp]))
  | closed hp =>
    left
    rcases h.mono hidle with hd | ⟨_, remaining, r, ⟨rfl⟩, hr, -⟩
    · obtain ⟨wt, hw, hwa⟩ := drains_iff.1 hd
      exact .inl (drains_iff.2 ⟨wt, List.mem_append_left _ hw, hwa⟩)
    · rw [hp] at hr
      cases hr
  | failed hp =>
    by_cases hi : i ∈ c.live
    · exact .inl (.inr ⟨_, _, _, rfl, rfl, hi⟩)
    · right
      rcases h with hd | ⟨_, remaining, r, ⟨rfl⟩, hr, -⟩
      · obtain ⟨wt, hw, he, -⟩ := drains_iff.1 hd
        exact ⟨hp, ⟨_, _, rfl⟩, hi, wt, hw, hidn wt hw he, he⟩
      · rw [hp] at hr
        cases hr
  | @reopened _ remaining r index own before leases hp hin hwr =>
    left
    rcases h.mono hidle with hd | ⟨_, rest, last, ⟨rfl⟩, hr, hi⟩
    · exact .inl hd
    · rw [hp] at hr
      cases hr
      -- a credential that was just reopened is not closed
      have hne : before.identity ≠ i := by
        refine hwr.ne_of_closed hfi ?_ hre hc
        split
        · exact .inr rfl
        · exact .inl ⟨rfl, rfl⟩
      obtain ⟨pl, hpl⟩ := List.mem_iff_getElem?.1 hi
      refine .inr ⟨_, _, _, rfl, rfl, List.mem_eraseIdx_iff_getElem?.2 ⟨pl, ?_, hpl⟩⟩
      rintro rfl
      rw [hin] at hpl
      exact hne (Option.some.inj hpl)
  | reopenedAll hp =>
    refine .inl (hst rfl ?_)
    rintro remaining r hr
    rw [hp] at hr
    cases hr
    rfl
  | @sawZero _ index acting hs hin hp hzero =>
    left
    rcases h with hd | ⟨_, rest, last, ⟨rfl⟩, hr, hi⟩
    · obtain ⟨wt, hw, he, hwa⟩ := drains_iff.1 hd
      by_cases ha : wt = acting
      · -- the waiter itself has seen the entry idle
        subst ha
        refine .inl (drains_iff.2 ⟨{ wt with phase := .sawZero }, ?_, he, ?_⟩)
        · exact List.mem_set (List.getElem?_eq_some_iff.1 hin).1 _
        · rw [he] at hzero
          exact .inr ⟨rfl, hzero⟩
      · exact .inl (drains_set hin hw ha he hwa)
    · exact .inr ⟨_, rest, last, rfl, hr, hi⟩
  | @waiterEvicted _ index acting before leases hs hin hp hzero hwr =>
    left
    rcases h.mono hidle with hd | ⟨_, rest, last, ⟨rfl⟩, hr, hi⟩
    · obtain ⟨wt, hw, he, hwa⟩ := drains_iff.1 hd
      by_cases ha : wt = acting
      · -- the entry has left the table
        subst ha
        exfalso
        apply hwr.ne_of_closed hfi (.inr rfl) hre hc
        obtain ⟨own, hown, hid⟩ := hso.filed wt hw
        rcases hwr.current_or_new with ⟨-, hb⟩ | ⟨-, hnone, -⟩
        · rw [hown] at hb
          cases hb
          rw [hid]
          exact hidn wt hw he
        · rw [hown] at hnone
          cases hnone
      · exact .inl (drains_set hin hw ha he hwa)
    · exact .inr ⟨_, rest, last, rfl, hr, hi⟩
  | @waiterStale _ index acting hs hin hp hnot =>
    left
    rcases h with hd | ⟨_, rest, last, ⟨rfl⟩, hr, hi⟩
    · obtain ⟨wt, hw, he, hwa⟩ := drains_iff.1 hd
      by_cases ha : wt = acting
      · -- the waiter finds the entry closed and idle in the table
        subst ha
        exfalso
        apply hnot
        rw [hidn wt hw he, he]
        refine ⟨hf.1, fd, hf.2, hshut, ?_⟩
        rcases hwa with hwt | ⟨-, hzero⟩
        · rw [hp] at hwt
          cases hwt
        · simpa [LeaseTable.isIdle, hf.2] using hzero
      · exact .inl (drains_set hin hw ha he hwa)
    · exact .inr ⟨_, rest, last, rfl, hr, hi⟩

/-- An open idle entry was one before, or was left by the request that acts. -/
theorem Acts.idle_cases (hacts : Acts sh task sh' task') (hf : sh.leases.Filed)
    (h : sh'.leases.Resident i entry state) (hopen : state.accepting = true)
    (hidle : state.active = 0) :
    sh.leases.Resident i entry state ∧ (task = .request ⟨i, .evicting entry⟩ → task' = task) ∨
      task' = .request ⟨i, .evicting entry⟩ := by
  cases hacts with
  | idle => exact .inl ⟨h, fun _ => rfl⟩
  | acquired hi hac hw =>
    rcases hw.resident hf (.inl rfl) h with ⟨-, -, rfl, -⟩ | ⟨-, h⟩
    · simp at hidle
    · exact .inl ⟨h, by rintro ⟨⟩⟩
  | bound ha ho hw =>
    rcases hw.resident hf (.inl rfl) h with ⟨-, -, rfl, -⟩ | ⟨-, h⟩
    · exact absurd hidle (Nat.pos_iff_ne_zero.1 ha)
    · exact .inl ⟨h, by rintro ⟨⟩⟩
  | released hi ha hw hp =>
    rcases hw.resident hf (.inl rfl) h with ⟨rfl, rfl, rfl, -⟩ | ⟨-, h⟩
    · rcases hp with rfl | ⟨rfl, hnot⟩
      · rw [hi]
        exact .inr rfl
      · exact absurd ⟨hopen, hidle⟩ hnot
    · exact .inl ⟨h, by rintro ⟨⟩⟩
  | @evicted j own before leases hi hzero hw =>
    rcases hw.resident hf (.inr rfl) h with ⟨-, -, -, hnone⟩ | ⟨hne, h⟩
    · cases hnone
    · refine .inl ⟨h, ?_⟩
      rintro ⟨rfl, rfl⟩
      exact absurd hi hne
  | stale hnot =>
    refine .inl ⟨h, ?_⟩
    rintro ⟨rfl, rfl⟩
    exact absurd ⟨h.1, state, h.2, hopen, hidle⟩ hnot
  | closed hp hin hw =>
    rcases hw.resident hf (.inl rfl) h with ⟨-, -, rfl, -⟩ | ⟨-, h⟩
    · cases hopen
    · exact .inl ⟨h, by rintro ⟨⟩⟩
  | @reopened c remaining result index own before leases hp hin hw =>
    by_cases hzero : before.active = 0
    · rw [if_pos hzero] at hw
      rcases hw.resident hf (.inr rfl) h with ⟨-, -, -, hnone⟩ | ⟨-, h⟩
      · cases hnone
      · exact .inl ⟨h, by rintro ⟨⟩⟩
    · rw [if_neg hzero] at hw
      rcases hw.resident hf (.inl rfl) h with ⟨-, -, rfl, -⟩ | ⟨-, h⟩
      · exact absurd hidle hzero
      · exact .inl ⟨h, by rintro ⟨⟩⟩
  | waiterEvicted hs hin hp hzero hw =>
    rcases hw.resident hf (.inr rfl) h with ⟨-, -, -, hnone⟩ | ⟨-, h⟩
    · cases hnone
    · exact .inl ⟨h, by rintro ⟨⟩⟩
  | refused => exact .inl ⟨h, by rintro ⟨⟩⟩
  | dropped hp =>
    refine .inl ⟨h, ?_⟩
    rintro ⟨rfl, rfl⟩
    rcases hp with hp | ⟨prin, hp⟩ <;> cases hp
  | _ => exact .inl ⟨h, by rintro ⟨⟩⟩

/-- Only a failing write takes an operation from its commit to a reopening. -/
theorem choice_of_reopening {c' : Closer} {choice : AuthChoice}
    (h : (act sh (.closer c) choice).2 = .closer c') (hp : c.phase = .committing)
    {left : List CredentialIdentity} {r : OperationResult}
    (hr : c'.phase = .reopening left r) : choice = .closer .fail := by
  cases choice with
  | cancel =>
    cases h
    rw [hp] at hr
    cases hr
  | closer choice =>
    cases choice with
    | fail => rfl
    | _ =>
      simp only [act, Closer.act, Closer.advance, Closer.isSpawned, hp] at h
      cases h
      simp [hp] at hr

end AuthTask

/-! ## Every interleaving without orphans -/

/-- Every entry without use has somebody who will remove it. -/
structure Kept (world : World AuthState AuthTask) : Prop where
  closed : ∀ (i : CredentialIdentity) (entry : Nat) (state : LeaseEntry),
    world.shared.leases.Resident i entry state → state.accepting = false →
      ∃ task ∈ world.tasks, AuthTask.Keeps world.shared i entry task
  idle : ∀ (i : CredentialIdentity) (entry : Nat) (state : LeaseEntry),
    world.shared.leases.Resident i entry state → state.accepting = true → state.active = 0 →
      .request ⟨i, .evicting entry⟩ ∈ world.tasks

namespace Kept

open AuthTask

variable {auth₀ : AuthSystem} {world : World AuthState AuthTask}

theorem initial (auth : AuthSystem) (now : Nat) : Kept ⟨AuthState.initial auth now, []⟩ where
  closed _ _ _ h := by
    obtain ⟨ht, -⟩ := h
    simp [AuthState.initial, LeaseTable.empty] at ht
  idle _ _ _ h := by
    obtain ⟨ht, -⟩ := h
    simp [AuthState.initial, LeaseTable.empty] at ht

/-- What the condition says about a closed credential when the write fails. -/
theorem keeps_elsewhere {wt : Waiter} (hi : world.tasks[index]? = some (.closer c))
    (hc : leavesNoOrphan world (.act index (.closer .fail)) = true) (hp : c.phase = .committing)
    (hw : wt ∈ c.waiters) (hlive : wt.identity ∉ c.live)
    (ht : world.shared.leases.table[wt.identity]? = some wt.entry) :
    ∃ o ∈ world.tasks.eraseIdx index, Keeps world.shared wt.identity wt.entry o := by
  simp only [leavesNoOrphan, hi, hp] at hc
  have hall : ∀ wt ∈ c.waiters,
      (wt.identity ∈ c.live ∨
          ¬ world.shared.leases.table[wt.identity]? = some wt.entry) ∨
        ∃ o ∈ world.tasks.eraseIdx index, drains world.shared wt.entry o = true := by
    simpa using hc
  rcases hall wt hw with (hmem | hgone) | ⟨o, ho, hd⟩
  · exact absurd hmem hlive
  · exact absurd ht hgone
  · exact ⟨o, ho, .inl hd⟩

theorem closed_actAt (h : Kept world) (hs : Sound auth₀ world) {task : AuthTask}
    (hi : world.tasks[index]? = some task) {choice : AuthChoice}
    (hclean : leavesNoOrphan world (.act index choice) = true) (i : CredentialIdentity)
    (entry : Nat) (state : LeaseEntry)
    (hr : (act world.shared task choice).1.leases.Resident i entry state)
    (hcl : state.accepting = false) :
    ∃ o ∈ (program.actAt world index task choice).tasks,
      Keeps (act world.shared task choice).1 i entry o := by
  have htask : task ∈ world.tasks := List.mem_of_getElem? hi
  have hacts := hs.acts htask choice
  rcases hacts.closed_cases hs.filed hr hcl with ⟨fd, hf, hshut, hle⟩ | hc
  · have hidle := isIdle_of_le hf.2 hr.2 hle
    refine Program.exists_actAt hi (h.closed i entry fd hf hshut) ?_ fun _ _ ho => ho.mono hidle
    intro hk
    cases task with
    | request => rcases hk with hd | ⟨_, _, _, ⟨⟩, -⟩; cases hd
    | closer c =>
      obtain ⟨c', hc'⟩ : ∃ c', (act world.shared (.closer c) choice).2 = .closer c' := by
        cases choice with
        | cancel => exact ⟨c, rfl⟩
        | closer => exact ⟨_, rfl⟩
      have hacts' := hacts
      rw [hc'] at hacts'
      rcases hacts'.keeps hs.filed (hs.tasks _ htask) hf hr hcl hshut hle
        hk with hk | ⟨hp, ⟨remaining, r, hre⟩, hlive, wt, hw,
          rfl, rfl⟩
      · left
        show Keeps _ i entry (act world.shared (.closer c) choice).2
        rw [hc']
        exact hk
      · right
        obtain rfl := choice_of_reopening hc' hp hre
        obtain ⟨o, ho, hk⟩ :=
          keeps_elsewhere hi hclean hp hw hlive hf.1
        exact ⟨o, ho, hk.mono hidle⟩
  · refine ⟨_, Program.act_mem_actAt program choice hi, ?_⟩
    show Keeps _ i entry (act world.shared task choice).2
    revert hc
    generalize (act world.shared task choice).2 = task'
    intro hc
    cases task' with
    | request => exact hc.elim
    | closer => exact .inl (drains_iff.2 ⟨_, hc.2, rfl, .inl rfl⟩)

theorem idle_actAt (h : Kept world) (hs : Sound auth₀ world) {task : AuthTask}
    (hi : world.tasks[index]? = some task) (choice : AuthChoice) (i : CredentialIdentity)
    (entry : Nat) (state : LeaseEntry)
    (hr : (act world.shared task choice).1.leases.Resident i entry state)
    (hopen : state.accepting = true) (hidle : state.active = 0) :
    .request ⟨i, .evicting entry⟩ ∈ (program.actAt world index task choice).tasks := by
  have hacts := hs.acts (List.mem_of_getElem? hi) choice
  have hself := Program.act_mem_actAt program choice hi
  rcases hacts.idle_cases hs.filed hr hopen hidle with ⟨hb, hkept⟩ | hleft
  · obtain ⟨o, ho, heq⟩ : ∃ o ∈ (program.actAt world index task choice).tasks,
        o = .request ⟨i, .evicting entry⟩ := by
      refine Program.exists_actAt (P := fun o => o = .request ⟨i, .evicting entry⟩) hi
        ⟨_, h.idle i entry state hb hopen hidle, rfl⟩ ?_ fun _ _ ho => ho
      intro htask
      exact .inl ((hkept htask).trans htask)
    rw [← heq]
    exact ho
  · have hact : (program.act world.shared task choice).2 = .request ⟨i, .evicting entry⟩ :=
      hleft
    rw [hact] at hself
    exact hself

theorem step (h : Kept world) (hso : Sound auth₀ world) {ev : Event AuthInput AuthChoice Nat}
    (hc : leavesNoOrphan world ev = true) : Kept (program.step world ev) := by
  cases ev with
  | start x =>
    have hs : (program.step world (.start x)).shared = world.shared := by cases x <;> rfl
    refine ⟨?_, ?_⟩
    · rw [hs]
      intro i entry state hr hcl
      obtain ⟨task, htask, hk⟩ := h.closed i entry state hr hcl
      exact ⟨task, List.mem_append_left _ htask, hk⟩
    · rw [hs]
      intro i entry state hr hopen hidle
      exact List.mem_append_left _ (h.idle i entry state hr hopen hidle)
  | act index choice =>
    cases hi : world.tasks[index]? with
    | none =>
      rw [Program.step_act_of_none choice hi]
      exact h
    | some =>
      rw [Program.step_act_of_some choice hi]
      exact ⟨h.closed_actAt hso hi hc, h.idle_actAt hso hi choice⟩
  | outside => exact ⟨h.closed, h.idle⟩

theorem run {auth : AuthSystem} {now : Nat} {evs : List (Event AuthInput AuthChoice Nat)}
    (hclean : EachAfter (fun pre ev => leavesNoOrphan
      (program.interleave ⟨AuthState.initial auth now, []⟩ pre) ev = true) evs) :
    Kept (program.interleave ⟨AuthState.initial auth now, []⟩ evs) := by
  have h := run_invariant_of (fun world => Sound auth world ∧ Kept world)
    (fun world ev => leavesNoOrphan world ev = true) ⟨Sound.initial auth now, initial auth now⟩
    (fun _ ev hw hc => ⟨hw.1.step ev, hw.2.step hw.1 hc⟩) hclean
  exact h.2

end Kept

/-! ## Nothing in progress -/

/-- The task has ended, and so have its waiters. -/
def AuthTask.isOver : AuthTask → Bool
  | .request r => r.phase == .finished
  | .closer c =>
    (match c.phase with
      | .finished _ => true
      | _ => false) && c.isDrained

/-- The table is empty when nothing is in progress. -/
theorem Kept.table_empty {auth₀ : AuthSystem} {world : World AuthState AuthTask} (h : Kept world)
    (hs : Sound auth₀ world) (hover : ∀ task ∈ world.tasks, task.isOver = true)
    (i : CredentialIdentity) : world.shared.leases.table[i]? = none := by
  cases ht : world.shared.leases.table[i]? with
  | none => rfl
  | some entry =>
    exfalso
    obtain ⟨state, hheap, -⟩ := hs.filed.filed i entry ht
    cases ha : state.accepting with
    | false =>
      obtain ⟨task, htask, hk⟩ := h.closed i entry state ⟨ht, hheap⟩ ha
      have he := hover task htask
      rcases hk with hd | ⟨c, left, result, rfl, hp, -⟩
      · cases task with
        | request => cases hd
        | closer =>
          obtain ⟨wt, hwa, -, hwt⟩ := AuthTask.drains_iff.1 hd
          have hdone := List.all_eq_true.1 (Bool.and_eq_true_iff.1 he).2 wt hwa
          have hdone : wt.phase = .done := by simpa using hdone
          rcases hwt with hw | ⟨hsaw, -⟩
          · rw [hdone] at hw
            cases hw
          · rw [hdone] at hsaw
            cases hsaw
      · simp [AuthTask.isOver, hp] at he
    | true =>
      -- no request has a lease on it, so it is idle
      have hzero : state.active = 0 := by
        rw [← AuthState.active_of_heap hheap, ← (hs.leases entry : _ = _), List.countP_eq_zero]
        intro task htask
        have he := hover task htask
        cases task with
        | closer => simp [AuthTask.holdsLease]
        | request r =>
          have hp : r.phase = .finished := by simpa [AuthTask.isOver] using he
          simp [AuthTask.holdsLease, Request.lease, hp]
      have hev := h.idle i entry state ⟨ht, hheap⟩ ha hzero
      have he := hover _ hev
      cases he

end AgentOS
