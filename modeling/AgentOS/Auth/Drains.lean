import AgentOS.Auth.Reachable

/-!
# What a drain waits for

An operation that has listed its credentials accounts for every lease on them: the credential is
still to be closed, or a waiter waits for the entry of the lease (`Closer.Awaits`). For revocations
this covers every admitted request of a credential that the operation covers (`Guarded`), so none is
left when the drain ends, and none comes back since the records are gone by then.
-/

namespace AgentOS

open Lib

/-! ## Leases that are accounted for -/

namespace Closer

/-- The identities that the operation still has to close. -/
def pending (closer : Closer) : List CredentialIdentity :=
  match closer.phase with
  | .closing remaining => remaining
  | _ => []

/-- A waiter of the operation has not seen the entry idle. -/
def WaitsFor (closer : Closer) (e : Nat) : Prop :=
  ∃ waiter ∈ closer.waiters, waiter.entry = e ∧ waiter.phase = .waiting

/-- The operation accounts for a lease on the entry. -/
def Awaits (closer : Closer) (i : CredentialIdentity) (e : Nat) : Prop :=
  i ∈ closer.pending ∨ closer.WaitsFor e

/-- A revocation that has listed its credentials and has not failed. -/
def isArmed (closer : Closer) : Bool :=
  !closer.operation.isErasure &&
    match closer.phase with
    | .closing _ | .committing | .draining | .finished .done | .finished .timedOut => true
    | _ => false

/-- A revocation that has returned `Ok`. -/
def isRevoked (closer : Closer) : Bool :=
  !closer.operation.isErasure && closer.phase == .finished .done

/-- An armed revocation is in its critical section or has removed its subject. -/
theorem holdsWrite_or_isCommitted {cl : Closer} (h : cl.isArmed = true) :
    cl.holdsWrite = true ∨ cl.isCommitted = true := by
  obtain ⟨op, ph, live, waiters⟩ := cl
  have he : op.isErasure = false := by simpa using (Bool.and_eq_true_iff.1 h).1
  have hr : op.removes = true := by
    cases op with
    | revoke => rfl
    | _ => cases he
  cases ph with
  | closing => exact .inl (by simp [holdsWrite, he])
  | committing => exact .inl rfl
  | draining => exact .inr (by simp [isCommitted, he])
  | finished result =>
    cases result with
    | done => exact .inr hr
    | timedOut => exact .inr (by simp [isCommitted, he])
    | failed => simp [isArmed] at h
  | _ => simp [isArmed] at h

/-- Nothing is accounted for when the drain has ended. -/
theorem not_awaits_of_drained {cl : Closer} (hp : cl.pending = [])
    (hdone : ∀ wt ∈ cl.waiters, wt.phase = .done) (i : CredentialIdentity)
    (e : Nat) : ¬ cl.Awaits i e := by
  rintro (hi | ⟨wt, hwa, -, hw⟩)
  · rw [hp] at hi
    cases hi
  · rw [hdone wt hwa] at hw
    cases hw

end Closer

variable {e : Nat} {r : Request} {prin : Principal}

namespace AuthTask

variable {sh sh' : AuthState} {c c' : Closer}

/-- Waiters that wait go on waiting while another waiter acts. -/
theorem waitsFor_set {waiters : List Waiter} {i : Nat} {acting acted wt : Waiter}
    (hi : waiters[i]? = some acting) (ha : acting.phase ≠ .waiting) (hwa : wt ∈ waiters)
    (he : wt.entry = e) (hw : wt.phase = .waiting) :
    ∃ o ∈ waiters.set i acted, o.entry = e ∧ o.phase = .waiting := by
  obtain ⟨pl, hp⟩ := List.mem_iff_getElem?.1 hwa
  refine ⟨wt, List.mem_iff_getElem?.2 ⟨pl, ?_⟩, he, hw⟩
  rw [List.getElem?_set_ne]
  · exact hp
  · rintro rfl
    rw [hi] at hp
    cases hp
    exact ha hw

variable {lease : LeaseEntry}

/-- A waiter goes on waiting for an entry with a lease, unless the operation gives up. -/
theorem Acts.waitsFor (hacts : Acts sh (.closer c) sh' (.closer c'))
    (hst : sh.leases.heap[e]? = some lease) (ha : 0 < lease.active)
    (hkept : c.phase = .committing → c'.phase = .draining ∨ c'.phase = .committing)
    (h : c.WaitsFor e) : c'.WaitsFor e := by
  obtain ⟨wt, hwa, he, hw⟩ := h
  cases hacts with
  | closed => exact ⟨wt, List.mem_append_left _ hwa, he, hw⟩
  | failed hp => rcases hkept hp with hnot | hnot <;> cases hnot
  | @sawZero _ index acting hsp hi hp hidle =>
    -- the waiter that acts saw an idle entry, so it is another one
    obtain ⟨pl, hpl⟩ := List.mem_iff_getElem?.1 hwa
    refine ⟨wt, List.mem_iff_getElem?.2 ⟨pl, ?_⟩, he, hw⟩
    rw [List.getElem?_set_ne]
    · exact hpl
    · rintro rfl
      rw [hi] at hpl
      cases hpl
      rw [LeaseTable.isIdle, he, hst] at hidle
      have hzero : lease.active = 0 := by simpa using hidle
      omega
  | waiterEvicted hsp hi hp | waiterStale hsp hi hp =>
    exact waitsFor_set hi (by simp [hp]) hwa he hw
  | _ => exact ⟨wt, hwa, he, hw⟩

/-- The entry that is closed for a credential with a lease is the one of the lease. -/
theorem closed_eq {ls : LeaseTable} {own : Nat} {before after : LeaseEntry} {cur : Option Nat}
    (hw : LeaseTable.Writes sh.leases ls own before after cur) (hf : sh.leases.Filed)
    (hst : sh.leases.heap[e]? = some lease) (ha : 0 < lease.active)
    (hsame : before.identity = lease.identity) : own = e := by
  have ht := hf.resident e lease hst ha
  rcases hw.current_or_new with ⟨hc, -⟩ | ⟨hnone, -, -⟩
  · rw [hsame, ht] at hc
    exact (Option.some.inj hc).symm
  · rw [hsame, ht] at hnone
    cases hnone

/-- A credential that is to be closed is closed, or is still to be. -/
theorem Acts.pending_cases (hacts : Acts sh (.closer c) sh' (.closer c')) {i : CredentialIdentity}
    (hi : i ∈ c.pending) : i ∈ c'.pending ∨ ∃ ls own before after cur,
      LeaseTable.Writes sh.leases ls own before after cur ∧ before.identity = i ∧
        ⟨before.identity, own, .waiting⟩ ∈ c'.waiters := by
  obtain ⟨remaining, hp⟩ : ∃ remaining, c.phase = .closing remaining := by
    unfold Closer.pending at hi
    split at hi
    · next remaining hp => exact ⟨remaining, hp⟩
    · cases hi
  rw [Closer.pending, hp] at hi
  cases hacts with
  | idle => exact .inl (by rw [Closer.pending, hp]; exact hi)
  | @closed _ rest index own before leases hc hin hw =>
    rw [hp] at hc
    cases hc
    by_cases hsame : before.identity = i
    · exact .inr ⟨_, own, before, _, _, hw, hsame, List.mem_append_right _ (by simp)⟩
    · left
      obtain ⟨pl, hpl⟩ := List.mem_iff_getElem?.1 hi
      refine List.mem_eraseIdx_iff_getElem?.2 ⟨pl, ?_, hpl⟩
      rintro rfl
      rw [hin] at hpl
      exact hsame (Option.some.inj hpl)
  | closedAll he =>
    rw [hp] at he
    cases he
    cases hi
  | sawZero hsp | waiterEvicted hsp | waiterStale hsp => simp [Closer.isSpawned, hp] at hsp
  | _ => simp_all

/-- A lease that an operation accounts for stays accounted for, unless the operation gives up. -/
theorem Acts.awaits (hacts : Acts sh (.closer c) sh' (.closer c')) (hf : sh.leases.Filed)
    (hst : sh.leases.heap[e]? = some lease) (ha : 0 < lease.active)
    (hkept : c.phase = .committing → c'.phase = .draining ∨ c'.phase = .committing)
    (h : c.Awaits lease.identity e) : c'.Awaits lease.identity e := by
  rcases h with hi | hwa
  · rcases hacts.pending_cases hi with hi | ⟨_, _, _, _, _, hw, hsame, hm⟩
    · exact .inl hi
    · exact .inr ⟨_, hm, closed_eq hw hf hst ha hsame, rfl⟩
  · exact .inr (hacts.waitsFor hst ha hkept hwa)

/-! ## Revocations and admitted requests -/

/-- A revocation accounts for the admitted requests of the credentials it covers. -/
def Guarded (auth₀ : AuthSystem) : AuthTask → AuthTask → Prop
  | .closer c, .request r => c.isArmed = true → ∀ e prin,
      r.phase = .admitted e prin → c.Covers auth₀ r.identity → c.Awaits r.identity e
  | _, _ => True

/-- A revocation becomes armed when it lists its credentials. -/
theorem Acts.armed_cases (hacts : Acts sh (.closer c) sh' (.closer c'))
    (hr : c.Regular) (h : c'.isArmed = true) :
    c.isArmed = true ∧ (c.phase = .committing → c'.phase = .draining ∨ c'.phase = .committing) ∨
      c' = c.list sh := by
  cases hacts with
  | idle | sawZero hsp hi hp | waiterEvicted hsp hi hp
  | waiterStale hsp hi hp => exact .inl ⟨h, fun hp => .inr hp⟩
  | listed => exact .inr rfl
  | closed hp =>
    have he : c.operation.isErasure = false := by simpa [Closer.isArmed] using h
    exact .inl ⟨by simp [Closer.isArmed, hp, he], by simp [hp]⟩
  | closedAll hp | timedOut hp | drained hp =>
    cases he : c.operation.isErasure with
    | true => simp [Closer.isArmed, he] at h
    | false => exact .inl ⟨by simp [Closer.isArmed, hp, he], by simp [hp]⟩
  | committed hp =>
    have he := hr.commits hp
    exact .inl ⟨by simp [Closer.isArmed, hp, he], fun _ => .inl rfl⟩
  | erased hp => simp [Closer.isArmed, hr.fences (.inl hp)] at h
  | removed hp => simp [Closer.isArmed, hr.fences (.inr hp)] at h
  | @reopenedAll _ result writer hp hw =>
    cases he : c.operation.isErasure with
    | true => simp [Closer.isArmed, he] at h
    | false =>
      -- a revocation reopens what it failed to remove
      rw [(hr.reopens [] result hp).2 he] at h
      simp [Closer.isArmed] at h
  | _ => simp [Closer.isArmed] at h

theorem exists_of_isAdmitted (h : r.isAdmitted = true) : ∃ e prin, r.phase = .admitted e prin := by
  unfold Request.isAdmitted at h
  split at h
  · next e prin hp => exact ⟨e, prin, hp⟩
  · cases h

/-- An admission ends with the binding of the owner. -/
theorem Acts.admitted_cases {r' : Request} (hacts : Acts sh (.request r) sh' (.request r'))
    (h : r'.phase = .admitted e prin) :
    r = r' ∨ r'.identity = r.identity ∧ r.phase = .resolved e prin := by
  cases hacts with
  | idle => exact .inl rfl
  | bound =>
    cases h
    exact .inr ⟨rfl, rfl⟩
  | released hi ha hw hp => rcases hp with rfl | ⟨rfl, -⟩ <;> cases h
  | _ => cases h

end AuthTask

namespace Sound

open AuthTask

variable {auth₀ : AuthSystem} {w : World AuthState AuthTask}

variable (hs : Sound auth₀ w)
include hs

/-- The entry of an admitted request is the current one of its credential and bound to the owner. -/
theorem admitted_entry (hr : .request r ∈ w.tasks) (hp : r.phase = .admitted e prin) :
    ∃ lease, w.shared.leases.heap[e]? = some lease ∧ lease.identity = r.identity ∧
      0 < lease.active ∧ w.shared.leases.table[r.identity]? = some e ∧
      lease.owner = some (prin.userId, prin.tenantId) := by
  obtain ⟨lease, hheap, hi, ha⟩ :=
    hs.backed hr e (by simp [Request.lease, hp])
  have hre : RequestSound w.shared r := hs.tasks _ hr
  obtain ⟨bound, hb, ho⟩ := hre.bound e prin hp
  rw [hheap] at hb
  cases hb
  have ht := hs.filed.resident e lease hheap ha
  rw [hi] at ht
  exact ⟨lease, hheap, hi, ha, ht, ho⟩

/-- The listing of a covered credential with an admitted request. -/
theorem mem_identities_of_admitted {c : Closer}
    (hr : .request r ∈ w.tasks) (hp : r.phase = .admitted e prin)
    (hc : c.Covers auth₀ r.identity) : r.identity ∈ c.identities w.shared := by
  obtain ⟨lease, hheap, -, -, ht, ho⟩ := hs.admitted_entry hr hp
  have hre := hs.owners_of_table ht hheap ho
  obtain ⟨subj, hsubject, hc⟩ := hc
  rw [Closer.identities, hsubject]
  exact List.mem_dedup.2 (Subject.mem_live_or_tracked hc hre ht hheap ho)

/-- A request that resolves its principal is covered by no armed revocation. -/
theorem not_covers_of_resolved {c : Closer} (hc : .closer c ∈ w.tasks) (hr : .request r ∈ w.tasks)
    (hp : r.phase = .resolved e prin) (ha : c.isArmed = true) : ¬ c.Covers auth₀ r.identity := by
  intro hcv
  have hre : RequestSound w.shared r := hs.tasks _ hr
  have hrc := hre.resolved e prin hp
  have hcl : CloserSound auth₀ w.shared c := hs.tasks _ hc
  rcases Closer.holdsWrite_or_isCommitted ha with hw | hcommitted
  · -- in its critical section the revocation excludes readers
    have hzero := hs.apart (hs.writer_of_holds hc hw)
    have hpos := hs.readers.pos hr (by simp [holdsRead, Request.holdsRead, hp])
    omega
  · -- after it the record is gone
    have hnone := hcl.committed hcommitted r.identity hcv
    rw [hrc] at hnone
    cases hnone

/-- The revocations go on accounting for the admitted requests. -/
theorem guarded_actAt (hg : ∀ a ∈ w.tasks, ∀ b ∈ w.tasks, Guarded auth₀ a b) {i : Nat}
    {task : AuthTask} (hin : w.tasks[i]? = some task) (choice : AuthChoice) :
    ∀ a ∈ (AuthTask.program.actAt w i task choice).tasks,
      ∀ b ∈ (AuthTask.program.actAt w i task choice).tasks, Guarded auth₀ a b := by
  have htask : task ∈ w.tasks := List.mem_of_getElem? hin
  have hacts := hs.acts htask choice
  generalize (act w.shared task choice).1 = sh' at hacts
  generalize htask' : (act w.shared task choice).2 = task' at hacts
  -- the revocation acts
  have hleft : ∀ b ∈ w.tasks, Guarded auth₀ task' b := by
    intro b hb
    cases task' with
    | request => trivial
    | closer c' =>
      cases b with
      | closer => trivial
      | request r =>
        cases task with
        | request => cases hacts
        | closer =>
          intro har e prin hp hc
          rw [Closer.Covers, hacts.operation_eq, ← Closer.Covers] at hc
          rcases hacts.armed_cases (hs.regular htask) har with ⟨hbe, hkept⟩ | rfl
          · obtain ⟨lease, hheap, hi, hac, -⟩ := hs.admitted_entry hb hp
            have haw := hg _ htask _ hb hbe e prin hp hc
            rw [← hi] at haw ⊢
            exact hacts.awaits hs.filed hheap hac hkept haw
          · exact .inl (hs.mem_identities_of_admitted hb hp hc)
  -- a request acts
  have hri : ∀ a ∈ w.tasks, Guarded auth₀ a task' := by
    intro a ha
    cases a with
    | request => trivial
    | closer c =>
      cases task' with
      | closer => trivial
      | request r' =>
        cases task with
        | closer => cases hacts
        | request =>
          intro har e prin hp hc
          rcases hacts.admitted_cases hp with rfl | ⟨hi, hr⟩
          · exact hg _ ha _ htask har e prin hp hc
          · rw [hi] at hc
            exact absurd hc (hs.not_covers_of_resolved ha htask hr har)
  have hself : Guarded auth₀ task' task' := by
    cases task' with
    | request => trivial
    | closer => trivial
  exact Program.forall_pairs_actAt htask' hself hleft hri hg

end Sound

end AgentOS
