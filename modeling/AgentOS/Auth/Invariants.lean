import AgentOS.Auth.Steps

/-!
# What every interleaving keeps

The lease table is in order, every entry counts the leases on it, the locks count their holders,
records only disappear, and entries are bound to the owner of their credential (`Sound`). These are
the facts that both results about revocation and erasure rest on.
-/

namespace AgentOS

open Lib AuthState AuthSystem LeaseTable

/-! ## What the counters count -/

namespace AuthTask

/-- The task is a request with a lease on the entry. -/
def holdsLease (entry : Nat) : AuthTask → Bool
  | .request r => r.lease == some entry
  | .closer _ => false

/-- The task holds the auth lock for reading. -/
def holdsRead : AuthTask → Bool
  | .request r => r.holdsRead
  | .closer _ => false

/-- The task holds the auth lock for writing. -/
def holdsWrite : AuthTask → Bool
  | .request _ => false
  | .closer c => c.holdsWrite

/-- The task holds `auth_mutation_lock`. -/
def holdsMutation : AuthTask → Bool
  | .request _ => false
  | .closer c => c.holdsMutation

end AuthTask

/-- The number of leases that an entry counts. -/
def AuthState.active (entry : Nat) (shared : AuthState) : Nat :=
  (shared.leases.heap[entry]?).elim 0 LeaseEntry.active

variable {entry : Nat}

theorem AuthState.active_of_heap {shared : AuthState} {lease : LeaseEntry}
    (h : shared.leases.heap[entry]? = some lease) : shared.active entry = lease.active := by
  rw [active, h]
  rfl

variable {leases : LeaseTable} {before after : LeaseEntry} {cur : Option Nat}

/-- The count of an entry after a write. -/
theorem LeaseTable.Writes.active_eq {shared : AuthState}
    (hw : Writes shared.leases leases entry before after cur) (o : Nat) :
    active o { shared with leases } =
        (if entry = o then after.active else shared.active o) ∧
      shared.active entry = before.active := by
  refine ⟨?_, ?_⟩
  · unfold active
    dsimp only
    rw [hw.heap]
    split
    · rfl
    · rfl
  · rcases hw.current_or_new with ⟨-, hb⟩ | ⟨-, hnone, hnew⟩
    · exact active_of_heap hb
    · rw [active, hnone, hnew]
      rfl

/-! ## What an operation lists -/

variable {i : CredentialIdentity}

namespace Subject

variable {subj : Subject}

/-- The records that are listed are those that the subject covers. -/
theorem mem_live {auth : AuthSystem} : i ∈ subj.live auth ↔ subj.Covers auth.owner i := by
  cases subj with
  | session | apiKey => simp [live, Covers]
  | user id =>
    rw [live, credentialIdentitiesForUser, mem_credentialIdentities]
    constructor
    · rintro ⟨⟨user, tenant⟩, ho, htest⟩
      obtain rfl : user = id := by simpa using htest
      exact ⟨tenant, ho⟩
    · rintro ⟨tenant, ho⟩
      exact ⟨(id, tenant), ho, by simp⟩
  | tenant id =>
    rw [live, credentialIdentitiesForTenant, mem_credentialIdentities]
    constructor
    · rintro ⟨⟨user, tenant⟩, ho, htest⟩
      obtain rfl : tenant = id := by simpa using htest
      exact ⟨user, ho⟩
    · rintro ⟨user, ho⟩
      exact ⟨(user, id), ho, by simp⟩

variable {owner : CredentialIdentity → Option (Text × Text)}

/-- An entry that is bound to an owner is listed with the leases if the subject covers its
credential by that owner, and only then, single credentials apart. -/
theorem covers_of_tracked
    (how : ∀ (entry : Nat) (lease : LeaseEntry) (o : Text × Text), leases.table[i]? = some entry →
      leases.heap[entry]? = some lease → lease.owner = some o → owner i = some o)
    (h : i ∈ subj.tracked leases) : subj.Covers owner i := by
  cases subj with
  | session | apiKey => simp [tracked] at h
  | user id =>
    obtain ⟨entry, lease, ⟨user, tenant⟩, ht, hheap, ho, htest⟩ :=
      mem_trackedIdentities.1 h
    obtain rfl : user = id := by simpa using htest
    exact ⟨tenant, how entry lease _ ht hheap ho⟩
  | tenant id =>
    obtain ⟨entry, lease, ⟨user, tenant⟩, ht, hheap, ho, htest⟩ :=
      mem_trackedIdentities.1 h
    obtain rfl : tenant = id := by simpa using htest
    exact ⟨user, how entry lease _ ht hheap ho⟩

theorem mem_live_or_tracked {auth : AuthSystem} {lease : LeaseEntry} {o : Text × Text}
    (hc : subj.Covers owner i) (ho : owner i = some o)
    (ht : leases.table[i]? = some entry) (hheap : leases.heap[entry]? = some lease)
    (how : lease.owner = some o) : i ∈ subj.live auth ++ subj.tracked leases := by
  rw [List.mem_append]
  cases subj with
  | session | apiKey => exact .inl (mem_live.2 hc)
  | user id =>
    obtain ⟨tenant, hte⟩ := hc
    obtain rfl : o = (id, tenant) := Option.some.inj (ho.symm.trans hte)
    exact .inr (mem_trackedIdentities.2 ⟨entry, lease, _, ht, hheap, how, by simp⟩)
  | tenant id =>
    obtain ⟨user, huser⟩ := hc
    obtain rfl : o = (user, id) := Option.some.inj (ho.symm.trans huser)
    exact .inr (mem_trackedIdentities.2 ⟨entry, lease, _, ht, hheap, how, by simp⟩)

end Subject

/-! ## The invariant -/

namespace Closer

/-- The identities that the operation still has to close or to reopen. -/
def remaining (closer : Closer) : List CredentialIdentity :=
  match closer.phase with
  | .closing remaining => remaining
  | .reopening remaining _ => remaining
  | _ => []

/-- The identities that the operation works on. -/
def Lists (closer : Closer) (i : CredentialIdentity) : Prop :=
  i ∈ closer.remaining ∨ i ∈ closer.live ∨ ∃ waiter ∈ closer.waiters, waiter.identity = i

/-- The operation has listed its credentials and has not returned. -/
def isListed (closer : Closer) : Bool :=
  match closer.phase with
  | .queued | .mutating | .finished _ => false
  | _ => true

/-- The operation has removed its subject from the records. -/
def isCommitted (closer : Closer) : Bool :=
  match closer.phase with
  | .draining => !closer.operation.isErasure
  | .finished .done => closer.operation.removes
  | .finished .timedOut => !closer.operation.isErasure
  | _ => false

/-- An erasure that has drained its credentials and has not returned. -/
def isFenced (closer : Closer) : Bool :=
  closer.operation.isErasure &&
    match closer.phase with
    | .fenced | .removing | .reopening _ .done | .reopening _ .failed => true
    | _ => false

/-- The operation covers the credential, by the records at the start. -/
def Covers (closer : Closer) (auth₀ : AuthSystem) (i : CredentialIdentity) : Prop :=
  ∃ subj, closer.operation.subject = some subj ∧ subj.Covers auth₀.owner i

end Closer

/-- What a request keeps. -/
structure RequestSound (shared : AuthState) (r : Request) : Prop where
  /-- Its lease is on an entry of its credential. -/
  filed : ∀ entry, r.lease = some entry →
    ∃ state, shared.leases.heap[entry]? = some state ∧ state.identity = r.identity
  /-- While it resolves, the record is there. -/
  resolved : ∀ entry principal, r.phase = .resolved entry principal →
    shared.auth.owner r.identity = some (principal.userId, principal.tenantId)
  /-- Once admitted, its entry is bound to its principal. -/
  bound : ∀ entry principal, r.phase = .admitted entry principal →
    ∃ state, shared.leases.heap[entry]? = some state ∧
      state.owner = some (principal.userId, principal.tenantId)

/-- The phases of an operation fit its kind. -/
structure Closer.Regular (c : Closer) : Prop where
  /-- Only revocations commit, only erasures have a fenced phase. -/
  commits : c.phase = .committing → c.operation.isErasure = false
  fences : c.phase = .fenced ∨ c.phase = .removing → c.operation.isErasure = true
  /-- An operation that removes its subject does not reopen it on success, and a revocation reopens
  only what it failed to remove. -/
  reopens : ∀ remaining result, c.phase = .reopening remaining result →
    (c.operation.removes = true → result ≠ .done) ∧
      (c.operation.isErasure = false → result = .failed)
  /-- Nothing is drained before it is closed. -/
  fresh : c.phase = .queued ∨ c.phase = .mutating → c.waiters = []
  /-- An operation that went past its drain has waited for all of it. -/
  drained : c.isFenced = true ∨ c.phase = .finished .done →
    ∀ waiter ∈ c.waiters, waiter.phase = .done

/-- What an operation keeps. -/
structure CloserSound (auth₀ : AuthSystem) (shared : AuthState) (c : Closer) : Prop where
  regular : c.Regular
  /-- Its drains are on entries of their credential. -/
  filed : ∀ waiter ∈ c.waiters,
    ∃ state, shared.leases.heap[waiter.entry]? = some state ∧ state.identity = waiter.identity
  /-- It works on credentials that it covers. -/
  covered : ∀ i, c.Lists i → c.Covers auth₀ i
  /-- It has listed the records of all of them. -/
  complete : c.isListed = true → ∀ i, c.Covers auth₀ i → shared.auth.owner i ≠ none → i ∈ c.live
  /-- When it has committed they are gone. -/
  committed : c.isCommitted = true → ∀ i, c.Covers auth₀ i → shared.auth.owner i = none

/-- What a task keeps. -/
def TaskSound (auth₀ : AuthSystem) (shared : AuthState) : AuthTask → Prop
  | .request r => RequestSound shared r
  | .closer c => CloserSound auth₀ shared c

/-- What every interleaving keeps. -/
structure Sound (auth₀ : AuthSystem) (world : World AuthState AuthTask) : Prop where
  filed : world.shared.leases.Filed
  leases : ∀ entry, Program.Tallied (AuthTask.holdsLease entry) (AuthState.active entry) world
  readers : Program.Tallied AuthTask.holdsRead AuthState.readers world
  writer : Program.Tallied AuthTask.holdsWrite (fun s => s.writer.toNat) world
  mutation : Program.Tallied AuthTask.holdsMutation (fun s => s.mutation.toNat) world
  apart : world.shared.writer = true → world.shared.readers = 0
  records : ∀ i owner, world.shared.auth.owner i = some owner → auth₀.owner i = some owner
  owners : ∀ (entry : Nat) (state : LeaseEntry) (owner : Text × Text),
    world.shared.leases.heap[entry]? = some state → state.owner = some owner →
      auth₀.owner state.identity = some owner
  tasks : ∀ task ∈ world.tasks, TaskSound auth₀ world.shared task

namespace Sound

variable {auth₀ : AuthSystem} {world : World AuthState AuthTask}

theorem initial (auth : AuthSystem) (now : Nat) : Sound auth ⟨AuthState.initial auth now, []⟩ where
  filed := LeaseTable.filed_empty
  leases _ := by simp [Program.Tallied, AuthState.active, AuthState.initial, LeaseTable.empty]
  readers := rfl
  writer := rfl
  mutation := rfl
  apart h := by cases h
  records _ _ h := h
  owners _ _ _ h := by simp [AuthState.initial, LeaseTable.empty] at h
  tasks _ h := by simp at h

/-- A request's lease is counted by its entry. -/
theorem backed (hs : Sound auth₀ world) {r : Request} (hr : .request r ∈ world.tasks) :
    AuthTask.Backed world.shared r := by
  intro entry hl
  obtain ⟨lease, hheap, hi⟩ := (hs.tasks _ hr).filed entry hl
  have hpos := (hs.leases entry).pos hr (by simp [AuthTask.holdsLease, hl])
  rw [active_of_heap hheap] at hpos
  exact ⟨lease, hheap, hi, hpos⟩

theorem acts (hs : Sound auth₀ world) {task : AuthTask} (htask : task ∈ world.tasks)
    (c : AuthChoice) :
    AuthTask.Acts world.shared task (AuthTask.act world.shared task c).1
      (AuthTask.act world.shared task c).2 := by
  apply AuthTask.act_acts hs.filed
  rintro r rfl
  exact hs.backed htask

end Sound

/-! ## The counters -/

namespace AuthTask

variable {shared sh' : AuthState} {task task' : AuthTask}

/-- A write that keeps the count of its entry changes no count. -/
theorem active_of_writes (hw : LeaseTable.Writes shared.leases leases entry before after cur)
    (ha : after.active = before.active) (o : Nat) :
    active o { shared with leases } = shared.active o := by
  obtain ⟨haf, hb⟩ := hw.active_eq o
  rw [haf]
  split
  · next heq => rw [ha, ← hb, heq]
  · rfl

section

variable (hacts : Acts shared task sh' task')
include hacts

/-- Every entry counts one lease more when a request acquires it and one less when it drops it. -/
theorem Acts.lease_count (entry : Nat) :
    sh'.active entry + (holdsLease entry task).toNat =
      shared.active entry + (holdsLease entry task').toNat := by
  cases hacts with
  | idle => rfl
  | refused => rfl
  | resolved => rfl
  | mismatched => rfl
  | stale => rfl
  | @acquired i own state leases hi hacc hw =>
    obtain ⟨ha, hb⟩ := hw.active_eq entry
    rw [ha]
    by_cases heq : own = entry
    · subst heq
      simp [holdsLease, Request.lease, hb]
    · simp [holdsLease, Request.lease, heq]
  | @dropped i own phase h =>
    rcases h with rfl | ⟨prin, rfl⟩
    · rfl
    · rfl
  | bound hac ho hw =>
    have hsame := active_of_writes hw rfl entry
    exact congrArg (· + _) hsame
  | @released i own state leases phase hi hac hw hp =>
    obtain ⟨ha, hb⟩ := hw.active_eq entry
    have hl : holdsLease entry (.request ⟨i, phase⟩) = false := by
      rcases hp with rfl | ⟨rfl, -⟩
      · rfl
      · rfl
    rw [ha, hl]
    by_cases heq : own = entry
    · subst heq
      simp only [holdsLease, Request.lease, beq_self_eq_true, if_true, hb]
      simp
      omega
    · simp [holdsLease, Request.lease, heq]
  | evicted hi hidle hw => exact congrArg (· + _) (active_of_writes hw rfl entry)
  | closed hp hin hw | reopened hp hin hw
  | waiterEvicted hs hin hp hidle hw => exact active_of_writes hw rfl entry
  | _ => rfl

theorem Acts.read_count (hpos : holdsRead task = true → 0 < shared.readers) :
    sh'.readers + (holdsRead task).toNat = shared.readers + (holdsRead task').toNat := by
  cases hacts with
  | @dropped i own ph h =>
    rcases h with rfl | ⟨prin, rfl⟩
    · rfl
    · rfl
  | resolved => rfl
  | bound | mismatched =>
    have hone := hpos rfl
    simp only [holdsRead, Request.holdsRead]
    simp
    omega
  | released hi ha hw hp =>
    rcases hp with rfl | ⟨rfl, -⟩
    · rfl
    · rfl
  | _ => rfl

/-- The lock's flag says whether the acting task holds it. -/
theorem Acts.write_count
    (hc : ∀ c, task = .closer c → c.phase = .committing → c.operation.isErasure = false)
    (hf : ∀ c, task = .closer c → c.phase = .fenced ∨ c.phase = .removing → c.operation.isErasure =
      true) (hheld : holdsWrite task = true → shared.writer = true) :
    sh'.writer.toNat + (holdsWrite task).toNat =
      shared.writer.toNat + (holdsWrite task').toNat := by
  cases hacts with
  | @listed c writer hp hfree hw hr =>
    simp only [holdsWrite, Closer.holdsWrite, Closer.list, hp, hfree, hw]
    cases c.operation.isErasure <;> rfl
  | @closed c remaining index entry state leases hp hi hwr
  | @reopened c remaining result index entry state leases hp hi hwr =>
    simp only [holdsWrite, Closer.holdsWrite, hp]
  | @closedAll c hp | @drained c hp hd =>
    simp only [holdsWrite, Closer.holdsWrite, hp]
    cases c.operation.isErasure <;> rfl
  | @committed c hp =>
    have hw := hheld (by simp [holdsWrite, Closer.holdsWrite, hp])
    simp [holdsWrite, Closer.holdsWrite, hp, hw]
  | @failed c hp => simp [holdsWrite, Closer.holdsWrite, hp, hc c rfl hp]
  | @timedOut c hp =>
    simp only [holdsWrite, Closer.holdsWrite, hp]
    cases he : c.operation.isErasure <;> rfl
  | @locked c hp hfree | @removed c hp hw hr => simp [holdsWrite, Closer.holdsWrite, hp]
  | @erased c phase hp h =>
    rcases h with ⟨rfl, -⟩ | rfl | ⟨rfl, -⟩
    · simp [holdsWrite, Closer.holdsWrite, hp]
    · simp [holdsWrite, Closer.holdsWrite, hp, hf c rfl (.inl hp)]
    · simp [holdsWrite, Closer.holdsWrite, hp, hf c rfl (.inl hp)]
  | @reopenedAll c result writer hp hw =>
    cases he : c.operation.isErasure with
    | true => simp [holdsWrite, Closer.holdsWrite, hp, hw, he]
    | false =>
      have hheld := hheld (by simp [holdsWrite, Closer.holdsWrite, hp, he])
      simp [holdsWrite, Closer.holdsWrite, hp, hw, he, hheld]
  | @dropped i own phase h =>
    rcases h with rfl | ⟨prin, rfl⟩
    · rfl
    · rfl
  | _ => rfl

theorem Acts.mutation_count
    (hc : ∀ c, task = .closer c → c.phase = .committing → c.operation.isErasure = false)
    (hheld : holdsMutation task = true → shared.mutation = true) :
    sh'.mutation.toNat + (holdsMutation task).toNat =
      shared.mutation.toNat + (holdsMutation task').toNat := by
  cases hacts with
  | @locked c hp hfree => simp [holdsMutation, Closer.holdsMutation, hp, hfree]
  | @listed c writer hp hfree hw hr => simp [holdsMutation, Closer.holdsMutation, Closer.list, hp]
  | @closed c remaining index entry state leases hp hi hwr | @failed c hp
  | @reopened c remaining result index entry state leases hp hi hwr =>
    simp [holdsMutation, Closer.holdsMutation, hp]
  | @closedAll c hp | @timedOut c hp | @drained c hp hd =>
    simp only [holdsMutation, Closer.holdsMutation, hp]
    cases c.operation.isErasure <;> rfl
  | @committed c hp =>
    have hm := hheld (by simp [holdsMutation, Closer.holdsMutation, hp])
    simp [holdsMutation, Closer.holdsMutation, hp, hm, hc c rfl hp]
  | @erased c phase hp h =>
    rcases h with ⟨rfl, -⟩ | rfl | ⟨rfl, -⟩
    · simp [holdsMutation, Closer.holdsMutation, hp]
    · simp [holdsMutation, Closer.holdsMutation, hp]
    · simp [holdsMutation, Closer.holdsMutation, hp]
  | @removed c hp hw hr | @reopenedAll c result writer hp hw =>
    have hm := hheld (by simp [holdsMutation, Closer.holdsMutation, hp])
    simp [holdsMutation, Closer.holdsMutation, hp, hm]
  | @dropped i own phase h =>
    rcases h with rfl | ⟨prin, rfl⟩
    · rfl
    · rfl
  | _ => rfl

end

/-! ## Frames -/

/-- Entries stay, with their credential and the owner they were bound to. -/
def Extends (leases leases' : LeaseTable) : Prop :=
  ∀ (entry : Nat) (state : LeaseEntry), leases.heap[entry]? = some state →
    ∃ state', leases'.heap[entry]? = some state' ∧ state'.identity = state.identity ∧
      ∀ owner, state.owner = some owner → state'.owner = some owner

theorem Extends.refl (leases : LeaseTable) : Extends leases leases :=
  fun _ lease h => ⟨lease, h, rfl, fun _ ho => ho⟩

theorem extends_of_writes {ls' : LeaseTable}
    (hw : LeaseTable.Writes leases ls' entry before after cur)
    (ho : ∀ owner, before.owner = some owner → after.owner = some owner) : Extends leases ls' := by
  intro o lease hs
  rcases hw.persists hs with ⟨-, rfl, h⟩ | ⟨-, h⟩
  · exact ⟨after, h, hw.identity, ho⟩
  · exact ⟨lease, h, rfl, fun _ ho => ho⟩

section

variable (hacts : Acts shared task sh' task')
include hacts

theorem Acts.extends : Extends shared.leases sh'.leases := by
  cases hacts with
  | acquired hi hac hw | released hi ha hw
  | evicted hi hidle hw | closed hp hin hw
  | reopened hp hin hw | waiterEvicted hs hin hp hidle hw => exact extends_of_writes hw fun _ h => h
  | bound ha ho hw =>
    apply extends_of_writes hw
    intro owner h
    rcases ho with hnone | hsome
    · rw [hnone] at h
      cases h
    · rw [← h, hsome]
  | _ => exact Extends.refl _

/-- The table stays in order. -/
theorem Acts.filed (hf : shared.leases.Filed) : sh'.leases.Filed := by
  cases hacts with
  | acquired hi hac hw | bound ha ho hw
  | released hi ha hw | closed hp hin hw => exact hf.writes hw (.inl rfl)
  | evicted hi hidle hw | waiterEvicted hs hin hp hidle hw => exact hf.writes hw (.inr ⟨rfl, hidle⟩)
  | @reopened c remaining result index entry state leases hp hin hw =>
    apply hf.writes hw
    split
    · next hzero => exact .inr ⟨rfl, hzero⟩
    · exact .inl rfl
  | _ => exact hf

/-- The records change only when a revocation commits or an erasure removes its subject. -/
theorem Acts.auth_cases :
    sh'.auth = shared.auth ∨ ∃ c, task = .closer c ∧ sh'.auth = c.removed shared ∧
        (c.phase = .committing ∨ c.phase = .removing ∧ shared.readers = 0) := by
  cases hacts with
  | @committed c hp => exact .inr ⟨c, rfl, rfl, .inl hp⟩
  | @removed c hp hw hr => exact .inr ⟨c, rfl, rfl, .inr ⟨hp, hr⟩⟩
  | _ => exact .inl rfl

end

/-- Removing a subject removes records. -/
theorem owner_of_removed {c : Closer} {owner : Text × Text}
    (h : (c.removed shared).owner i = some owner) : shared.auth.owner i = some owner := by
  unfold Closer.removed at h
  split at h
  · exact h
  · next subj _ => exact ((subj.owner_revoke shared.auth).1 h).1

theorem Acts.owner_of (hacts : Acts shared task sh' task') {owner : Text × Text}
    (h : sh'.auth.owner i = some owner) : shared.auth.owner i = some owner := by
  rcases hacts.auth_cases with hsame | ⟨c, -, hr, -⟩
  · rwa [hsame] at h
  · rw [hr] at h
    exact owner_of_removed h

/-- After the removal of its subject no record that an operation covers is left. -/
theorem owner_removed_eq_none {auth₀ : AuthSystem} {c : Closer}
    (hr : ∀ owner, shared.auth.owner i = some owner → auth₀.owner i = some owner)
    (hc : c.Covers auth₀ i) : (c.removed shared).owner i = none := by
  obtain ⟨subj, hs, hc⟩ := hc
  cases ho : (c.removed shared).owner i with
  | none => rfl
  | some owner =>
    exfalso
    unfold Closer.removed at ho
    rw [hs] at ho
    obtain ⟨hb, hnot⟩ := (subj.owner_revoke shared.auth).1 ho
    exact hnot (hc.of_owner (hr owner hb) hb)

end AuthTask

end AgentOS
