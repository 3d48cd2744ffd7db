import AgentOS.Auth.Admission

/-!
# What one action can do

`Acts` lists, once for all invariants, the ways in which an action of a request, of a revocation or
of an erasure changes the shared state and the task. Changes of the lease table are given as writes
of one entry (`LeaseTable.Writes`).
-/

namespace AgentOS

open Lib

namespace AuthTask

/-- A lease that a request holds is on an entry of its credential that counts it. -/
def Backed (shared : AuthState) (request : Request) : Prop :=
  ∀ entry, request.lease = some entry →
    ∃ state, shared.leases.heap[entry]? = some state ∧ state.identity = request.identity ∧
      0 < state.active

/-- What one action can do. -/
inductive Acts (shared : AuthState) : AuthTask → AuthState → AuthTask → Prop where
  | idle (task : AuthTask) : Acts shared task shared task
  -- requests
  | acquired {i : CredentialIdentity} {entry : Nat} {state : LeaseEntry} {leases : LeaseTable}
      (hidentity : state.identity = i) (haccepting : state.accepting = true)
      (hwrites : LeaseTable.Writes shared.leases leases entry state
        { state with active := state.active + 1 } (some entry)) :
      Acts shared (.request ⟨i, .arriving⟩) { shared with leases }
        (.request ⟨i, .leased entry⟩)
  | refused {i : CredentialIdentity} {entry : Nat} {state : LeaseEntry}
      (htable : shared.leases.table[i]? = some entry)
      (hheap : shared.leases.heap[entry]? = some state) (hclosed : state.accepting = false) :
      Acts shared (.request ⟨i, .arriving⟩) shared (.request ⟨i, .finished⟩)
  | dropped {i : CredentialIdentity} {entry : Nat} {phase : RequestPhase}
      (h : phase = .leased entry ∨ ∃ principal, phase = .admitted entry principal) :
      Acts shared (.request ⟨i, phase⟩) shared (.request ⟨i, .dropping entry⟩)
  | resolved {i : CredentialIdentity} {entry : Nat} {principal : Principal}
      (hwriter : shared.writer = false)
      (hauth : shared.auth.authenticateIdentity shared.now i = some principal) :
      Acts shared (.request ⟨i, .leased entry⟩) { shared with readers := shared.readers + 1 }
        (.request ⟨i, .resolved entry principal⟩)
  | bound {i : CredentialIdentity} {entry : Nat} {principal : Principal} {state : LeaseEntry}
      {leases : LeaseTable} (hactive : 0 < state.active)
      (howner : state.owner = none ∨
        state.owner = some (principal.userId, principal.tenantId))
      (hwrites : LeaseTable.Writes shared.leases leases entry state
        { state with owner := some (principal.userId, principal.tenantId) } (some entry)) :
      Acts shared (.request ⟨i, .resolved entry principal⟩)
        { shared with leases, readers := shared.readers - 1 }
        (.request ⟨i, .admitted entry principal⟩)
  | mismatched {i : CredentialIdentity} {entry : Nat} {principal : Principal} {state : LeaseEntry}
      {owner : Text × Text} (hheap : shared.leases.heap[entry]? = some state)
      (howner : state.owner = some owner)
      (hne : owner ≠ (principal.userId, principal.tenantId)) :
      Acts shared (.request ⟨i, .resolved entry principal⟩)
        { shared with readers := shared.readers - 1 } (.request ⟨i, .dropping entry⟩)
  | released {i : CredentialIdentity} {entry : Nat} {state : LeaseEntry} {leases : LeaseTable}
      {phase : RequestPhase} (hidentity : state.identity = i) (hactive : 0 < state.active)
      (hwrites : LeaseTable.Writes shared.leases leases entry state
        { state with active := state.active - 1 } (some entry))
      (hphase : phase = .evicting entry ∨
        phase = .finished ∧ ¬ (state.accepting = true ∧ state.active - 1 = 0)) :
      Acts shared (.request ⟨i, .dropping entry⟩) { shared with leases } (.request ⟨i, phase⟩)
  | evicted {i : CredentialIdentity} {entry : Nat} {state : LeaseEntry} {leases : LeaseTable}
      (hidentity : state.identity = i) (hidle : state.active = 0)
      (hwrites : LeaseTable.Writes shared.leases leases entry state state none) :
      Acts shared (.request ⟨i, .evicting entry⟩) { shared with leases } (.request ⟨i, .finished⟩)
  | stale {i : CredentialIdentity} {entry : Nat}
      (h : ¬ (shared.leases.table[i]? = some entry ∧ ∃ state,
        shared.leases.heap[entry]? = some state ∧ state.accepting = true ∧ state.active = 0)) :
      Acts shared (.request ⟨i, .evicting entry⟩) shared (.request ⟨i, .finished⟩)
  -- operations
  | locked {c : Closer} (hphase : c.phase = .queued) (hfree : shared.mutation = false) :
      Acts shared (.closer c) { shared with mutation := true }
        (.closer { c with phase := .mutating })
  | listed {c : Closer} {writer : Bool} (hphase : c.phase = .mutating)
      (hfree : shared.writer = false) (hwriter : writer = !c.operation.isErasure)
      (hreaders : c.operation.isErasure = true ∨ shared.readers = 0) :
      Acts shared (.closer c) { shared with writer } (.closer (c.list shared))
  | closed {c : Closer} {remaining : List CredentialIdentity} {index entry : Nat}
      {state : LeaseEntry} {leases : LeaseTable} (hphase : c.phase = .closing remaining)
      (hindex : remaining[index]? = some state.identity)
      (hwrites : LeaseTable.Writes shared.leases leases entry state
        { state with accepting := false } (some entry)) :
      Acts shared (.closer c) { shared with leases }
        (.closer { c with
          phase := .closing (remaining.eraseIdx index)
          waiters := c.waiters ++ [⟨state.identity, entry, .waiting⟩] })
  | closedAll {c : Closer} (hphase : c.phase = .closing []) :
      Acts shared (.closer c) shared
        (.closer { c with
          phase := if c.operation.isErasure then .draining else .committing })
  | committed {c : Closer} (hphase : c.phase = .committing) :
      Acts shared (.closer c)
        { shared with auth := c.removed shared, mutation := false, writer := false }
        (.closer { c with phase := .draining })
  | failed {c : Closer} (hphase : c.phase = .committing) :
      Acts shared (.closer c) shared
        (.closer { c with phase := .reopening c.live .failed, waiters := [] })
  | timedOut {c : Closer} (hphase : c.phase = .draining) :
      Acts shared (.closer c) shared
        (.closer { c with
          phase :=
            if c.operation.isErasure then .reopening c.live .timedOut else .finished .timedOut })
  | drained {c : Closer} (hphase : c.phase = .draining) (hdrained : c.isDrained = true) :
      Acts shared (.closer c) shared
        (.closer { c with
          phase := if c.operation.isErasure then .fenced else .finished .done })
  | erased {c : Closer} {phase : CloserPhase} (hphase : c.phase = .fenced)
      (h : phase = .removing ∧ c.operation.removes = true ∨
        phase = .reopening c.live .failed ∨
        phase = .reopening c.live .done ∧ c.operation.removes = false) :
      Acts shared (.closer c) shared (.closer { c with phase })
  | removed {c : Closer} (hphase : c.phase = .removing) (hwriter : shared.writer = false)
      (hreaders : shared.readers = 0) :
      Acts shared (.closer c) { shared with auth := c.removed shared, mutation := false }
        (.closer { c with phase := .finished .done })
  | reopened {c : Closer} {remaining : List CredentialIdentity} {result : OperationResult}
      {index entry : Nat} {state : LeaseEntry} {leases : LeaseTable}
      (hphase : c.phase = .reopening remaining result)
      (hindex : remaining[index]? = some state.identity)
      (hwrites : LeaseTable.Writes shared.leases leases entry state
        { state with accepting := true } (if state.active = 0 then none else some entry)) :
      Acts shared (.closer c) { shared with leases }
        (.closer { c with phase := .reopening (remaining.eraseIdx index) result })
  | reopenedAll {c : Closer} {result : OperationResult} {writer : Bool}
      (hphase : c.phase = .reopening [] result)
      (hwriter : writer = if c.operation.isErasure then shared.writer else false) :
      Acts shared (.closer c) { shared with mutation := false, writer }
        (.closer { c with phase := .finished result })
  -- waiters
  | sawZero {c : Closer} {index : Nat} {waiter : Waiter} (hspawned : c.isSpawned = true)
      (hindex : c.waiters[index]? = some waiter) (hphase : waiter.phase = .waiting)
      (hidle : shared.leases.isIdle waiter.entry = true) :
      Acts shared (.closer c) shared
        (.closer { c with waiters := c.waiters.set index { waiter with phase := .sawZero } })
  | waiterEvicted {c : Closer} {index : Nat} {waiter : Waiter} {state : LeaseEntry}
      {leases : LeaseTable} (hspawned : c.isSpawned = true)
      (hindex : c.waiters[index]? = some waiter) (hphase : waiter.phase = .sawZero)
      (hidle : state.active = 0)
      (hwrites : LeaseTable.Writes shared.leases leases waiter.entry state state none) :
      Acts shared (.closer c) { shared with leases }
        (.closer { c with waiters := c.waiters.set index { waiter with phase := .done } })
  | waiterStale {c : Closer} {index : Nat} {waiter : Waiter} (hspawned : c.isSpawned = true)
      (hindex : c.waiters[index]? = some waiter) (hphase : waiter.phase = .sawZero)
      (h : ¬ (shared.leases.table[waiter.identity]? = some waiter.entry ∧ ∃ state,
        shared.leases.heap[waiter.entry]? = some state ∧ state.accepting = false ∧
          state.active = 0)) :
      Acts shared (.closer c) shared
        (.closer { c with waiters := c.waiters.set index { waiter with phase := .done } })

variable {shared : AuthState}

/-! ## Requests -/

section

variable (hf : shared.leases.Filed)
include hf

theorem acquire_acts (i : CredentialIdentity) (cancel : Bool) :
    Acts shared (.request ⟨i, .arriving⟩) ((Request.mk i .arriving).act shared cancel).1
      (.request ((Request.mk i .arriving).act shared cancel).2) := by
  obtain ⟨hi, -⟩ := hf.ensure i
  rcases hf.acquire i with ⟨ls, heq, ha, hw⟩ | ⟨heq, ht, hheap, hc⟩
  · simp only [Request.act, heq]
    exact .acquired hi ha hw
  · simp only [Request.act, heq]
    exact .refused ht hheap hc

theorem bind_acts {i : CredentialIdentity} {e : Nat} {principal : Principal}
    (hb : Backed shared ⟨i, .resolved e principal⟩) (cancel : Bool) :
    Acts shared (.request ⟨i, .resolved e principal⟩)
      ((Request.mk i (.resolved e principal)).act shared cancel).1
      (.request ((Request.mk i (.resolved e principal)).act shared cancel).2) := by
  obtain ⟨state, hheap, -, ha⟩ := hb e rfl
  simp only [Request.act, LeaseTable.bindOwner, hheap]
  cases ho : state.owner with
  | none =>
    exact .bound ha (.inl ho) (hf.update_held
      (f := fun s => { s with owner := some (principal.userId, principal.tenantId) })
      hheap ha fun _ => rfl)
  | some old =>
    by_cases heq : old = (principal.userId, principal.tenantId)
    · -- the entry is bound to this owner already
      have hsame : { state with owner := some (principal.userId, principal.tenantId) } =
          state := by
        rw [← heq, ← ho]
      simp only [heq, decide_true]
      have hw := hf.write_same hheap ha
      exact .bound ha (.inr (ho.trans (congrArg some heq))) (by rw [hsame]; exact hw)
    · simp only [heq, decide_false]
      exact .mismatched hheap ho heq

theorem release_acts {i : CredentialIdentity} {e : Nat} (hb : Backed shared ⟨i, .dropping e⟩)
    (cancel : Bool) :
    Acts shared (.request ⟨i, .dropping e⟩) ((Request.mk i (.dropping e)).act shared cancel).1
      (.request ((Request.mk i (.dropping e)).act shared cancel).2) := by
  obtain ⟨lease, hheap, hi, ha⟩ := hb e rfl
  have hw := hf.update_held (f := fun s => { s with active := s.active - 1 }) hheap
    ha fun _ => rfl
  have hl := hw.heap e
  rw [if_pos rfl] at hl
  have hr : shared.leases.release e =
      (shared.leases.update e fun s => { s with active := s.active - 1 },
        lease.accepting && lease.active - 1 == 0) := by
    simp only [LeaseTable.release, hl]
    rfl
  simp only [Request.act, hr]
  cases hlast : (lease.accepting && lease.active - 1 == 0) with
  | true => exact .released hi ha hw (.inl rfl)
  | false =>
    refine .released hi ha hw (.inr ⟨rfl, ?_⟩)
    rintro ⟨hac, hzero⟩
    simp [hac, hzero] at hlast

theorem evict_acts (i : CredentialIdentity) (e : Nat) (cancel : Bool) :
    Acts shared (.request ⟨i, .evicting e⟩) ((Request.mk i (.evicting e)).act shared cancel).1
      (.request ((Request.mk i (.evicting e)).act shared cancel).2) := by
  simp only [Request.act, LeaseTable.evictOpen]
  rcases shared.leases.evict_cases i e true with ⟨heq, hnot⟩ | ⟨heq, ht, lease, hheap, -, hidle⟩
  · rw [heq]
    exact .stale hnot
  · rw [heq]
    obtain ⟨fd, hfo, hi⟩ := hf.filed i e ht
    rw [hheap] at hfo
    cases hfo
    exact .evicted hi hidle (hf.remove_idle ht hheap)

theorem request_acts {req : Request} (hb : Backed shared req) (cancel : Bool) :
    Acts shared (.request req) (req.act shared cancel).1 (.request (req.act shared cancel).2) := by
  obtain ⟨i, ph⟩ := req
  cases ph with
  | arriving => exact acquire_acts hf i cancel
  | leased =>
    rw [Request.act]
    dsimp only
    split
    · exact .dropped (.inl rfl)
    · split
      · exact .idle _
      · next hw =>
        split
        · exact .dropped (.inl rfl)
        · next prin hauth => exact .resolved (by simpa using hw) hauth
  | resolved => exact bind_acts hf hb cancel
  | admitted e prin => exact .dropped (.inr ⟨prin, rfl⟩)
  | dropping => exact release_acts hf hb cancel
  | evicting e => exact evict_acts hf i e cancel
  | finished => exact .idle _

/-! ## Operations -/

theorem waiterActs_acts {c : Closer} (hs : c.isSpawned = true) (i : Nat) :
    Acts shared (.closer c) (c.waiterActs shared i).1 (.closer (c.waiterActs shared i).2) := by
  rw [Closer.waiterActs]
  split
  · exact .idle _
  · next wt hi =>
    have hidle : Acts shared (.closer c) shared
        (.closer { c with waiters := c.waiters.set i wt }) := by
      obtain ⟨hlt, heq⟩ := List.getElem?_eq_some_iff.1 hi
      rw [← heq, List.set_getElem_self]
      exact .idle _
    rw [Waiter.act]
    split
    · next hp =>
      split
      · next hzero => exact .sawZero hs hi hp hzero
      · exact hidle
    · next hp =>
      dsimp only [LeaseTable.evictClosed]
      rcases shared.leases.evict_cases wt.identity wt.entry false with
        ⟨heq, hnot⟩ | ⟨heq, ht, lease, hheap, -, hzero⟩
      · rw [heq]
        exact .waiterStale hs hi hp hnot
      · rw [heq]
        exact .waiterEvicted hs hi hp hzero (hf.remove_idle ht hheap)
    · exact hidle

theorem closeNext_acts {c : Closer}
    {left : List CredentialIdentity} (hp : c.phase = .closing left) (index : Nat) :
    Acts shared (.closer c) (c.closeNext shared left index).1
      (.closer (c.closeNext shared left index).2) := by
  rw [Closer.closeNext]
  split
  · split
    · next he =>
      subst he
      exact .closedAll hp
    · exact .idle _
  · next i hin =>
    obtain ⟨hi, -⟩ := hf.ensure i
    obtain ⟨hen, hw⟩ := hf.close i
    rw [← hen] at hw
    have hacts := Acts.closed hp (by rw [hi]; exact hin) hw
    rw [hi] at hacts
    exact hacts

theorem reopenNext_acts {c : Closer} {left : List CredentialIdentity} {r : OperationResult}
    (hp : c.phase = .reopening left r) (index : Nat) :
    Acts shared (.closer c) (c.reopenNext shared left r index).1
      (.closer (c.reopenNext shared left r index).2) := by
  rw [Closer.reopenNext]
  split
  · split
    · next he =>
      subst he
      exact .reopenedAll hp rfl
    · exact .idle _
  · next i hin =>
    obtain ⟨hi, -⟩ := hf.ensure i
    exact .reopened hp (by rw [hi]; exact hin) (hf.reopen i)

end

theorem drainStep_acts {c : Closer} (hp : c.phase = .draining) (choice : CloserChoice) :
    Acts shared (.closer c) (c.drainStep shared choice).1
      (.closer (c.drainStep shared choice).2) := by
  cases choice with
  | timeout => exact .timedOut hp
  | succeed =>
    rw [Closer.drainStep]
    split
    · next hd => exact .drained hp hd
    · exact .idle _
  | next | waiter | fail => exact .idle _

variable (hf : shared.leases.Filed)
include hf

theorem advance_acts (c : Closer) (choice : CloserChoice) :
    Acts shared (.closer c) (c.advance shared choice).1 (.closer (c.advance shared choice).2) := by
  unfold Closer.advance
  split
  · next hp =>
    split
    · exact .idle _
    · next hfree => exact .locked hp (by simpa using hfree)
  · next hp =>
    split
    · exact .idle _
    · next hfree =>
      have hfree : shared.writer = false := by simpa using hfree
      split
      · next he =>
        have hacts := Acts.listed hp hfree
          (show false = !c.operation.isErasure by rw [he]; rfl) (.inl he)
        rw [← hfree] at hacts
        exact hacts
      · next he =>
        split
        · next hre =>
          exact .listed hp hfree (by simp [he]) (.inr hre)
        · exact .idle _
  · next left hp =>
    split
    · exact closeNext_acts hf hp _
    · exact .idle _
  · next hp =>
    split
    · exact .committed hp
    · exact .failed hp
    · exact .idle _
  · next hp => exact drainStep_acts hp choice
  · next hp =>
    split
    · refine .erased hp ?_
      split
      · next hr => exact .inl ⟨rfl, hr⟩
      · next hr => exact .inr (.inr ⟨rfl, by simpa using hr⟩)
    · exact .erased hp (.inr (.inl rfl))
    · exact .idle _
  · next hp =>
    split
    · next h => exact .removed hp h.1 h.2
    · exact .idle _
  · next left r hp =>
    split
    · exact reopenNext_acts hf hp _
    · exact .idle _
  · exact .idle _

theorem closer_acts (c : Closer) (choice : CloserChoice) :
    Acts shared (.closer c) (c.act shared choice).1 (.closer (c.act shared choice).2) := by
  cases choice with
  | waiter i =>
    rw [Closer.act]
    split
    · next hs => exact waiterActs_acts hf hs i
    · exact .idle _
  | next | succeed | fail | timeout => exact advance_acts hf c _

/-- Every action of a task, in a table that is in order and with leases that are counted, is one of
`Acts`. -/
theorem act_acts {task : AuthTask}
    (hb : ∀ request, task = .request request → Backed shared request) (choice : AuthChoice) :
    Acts shared task (act shared task choice).1 (act shared task choice).2 := by
  cases task with
  | request r => exact request_acts hf (hb r rfl) _
  | closer c =>
    cases choice with
    | cancel => exact .idle _
    | closer choice => exact closer_acts hf c choice

end AuthTask

end AgentOS
