import AgentOS.Auth.Revocation

/-!
# Erasure

An erasure closes the credentials of its subject, waits until their leases are gone, and removes the
subject from the records at the end. It reuses the drain of a revocation, which takes the closed
entry out of the table as soon as it is idle. A revocation has removed the records by then; an
erasure has not, so a request that comes afterwards finds no entry, makes an open one and is
admitted (`lateAdmission`).

The fence holds in every run in which no request acquires a lease in that gap: whenever a request
arrives while an erasure has closed its credential, the table has the closed entry
(`refusesFenced`).
-/

namespace AgentOS

open Lib

/-! ## What an erasure has closed -/

/-- The table has a closed entry for the credential. -/
def LeaseTable.isShut (leases : LeaseTable) (i : CredentialIdentity) : Bool :=
  (leases.table[i]?).any fun entry => (leases.heap[entry]?).any fun state => !state.accepting

namespace Closer

/-- An erasure that has listed its credentials and has not returned. -/
def isErasing (closer : Closer) : Bool := closer.operation.isErasure && closer.isListed

/-- An erasure of a user or of a tenant that has returned `Ok`. -/
def isErased (closer : Closer) : Bool :=
  closer.operation.isErasure && closer.operation.removes && closer.phase == .finished .done

/-- The operation has closed the credential, or is about to. -/
def Has (closer : Closer) (i : CredentialIdentity) : Prop :=
  i ∈ closer.pending ∨ ∃ waiter ∈ closer.waiters, waiter.identity = i

theorem isErasing_of_isFenced {cl : Closer} (h : cl.isFenced = true) : cl.isErasing = true := by
  obtain ⟨he, hp⟩ := Bool.and_eq_true_iff.1 h
  rw [isErasing, he, Bool.true_and, isListed]
  split at hp <;> simp_all

theorem pending_of_isFenced {cl : Closer} (h : cl.isFenced = true) : cl.pending = [] := by
  obtain ⟨-, hp⟩ := Bool.and_eq_true_iff.1 h
  rw [pending]
  split at hp <;> simp_all

end Closer

namespace AuthTask

/-- The task is an erasure that has closed the credential. -/
def fences (i : CredentialIdentity) : AuthTask → Bool
  | .request _ => false
  | .closer c => c.isErasing && c.waiters.any fun waiter => waiter.identity == i

/-- If the event is the arrival of a request whose credential an erasure has closed, then the table
has the closed entry. -/
def refusesFenced (world : World AuthState AuthTask) : Event AuthInput AuthChoice Nat → Bool
  | .act index _ =>
    match world.tasks[index]? with
    | some (.request r) =>
      r.phase != .arriving || !world.tasks.any (fences r.identity) ||
        world.shared.leases.isShut r.identity
    | _ => true
  | _ => true

/-! ## Steps -/

variable {sh sh' : AuthState} {c c' : Closer}

/-- An erasure does not commit the way a revocation does. -/
theorem not_committing (hr : c.Regular) (hera : c.isErasing = true) : c.phase ≠ .committing := by
  intro hp
  have he := (Bool.and_eq_true_iff.1 hera).1
  rw [hr.commits hp] at he
  cases he

section

variable (hacts : Acts sh (.closer c) sh' (.closer c'))
include hacts

theorem Acts.erasing_cases
    (h : c'.isErasing = true) : c.isErasing = true ∨ c.phase = .mutating ∧ c' = c.list sh := by
  obtain ⟨he, hl⟩ := Bool.and_eq_true_iff.1 h
  rw [hacts.operation_eq] at he
  rcases hacts.listed_cases hl with ⟨hb, -⟩ | hnow
  · exact .inl (by rw [Closer.isErasing, he, hb]; rfl)
  · exact .inr hnow

/-- What an erasure has closed, or is about to, stays so until it returns. -/
theorem Acts.has (hr : c.Regular)
    (hera : c.isErasing = true) {i : CredentialIdentity} (h : c.Has i) : c'.Has i := by
  rcases h with hi | ⟨wt, hw, rfl⟩
  · rcases hacts.pending_cases hi with hi | ⟨_, _, _, _, _, -, hsame, hm⟩
    · exact .inl hi
    · exact .inr ⟨_, hm, hsame⟩
  · right
    cases hacts with
    | closed => exact ⟨wt, List.mem_append_left _ hw, rfl⟩
    | failed hp => exact absurd hp (not_committing hr hera)
    | sawZero hs hin =>
      obtain ⟨o, ho, hid, -⟩ := exists_mem_set .sawZero hin hw
      exact ⟨o, ho, hid⟩
    | waiterEvicted hs hin | waiterStale hs hin =>
      obtain ⟨o, ho, hid, -⟩ := exists_mem_set .done hin hw
      exact ⟨o, ho, hid⟩
    | _ => exact ⟨wt, hw, rfl⟩

/-- The lease of a credential that is closed in this action is waited for. -/
theorem Acts.waitsFor_new (hf : sh.leases.Filed) {e : Nat} {lease : LeaseEntry}
    (hst : sh.leases.heap[e]? = some lease) (ha : 0 < lease.active)
    (h : ∃ wt ∈ c'.waiters, wt.identity = lease.identity) :
    (∃ wt ∈ c.waiters, wt.identity = lease.identity) ∨ c'.WaitsFor e := by
  obtain ⟨wt, hw, hi⟩ := h
  cases hacts with
  | @closed _ left i own before ls hp hin hwr =>
    rcases List.mem_append.1 hw with hw | hw
    · exact .inl ⟨wt, hw, hi⟩
    · rw [List.mem_singleton.1 hw] at hi
      have hown := closed_eq hwr hf hst ha hi
      exact .inr ⟨⟨before.identity, own, .waiting⟩, List.mem_append_right _ (by simp), hown, rfl⟩
  | failed => simp at hw
  | @sawZero _ i acting hs hin hp hidle
  | @waiterEvicted _ i acting before ls hs hin hp hidle hwr
  | @waiterStale _ i acting hs hin hp hnot =>
    rcases List.mem_or_eq_of_mem_set hw with hw | rfl
    · exact .inl ⟨wt, hw, hi⟩
    · exact .inl ⟨acting, List.mem_of_getElem? hin, hi⟩
  | _ => exact .inl ⟨wt, hw, hi⟩

/-- An erasure has returned `Ok` before, or removes its subject now. -/
theorem Acts.isErased_cases
    (hre : c.Regular) (h : c'.isErased = true) : c.isErased = true ∨ c.isFenced = true := by
  obtain ⟨⟨he, hr⟩, hdone⟩ : (c'.operation.isErasure = true ∧
      c'.operation.removes = true) ∧ c'.phase = .finished .done := by
    simpa [Closer.isErased] using h
  rw [hacts.operation_eq] at he hr
  cases hacts with
  | idle | sawZero | waiterEvicted | waiterStale => exact .inl h
  | closedAll | timedOut | drained => simp [he] at hdone
  | erased hp hnext => rcases hnext with ⟨rfl, -⟩ | rfl | ⟨rfl, -⟩ <;> cases hdone
  | removed hp => exact .inr (by simp [Closer.isFenced, he, hp])
  | @reopenedAll _ r writer hp hw =>
    -- such an erasure reopens only what it did not remove
    obtain rfl : r = .done := by simpa using hdone
    exact absurd rfl ((hre.reopens [] .done hp).1 hr)
  | _ => cases hdone

end

/-- A request has its lease from its arrival, when the entry was open. -/
theorem Acts.lease_cases {r r' : Request} {e : Nat}
    (hacts : Acts sh (.request r) sh' (.request r')) (h : r'.lease = some e) :
    r'.identity = r.identity ∧ (r.lease = some e ∨
      r.phase = .arriving ∧ sh.leases.isShut r.identity = false) := by
  cases hacts with
  | idle | resolved | bound | mismatched => exact ⟨rfl, .inl h⟩
  | acquired hi ha hw =>
    refine ⟨rfl, .inr ⟨rfl, ?_⟩⟩
    rcases hw.current_or_new with ⟨ht, hheap⟩ | ⟨ht, -, -⟩
    · rw [hi] at ht
      simp [LeaseTable.isShut, ht, hheap, ha]
    · rw [hi] at ht
      simp [LeaseTable.isShut, ht]
  | @dropped i own phase hp =>
    refine ⟨rfl, .inl ?_⟩
    rcases hp with rfl | ⟨prin, rfl⟩
    · exact h
    · exact h
  | released hi hac hw hp => rcases hp with rfl | ⟨rfl, -⟩ <;> cases h
  | _ => cases h

/-! ## Every interleaving that meets the condition -/

/-- What an erasure and a request keep. -/
structure Fence (auth₀ : AuthSystem) (c : Closer) (r : Request) : Prop where
  /-- The erasure has closed the credential of an admitted request that it covers. -/
  has : c.isErasing = true → r.isAdmitted = true → c.Covers auth₀ r.identity → c.Has r.identity
  /-- It waits for the leases of what it has closed. -/
  waits : c.isErasing = true → ∀ entry, r.lease = some entry →
    (∃ waiter ∈ c.waiters, waiter.identity = r.identity) → c.WaitsFor entry
  /-- Nothing is admitted when the subject is gone. -/
  gone : c.isErased = true → r.isAdmitted = true → ¬ c.Covers auth₀ r.identity

/-- The same for two tasks. -/
def FenceOf (auth₀ : AuthSystem) : AuthTask → AuthTask → Prop
  | .closer c, .request r => Fence auth₀ c r
  | _, _ => True

/-- An erasure has what it listed from the records. -/
def HasLive : AuthTask → Prop
  | .closer c => c.isErasing = true → ∀ i ∈ c.live, c.Has i
  | .request _ => True

/-- After its drain an erasure has no admitted request that it covers. -/
theorem Fence.not_admitted {auth₀ : AuthSystem} {r : Request} (h : Fence auth₀ c r) (hr : c.Regular)
    (hf : c.isFenced = true) (ha : r.isAdmitted = true) : ¬ c.Covers auth₀ r.identity := by
  intro hc
  have he := Closer.isErasing_of_isFenced hf
  obtain ⟨e, prin, hph⟩ := exists_of_isAdmitted ha
  rcases h.has he ha hc with hp | hwa
  · rw [Closer.pending_of_isFenced hf] at hp
    cases hp
  · obtain ⟨wt, hmem, -, hw⟩ :=
      h.waits he e (by simp [Request.lease, hph]) hwa
    rw [hr.drained (.inl hf) wt hmem] at hw
    cases hw

end AuthTask

/-- What fences the subject of an erasure, in every world. -/
structure Fenced (auth₀ : AuthSystem) (world : World AuthState AuthTask) : Prop where
  sound : Sound auth₀ world
  live : ∀ task ∈ world.tasks, AuthTask.HasLive task
  fence : ∀ a ∈ world.tasks, ∀ b ∈ world.tasks, AuthTask.FenceOf auth₀ a b

namespace Fenced

open AuthTask

variable {auth₀ : AuthSystem} {world : World AuthState AuthTask}

theorem initial (auth : AuthSystem) (now : Nat) :
    Fenced auth ⟨AuthState.initial auth now, []⟩ where
  sound := Sound.initial auth now
  live _ h := by cases h
  fence _ h := by cases h

section

variable (h : Fenced auth₀ world)
include h

/-- The acting operation and a request. -/
theorem fence_closer {c c' : Closer} {r : Request} {sh' : AuthState}
    (hc : .closer c ∈ world.tasks) (hr : .request r ∈ world.tasks)
    (hacts : Acts world.shared (.closer c) sh' (.closer c')) : Fence auth₀ c' r := by
  have hb : Fence auth₀ c r := h.fence _ hc _ hr
  have hre := h.sound.regular hc
  refine ⟨?_, ?_, ?_⟩
  · intro he ha hcovers
    rw [Closer.Covers, hacts.operation_eq, ← Closer.Covers] at hcovers
    rcases hacts.erasing_cases he with hs | ⟨-, rfl⟩
    · exact hacts.has hre hs (hb.has hs ha hcovers)
    · obtain ⟨e, prin, hp⟩ := exists_of_isAdmitted ha
      exact .inl (h.sound.mem_identities_of_admitted hr hp hcovers)
  · intro he e hl hw
    obtain ⟨lease, hheap, hi, hac⟩ := h.sound.backed hr e hl
    rw [← hi] at hw
    rcases hacts.erasing_cases he with hs | ⟨hm, rfl⟩
    · rcases hacts.waitsFor_new h.sound.filed hheap hac hw with hold | hnew
      · rw [hi] at hold
        exact hacts.waitsFor hheap hac (fun hp => absurd hp (not_committing hre hs))
          (hb.waits hs e hl hold)
      · exact hnew
    · -- an operation that lists its credentials has closed none
      obtain ⟨wt, hmem, -⟩ := hw
      rw [show (c.list world.shared).waiters = c.waiters from rfl, hre.fresh (.inr hm)] at hmem
      cases hmem
  · intro hera ha
    rw [Closer.Covers, hacts.operation_eq, ← Closer.Covers]
    rcases hacts.isErased_cases hre hera with hs | hf
    · exact hb.gone hs ha
    · exact hb.not_admitted hre hf ha

/-- An operation and the acting request. -/
theorem fence_request {c : Closer} {r r' : Request} {sh' : AuthState}
    (hc : .closer c ∈ world.tasks) (hr : .request r ∈ world.tasks)
    (hcn : r.phase = .arriving → world.tasks.any (fences r.identity) = true →
      world.shared.leases.isShut r.identity = true)
    (hacts : Acts world.shared (.request r) sh' (.request r')) : Fence auth₀ c r' := by
  have hb : Fence auth₀ c r := h.fence _ hc _ hr
  have hcl : CloserSound auth₀ world.shared c := h.sound.tasks _ hc
  have hrq : RequestSound world.shared r := h.sound.tasks _ hr
  refine ⟨?_, ?_, ?_⟩
  · intro he ha hcovers
    obtain ⟨e, prin, hp⟩ := exists_of_isAdmitted ha
    rcases hacts.admitted_cases hp with rfl | ⟨hi, hre⟩
    · exact hb.has he ha hcovers
    · -- the record is there, so the erasure has listed it
      have hrc := hrq.resolved e prin hre
      rw [hi] at hcovers ⊢
      have hl := (Bool.and_eq_true_iff.1 he).2
      exact h.live _ hc he _ (hcl.complete hl _ hcovers (by rw [hrc]; simp))
  · intro he e hle hw
    obtain ⟨hi, hb' | ⟨har, hopen⟩⟩ := hacts.lease_cases hle
    · rw [hi] at hw
      exact hb.waits he e hb' hw
    · -- the request would have found the entry closed
      rw [hi] at hw
      have hany : world.tasks.any (fences r.identity) = true := by
        rw [List.any_eq_true]
        refine ⟨_, hc, ?_⟩
        obtain ⟨wt, hmem, heq⟩ := hw
        simp only [fences, he, Bool.true_and, List.any_eq_true]
        exact ⟨wt, hmem, by simp [heq]⟩
      rw [hcn har hany] at hopen
      cases hopen
  · intro hera ha hcovers
    obtain ⟨e, prin, hp⟩ := exists_of_isAdmitted ha
    rcases hacts.admitted_cases hp with rfl | ⟨hi, hre⟩
    · exact hb.gone hera ha hcovers
    · have hrc := hrq.resolved e prin hre
      obtain ⟨⟨-, hrm⟩, hdone⟩ : (c.operation.isErasure = true ∧
          c.operation.removes = true) ∧ c.phase = .finished .done := by
        simpa [Closer.isErased] using hera
      rw [hi] at hcovers
      have hnone := hcl.committed (by simp [Closer.isCommitted, hdone, hrm]) _ hcovers
      rw [hrc] at hnone
      cases hnone

theorem live_actAt {task task' : AuthTask} {sh' : AuthState} (htask : task ∈ world.tasks)
    (hacts : Acts world.shared task sh' task') : HasLive task' := by
  cases task' with
  | request => trivial
  | closer c' =>
    cases task with
    | request => cases hacts
    | closer c =>
      intro he i hi
      have hl := (Bool.and_eq_true_iff.1 he).2
      rcases hacts.erasing_cases he with hs | ⟨-, rfl⟩
      · rcases hacts.listed_cases hl with ⟨-, hsame⟩ | ⟨hm, -⟩
        · rw [hsame] at hi
          exact hacts.has (h.sound.regular htask) hs (h.live _ htask hs i hi)
        · simp [Closer.isErasing, Closer.isListed, hm] at hs
      · -- the records are listed with the leases
        left
        have hmem : i ∈ c.identities world.shared := by
          have hi : i ∈ c.liveIdentities world.shared := hi
          unfold Closer.liveIdentities at hi
          unfold Closer.identities
          split at hi
          · cases hi
          · exact List.mem_dedup.2 (List.mem_append_left _ hi)
        exact hmem

theorem actAt {i : Nat} {task : AuthTask} (hi : world.tasks[i]? = some task) {choice : AuthChoice}
    (hc : refusesFenced world (.act i choice) = true) :
    Fenced auth₀ (AuthTask.program.actAt world i task choice) := by
  have htask : task ∈ world.tasks := List.mem_of_getElem? hi
  have hacts := h.sound.acts htask choice
  have hs := h.sound.actAt hi choice
  revert hacts
  generalize hsh' : (act world.shared task choice).1 = sh'
  generalize htask' : (act world.shared task choice).2 = task'
  intro hacts
  have hleft : ∀ b ∈ world.tasks, FenceOf auth₀ task' b := by
    intro b hb
    cases task' with
    | request => trivial
    | closer c' =>
      cases b with
      | closer => trivial
      | request r =>
        cases task with
        | request => cases hacts
        | closer => exact h.fence_closer htask hb hacts
  have hr : ∀ a ∈ world.tasks, FenceOf auth₀ a task' := by
    intro a ha
    cases a with
    | request => trivial
    | closer c =>
      cases task' with
      | closer => trivial
      | request r' =>
        cases task with
        | closer => cases hacts
        | request =>
          refine h.fence_request ha htask ?_ hacts
          intro har hany
          simpa [refusesFenced, hi, har, hany] using hc
  have hself : FenceOf auth₀ task' task' := by
    cases task' with
    | request => trivial
    | closer => trivial
  refine ⟨hs, ?_, Program.forall_pairs_actAt htask' hself hleft hr h.fence⟩
  apply Program.forall_actAt _ h.live
  show HasLive (act world.shared task choice).2
  rw [htask']
  exact h.live_actAt htask hacts

/-- A task that starts has closed nothing and is not admitted. -/
theorem start (x : AuthInput) :
    Fenced auth₀ (AuthTask.program.step world (.start x)) where
  sound := h.sound.step _
  live task htask := by
    rcases List.mem_append.1 htask with htask | htask
    · exact h.live task htask
    · rw [List.mem_singleton.1 htask]
      cases x with
      | request => trivial
      | operation operation =>
        intro he
        cases hi : operation.isInvalid <;>
          simp [Closer.isErasing, Closer.isListed, hi] at he
  fence a ha b hb := by
    rcases List.mem_append.1 ha with ha | ha
    · rcases List.mem_append.1 hb with hb | hb
      · exact h.fence a ha b hb
      · rw [List.mem_singleton.1 hb]
        cases a with
        | request => trivial
        | closer c =>
          cases x with
          | request =>
            refine ⟨?_, ?_, ?_⟩
            · rintro - ⟨⟩
            · rintro - e ⟨⟩
            · rintro - ⟨⟩
          | operation => trivial
    · rw [List.mem_singleton.1 ha]
      cases x with
      | request => trivial
      | operation operation =>
        cases b with
        | closer => trivial
        | request =>
          cases hi : operation.isInvalid <;>
            constructor <;>
            simp [Closer.isErasing, Closer.isListed, Closer.isErased, hi]

theorem step {ev : Event AuthInput AuthChoice Nat} (hc : refusesFenced world ev = true) :
    Fenced auth₀ (AuthTask.program.step world ev) := by
  cases ev with
  | start x => exact h.start x
  | act i choice =>
    cases hi : world.tasks[i]? with
    | none =>
      rw [Program.step_act_of_none choice hi]
      exact h
    | some =>
      rw [Program.step_act_of_some choice hi]
      exact h.actAt hi hc
  | outside => exact ⟨h.sound.step _, h.live, h.fence⟩

end

theorem run {auth : AuthSystem} {now : Nat} {evs : List (Event AuthInput AuthChoice Nat)}
    (hfenced : EachAfter (fun pre ev => refusesFenced (after auth now pre) ev = true) evs) :
    Fenced auth (after auth now evs) :=
  run_invariant_of (Fenced auth) (fun world ev => refusesFenced world ev = true)
    (initial auth now) (fun _ _ hw hc => hw.step hc) hfenced

end Fenced

namespace AuthTask

/-- In every interleaving that meets the condition, an erasure that has drained its credentials and
has not returned has no admitted request under any of them, and neither has an erasure of a user or
of a tenant that has returned `Ok`. -/
theorem erasure_fences (auth : AuthSystem) (now : Nat)
    (events : List (Event AuthInput AuthChoice Nat))
    (hcondition : EachAfter (fun pre event => refusesFenced (after auth now pre) event = true)
      events)
    (c : Closer) (hc : .closer c ∈ (after auth now events).tasks)
    (h : c.isFenced = true ∨ c.isErased = true) (r : Request)
    (hr : .request r ∈ (after auth now events).tasks) (hadmitted : r.isAdmitted = true) :
    ¬ c.Covers auth r.identity := by
  have hworld := Fenced.run hcondition
  have hfence : Fence auth c r := hworld.fence _ hc _ hr
  rcases h with hfenced | herased
  · exact hfence.not_admitted (hworld.sound.regular hc) hfenced hadmitted
  · exact hfence.gone herased hadmitted

/-- A request arrives while the erasure of its user drains another request, and is refused; then the
erasure goes on. -/
def erasedInTime : List (Event AuthInput AuthChoice Nat) :=
  [.start (.request ⟨.session, "s".toList⟩)] ++
    List.replicate 3 (.act 0 (.closer (.next 0))) ++
    [.start (.operation (.eraseUser "u".toList))] ++
    List.replicate 4 (.act 1 (.closer (.next 0))) ++
    [.start (.request ⟨.session, "s".toList⟩), .act 2 (.closer (.next 0))] ++
    List.replicate 2 (.act 0 (.closer (.next 0))) ++
    List.replicate 2 (.act 1 (.closer (.waiter 0))) ++ [.act 1 (.closer .succeed)]

set_option maxRecDepth 100000 in
/-- In that run the erasure gets past its drain, and none of the requests is admitted then. -/
theorem erasedInTime_fenced :
    ∃ c, .closer c ∈ (after soleSession 0 erasedInTime).tasks ∧ c.isFenced = true ∧
      ∀ r, .request r ∈ (after soleSession 0 erasedInTime).tasks → r.isAdmitted = true →
        ¬ c.Covers soleSession r.identity := by
  have hc : .closer ⟨.eraseUser "u".toList, .fenced, [⟨.session, "s".toList⟩],
      [⟨⟨.session, "s".toList⟩, 0, .done⟩]⟩ ∈ (after soleSession 0 erasedInTime).tasks := by
    decide +kernel
  refine ⟨_, hc, by decide, fun r hr hadmitted => ?_⟩
  refine erasure_fences soleSession 0 erasedInTime ?_ _ hc (.inl (by decide)) r hr hadmitted
  apply eachAfter_of_take
  decide +kernel

/-- The erasure of a user with no request in progress, up to the end of its drain. -/
def drained : List (Event AuthInput AuthChoice Nat) :=
  [.start (.operation (.eraseUser "u".toList))] ++
    List.replicate 4 (.act 0 (.closer (.next 0))) ++
    List.replicate 2 (.act 0 (.closer (.waiter 0))) ++ [.act 0 (.closer .succeed)]

/-- Then a request arrives. -/
def late : List (Event AuthInput AuthChoice Nat) :=
  [.start (.request ⟨.session, "s".toList⟩)] ++ List.replicate 3 (.act 1 (.closer (.next 0)))

set_option maxRecDepth 100000 in
/-- The request that arrives after the drain is admitted while the erasure goes on, and is still
there when the erasure returns `Ok`. -/
theorem lateAdmission :
    (∃ c r, .closer c ∈ (after soleSession 0 (drained ++ late)).tasks ∧ c.isFenced = true ∧
      .request r ∈ (after soleSession 0 (drained ++ late)).tasks ∧ r.isAdmitted = true ∧
      c.Covers soleSession r.identity) ∧
    ∃ c r, .closer c ∈ (after soleSession 0 (drained ++ late ++
        [.act 0 (.closer .succeed), .act 0 (.closer .succeed)])).tasks ∧ c.isErased = true ∧
      .request r ∈ (after soleSession 0 (drained ++ late ++
        [.act 0 (.closer .succeed), .act 0 (.closer .succeed)])).tasks ∧ r.isAdmitted = true ∧
      c.Covers soleSession r.identity := by
  have hcovers : ∀ c : Closer, c.operation = .eraseUser "u".toList →
      c.Covers soleSession ⟨.session, "s".toList⟩ := by
    intro c hoperation
    refine ⟨.user "u".toList, by rw [hoperation]; rfl, "t".toList, ?_⟩
    decide +kernel
  refine ⟨⟨⟨.eraseUser "u".toList, .fenced, [⟨.session, "s".toList⟩],
      [⟨⟨.session, "s".toList⟩, 0, .done⟩]⟩,
    ⟨⟨.session, "s".toList⟩, .admitted 1 ⟨"u".toList, "t".toList, .user,
      some ⟨.session, "s".toList⟩⟩⟩, by decide +kernel, by decide, by decide +kernel, by decide,
      hcovers _ rfl⟩, ?_⟩
  exact ⟨⟨.eraseUser "u".toList, .finished .done, [⟨.session, "s".toList⟩],
      [⟨⟨.session, "s".toList⟩, 0, .done⟩]⟩,
    ⟨⟨.session, "s".toList⟩, .admitted 1 ⟨"u".toList, "t".toList, .user,
      some ⟨.session, "s".toList⟩⟩⟩, by decide +kernel, by decide, by decide +kernel, by decide,
      hcovers _ rfl⟩

end AuthTask

end AgentOS
