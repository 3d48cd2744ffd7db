import AgentOS.Auth.Invariants

/-!
# The invariant of the interleavings

`Invariants` says what is kept and how the counters and the lease table move. Here every task keeps
its part of it, in its own actions and in those of the others, so `Sound` holds in every world that
an interleaving of requests, revocations and erasures reaches.
-/

namespace AgentOS

open Lib
open Closer (isCommitted isFenced isListed list)
open AuthTask (program)

variable {c : Closer} {i : CredentialIdentity}

namespace AuthTask

variable {sh sh' : AuthState}

/-! ## Tasks -/

variable {auth₀ : AuthSystem}

/-- What a request keeps while another task acts. -/
theorem requestSound_frame {r : Request} (h : RequestSound sh r)
    (he : Extends sh.leases sh'.leases)
    (ho : r.holdsRead = true → sh'.auth = sh.auth) : RequestSound sh' r where
  filed entry hl := by
    obtain ⟨lease, hst, hi⟩ := h.filed entry hl
    obtain ⟨lease', hst', hi', -⟩ := he entry lease hst
    exact ⟨lease', hst', hi'.trans hi⟩
  resolved entry principal hp := by
    rw [ho (by simp [Request.holdsRead, hp])]
    exact h.resolved entry principal hp
  bound entry principal hp := by
    obtain ⟨lease, hst, ho⟩ := h.bound entry principal hp
    obtain ⟨lease', hst', -, ho'⟩ := he entry lease hst
    exact ⟨lease', hst', ho' _ ho⟩

/-- What an operation keeps while another task acts. -/
theorem closerSound_frame (h : CloserSound auth₀ sh c)
    (he : Extends sh.leases sh'.leases)
    (ho : ∀ i owner, sh'.auth.owner i = some owner → sh.auth.owner i = some owner) :
    CloserSound auth₀ sh' c where
  regular := h.regular
  filed waiter hw := by
    obtain ⟨lease, hst, hi⟩ := h.filed waiter hw
    obtain ⟨lease', hst', hi', -⟩ := he waiter.entry lease hst
    exact ⟨lease', hst', hi'.trans hi⟩
  covered := h.covered
  complete hl i hc hlive := by
    apply h.complete hl i hc
    obtain ⟨owner, hsome⟩ := Option.ne_none_iff_exists'.1 hlive
    rw [ho i owner hsome]
    simp
  committed hcommitted i hc := by
    apply Option.eq_none_iff_forall_ne_some.2
    intro owner hsome
    have hnone := h.committed hcommitted i hc
    rw [ho i owner hsome] at hnone
    cases hnone

/-- A request without a lease keeps nothing. -/
theorem requestSound_unleased {r : Request} (hl : r.lease = none) : RequestSound sh r where
  filed _ h := by cases hl.symm.trans h
  resolved _ _ h := by simp [Request.lease, h] at hl
  bound _ _ h := by simp [Request.lease, h] at hl

/-- A request after its own action. -/
theorem Acts.requestSound {r r' : Request} (hacts : Acts sh (.request r) sh' (.request r'))
    (h : RequestSound sh r) : RequestSound sh' r' := by
  have he := hacts.extends
  cases hacts with
  | idle => exact h
  | @acquired i entry state leases hi hac hw =>
    refine ⟨?_, ?_, ?_⟩
    · rintro o ⟨rfl⟩
      exact ⟨_, (hw.heap entry).trans (if_pos rfl), hi⟩
    · rintro _ _ ⟨⟩
    · rintro _ _ ⟨⟩
  | @dropped i entry phase hp =>
    refine ⟨?_, by rintro _ _ ⟨⟩, by rintro _ _ ⟨⟩⟩
    rintro o ⟨rfl⟩
    apply h.filed
    rcases hp with rfl | ⟨prin, rfl⟩
    · rfl
    · rfl
  | @resolved i entry prin hwr hauth =>
    refine ⟨?_, ?_, by rintro _ _ ⟨⟩⟩
    · rintro o ⟨rfl⟩
      exact h.filed entry rfl
    · rintro o fd ⟨rfl, rfl⟩
      exact AuthSystem.owner_of_authenticateIdentity _ hauth
  | @bound i entry prin state leases ha ho hw =>
    refine ⟨?_, by rintro _ _ ⟨⟩, ?_⟩
    · rintro o ⟨rfl⟩
      obtain ⟨before, hb, hi⟩ := h.filed entry rfl
      obtain ⟨after, haf, hsame, -⟩ := he entry before hb
      exact ⟨after, haf, hsame.trans hi⟩
    · rintro o fd ⟨rfl, rfl⟩
      exact ⟨_, (hw.heap entry).trans (if_pos rfl), rfl⟩
  | @mismatched i entry prin state owner hheap ho hne =>
    refine ⟨?_, by rintro _ _ ⟨⟩, by rintro _ _ ⟨⟩⟩
    rintro o ⟨rfl⟩
    exact h.filed entry rfl
  | @released i entry state leases phase hi ha hw hp =>
    rcases hp with rfl | ⟨rfl, -⟩
    · exact requestSound_unleased rfl
    · exact requestSound_unleased rfl
  | _ => exact requestSound_unleased rfl

variable {c' : Closer}

section

variable (hacts : Acts sh (.closer c) sh' (.closer c'))
include hacts

/-- The phases of an operation keep fitting its kind. -/
theorem Acts.regular (h : c.Regular) : c'.Regular := by
  have notFresh : ∀ {waiters : List Waiter}, c.isSpawned = true →
      c.phase = .queued ∨ c.phase = .mutating → waiters = [] := by
    rintro waiters hsp (hp | hp) <;> simp [Closer.isSpawned, hp] at hsp
  cases hacts with
  | idle => exact h
  | locked hp =>
    exact ⟨by simp, by simp, by simp, fun _ => h.fresh (.inl hp), by simp [isFenced]⟩
  | listed =>
    exact ⟨by simp [list], by simp [list], by simp [list],
      by simp [list], by simp [list, isFenced]⟩
  | closed | committed => exact ⟨by simp, by simp, by simp, by simp, by simp [isFenced]⟩
  | closedAll =>
    cases he : c.operation.isErasure with
    | true => exact ⟨by simp, by simp, by simp, by simp, by simp [isFenced]⟩
    | false => exact ⟨fun _ => he, by simp, by simp, by simp, by simp [isFenced]⟩
  | failed =>
    refine ⟨by simp, by simp, ?_, by simp, by simp⟩
    rintro remaining r ⟨rfl, rfl⟩
    exact ⟨fun _ => by simp, fun _ => rfl⟩
  | timedOut =>
    cases he : c.operation.isErasure with
    | true =>
      refine ⟨by simp, by simp, ?_, by simp, by simp [isFenced]⟩
      rintro remaining r ⟨rfl, rfl⟩
      exact ⟨fun _ => by simp, fun hnot => by simp [he] at hnot⟩
    | false => exact ⟨by simp, by simp, by simp, by simp, by simp [isFenced]⟩
  | drained hp hd =>
    have hall : ∀ wt ∈ c.waiters, wt.phase = .done := by simpa [Closer.isDrained] using hd
    cases he : c.operation.isErasure with
    | true => exact ⟨by simp, fun _ => he, by simp, by simp, fun _ => hall⟩
    | false => exact ⟨by simp, by simp, by simp, by simp, fun _ => hall⟩
  | erased hp hnext =>
    have he := h.fences (.inl hp)
    have hall := h.drained (.inl (by simp [isFenced, hp, he]))
    rcases hnext with ⟨rfl, -⟩ | rfl | ⟨rfl, hr⟩
    · exact ⟨by simp, fun _ => he, by simp, by simp, fun _ => hall⟩
    · refine ⟨by simp, by simp, ?_, by simp, fun _ => hall⟩
      rintro remaining r ⟨rfl, rfl⟩
      exact ⟨fun _ => by simp, fun _ => rfl⟩
    · refine ⟨by simp, by simp, ?_, by simp, fun _ => hall⟩
      rintro remaining r ⟨rfl, rfl⟩
      exact ⟨fun hnot => by simp [hr] at hnot, fun hnot => by simp [he] at hnot⟩
  | removed hp =>
    have he := h.fences (.inr hp)
    have hall := h.drained (.inl (by simp [isFenced, hp, he]))
    exact ⟨by simp, by simp, by simp, by simp, fun _ => hall⟩
  | @reopened _ remaining r index entry state leases hp hi hw =>
    refine ⟨by simp, by simp, ?_, by simp, ?_⟩
    · rintro rest last ⟨rfl, rfl⟩
      exact h.reopens remaining r hp
    · rintro (hf | hp)
      · apply h.drained
        left
        cases r with
        | done | failed => simpa [isFenced, hp] using hf
        | timedOut => simp [isFenced] at hf
      · cases hp
  | @reopenedAll _ r writer hp hwr =>
    refine ⟨by simp, by simp, by simp, by simp, ?_⟩
    rintro (hf | hdone)
    · simp [isFenced] at hf
    · obtain rfl : r = .done := by simpa using hdone
      apply h.drained
      -- a revocation does not get here with success
      cases he : c.operation.isErasure with
      | true => exact .inl (by simp [isFenced, hp, he])
      | false => cases (h.reopens [] .done hp).2 he
  | @sawZero _ index wt hsp hi hp hidle
  | @waiterEvicted _ index wt state leases hsp hi hp hidle hw
  | @waiterStale _ index wt hsp hi hp hnot =>
    refine ⟨h.commits, h.fences, h.reopens, notFresh hsp, ?_⟩
    intro hen
    have hdone := h.drained hen wt (List.mem_of_getElem? hi)
    rw [hp] at hdone
    cases hdone

theorem Acts.operation_eq : c'.operation = c.operation := by
  cases hacts with
  | _ => rfl

/-- The drains of an operation stay on their entries; a new one is on the entry that was closed. -/
theorem Acts.waiter_cases {wt : Waiter} (h : wt ∈ c'.waiters) :
    (∃ before ∈ c.waiters, wt.identity = before.identity ∧ wt.entry = before.entry) ∨
      wt.identity ∈ c.remaining ∧ ∃ lease,
        sh'.leases.heap[wt.entry]? = some lease ∧ lease.identity = wt.identity := by
  cases hacts with
  | @closed _ left index e lease ls hp hi hw =>
    rcases List.mem_append.1 h with h | h
    · exact .inl ⟨wt, h, rfl, rfl⟩
    · rw [List.mem_singleton.1 h]
      refine .inr ⟨?_, _, (hw.heap e).trans (if_pos rfl), rfl⟩
      rw [Closer.remaining, hp]
      exact List.mem_of_getElem? hi
  | failed => simp at h
  | @sawZero _ index acting hsp hi hp hidle
  | @waiterEvicted _ index acting lease ls hsp hi hp hidle hw
  | @waiterStale _ index acting hsp hi hp hnot =>
    rcases List.mem_or_eq_of_mem_set h with h | rfl
    · exact .inl ⟨wt, h, rfl, rfl⟩
    · exact .inl ⟨acting, List.mem_of_getElem? hi, rfl, rfl⟩
  | _ => exact .inl ⟨wt, h, rfl, rfl⟩

/-- An operation works on what it has listed. -/
theorem Acts.lists_cases (h : c'.Lists i) :
    c.Lists i ∨ i ∈ c.identities sh ∨ i ∈ c.liveIdentities sh := by
  rcases h with hr | hlive | ⟨wt, hw, rfl⟩
  · cases hacts with
    | idle | sawZero | waiterEvicted | waiterStale => exact .inl (.inl hr)
    | listed => exact .inr (.inl hr)
    | closed hp | reopened hp =>
      refine .inl (.inl ?_)
      rw [Closer.remaining, hp]
      exact List.mem_of_mem_eraseIdx hr
    | closedAll | drained => cases he : c.operation.isErasure <;> simp [Closer.remaining, he] at hr
    | failed => exact .inl (.inr (.inl hr))
    | timedOut =>
      cases he : c.operation.isErasure with
      | true =>
        simp only [Closer.remaining, he] at hr
        exact .inl (.inr (.inl hr))
      | false => simp [Closer.remaining, he] at hr
    | erased hp hnext =>
      rcases hnext with ⟨rfl, -⟩ | rfl | ⟨rfl, -⟩
      · simp [Closer.remaining] at hr
      · exact .inl (.inr (.inl hr))
      · exact .inl (.inr (.inl hr))
    | _ => simp [Closer.remaining] at hr
  · cases hacts with
    | listed => exact .inr (.inr hlive)
    | _ => exact .inl (.inr (.inl hlive))
  · rcases hacts.waiter_cases hw with ⟨before, hb, hi, -⟩ | ⟨hr, -⟩
    · exact .inl (.inr (.inr ⟨before, hb, hi.symm⟩))
    · exact .inl (.inl hr)

/-- An operation that has listed its credentials did so before, or does so now. -/
theorem Acts.listed_cases (h : c'.isListed = true) :
    c.isListed = true ∧ c'.live = c.live ∨ c.phase = .mutating ∧ c' = c.list sh := by
  cases hacts with
  | locked | removed | reopenedAll => simp [isListed] at h
  | listed hp => exact .inr ⟨hp, rfl⟩
  | closed hp | closedAll hp | committed hp | failed hp | timedOut hp
  | drained hp | erased hp | reopened hp => exact .inl ⟨by simp [isListed, hp], rfl⟩
  | _ => exact .inl ⟨h, rfl⟩

/-- An operation that has committed did so before, or removes its subject now. -/
theorem Acts.committed_cases (hr : c.Regular) (h : c'.isCommitted = true) :
    c.isCommitted = true ∨ sh'.auth = c.removed sh := by
  cases hacts with
  | idle | sawZero | waiterEvicted | waiterStale => exact .inl h
  | committed | removed => exact .inr rfl
  | closedAll => cases he : c.operation.isErasure <;> simp [isCommitted, he] at h
  | timedOut hp | drained hp =>
    cases he : c.operation.isErasure with
    | true => simp [isCommitted, he] at h
    | false => exact .inl (by simp [isCommitted, hp, he])
  | erased hp hnext =>
    rcases hnext with ⟨rfl, -⟩ | rfl | ⟨rfl, -⟩ <;> simp [isCommitted] at h
  | @reopenedAll _ result writer hp hw =>
    obtain ⟨hre, hf⟩ := hr.reopens [] result hp
    cases result with
    | done => exact absurd rfl (hre h)
    | failed => simp [isCommitted] at h
    | timedOut => cases hf (by simpa [isCommitted] using h)
  | _ => simp [isCommitted, list] at h

end

/-- The credentials that an operation lists are covered by it. -/
theorem covers_of_identities
    (hr : ∀ owner, sh.auth.owner i = some owner → auth₀.owner i = some owner)
    (ho : ∀ (e : Nat) (lease : LeaseEntry) (o : Text × Text), sh.leases.table[i]? = some e →
      sh.leases.heap[e]? = some lease → lease.owner = some o → auth₀.owner i = some o)
    (h : i ∈ c.identities sh ∨ i ∈ c.liveIdentities sh) : c.Covers auth₀ i := by
  unfold Closer.identities Closer.liveIdentities at h
  cases hsubject : c.operation.subject with
  | none => simp [hsubject] at h
  | some subj =>
    have h : i ∈ subj.live sh.auth ∨ i ∈ subj.tracked sh.leases := by
      rcases h with h | h
      · simpa [hsubject] using h
      · exact .inl (by simpa [hsubject] using h)
    refine ⟨subj, hsubject, ?_⟩
    rcases h with hlive | ht
    · exact (Subject.mem_live.1 hlive).mono hr
    · exact Subject.covers_of_tracked ho ht

/-- An operation after its own action. -/
theorem Acts.closerSound (hacts : Acts sh (.closer c) sh' (.closer c'))
    (hr : ∀ i owner, sh.auth.owner i = some owner → auth₀.owner i = some owner)
    (how : ∀ (i : CredentialIdentity) (e : Nat) (lease : LeaseEntry) (o : Text × Text),
      sh.leases.table[i]? = some e → sh.leases.heap[e]? = some lease → lease.owner = some o →
      auth₀.owner i = some o) (h : CloserSound auth₀ sh c) : CloserSound auth₀ sh' c' := by
  have hkept := closerSound_frame h hacts.extends fun i owner => hacts.owner_of
  have hc : ∀ i, c'.Covers auth₀ i ↔ c.Covers auth₀ i := by
    intro i
    rw [Closer.Covers, Closer.Covers, hacts.operation_eq]
  refine ⟨hacts.regular h.regular, ?_, ?_, ?_, ?_⟩
  · intro wt hw
    rcases hacts.waiter_cases hw with ⟨before, hb, hidn, he⟩ | ⟨-, hst⟩
    · rw [hidn, he]
      exact hkept.filed before hb
    · exact hst
  · intro i hi
    rw [hc]
    rcases hacts.lists_cases hi with hli | hid
    · exact h.covered i hli
    · exact covers_of_identities (hr i) (how i) hid
  · intro hl i hi hlive
    rw [hc] at hi
    rcases hacts.listed_cases hl with ⟨hb, hsame⟩ | ⟨-, rfl⟩
    · rw [hsame]
      exact hkept.complete hb i hi hlive
    · obtain ⟨subj, hsubject, hi⟩ := hi
      obtain ⟨owner, ho⟩ := Option.ne_none_iff_exists'.1 hlive
      have ho := hacts.owner_of ho
      have hmem := Subject.mem_live.2 (hi.of_owner (hr i owner ho) ho)
      simpa [list, Closer.liveIdentities, hsubject] using hmem
  · intro hcommitted i hi
    rw [hc] at hi
    rcases hacts.committed_cases h.regular hcommitted with hb | hnow
    · exact hkept.committed hb i hi
    · rw [hnow]
      exact owner_removed_eq_none (hr i) hi

end AuthTask

/-! ## Every interleaving -/

namespace Sound

open AuthTask

variable {auth₀ : AuthSystem} {w : World AuthState AuthTask}

/-- What the entry of a credential is bound to. -/
theorem owners_of_table (hs : Sound auth₀ w) {e : Nat} {lease : LeaseEntry} {owner : Text × Text}
    (ht : w.shared.leases.table[i]? = some e) (hheap : w.shared.leases.heap[e]? = some lease)
    (ho : lease.owner = some owner) : auth₀.owner i = some owner := by
  obtain ⟨lease', hheap', rfl⟩ := hs.filed.filed i e ht
  rw [hheap] at hheap'
  cases hheap'
  exact hs.owners e lease owner hheap ho

variable {task : AuthTask}

section

variable (hs : Sound auth₀ w)
include hs

/-- A task that holds a lock finds its flag set. -/
theorem writer_of_holds (htask : task ∈ w.tasks)
    (h : holdsWrite task = true) : w.shared.writer = true := by
  have hpos := hs.writer.pos htask h
  cases hw : w.shared.writer with
  | true => rfl
  | false => simp [hw] at hpos

theorem mutation_of_holds (htask : task ∈ w.tasks)
    (h : holdsMutation task = true) : w.shared.mutation = true := by
  have hpos := hs.mutation.pos htask h
  cases hm : w.shared.mutation with
  | true => rfl
  | false => simp [hm] at hpos

theorem regular (hc : .closer c ∈ w.tasks) : c.Regular :=
  CloserSound.regular (hs.tasks _ hc)

end

variable {task' : AuthTask} {sh' : AuthState}

variable (hs : Sound auth₀ w)
include hs

/-- Entries are bound to the owner of their credential. -/
theorem owners_act (htask : task ∈ w.tasks) (hacts : Acts w.shared task sh' task') (e : Nat)
    (lease : LeaseEntry) (owner : Text × Text) (hheap : sh'.leases.heap[e]? = some lease)
    (ho : lease.owner = some owner) : auth₀.owner lease.identity = some owner := by
  -- a write that does not touch the owner
  have hwr : ∀ {ls : LeaseTable} {own : Nat} {before after : LeaseEntry}
      {cur : Option Nat}, LeaseTable.Writes w.shared.leases ls own before after cur →
      after.owner = before.owner → ls.heap[e]? = some lease →
      auth₀.owner lease.identity = some owner := by
    intro ls own before after cur hw hsame hheap
    rw [hw.heap] at hheap
    split at hheap
    · cases hheap
      rw [hw.identity]
      rcases hw.current_or_new with ⟨-, hb⟩ | ⟨-, -, hnew⟩
      · exact hs.owners own before owner hb (hsame.symm.trans ho)
      · rw [hsame, hnew] at ho
        cases ho
    · exact hs.owners e lease owner hheap ho
  cases hacts with
  | acquired hi hac hw | released hi ha hw
  | evicted hi hidle hw | closed hp hin hw
  | reopened hp hin hw | waiterEvicted hsp hin hp hidle hw => exact hwr hw rfl hheap
  | @bound i own principal before ls ha hb hw =>
    have hheap := (hw.heap e).symm.trans hheap
    split at hheap
    · cases hheap
      cases ho
      -- the record of the credential is still there, and has the owner it had at the start
      have hso : RequestSound w.shared ⟨i, .resolved own principal⟩ := hs.tasks _ htask
      obtain ⟨cur, hc, hi⟩ := hso.filed own rfl
      have hr := hs.records i _ (hso.resolved own principal rfl)
      rcases hw.current_or_new with ⟨-, hold⟩ | ⟨-, hnone, -⟩
      · rw [hc] at hold
        cases hold
        exact (congrArg auth₀.owner hi).trans hr
      · rw [hc] at hnone
        cases hnone
    · exact hs.owners e lease owner hheap ho
  | _ => exact hs.owners e lease owner hheap ho

/-- The auth lock has no readers while it has a writer. -/
theorem apart_act (hacts : Acts w.shared task sh' task')
    (h : sh'.writer = true) : sh'.readers = 0 := by
  cases hacts with
  | resolved hw =>
    rw [show w.shared.writer = true from h] at hw
    cases hw
  | bound | mismatched =>
    have hzero := hs.apart h
    simp [hzero]
  | @listed c writer hp hfree hw hr =>
    rcases hr with he | hzero
    · simp [hw, he] at h
    · exact hzero
  | @reopenedAll c result writer hp hw =>
    apply hs.apart
    cases he : c.operation.isErasure with
    | true => simpa [hw, he] using h
    | false => simp [hw, he] at h
  | committed => cases h
  | _ => exact hs.apart h

section

variable (htask : task ∈ w.tasks)
include htask

variable (hacts : Acts w.shared task sh' task')
include hacts

/-- The records of a task that reads them do not change. -/
theorem auth_eq_of_reader {r : Request} (hr : .request r ∈ w.tasks)
    (hread : r.holdsRead = true) : sh'.auth = w.shared.auth := by
  have hpos := hs.readers.pos hr hread
  rcases hacts.auth_cases with hsame | ⟨c, rfl, -, hp | ⟨-, hzero⟩⟩
  · exact hsame
  · have hw := hs.writer_of_holds htask (by simp [holdsWrite, Closer.holdsWrite, hp])
    have hzero := hs.apart hw
    omega
  · omega

theorem taskSound_act : TaskSound auth₀ sh' task' := by
  have hself := hs.tasks task htask
  cases task with
  | request r =>
    cases task' with
    | request => exact hacts.requestSound hself
    | closer => cases hacts
  | closer c =>
    cases task' with
    | request => cases hacts
    | closer =>
      exact hacts.closerSound hs.records
        (fun _ _ _ _ ht hheap ho => hs.owners_of_table ht hheap ho) hself

theorem taskSound_other {o : AuthTask} (ho : o ∈ w.tasks) : TaskSound auth₀ sh' o := by
  have hkept := hs.tasks o ho
  cases o with
  | request => exact requestSound_frame hkept hacts.extends (hs.auth_eq_of_reader htask hacts ho)
  | closer => exact closerSound_frame hkept hacts.extends fun _ _ => hacts.owner_of

end

/-- The invariant after the action of one task. -/
theorem actAt {index : Nat} (hi : w.tasks[index]? = some task)
    (choice : AuthChoice) : Sound auth₀ (program.actAt w index task choice) := by
  have htask : task ∈ w.tasks := List.mem_of_getElem? hi
  have hacts := hs.acts htask choice
  have ht : ∀ {p : AuthTask → Bool} {n : AuthState → Nat}, Program.Tallied p n w →
      n (act w.shared task choice).1 + (p task).toNat =
        n w.shared + (p (act w.shared task choice).2).toNat →
      Program.Tallied p n (program.actAt w index task choice) := by
    intro p n hw hbalance
    have hta := Program.countP_actAt program p choice hi
    have hw : w.tasks.countP p = n w.shared := hw
    show _ = n (act w.shared task choice).1
    have hact : (program.act w.shared task choice).2 = (act w.shared task choice).2 := rfl
    rw [hact] at hta
    omega
  have hr : ∀ c, task = .closer c → c.Regular := by
    rintro c rfl
    exact hs.regular htask
  refine ⟨hacts.filed hs.filed, ?_, ?_, ?_, ?_, hs.apart_act hacts, ?_,
    hs.owners_act htask hacts, ?_⟩
  · exact fun e => ht (hs.leases e) (hacts.lease_count e)
  · exact ht hs.readers (hacts.read_count (hs.readers.pos htask))
  · exact ht hs.writer (hacts.write_count (fun c hc => (hr c hc).commits)
      (fun c hc => (hr c hc).fences) (hs.writer_of_holds htask))
  · exact ht hs.mutation (hacts.mutation_count (fun c hc => (hr c hc).commits)
      (hs.mutation_of_holds htask))
  · exact fun i owner h => hs.records i owner (hacts.owner_of h)
  · exact Program.forall_actAt (hs.taskSound_act htask hacts)
      fun o ho => hs.taskSound_other htask hacts ho

/-- A task that starts holds nothing. -/
theorem start (x : AuthInput) : Sound auth₀ (program.step w (.start x)) := by
  have hsh : (program.step w (.start x)).shared = w.shared := by cases x <;> rfl
  have ht : ∀ {p : AuthTask → Bool} {n : AuthState → Nat}, Program.Tallied p n w →
      p (AuthTask.start w.shared x).2 = false →
      Program.Tallied p n (program.step w (.start x)) := by
    intro p n hw hp
    rw [Program.Tallied, hsh, ← show w.tasks.countP p = n w.shared from hw]
    show (w.tasks ++ [(AuthTask.start w.shared x).2]).countP p = _
    rw [List.countP_append, List.countP_singleton, hp]
    rfl
  refine ⟨?_, ?_, ?_, ?_, ?_, ?_, ?_, ?_, ?_⟩
  · rw [hsh]
    exact hs.filed
  · intro e
    apply ht (hs.leases e)
    cases x <;> rfl
  · apply ht hs.readers
    cases x <;> rfl
  · apply ht hs.writer
    cases x with
    | request => rfl
    | operation operation =>
      cases hi : operation.isInvalid <;>
        simp [AuthTask.start, holdsWrite, Closer.holdsWrite, hi]
  · apply ht hs.mutation
    cases x with
    | request => rfl
    | operation operation =>
      cases hi : operation.isInvalid <;>
        simp [AuthTask.start, holdsMutation, Closer.holdsMutation, hi]
  · rw [hsh]
    exact hs.apart
  · rw [hsh]
    exact hs.records
  · rw [hsh]
    exact hs.owners
  · rw [hsh]
    intro task htask
    rcases List.mem_append.1 htask with htask | htask
    · exact hs.tasks task htask
    · rw [List.mem_singleton.1 htask]
      cases x with
      | request => exact requestSound_unleased rfl
      | operation operation =>
        cases hi : operation.isInvalid with
        | true | false =>
          refine ⟨⟨?_, ?_, ?_, ?_, ?_⟩, ?_, ?_, ?_, ?_⟩ <;>
            simp [hi, isFenced, Closer.Lists, Closer.remaining, isListed,
              isCommitted]

theorem step (ev : Event AuthInput AuthChoice Nat) : Sound auth₀ (program.step w ev) := by
  cases ev with
  | start x => exact hs.start x
  | act index choice =>
    cases hi : w.tasks[index]? with
    | none =>
      rw [Program.step_act_of_none choice hi]
      exact hs
    | some =>
      rw [Program.step_act_of_some choice hi]
      exact hs.actAt hi choice
  | outside elapsed =>
    -- time is read by requests only, in the step that resolves them
    refine ⟨hs.filed, hs.leases, hs.readers, hs.writer, hs.mutation,
      hs.apart, hs.records, hs.owners, fun task htask => ?_⟩
    have hkept := hs.tasks task htask
    cases task with
    | request => exact requestSound_frame hkept (Extends.refl _) fun _ => rfl
    | closer => exact closerSound_frame hkept (Extends.refl _) fun _ _ h => h

end Sound

end AgentOS
