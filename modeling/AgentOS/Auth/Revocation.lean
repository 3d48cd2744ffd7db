import AgentOS.Auth.Residue

/-!
# Revocation

The results of the previous modules, put together for a whole interleaving. When a revocation has
returned `Ok`, no request is admitted under a credential it covers, then or later. When one fails,
every credential that still resolves is admitted. A request whose credential no operation covers is
never turned away, and waits only for the operation in its critical section, which needs nobody else
to leave it. When nothing is in progress the lease table is empty, as long as no failing write
leaves an orphan behind; `orphaned` is a run in which one does.
-/

namespace AgentOS

open Lib AuthSystem AuthTask OrdMap

/-! ## Other credentials -/

namespace Subject

variable {subj : Subject} {auth : AuthSystem} {i : CredentialIdentity} {principal : Principal}

/-- The user and the tenant of other credentials stay. -/
theorem resolve_revoke {user tenant : Text} (huser : ∀ id, subj = .user id → user ≠ id)
    (ht : ∀ id, subj = .tenant id → tenant ≠ id) (h : auth.resolve i user tenant = some principal) :
    (subj.revoke auth).resolve i user tenant = some principal := by
  cases subj with
  | session => exact h
  | apiKey => exact h
  | user id =>
    unfold resolve at h ⊢
    rw [revoke, revokeUser, lookup_erase, if_neg (huser id rfl).symm]
    exact h
  | tenant id =>
    have hne := ht id rfl
    unfold resolve at h ⊢
    rw [revoke, revokeTenant]
    dsimp only
    rw [lookup_filter]
    cases hr : auth.users[user]? with
    | none => simp [hr] at h
    | some =>
      simp only [hr] at h
      split at h
      · cases h
      · next hv =>
        push Not at hv
        obtain ⟨hsame, hmem⟩ := hv
        simp [Option.filter, hsame, hmem, hne]
        simpa using h

theorem apiKeys_of_revoke {id : Text} {key : ApiKey}
    (h : (subj.revoke auth).apiKeys[id]? = some key) : auth.apiKeys[id]? = some key := by
  cases subj with
  | session => exact h
  | apiKey =>
    simp only [revoke, revokeApiKeyIdentity, if_true, lookup_erase] at h
    split at h
    · cases h
    · exact h
  | user =>
    simp only [revoke, revokeUser, lookup_filter] at h
    exact (Option.filter_eq_some_iff.1 h).1
  | tenant =>
    simp only [revoke, revokeTenant, lookup_filter] at h
    exact (Option.filter_eq_some_iff.1 h).1

theorem sessions_of_revoke {id : Text} {session : Session}
    (h : (subj.revoke auth).sessions[id]? = some session) : auth.sessions[id]? = some session := by
  cases subj with
  | session =>
    simp only [revoke, revokeSessionIdentity, if_true, lookup_erase] at h
    split at h
    · cases h
    · exact h
  | apiKey => exact h
  | user =>
    simp only [revoke, revokeUser, lookup_filter] at h
    exact (Option.filter_eq_some_iff.1 h).1
  | tenant =>
    simp only [revoke, revokeTenant, lookup_filter] at h
    exact (Option.filter_eq_some_iff.1 h).1

/-- A credential that the subject does not cover resolves as before. -/
theorem authenticate_revoke {now : Nat} (hc : ¬ subj.Covers auth.owner i)
    (h : auth.authenticateIdentity now i = some principal) :
    (subj.revoke auth).authenticateIdentity now i = some principal := by
  have ho := auth.owner_of_authenticateIdentity h
  have hkept := (subj.owner_revoke auth).2 ⟨ho, hc⟩
  have huser : ∀ id, subj = .user id → principal.userId ≠ id := by
    rintro id rfl rfl
    exact hc ⟨_, ho⟩
  have hte : ∀ id, subj = .tenant id → principal.tenantId ≠ id := by
    rintro id rfl rfl
    exact hc ⟨_, ho⟩
  obtain ⟨kind, id⟩ := i
  cases kind with
  | apiKey =>
    obtain ⟨key, hkey, hp⟩ := Option.map_eq_some_iff.1 hkept
    obtain ⟨hu, ht⟩ := Prod.mk.inj hp
    rw [← hu] at huser
    rw [← ht] at hte
    simp only [authenticateIdentity, authenticateApiKeyIdentity, hkey,
      apiKeys_of_revoke hkey] at h ⊢
    exact resolve_revoke huser hte h
  | session =>
    obtain ⟨session, hse, hp⟩ := Option.map_eq_some_iff.1 hkept
    obtain ⟨hu, ht⟩ := Prod.mk.inj hp
    rw [← hu] at huser
    rw [← ht] at hte
    simp only [authenticateIdentity, authenticateSessionIdentity, hse,
      sessions_of_revoke hse] at h ⊢
    split at h
    · cases h
    · next hf =>
      rw [if_neg hf]
      exact resolve_revoke huser hte h

end Subject

/-! ## A request on its own -/

/-- The auth lock is taken under `auth_mutation_lock`. -/
theorem Closer.holdsMutation_of_holdsWrite (cl : Closer) (h : cl.holdsWrite = true) :
    cl.holdsMutation = true := by
  unfold holdsWrite at h
  split at h
  · next hp => simp [holdsMutation, hp]
  · next hp => simp [holdsMutation, hp]
  · next hp => simp [holdsMutation, hp]
  · cases h

/-- A request for the credential that nobody disturbs is admitted. -/
def AuthState.admits (shared : AuthState) (i : CredentialIdentity) : Bool :=
  let leased := (Request.mk i .arriving).act shared false
  let resolved := leased.2.act leased.1 false
  (resolved.2.act resolved.1 false).2.isAdmitted

/-- How far a request has come on the way to its admission. -/
def Request.stage (request : Request) : Option Nat :=
  match request.phase with
  | .arriving => some 0
  | .leased _ => some 1
  | .resolved _ _ => some 2
  | .admitted _ _ => some 3
  | _ => none

namespace Sound

open AuthTask

variable {auth₀ : AuthSystem} {w : World AuthState AuthTask} {i : CredentialIdentity}
  {principal : Principal}

variable (hs : Sound auth₀ w)
include hs

/-- The current entry of a credential is bound to nobody else. -/
theorem owner_entryOf (hauth : w.shared.auth.authenticateIdentity w.shared.now i = some principal) :
    (w.shared.leases.entryOf i).owner = none ∨
      (w.shared.leases.entryOf i).owner = some (principal.userId, principal.tenantId) := by
  obtain ⟨hi, hw⟩ := hs.filed.ensure i
  cases ho : (w.shared.leases.entryOf i).owner with
  | none => exact .inl rfl
  | some =>
    right
    rcases hw.current_or_new with ⟨ht, hheap⟩ | ⟨-, -, hnew⟩
    · rw [hi] at ht
      have hb := hs.owners_of_table ht hheap ho
      have hr := hs.records i _ (owner_of_authenticateIdentity _ hauth)
      rw [← hb, hr]
    · rw [hnew] at ho
      cases ho

/-- A credential that resolves and is not closed is admitted while nobody writes the records. -/
theorem admits_of_open (hw : w.shared.writer = false)
    (hauth : w.shared.auth.authenticateIdentity w.shared.now i = some principal)
    (hopen : ∀ e lease, w.shared.leases.Resident i e lease → lease.accepting = true) :
    w.shared.admits i = true := by
  rcases hs.filed.acquire i with ⟨ls, heq, -, hwr⟩ | ⟨-, ht, hheap, hc⟩
  · have hl := hwr.heap (w.shared.leases.number i)
    rw [if_pos rfl] at hl
    rcases hs.owner_entryOf hauth with hnone | hsome
    · simp [AuthState.admits, Request.act, heq, hw, hauth, LeaseTable.bindOwner, hl,
        hnone, Request.isAdmitted]
    · simp [AuthState.admits, Request.act, heq, hw, hauth, LeaseTable.bindOwner, hl,
        hsome, Request.isAdmitted]
  · rw [hopen _ _ ⟨ht, hheap⟩] at hc
    cases hc

/-- A request that has resolved its principal is admitted by its next action. -/
theorem stage_of_resolved {r : Request} {entry : Nat} (hr : .request r ∈ w.tasks)
    (hphase : r.phase = .resolved entry principal) (cancel : Bool) :
    (r.act w.shared cancel).2.stage = some 3 := by
  obtain ⟨lease, hheap, hidentity, hactive⟩ := hs.backed hr entry (by simp [Request.lease, hphase])
  have hrequest : RequestSound w.shared r := hs.tasks _ hr
  have hrecord := hs.records _ _ (hrequest.resolved entry principal hphase)
  cases howner : lease.owner with
  | none => simp [Request.act, hphase, LeaseTable.bindOwner, hheap, howner, Request.stage]
  | some owner =>
    -- the entry is bound to the owner of its credential
    have hbound := hs.owners entry lease owner hheap howner
    rw [hidentity, hrecord] at hbound
    cases hbound
    simp [Request.act, hphase, LeaseTable.bindOwner, hheap, howner, Request.stage]

/-- The auth lock is held for writing by an operation. -/
theorem exists_writer (hwr : w.shared.writer = true) :
    ∃ (index : Nat) (c : Closer), w.tasks[index]? = some (.closer c) ∧ c.holdsWrite = true := by
  have hone : w.tasks.countP holdsWrite = w.shared.writer.toNat := hs.writer
  have hpos : 0 < w.tasks.countP holdsWrite := by
    rw [hone, hwr]
    exact Nat.one_pos
  obtain ⟨task, htask, hw⟩ := List.countP_pos_iff.1 hpos
  obtain ⟨index, hi⟩ := List.mem_iff_getElem?.1 htask
  cases task with
  | request => cases hw
  | closer c => exact ⟨index, c, hi, hw⟩

/-- Nobody writes the records while `auth_mutation_lock` is free. -/
theorem writer_of_mutation (h : w.shared.mutation = false) : w.shared.writer = false := by
  cases hw : w.shared.writer with
  | false => rfl
  | true =>
    obtain ⟨index, c, hi, hwr⟩ := hs.exists_writer hw
    have hm := hs.mutation_of_holds (List.mem_of_getElem? hi) (c.holdsMutation_of_holdsWrite hwr)
    rw [hm] at h
    cases h

end Sound

/-! ## The critical section -/

namespace Closer

/-- What the operation does next in its critical section; `outcome` is the one of its write. -/
def proceed (outcome : CloserChoice) (closer : Closer) : CloserChoice :=
  match closer.phase with
  | .committing => outcome
  | _ => .next 0

/-- An upper bound of the actions up to the end of the critical section. -/
def rank (closer : Closer) : Nat :=
  match closer.phase with
  | .closing remaining => remaining.length + closer.live.length + 3
  | .committing => closer.live.length + 2
  | .reopening remaining _ => remaining.length + 1
  | _ => 0

/-- In its critical section an operation gets on by itself. -/
theorem act_proceed {cl : Closer} (sh : AuthState) {out : CloserChoice}
    (ho : out = .succeed ∨ out = .fail) (hr : cl.Regular) (h : cl.holdsWrite = true) :
    let acted := cl.act sh (cl.proceed out)
    acted.2.operation = cl.operation ∧ acted.1.now = sh.now ∧
      (acted.1.auth = sh.auth ∨ acted.1.auth = cl.removed sh) ∧
      (acted.1.writer = false ∨ acted.2.holdsWrite = true ∧ acted.2.rank < cl.rank) := by
  obtain ⟨op, ph, live, waiters⟩ := cl
  have he : op.isErasure = false := by
    cases ph with
    | closing | reopening => simpa [holdsWrite] using h
    | committing => exact hr.commits rfl
    | _ => cases h
  cases ph with
  | closing left =>
    cases left with
    | nil | cons => simp [proceed, act, advance, closeNext, he, holdsWrite, rank]
  | committing =>
    rcases ho with rfl | rfl
    · simp [proceed, act, advance]
    · simp [proceed, act, advance, he, holdsWrite, rank]
  | reopening left r =>
    cases left with
    | nil => simp [proceed, act, advance, reopenNext, he]
    | cons => simp [proceed, act, advance, reopenNext, he, holdsWrite, rank]
  | _ => cases h

end Closer

namespace AuthTask

/-- An operation that fails gives up `auth_mutation_lock` when it returns. -/
theorem Acts.mutation_of_failed {sh sh' : AuthState} {c c' : Closer}
    (hacts : Acts sh (.closer c) sh' (.closer c')) (hr : ∀ r, c.phase ≠ .finished r)
    (hf : c'.phase = .finished .failed) : sh'.mutation = false := by
  cases hacts with
  | idle | sawZero | waiterEvicted | waiterStale => exact absurd hf (hr _)
  | closedAll | timedOut | drained => cases he : c.operation.isErasure <;> simp [he] at hf
  | erased hp hnext => rcases hnext with ⟨rfl, -⟩ | rfl | ⟨rfl, -⟩ <;> cases hf
  | reopenedAll => rfl
  | _ => cases hf

/-- Actions of one operation only. -/
def alone (index : Nat) (choices : List CloserChoice) : List (Event AuthInput AuthChoice Nat) :=
  choices.map fun choice => .act index (.closer choice)

end AuthTask

namespace Bounded

open AuthTask

variable {auth₀ : AuthSystem} {w : World AuthState AuthTask} {i : CredentialIdentity}
  {principal : Principal}

/-- No operation that holds `auth_mutation_lock` covers the credential. -/
def Uncovered (auth₀ : AuthSystem) (w : World AuthState AuthTask) (i : CredentialIdentity) :
    Prop :=
  ∀ c, .closer c ∈ w.tasks → c.holdsMutation = true → ¬ c.Covers auth₀ i

variable (h : Bounded auth₀ w)
include h

/-- A credential that resolves is closed only by an operation that covers it. -/
theorem open_of_uncovered (hu : Uncovered auth₀ w i)
    (hauth : w.shared.auth.authenticateIdentity w.shared.now i = some principal) (e : Nat)
    (lease : LeaseEntry) (hr : w.shared.leases.Resident i e lease) : lease.accepting = true := by
  cases ha : lease.accepting with
  | true => rfl
  | false =>
    exfalso
    have hlive : w.shared.auth.owner i ≠ none := by
      rw [owner_of_authenticateIdentity _ hauth]
      simp
    obtain ⟨task, htask, hb⟩ := h.blocked i e lease hr ha hlive
    cases task with
    | request => exact hb
    | closer c =>
      have hs : CloserSound auth₀ w.shared c := h.sound.tasks _ htask
      exact hu c htask hb.1 (hs.covered i (Closer.lists_of_touches hb.2))

/-- A credential that no operation covers is admitted as soon as the records are not written. -/
theorem admits_of_uncovered (hu : Uncovered auth₀ w i)
    (hauth : w.shared.auth.authenticateIdentity w.shared.now i = some principal)
    (hw : w.shared.writer = false) : w.shared.admits i = true :=
  h.sound.admits_of_open hw hauth (h.open_of_uncovered hu hauth)

/-- A request gets on, or waits for the auth lock, or its credential does not resolve or is covered
by an operation that holds `auth_mutation_lock`. -/
theorem request_advances {r : Request} {stage : Nat} (hr : .request r ∈ w.tasks)
    (hstage : r.stage = some stage) (hbefore : stage < 3) :
    (r.act w.shared false).2.stage = some (stage + 1) ∨
      ((r.act w.shared false).2 = r ∧ w.shared.writer = true) ∨
      w.shared.auth.authenticateIdentity w.shared.now r.identity = none ∨
      ∃ c, .closer c ∈ w.tasks ∧ c.holdsMutation = true ∧ c.Covers auth₀ r.identity := by
  cases hphase : r.phase with
  | arriving =>
    obtain rfl : 0 = stage := by simpa [Request.stage, hphase] using hstage
    rcases h.sound.filed.acquire r.identity with ⟨ls, hacquire, -⟩ | ⟨-, htable, hheap, hclosed⟩
    · left
      simp [Request.act, hphase, hacquire, Request.stage]
    · right
      right
      cases hauth : w.shared.auth.authenticateIdentity w.shared.now r.identity with
      | none => exact .inl rfl
      | some principal =>
        right
        by_contra hnone
        have huncovered : Uncovered auth₀ w r.identity :=
          fun c hc hholds hcovers => hnone ⟨c, hc, hholds, hcovers⟩
        have hopen := h.open_of_uncovered huncovered hauth _ _ ⟨htable, hheap⟩
        rw [hclosed] at hopen
        cases hopen
  | leased entry =>
    obtain rfl : 1 = stage := by simpa [Request.stage, hphase] using hstage
    cases hwriter : w.shared.writer with
    | true => exact .inr (.inl ⟨by simp [Request.act, hphase, hwriter], rfl⟩)
    | false =>
      cases hauth : w.shared.auth.authenticateIdentity w.shared.now r.identity with
      | none => exact .inr (.inr (.inl rfl))
      | some principal =>
        left
        simp [Request.act, hphase, hwriter, hauth, Request.stage]
  | resolved entry principal =>
    obtain rfl : 2 = stage := by simpa [Request.stage, hphase] using hstage
    exact .inl (h.sound.stage_of_resolved hr hphase false)
  | admitted =>
    obtain rfl : 3 = stage := by simpa [Request.stage, hphase] using hstage
    exact absurd hbefore (by decide)
  | dropping | evicting | finished => simp [Request.stage, hphase] at hstage

/-- The operation in its critical section leaves it by its own actions, and the credential is then
admitted. The induction is on the number of actions that are left. -/
theorem admits_after {out : CloserChoice} (hou : out = .succeed ∨ out = .fail)
    (hu : Uncovered auth₀ w i)
    (hauth : w.shared.auth.authenticateIdentity w.shared.now i = some principal) {index : Nat}
    {c : Closer} (hi : w.tasks[index]? = some (.closer c)) (hw : c.holdsWrite = true) :
    ∃ choices : List CloserChoice, (∀ choice ∈ choices, choice = .next 0 ∨ choice = out) ∧
      (program.interleave w (alone index choices)).shared.admits i = true := by
  induction hrank : c.rank using Nat.strong_induction_on generalizing w c with
  | _ n ih =>
    have hc : .closer c ∈ w.tasks := List.mem_of_getElem? hi
    obtain ⟨hop, hnow, hr, hnext⟩ :=
      Closer.act_proceed w.shared hou (h.sound.regular hc) hw
    have hnot := hu c hc (c.holdsMutation_of_holdsWrite hw)
    generalize hcho : c.proceed out = choice at *
    have ha : choice = .next 0 ∨ choice = out := by
      rw [← hcho, Closer.proceed]
      split
      · exact .inr rfl
      · exact .inl rfl
    have hstep : program.step w (.act index (.closer choice)) =
        program.actAt w index (.closer c) (.closer choice) :=
      Program.step_act_of_some _ hi
    have hb := h.step (.act index (.closer choice))
    rw [hstep] at hb
    have hu' : Uncovered auth₀
        (program.actAt w index (.closer c) (.closer choice)) i := by
      intro d hd hm
      rcases Program.mem_actAt hd with heq | ⟨pos, -, hp⟩
      · -- the acting operation is still the same operation
        cases heq
        rw [Closer.Covers, hop]
        exact hnot
      · exact hu d (List.mem_of_getElem? hp) hm
    have hauth' : (c.act w.shared choice).1.auth.authenticateIdentity
        (c.act w.shared choice).1.now i = some principal := by
      rw [hnow]
      rcases hr with hsame | hre
      · rw [hsame]
        exact hauth
      · rw [hre, Closer.removed]
        split
        · exact hauth
        · next subj hsubject =>
          apply Subject.authenticate_revoke _ hauth
          intro hcovers
          exact hnot ⟨subj, hsubject, hcovers.mono (h.sound.records i)⟩
    rcases hnext with hfree | ⟨hw', hless⟩
    · refine ⟨[choice], by simpa using ha, ?_⟩
      show (program.step w (.act index (.closer choice))).shared.admits i = true
      rw [hstep]
      exact hb.admits_of_uncovered hu' hauth' hfree
    · have hi' : (program.actAt w index (.closer c)
          (.closer choice)).tasks[index]? = some (.closer (c.act w.shared choice).2) := by
        rw [Program.actAt, List.getElem?_set_self (List.getElem?_eq_some_iff.1 hi).1]
        rfl
      rw [hrank] at hless
      obtain ⟨choices, hch, had⟩ :=
        ih _ hless hb hu' hauth' hi' hw' rfl
      refine ⟨choice :: choices, ?_, ?_⟩
      · intro o ho
        rcases List.mem_cons.1 ho with rfl | ho
        · exact ha
        · exact hch o ho
      · show (program.interleave (program.step w
          (.act index (.closer choice))) (alone index choices)).shared.admits i = true
        rw [hstep]
        exact had

/-- A request whose credential no operation covers is admitted, at the latest when the operation in
its critical section has left it. -/
theorem admits_uncovered {out : CloserChoice} (ho : out = .succeed ∨ out = .fail)
    (hu : Uncovered auth₀ w i)
    (hauth : w.shared.auth.authenticateIdentity w.shared.now i = some principal) :
    ∃ index, ∃ choices : List CloserChoice, (∀ choice ∈ choices, choice = .next 0 ∨ choice = out) ∧
      (program.interleave w (alone index choices)).shared.admits i = true := by
  cases hw : w.shared.writer with
  | false => exact ⟨0, [], by simp, h.admits_of_uncovered hu hauth hw⟩
  | true =>
    obtain ⟨index, c, hi, hwr⟩ := h.sound.exists_writer hw
    exact ⟨index, h.admits_after ho hu hauth hi hwr⟩

/-- When an operation has failed, every credential that resolves is admitted. -/
theorem admits_of_failed {index : Nat} {choice : AuthChoice} {c c' : Closer}
    (hi : w.tasks[index]? = some (.closer c)) (hr : ∀ r, c.phase ≠ .finished r)
    (hi' : (program.step w (.act index choice)).tasks[index]? = some (.closer c'))
    (hf : c'.phase = .finished .failed)
    (hauth : (program.step w (.act index choice)).shared.auth.authenticateIdentity (program.step w
      (.act index choice)).shared.now i = some principal) :
    (program.step w (.act index choice)).shared.admits i = true := by
  have hb := h.step (.act index choice)
  have hfree : (program.step w (.act index choice)).shared.mutation = false := by
    have hacts := h.sound.acts (List.mem_of_getElem? hi) choice
    rw [Program.step_act_of_some choice hi] at hi' ⊢
    rw [Program.actAt, List.getElem?_set_self (List.getElem?_eq_some_iff.1 hi).1] at hi'
    have hc' : (act w.shared (.closer c) choice).2 = .closer c' := Option.some.inj hi'
    rw [hc'] at hacts
    show (act w.shared (.closer c) choice).1.mutation = false
    exact hacts.mutation_of_failed hr hf
  refine hb.admits_of_uncovered ?_ hauth (hb.sound.writer_of_mutation hfree)
  intro d hd hm
  rw [hb.sound.mutation_of_holds hd hm] at hfree
  cases hfree

/-- When a revocation has returned `Ok`, no request is admitted under a credential it covers. -/
theorem not_admitted_of_revoked {c : Closer} {r : Request}
    (hc : .closer c ∈ w.tasks) (hre : c.isRevoked = true) (hr : .request r ∈ w.tasks)
    (ha : r.isAdmitted = true) : ¬ c.Covers auth₀ r.identity := by
  intro hcovers
  obtain ⟨he, hp⟩ : c.operation.isErasure = false ∧ c.phase = .finished .done := by
    simpa [Closer.isRevoked] using hre
  obtain ⟨e, principal, hen⟩ := exists_of_isAdmitted ha
  have haw := h.guarded _ hc _ hr (by simp [Closer.isArmed, he, hp]) e principal hen hcovers
  exact Closer.not_awaits_of_drained (by simp [Closer.pending, hp])
    ((h.sound.regular hc).drained (.inr hp)) _ _ haw

end Bounded

/-! ## Whole interleavings -/

namespace AuthTask

/-- The world after an interleaving. -/
def after (auth : AuthSystem) (now : Nat) (events : List (Event AuthInput AuthChoice Nat)) :
    World AuthState AuthTask :=
  AuthTask.program.interleave ⟨AuthState.initial auth now, []⟩ events

/-- The task is a revocation that has returned `Ok`. -/
def Revoked (operation : Operation) (task : AuthTask) : Prop :=
  ∃ c, task = .closer c ∧ c.operation = operation ∧ c.isRevoked = true

/-- A revocation that has returned stays so. -/
theorem revoked_act (op : Operation) (sh : AuthState) (task : AuthTask) (choice : AuthChoice)
    (h : Revoked op task) : Revoked op (act sh task choice).2 := by
  obtain ⟨c, rfl, ho, hr⟩ := h
  obtain ⟨he, hp⟩ : c.operation.isErasure = false ∧ c.phase = .finished .done := by
    simpa [Closer.isRevoked] using hr
  cases choice with
  | cancel => exact ⟨c, rfl, ho, hr⟩
  | closer choice =>
    refine ⟨(c.act sh choice).2, rfl, ?_⟩
    cases choice with
    | waiter =>
      simp only [Closer.act, Closer.isSpawned, hp, if_true, Closer.waiterActs]
      split
      · exact ⟨ho, hr⟩
      · exact ⟨ho, by simp [Closer.isRevoked, he]⟩
    | _ =>
      simp only [Closer.act, Closer.advance, hp]
      exact ⟨ho, hr⟩

/-- Revocation is a boundary in every interleaving of requests, revocations and erasures. -/
theorem revocation_bounds (auth : AuthSystem) (now : Nat)
    (events : List (Event AuthInput AuthChoice Nat)) :
    -- a revocation has returned `Ok`: nothing it covers is admitted any more
    (∀ (index : Nat) (c : Closer), (after auth now events).tasks[index]? = some (.closer c) →
      c.isRevoked = true →
      ∀ (later : List (Event AuthInput AuthChoice Nat)) (r : Request),
        .request r ∈ (AuthTask.program.interleave (after auth now events) later).tasks →
        r.isAdmitted = true → ¬ c.Covers auth r.identity) ∧
    -- an operation fails: whatever resolves is admitted
    (∀ (index : Nat) (choice : AuthChoice) (c c' : Closer),
      (after auth now events).tasks[index]? = some (.closer c) →
      (∀ result, c.phase ≠ .finished result) →
      (after auth now (events ++ [.act index choice])).tasks[index]? = some (.closer c') →
      c'.phase = .finished .failed →
      ∀ (i : CredentialIdentity) (principal : Principal),
        (after auth now (events ++ [.act index choice])).shared.auth.authenticateIdentity
          (after auth now (events ++ [.act index choice])).shared.now i = some principal →
        (after auth now (events ++ [.act index choice])).shared.admits i = true) ∧
    -- an action of a request that was not cancelled: the request gets on towards its admission, or
    -- waits for an operation that writes the records, or the credential does not resolve, or is
    -- covered by an operation that has not returned
    (∀ (index : Nat) (choice : AuthChoice) (r r' : Request) (stage : Nat),
      (after auth now events).tasks[index]? = some (.request r) → choice ≠ .cancel →
      (after auth now (events ++ [.act index choice])).tasks[index]? = some (.request r') →
      r.stage = some stage → stage < 3 →
      r'.stage = some (stage + 1) ∨
        (r' = r ∧ ∃ c, .closer c ∈ (after auth now events).tasks ∧ c.holdsWrite = true) ∨
        (after auth now events).shared.auth.authenticateIdentity (after auth now events).shared.now
          r.identity = none ∨
        ∃ c, .closer c ∈ (after auth now events).tasks ∧ c.holdsMutation = true ∧
          c.Covers auth r.identity) ∧
    -- other credentials: admitted, at the latest when the critical section has been left
    (∀ (i : CredentialIdentity) (principal : Principal),
      (after auth now events).shared.auth.authenticateIdentity (after auth now events).shared.now
        i = some principal →
      (∀ c, .closer c ∈ (after auth now events).tasks → c.holdsMutation = true →
        ¬ c.Covers auth i) →
      ∀ outcome, outcome = CloserChoice.succeed ∨ outcome = CloserChoice.fail →
      ∃ index, ∃ choices : List CloserChoice,
        (∀ choice ∈ choices, choice = .next 0 ∨ choice = outcome) ∧
        (AuthTask.program.interleave (after auth now events)
          (alone index choices)).shared.admits i = true) ∧
    -- nothing is in progress: the table is empty, unless a failing write left an orphan
    (EachAfter (fun pre event => leavesNoOrphan (after auth now pre) event = true) events →
      (∀ task ∈ (after auth now events).tasks, task.isOver = true) →
      ∀ i : CredentialIdentity, (after auth now events).shared.leases.table[i]? = none) := by
  have hbounded : Bounded auth (after auth now events) := Bounded.run auth now events
  refine ⟨?_, ?_, ?_, ?_, ?_⟩
  · intro index c hindex hrevoked later r hr hadmitted
    have hpersists : ∃ task,
        (AuthTask.program.interleave (after auth now events) later).tasks[index]? = some task ∧
          Revoked c.operation task :=
      Program.task_run (revoked_act c.operation) ⟨_, hindex, c, rfl, rfl, hrevoked⟩ later
    obtain ⟨task, htask, d, rfl, hoperation, hstill⟩ := hpersists
    have hlater : Bounded auth (AuthTask.program.interleave (after auth now events) later) :=
      run_invariant (P := Bounded auth) hbounded (fun _ event h => h.step event) later
    have hnot := hlater.not_admitted_of_revoked (List.mem_of_getElem? htask) hstill hr hadmitted
    rw [Closer.Covers, hoperation] at hnot
    exact hnot
  · intro index choice c c' hindex hrunning hindex' hfailed i principal hauth
    have hsnoc : after auth now (events ++ [.act index choice]) =
        AuthTask.program.step (after auth now events) (.act index choice) := run_snoc _ _ _ _
    rw [hsnoc] at hindex' hauth ⊢
    exact hbounded.admits_of_failed hindex hrunning hindex' hfailed hauth
  · intro index choice r r' stage hindex hchoice hindex' hstage hbefore
    have hsnoc : after auth now (events ++ [.act index choice]) =
        AuthTask.program.step (after auth now events) (.act index choice) := run_snoc _ _ _ _
    have hacted : r' = (r.act (after auth now events).shared false).2 := by
      rw [hsnoc, Program.step_act_of_some choice hindex, Program.actAt,
        List.getElem?_set_self (List.getElem?_eq_some_iff.1 hindex).1] at hindex'
      have hrequest := Option.some.inj hindex'
      simpa [AuthTask.program, AuthTask.act, hchoice] using hrequest.symm
    rw [hacted]
    refine (hbounded.request_advances (List.mem_of_getElem? hindex) hstage hbefore).imp id ?_
    refine Or.imp (fun hwaits => ⟨hwaits.1, ?_⟩) id
    obtain ⟨pos, c, hc, hwrite⟩ := hbounded.sound.exists_writer hwaits.2
    exact ⟨c, List.mem_of_getElem? hc, hwrite⟩
  · intro i principal hauth huncovered outcome houtcome
    exact hbounded.admits_uncovered houtcome huncovered hauth
  · intro hcondition hover i
    exact (Kept.run hcondition).table_empty hbounded.sound hover i

/-- In every interleaving a lease entry counts its holders, the mutation lock has one at most, the
write lock excludes readers, and no credential comes back or changes hands. -/
theorem holders_counted (auth : AuthSystem) (now : Nat)
    (events : List (Event AuthInput AuthChoice Nat)) :
    let ⟨shared, tasks⟩ := after auth now events
    (∀ entry, tasks.countP (holdsLease entry) = shared.active entry) ∧
      tasks.countP holdsMutation ≤ 1 ∧
      (tasks.countP holdsWrite = 0 ∨ tasks.countP holdsWrite = 1 ∧ tasks.countP holdsRead = 0) ∧
      ∀ i, shared.auth.owner i = none ∨ shared.auth.owner i = auth.owner i := by
  have hs : Sound auth (after auth now events) := (Bounded.run auth now events).sound
  generalize after auth now events = world at hs
  refine ⟨hs.leases, hs.mutation.trans_le (Bool.toNat_le _), ?_, fun i => ?_⟩
  · rw [hs.writer, hs.readers]
    cases h : world.shared.writer with
    | false => exact .inl (congrArg Bool.toNat h)
    | true => exact .inr ⟨congrArg Bool.toNat h, hs.apart h⟩
  · cases h : world.shared.auth.owner i with
    | none => exact .inl rfl
    | some owner => exact .inr (hs.records i owner h).symm

/-! ## Runs of one session -/

/-- One tenant with one user and one session. -/
def soleSession : AuthSystem where
  tenants := ["t".toList]
  users := (∅ : OrdMap Text User).insert "u".toList ⟨"t".toList, .user⟩
  sessions := (∅ : OrdMap Text Session).insert "s".toList ⟨"u".toList, "t".toList, 100⟩
  apiKeys := ∅

/-- A request is admitted under the session, which is then revoked; the drain waits for the request.
A revocation of the user has listed the session's entry meanwhile. -/
def overlapping : List (Event AuthInput AuthChoice Nat) :=
  [.start (.request ⟨.session, "s".toList⟩)] ++
    List.replicate 3 (.act 0 (.closer (.next 0))) ++
    [.start (.operation (.revoke (.session "s".toList)))] ++
    List.replicate 4 (.act 1 (.closer (.next 0))) ++ [.act 1 (.closer .succeed)] ++
    [.start (.operation (.revoke (.user "u".toList)))] ++
    List.replicate 2 (.act 2 (.closer (.next 0)))

/-- The request ends and the first revocation returns. -/
def firstReturns : List (Event AuthInput AuthChoice Nat) :=
  List.replicate 2 (.act 0 (.closer (.next 0))) ++
    List.replicate 2 (.act 1 (.closer (.waiter 0))) ++ [.act 1 (.closer .succeed)]

/-- The second revocation closes the entry, and its write fails. -/
def secondFails : List (Event AuthInput AuthChoice Nat) :=
  List.replicate 2 (.act 2 (.closer (.next 0))) ++
    [.act 2 (.closer .fail), .act 2 (.closer (.next 0))]

set_option maxRecDepth 100000 in
/-- If the second revocation fails while the first one drains, the table ends empty. -/
theorem drainedAfter_empty :
    ∀ i : CredentialIdentity,
      (after soleSession 0 (overlapping ++ secondFails ++ firstReturns)).shared.leases.table[i]? =
        none := by
  obtain ⟨-, -, -, -, hempty⟩ :=
    revocation_bounds soleSession 0 (overlapping ++ secondFails ++ firstReturns)
  refine hempty ?_ ?_
  · apply eachAfter_of_take
    decide +kernel
  · decide +kernel

set_option maxRecDepth 100000 in
/-- If the first revocation returns before the second one closes the session again, the second one
makes a new closed entry and leaves it in the table when it fails. -/
theorem orphaned :
    (∀ task ∈ (after soleSession 0 (overlapping ++ firstReturns ++ secondFails)).tasks,
      task.isOver = true) ∧
    (after soleSession 0 (overlapping ++ firstReturns ++ secondFails)).shared.leases.table[
      (⟨.session, "s".toList⟩ : CredentialIdentity)]? = some 1 := by
  decide +kernel

end AuthTask

end AgentOS
