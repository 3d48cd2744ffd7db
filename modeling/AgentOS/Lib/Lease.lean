import AgentOS.Lib.Run

/-!
# Fenced leases

An abstract lease names its holder, a fencing token that identifies the grant, a revision that
counts every change, and the period in which it is valid. A lease may be granted when there is
none, when the present one is released or when it has expired; it may be renewed while it is live
and unexpired, and released while it is live. Every change happens at a later instant than the one
before it.

Along every history of such changes the revisions count from one, the tokens never go back, a
released token is never live again, and a grant begins when the grants before it have ended
(`exclusive`).
-/

namespace AgentOS.Lib

/-- One version of a lease. -/
structure Lease (N T : Type) where
  holder : N
  (token revision : Nat)
  live : Bool
  (since expiry : T)

/-- The kinds of change. -/
inductive LeaseOp
  | grant
  | renew
  | release
  deriving DecidableEq

variable {N T : Type} [LinearOrder T]

/-- One change of a lease. -/
inductive LeaseStep : LeaseOp → Option (Lease N T) → Lease N T → Prop
  | first (holder : N) {now expiry : T} (positive : now < expiry) :
      LeaseStep .grant none ⟨holder, 1, 1, true, now, expiry⟩
  | regrant (previous : Lease N T) (holder : N) {now expiry : T} (clock : previous.since < now)
      (ended : previous.live = true → previous.expiry ≤ now) (positive : now < expiry) :
      LeaseStep .grant (some previous)
        ⟨holder, previous.token + 1, previous.revision + 1, true, now, expiry⟩
  | renew (previous : Lease N T) {now expiry : T} (clock : previous.since < now)
      (live : previous.live = true) (unexpired : now < previous.expiry)
      (positive : now < expiry) :
      LeaseStep .renew (some previous)
        ⟨previous.holder, previous.token, previous.revision + 1, true, now, expiry⟩
  | release (previous : Lease N T) {now : T} (clock : previous.since < now)
      (live : previous.live = true) :
      LeaseStep .release (some previous)
        ⟨previous.holder, previous.token, previous.revision + 1, false, now, now⟩

namespace LeaseStep

variable {op : LeaseOp} {previous : Option (Lease N T)} {p q : Lease N T}

/-- A live lease is valid for some time; a released one ends when it is released. -/
theorem period (h : LeaseStep op previous q) :
    (q.live = true → q.since < q.expiry) ∧ (q.live = false → q.expiry = q.since) := by
  cases h with
  | first _ hp | regrant _ _ _ _ hp | renew _ _ _ _ hp =>
    exact ⟨fun _ => hp, fun h => absurd h (by simp)⟩
  | release _ _ _ => exact ⟨fun h => absurd h (by simp), fun _ => rfl⟩

variable (h : LeaseStep op (some p) q)
include h

theorem revision : q.revision = p.revision + 1 := by
  cases h <;> rfl

theorem since_lt : p.since < q.since := by
  cases h with
  | regrant _ _ hc _ _ | renew _ hc _ _ _ | release _ hc _ => exact hc

/-- A grant takes the next token; every other change keeps the token of a live lease. -/
theorem token :
    (op = .grant → q.token = p.token + 1 ∧ q.live = true) ∧
      (op ≠ .grant → q.token = p.token ∧ q.holder = p.holder ∧ p.live = true) := by
  cases h with
  | regrant _ _ _ _ _ => exact ⟨fun _ => ⟨rfl, rfl⟩, fun h => absurd rfl h⟩
  | renew _ _ hlive _ _ | release _ _ hlive =>
    exact ⟨fun h => absurd h (by decide), fun _ => ⟨rfl, rfl, hlive⟩⟩

end LeaseStep

/-! ## Histories -/

/-- What holds between an earlier and a later version. -/
structure Lease.Before (p q : Lease N T) : Prop where
  revision : p.revision < q.revision
  since : p.since < q.since
  token : p.token ≤ q.token
  fenced : p.live = false → p.token < q.token

theorem Lease.Before.trans {p q r : Lease N T} (h : p.Before q) (h' : q.Before r) :
    p.Before r where
  revision := h.revision.trans h'.revision
  since := h.since.trans h'.since
  token := h.token.trans h'.token
  fenced hdead := (h.fenced hdead).trans_le h'.token

theorem LeaseStep.before {op : LeaseOp} {p q : Lease N T} (h : LeaseStep op (some p) q) :
    p.Before q := by
  obtain ⟨hg, ho⟩ := h.token
  have hr := h.revision
  by_cases hop : op = .grant
  · obtain ⟨ht, -⟩ := hg hop
    exact ⟨by omega, h.since_lt, by omega, fun _ => by omega⟩
  · obtain ⟨ht, -, hlive⟩ := ho hop
    exact ⟨by omega, h.since_lt, by omega, fun hdead => absurd (hlive.symm.trans hdead) (by simp)⟩

namespace Lease

variable {log : List (LeaseOp × Lease N T)}

theorem pairwise_before (h : Linked LeaseStep log) : log.Pairwise fun p q => p.2.Before q.2 := by
  have ht : IsTrans (LeaseOp × Lease N T) fun p q => p.2.Before q.2 :=
    ⟨fun _ _ _ => Before.trans⟩
  exact (h.isChain.imp fun _ _ => LeaseStep.before).pairwise

/-- The revisions of a history count from one. -/
theorem map_revision (h : Linked LeaseStep log) :
    log.map (fun p => p.2.revision) = List.range' 1 log.length := by
  induction log using List.reverseRecOn with
  | nil => rfl
  | append_singleton log q ih =>
    obtain ⟨hlog, hq⟩ := linked_snoc.1 h
    have hr : q.2.revision = log.length + 1 := by
      rcases List.eq_nil_or_concat log with rfl | ⟨prior, p, rfl⟩
      · -- the first change is a grant out of nothing
        generalize q.1 = op at hq
        generalize q.2 = lease at hq ⊢
        cases hq
        rfl
      · rw [List.concat_eq_append] at hq hlog ih ⊢
        have hlast := congrArg List.getLast? (ih hlog)
        rw [List.getLast?_concat] at hq
        rw [hq.revision]
        simpa [List.getLast?_range'] using hlast
    rw [List.map_append, ih hlog, List.map_singleton, hr, List.length_append,
      List.length_singleton, List.range'_concat]
    simp [Nat.add_comm]

/-- The last version of a grant: no version with its token is newer. -/
def IsLast (log : List (LeaseOp × Lease N T)) (last : Lease N T) : Prop :=
  (∃ op, (op, last) ∈ log) ∧ ∀ p ∈ log, p.2.token = last.token → p.2.revision ≤ last.revision

omit [LinearOrder T] in
theorem IsLast.snoc {last : Lease N T} {q : LeaseOp × Lease N T} (h : IsLast log last)
    (hq : last.token < q.2.token) : IsLast (log ++ [q]) last := by
  obtain ⟨⟨op, hmem⟩, hn⟩ := h
  refine ⟨⟨op, List.mem_append_left _ hmem⟩, ?_⟩
  intro p hp ht
  rcases List.mem_append.1 hp with hp | hp
  · exact hn p hp ht
  · rw [List.mem_singleton.1 hp] at ht
    omega

/-- A version with a later token than another one starts after the last version of the other grant
has ended. -/
theorem exclusive (h : Linked LeaseStep log) {p q : LeaseOp × Lease N T} (hp : p ∈ log)
    (hq : q ∈ log) (ht : p.2.token < q.2.token) :
    ∃ last, IsLast log last ∧ last.token = p.2.token ∧ last.expiry ≤ q.2.since := by
  induction log using List.reverseRecOn generalizing q with
  | nil => exact absurd hp (by simp)
  | append_singleton log x ih =>
    obtain ⟨hlog, hx⟩ := linked_snoc.1 h
    obtain ⟨-, -, hb⟩ := List.pairwise_append.1 (pairwise_before h)
    replace hb : ∀ r ∈ log, r.2.Before x.2 := fun r hr => hb r hr x (by simp)
    -- the version with the smaller token is not the newest one
    have hp' : p ∈ log := by
      rcases List.mem_append.1 hp with hp | hp
      · exact hp
      · rw [List.mem_singleton.1 hp] at ht
        rcases List.mem_append.1 hq with hq | hq
        · have := (hb q hq).token
          omega
        · rw [List.mem_singleton.1 hq] at ht
          omega
    have he : ∀ r ∈ log, p.2.token < r.2.token → r.2.since ≤ q.2.since →
        r.2.token ≤ x.2.token →
        ∃ last, IsLast (log ++ [x]) last ∧ last.token = p.2.token ∧
          last.expiry ≤ q.2.since := by
      intro r hr hlt hs hle
      obtain ⟨last, hlast, ht', hexp⟩ := ih hlog hp' hr hlt
      exact ⟨last, hlast.snoc (by omega), ht', hexp.trans hs⟩
    rcases List.mem_append.1 hq with hq | hq
    · exact he q hq ht le_rfl (hb q hq).token
    · obtain rfl := List.mem_singleton.1 hq
      obtain ⟨prior, top, rfl⟩ : ∃ prior top, log = prior ++ [top] := by
        rcases List.eq_nil_or_concat log with rfl | ⟨prior, top, rfl⟩
        · exact absurd hp' (by simp)
        · exact ⟨prior, top, List.concat_eq_append⟩
      have hn : top ∈ prior ++ [top] := by simp
      rw [List.getLast?_concat] at hx
      have hs := (hb top hn).since
      by_cases hlt : p.2.token < top.2.token
      · exact he top hn hlt hs.le (hb top hn).token
      · -- the newest version belongs to the grant that ends here
        obtain ⟨-, -, hle⟩ := List.pairwise_append.1 (pairwise_before hlog)
        have hle : ∀ r ∈ prior ++ [top], r.2.token ≤ top.2.token ∧
            r.2.revision ≤ top.2.revision := by
          intro r hr
          rcases List.mem_append.1 hr with hr | hr
          · have hr' := hle r hr top (by simp)
            exact ⟨hr'.token, hr'.revision.le⟩
          · rw [List.mem_singleton.1 hr]
            exact ⟨le_rfl, le_rfl⟩
        have heq : top.2.token = p.2.token := by
          have := (hle p hp').1
          omega
        refine ⟨top.2, IsLast.snoc ⟨⟨top.1, hn⟩, fun r hr _ => (hle r hr).2⟩ (by omega), heq, ?_⟩
        have hen : top.2.live = false → top.2.expiry ≤ q.2.since := by
          intro hdead
          have hpe := hlog.forall_mem
            (P := fun lease => lease.live = false → lease.expiry = lease.since)
            (fun _ _ _ hstep => hstep.period.2) top hn
          rw [hpe hdead]
          exact hs.le
        generalize q.1 = op at hx
        generalize q.2 = lease at hx ht hen
        cases hx with
        | regrant _ _ _ hre _ =>
          cases hlive : top.2.live with
          | true => exact hre hlive
          | false => exact hen hlive
        | renew _ _ _ _ _ | release _ _ _ => exact absurd ht (by simpa using hlt)

end Lease

end AgentOS.Lib
