import AgentOS.Authority.Apply
import AgentOS.Base.Word
import AgentOS.Lib.Durable

/-!
# The durable Raft log

`ClusterRaftLogStore`: the rows of the log under their indices, the vote, and the committed and
last-purged pointers. A call runs in one transaction. The applied pointer that an append reads
belongs to the state machine and comes with the call, as the outcome of loading that state.

`committed_entries_immutable`: along every run of calls the vote and the two pointers only advance,
a row at a committed index keeps its bytes until a purge that reaches it, and no row appears at a
committed index that had none.
-/

namespace AgentOS

open Lib

/-! ## Orders of votes and pointers -/

/-- The order of votes that the consensus library brings, `Vote::partial_cmp`. -/
structure VoteOrder where
  partialCmp : Vote → Vote → Option Ordering

/-- The vote may replace the current one. -/
def VoteOrder.le (V : VoteOrder) (current vote : Vote) : Prop :=
  V.partialCmp current vote = some .lt ∨ V.partialCmp current vote = some .eq

instance (V : VoteOrder) (current vote : Vote) : Decidable (V.le current vote) :=
  inferInstanceAs (Decidable (_ ∨ _))

/-- What the results ask of that order. -/
structure VoteOrder.Lawful (V : VoteOrder) : Prop where
  le_refl : ∀ vote, V.le vote vote
  le_trans : ∀ u v w, V.le u v → V.le v w → V.le u w

/-- A pointer advances to a higher index or stays. -/
def LogId.le (current next : LogId) : Prop := current.index < next.index ∨ current = next

/-- The test with which `save_committed` and `purge` refuse to move a pointer. -/
def LogId.regresses (current next : LogId) : Bool :=
  next.index < current.index || (next.index == current.index && next ≠ current)

/-! ## The store and its calls -/

/-- The rows of `cluster_raft_log` and the rows `vote`, `committed` and `last_purged` of the
metadata table. The committed row holds an optional pointer itself. -/
structure RaftLogStore where
  log : OrdMap Nat (List UInt8)
  vote : Option Vote
  committedRow : Option (Option LogId)
  lastPurged : Option LogId

/-- A database in which no call has been made. -/
def RaftLogStore.empty : RaftLogStore := ⟨∅, none, none, none⟩

/-- `read_meta("committed").flatten()`. -/
def RaftLogStore.committed (store : RaftLogStore) : Option LogId := store.committedRow.join

/-- The refusals of the store. -/
inductive LogStoreError where
  /-- `non-consecutive Raft append {} then {}` -/
  | nonConsecutive (index next : Nat)
  /-- `Raft append starts at {} after durable frontier {frontier}` -/
  | afterFrontier (first frontier : Nat)
  /-- `refusing to overwrite conflicting Raft log index {} without truncation` -/
  | conflicting (index : Nat)
  /-- `refusing to recreate purged or missing committed Raft log index {}` -/
  | recreated (index : Nat)
  /-- `refusing to replace durable vote {current} with non-monotonic vote {vote}` -/
  | voteRegresses (current vote : Vote)
  /-- `refusing to regress committed pointer from {current:?} to {committed:?}` -/
  | committedRegresses (current committed : Option LogId)
  /-- `refusing to truncate committed log at {log_id}; committed pointer is {committed:?}` -/
  | truncatesCommitted (logId : LogId) (committed : Option LogId)
  /-- `refusing to regress last-purged pointer from {current} to {log_id}` -/
  | purgeRegresses (current logId : LogId)
  /-- Reading the state machine or encoding an entry failed. -/
  | storage (message : String)
  deriving DecidableEq

/-- The first loop of `append_entries`, over neighbouring entries. -/
def checkConsecutive : List Entry → Except LogStoreError Unit
  | entry :: next :: rest => do
      rejectIf (next.logId.index ≠ saturatingAdd entry.logId.index 1)
        (.nonConsecutive entry.logId.index next.logId.index)
      checkConsecutive (next :: rest)
  | _ => return ()

/-- The highest index that is stored, applied or purged. -/
def RaftLogStore.durableFrontier (store : RaftLogStore) (lastApplied : Option LogId) :
    Option Nat :=
  [store.log.maxKey?, lastApplied.map LogId.index,
    store.lastPurged.map LogId.index].reduceOption.max?

/-- The entries start at most one past the frontier. -/
def RaftLogStore.checkFrontier (store : RaftLogStore) (lastApplied : Option LogId)
    (entries : List Entry) : Except LogStoreError Unit :=
  match store.durableFrontier lastApplied, entries.head? with
  | some frontier, some first =>
    rejectIf (first.logId.index > saturatingAdd frontier 1)
      (.afterFrontier first.logId.index frontier)
  | _, _ => return ()

/-- One round of the second loop of `append_entries`. -/
def appendEntry (encode : Entry → Except String (List UInt8)) (committed : Option LogId)
    (log : OrdMap Nat (List UInt8)) (entry : Entry) :
    Except LogStoreError (OrdMap Nat (List UInt8)) := do
  let encoded ← (encode entry).mapError .storage
  let existing := log[entry.logId.index]?
  rejectIf (existing.any (· ≠ encoded)) (.conflicting entry.logId.index)
  rejectIf (committed.any fun committed => entry.logId.index ≤ committed.index && existing.isNone)
    (.recreated entry.logId.index)
  return log.insert entry.logId.index encoded

def appendEntries (encode : Entry → Except String (List UInt8)) (store : RaftLogStore)
    (lastApplied : Except String (Option LogId)) (entries : List Entry) :
    Except LogStoreError Unit × RaftLogStore :=
  transaction store do
    checkConsecutive entries
    let lastApplied ← lastApplied.mapError .storage
    store.checkFrontier lastApplied entries
    let log ← entries.foldlM (appendEntry encode store.committed) store.log
    return ((), { store with log })

def saveVote (V : VoteOrder) (store : RaftLogStore) (vote : Vote) :
    Except LogStoreError Unit × RaftLogStore :=
  transaction store do
    match store.vote with
    | some current => rejectIf (¬ V.le current vote) (.voteRegresses current vote)
    | none => pure ()
    return ((), { store with vote := some vote })

/-- The test of `save_committed`. -/
def committedRegresses : Option LogId → Option LogId → Bool
  | some _, none => true
  | some current, some next => current.regresses next
  | none, _ => false

def saveCommitted (store : RaftLogStore) (committed : Option LogId) :
    Except LogStoreError Unit × RaftLogStore :=
  transaction store do
    rejectIf (committedRegresses store.committed committed)
      (.committedRegresses store.committed committed)
    return ((), { store with committedRow := some committed })

def truncate (store : RaftLogStore) (logId : LogId) : Except LogStoreError Unit × RaftLogStore :=
  transaction store do
    rejectIf (store.committed.any fun committed => logId.index ≤ committed.index)
      (.truncatesCommitted logId store.committed)
    return ((), { store with log := store.log.filter fun index _ => index < logId.index })

def purge (store : RaftLogStore) (logId : LogId) : Except LogStoreError Unit × RaftLogStore :=
  transaction store do
    match store.lastPurged with
    | some current => rejectIf (current.regresses logId) (.purgeRegresses current logId)
    | none => pure ()
    return ((), { store with
      lastPurged := some logId
      log := store.log.filter fun index _ => logId.index < index })

/-- A call of the store. An append comes with the applied pointer it reads. -/
inductive LogCall where
  | append (lastApplied : Except String (Option LogId)) (entries : List Entry)
  | saveVote (vote : Vote)
  | saveCommitted (committed : Option LogId)
  | truncate (logId : LogId)
  | purge (logId : LogId)

/-- What a call answers and leaves. -/
def RaftLogStore.call (V : VoteOrder) (encode : Entry → Except String (List UInt8))
    (store : RaftLogStore) : LogCall → Except LogStoreError Unit × RaftLogStore
  | .append lastApplied entries => appendEntries encode store lastApplied entries
  | .saveVote vote => AgentOS.saveVote V store vote
  | .saveCommitted committed => AgentOS.saveCommitted store committed
  | .truncate logId => AgentOS.truncate store logId
  | .purge logId => AgentOS.purge store logId

/-- The store after a run of calls. -/
def runLogStore (V : VoteOrder) (encode : Entry → Except String (List UInt8))
    (calls : List LogCall) : RaftLogStore :=
  run (fun store call => (store.call V encode call).2) .empty calls

/-! ## The orders -/

theorem LogId.le_refl (logId : LogId) : logId.le logId := .inr rfl

theorem LogId.le_trans (a b c : LogId) (hab : a.le b) (hbc : b.le c) : a.le c := by
  rcases hab with hab | rfl
  · rcases hbc with hbc | rfl
    · exact .inl (hab.trans hbc)
    · exact .inl hab
  · exact hbc

theorem LogId.le.index_le {a b : LogId} (h : a.le b) : a.index ≤ b.index := by
  rcases h with h | rfl
  · exact h.le
  · exact Nat.le_refl _

theorem LogId.regresses_eq_false {cur next : LogId} :
    cur.regresses next = false ↔ cur.le next := by
  simp only [LogId.regresses, LogId.le, Bool.or_eq_false_iff, Bool.and_eq_false_iff,
    decide_eq_false_iff_not, beq_eq_false_iff_ne, ne_eq, not_not, not_lt]
  constructor
  · rintro ⟨hle, hne | rfl⟩
    · exact .inl (lt_of_le_of_ne hle (Ne.symm hne))
    · exact .inr rfl
  · rintro (hlt | rfl)
    · exact ⟨hlt.le, .inl hlt.ne'⟩
    · exact ⟨Nat.le_refl _, .inr rfl⟩

theorem committedRegresses_eq_false {cur next : Option LogId} :
    committedRegresses cur next = false ↔ Advances LogId.le cur next := by
  cases cur with
  | none => simp [committedRegresses, Advances]
  | some cur =>
    cases next with
    | none => simp [committedRegresses, Advances]
    | some next => exact LogId.regresses_eq_false

/-! ## What one call may do -/

namespace RaftLogStore

/-- The index is at or below the committed pointer. -/
def Covers (store : RaftLogStore) (index : Nat) : Prop :=
  ∃ committed, store.committed = some committed ∧ index ≤ committed.index

/-- The later store keeps what the earlier one has committed to: the vote and the pointers have
only advanced, and a row found at a committed index was there before. -/
structure Keeps (V : VoteOrder) (store later : RaftLogStore) : Prop where
  vote : Advances V.le store.vote later.vote
  committed : Advances LogId.le store.committed later.committed
  lastPurged : Advances LogId.le store.lastPurged later.lastPurged
  rows : ∀ index row, store.Covers index → later.log[index]? = some row →
    store.log[index]? = some row

variable {V : VoteOrder} {store : RaftLogStore} {index : Nat}

theorem Covers.mono {later : RaftLogStore} (hc : Advances LogId.le store.committed later.committed)
    (h : store.Covers index) : later.Covers index := by
  obtain ⟨comm, hsome, hi⟩ := h
  rw [hsome] at hc
  obtain ⟨comm', hsome', hle⟩ := hc.exists_of_some
  exact ⟨comm', hsome', hi.trans hle.index_le⟩

theorem Keeps.refl (hV : V.Lawful) (store : RaftLogStore) : Keeps V store store :=
  ⟨.refl hV.le_refl _, .refl LogId.le_refl _, .refl LogId.le_refl _, fun _ _ _ h => h⟩

theorem Keeps.trans (hV : V.Lawful) (store mid later : RaftLogStore) (h : Keeps V store mid)
    (h' : Keeps V mid later) : Keeps V store later where
  vote := h.vote.trans hV.le_trans h'.vote
  committed := h.committed.trans LogId.le_trans h'.committed
  lastPurged := h.lastPurged.trans LogId.le_trans h'.lastPurged
  rows index row hc hrow :=
    h.rows index row hc (h'.rows index row (hc.mono h.committed) hrow)

variable {log : OrdMap Nat (List UInt8)}

/-- A call that changes only rows keeps the store's commitments if it keeps the rows. -/
theorem keeps_of_log (hV : V.Lawful)
    (h : ∀ (index : Nat) (row : List UInt8), store.Covers index → log[index]? = some row →
      store.log[index]? = some row) : Keeps V store { store with log } :=
  ⟨.refl hV.le_refl _, .refl LogId.le_refl _, .refl LogId.le_refl _, h⟩

variable {row : List UInt8}

/-- Rows left by a filter were there before. -/
theorem lookup_of_filter {p : Nat → List UInt8 → Bool} (h : (log.filter p)[index]? = some row) :
    log[index]? = some row := by
  rw [OrdMap.lookup_filter] at h
  exact (Option.filter_eq_some_iff.1 h).1

/-! ### Appends -/

/-- What an append may do to the rows: every row stays, and no committed index gains one. -/
structure Extends (store : RaftLogStore) (log log' : OrdMap Nat (List UInt8)) : Prop where
  kept : ∀ (index : Nat) (row : List UInt8), log[index]? = some row → log'[index]? = some row
  absent : ∀ index : Nat, store.Covers index → log[index]? = none → log'[index]? = none

variable {encode : Entry → Except String (List UInt8)}

theorem appendEntry_extends {log' : OrdMap Nat (List UInt8)} {e : Entry}
    (h : appendEntry encode store.committed log e = .ok log') : store.Extends log log' := by
  simp only [appendEntry, bind_eq_ok, rejectIf_eq_ok, pure_eq_ok, mapError_eq_ok] at h
  obtain ⟨encoded, -, _, hsame, _, hp, rfl⟩ := h
  constructor
  · intro index row hrow
    rw [OrdMap.lookup_insert]
    split
    · -- a row already at the entry's index holds the same bytes
      next heq =>
        subst heq
        rw [hrow] at hsame
        simpa using (show row = encoded by simpa using hsame).symm
    · exact hrow
  · intro index hcommitted ha
    rw [OrdMap.lookup_insert, if_neg]
    · exact ha
    · rintro rfl
      obtain ⟨comm, hc, hi⟩ := hcommitted
      rw [hc, ha] at hp
      simp [hi] at hp

theorem appendLoop_extends {es : List Entry} {log' : OrdMap Nat (List UInt8)}
    (h : es.foldlM (appendEntry encode store.committed) log = .ok log') :
    store.Extends log log' := by
  induction es generalizing log with
  | nil =>
    obtain rfl : log = log' := by simpa [pure_eq_ok] using h
    exact ⟨fun _ _ hrow => hrow, fun _ _ ha => ha⟩
  | cons e es ih =>
    rw [List.foldlM_cons, bind_eq_ok] at h
    obtain ⟨mid, he, hrest⟩ := h
    have hf := appendEntry_extends he
    have hl := ih hrest
    refine ⟨fun index row hrow => hl.kept index row (hf.kept index row hrow), ?_⟩
    intro index hc ha
    exact hl.absent index hc (hf.absent index hc ha)

theorem appendEntries_cases (encode : Entry → Except String (List UInt8)) (store : RaftLogStore)
    (applied : Except String (Option LogId)) (es : List Entry) :
    ∃ log, (appendEntries encode store applied es).2 = { store with log } ∧
      store.Extends store.log log := by
  rcases transaction_cases with ⟨_, h⟩ | ⟨a, store', hbody, h⟩
  · exact ⟨store.log, congrArg Prod.snd h, fun _ _ hrow => hrow, fun _ _ ha => ha⟩
  · simp only [bind_eq_ok, pure_eq_ok, Prod.mk.injEq] at hbody
    obtain ⟨_, -, _, -, _, -, log, hloop, -, rfl⟩ := hbody
    exact ⟨log, by rw [appendEntries, h], appendLoop_extends hloop⟩

/-! ### Every call -/

theorem saveVote_cases (V : VoteOrder) (store : RaftLogStore) (vote : Vote) :
    (AgentOS.saveVote V store vote).2 = store ∨ Advances V.le store.vote (some vote) ∧
      (AgentOS.saveVote V store vote).2 = { store with vote := some vote } := by
  rcases transaction_cases with ⟨_, h⟩ | ⟨a, store', hbody, h⟩
  · exact .inl (congrArg Prod.snd h)
  · refine .inr ?_
    cases hvote : store.vote with
    | none =>
      rw [hvote] at hbody
      simp only [pure_eq_ok, Prod.mk.injEq] at hbody
      obtain ⟨-, rfl⟩ := hbody
      exact ⟨trivial, by rw [AgentOS.saveVote, h]⟩
    | some cur =>
      rw [hvote] at hbody
      simp only [bind_eq_ok, rejectIf_eq_ok, pure_eq_ok, Prod.mk.injEq, not_not] at hbody
      obtain ⟨_, hle, -, rfl⟩ := hbody
      exact ⟨hle, by rw [AgentOS.saveVote, h]⟩

theorem saveCommitted_cases (store : RaftLogStore) (comm : Option LogId) :
    (AgentOS.saveCommitted store comm).2 = store ∨ Advances LogId.le store.committed comm ∧
      (AgentOS.saveCommitted store comm).2 = { store with committedRow := some comm } := by
  rcases transaction_cases with ⟨_, h⟩ | ⟨a, store', hbody, h⟩
  · exact .inl (congrArg Prod.snd h)
  · simp only [bind_eq_ok, rejectIf_eq_ok, pure_eq_ok, Prod.mk.injEq, Bool.not_eq_true] at hbody
    obtain ⟨_, hr, -, rfl⟩ := hbody
    refine .inr ⟨?_, by rw [AgentOS.saveCommitted, h]⟩
    exact committedRegresses_eq_false.1 hr

theorem truncate_cases (store : RaftLogStore) (logId : LogId) :
    (AgentOS.truncate store logId).2 = store ∨ (∀ index, store.Covers index → index < logId.index) ∧
      (AgentOS.truncate store logId).2 =
        { store with log := store.log.filter fun index _ => index < logId.index } := by
  rcases transaction_cases with ⟨_, h⟩ | ⟨a, store', hbody, h⟩
  · exact .inl (congrArg Prod.snd h)
  · simp only [bind_eq_ok, rejectIf_eq_ok, pure_eq_ok, Prod.mk.injEq] at hbody
    obtain ⟨_, hc, -, rfl⟩ := hbody
    refine .inr ⟨?_, by rw [AgentOS.truncate, h]⟩
    rintro index ⟨comm, hsome, hi⟩
    rw [hsome] at hc
    have hb : comm.index < logId.index := by simpa using hc
    exact hi.trans_lt hb

theorem purge_cases (store : RaftLogStore) (logId : LogId) :
    (AgentOS.purge store logId).2 = store ∨
      Advances LogId.le store.lastPurged (some logId) ∧
      AgentOS.purge store logId = (.ok (), { store with
        lastPurged := some logId
        log := store.log.filter fun index _ => logId.index < index }) := by
  rcases transaction_cases with ⟨_, h⟩ | ⟨a, store', hbody, h⟩
  · exact .inl (congrArg Prod.snd h)
  · refine .inr ?_
    cases hp : store.lastPurged with
    | none =>
      rw [hp] at hbody
      simp only [pure_eq_ok, Prod.mk.injEq] at hbody
      obtain ⟨-, rfl⟩ := hbody
      exact ⟨trivial, by rw [AgentOS.purge, h]⟩
    | some cur =>
      rw [hp] at hbody
      simp only [bind_eq_ok, rejectIf_eq_ok, pure_eq_ok, Prod.mk.injEq, Bool.not_eq_true] at hbody
      obtain ⟨_, hr, -, rfl⟩ := hbody
      exact ⟨LogId.regresses_eq_false.1 hr, by rw [AgentOS.purge, h]⟩

/-- Every call keeps what the store has committed to. -/
theorem call_keeps (hV : V.Lawful) (encode : Entry → Except String (List UInt8))
    (store : RaftLogStore) (call : LogCall) : Keeps V store (store.call V encode call).2 := by
  cases call with
  | append applied es =>
    obtain ⟨log, hs, he⟩ := appendEntries_cases encode store applied es
    show Keeps V store (appendEntries encode store applied es).2
    rw [hs]
    apply keeps_of_log hV
    intro index row hc hrow
    cases hb : store.log[index]? with
    | none =>
      rw [he.absent index hc hb] at hrow
      exact absurd hrow (by simp)
    | some row' =>
      rw [he.kept index row' hb] at hrow
      exact hrow
  | saveVote vote =>
    show Keeps V store (AgentOS.saveVote V store vote).2
    rcases saveVote_cases V store vote with h | ⟨ha, h⟩
    · rw [h]
      exact .refl hV store
    · rw [h]
      exact ⟨ha, .refl LogId.le_refl _, .refl LogId.le_refl _, fun _ _ _ hrow => hrow⟩
  | saveCommitted comm =>
    show Keeps V store (AgentOS.saveCommitted store comm).2
    rcases saveCommitted_cases store comm with h | ⟨ha, h⟩
    · rw [h]
      exact .refl hV store
    · rw [h]
      exact ⟨.refl hV.le_refl _, ha, .refl LogId.le_refl _, fun _ _ _ hrow => hrow⟩
  | truncate logId =>
    show Keeps V store (AgentOS.truncate store logId).2
    rcases truncate_cases store logId with h | ⟨-, h⟩
    · rw [h]
      exact .refl hV store
    · rw [h]
      exact keeps_of_log hV fun index row _ hrow => lookup_of_filter hrow
  | purge logId =>
    show Keeps V store (AgentOS.purge store logId).2
    rcases purge_cases store logId with h | ⟨ha, h⟩
    · rw [h]
      exact .refl hV store
    · rw [h]
      exact ⟨.refl hV.le_refl _, .refl LogId.le_refl _, ha,
        fun index row _ hrow => lookup_of_filter hrow⟩

/-- The only call that takes a row away at a committed index is a purge that reaches it. -/
theorem call_keeps_row (V : VoteOrder) (encode : Entry → Except String (List UInt8))
    (call : LogCall) (hc : store.Covers index) (hrow : store.log[index]? = some row) :
    (store.call V encode call).2.log[index]? = some row ∨
      ∃ logId, call = .purge logId ∧ (AgentOS.purge store logId).1 = .ok () ∧
        index ≤ logId.index := by
  cases call with
  | append applied es =>
    obtain ⟨log, hs, he⟩ := appendEntries_cases encode store applied es
    left
    show (appendEntries encode store applied es).2.log[index]? = some row
    rw [hs]
    exact he.kept index row hrow
  | saveVote vote =>
    left
    show (AgentOS.saveVote V store vote).2.log[index]? = some row
    rcases saveVote_cases V store vote with h | ⟨-, h⟩
    · rw [h]
      exact hrow
    · rw [h]
      exact hrow
  | saveCommitted comm =>
    left
    show (AgentOS.saveCommitted store comm).2.log[index]? = some row
    rcases saveCommitted_cases store comm with h | ⟨-, h⟩
    · rw [h]
      exact hrow
    · rw [h]
      exact hrow
  | truncate logId =>
    left
    show (AgentOS.truncate store logId).2.log[index]? = some row
    rcases truncate_cases store logId with h | ⟨hb, h⟩
    · rw [h]
      exact hrow
    · rw [h, OrdMap.lookup_filter, hrow]
      simp [hb index hc]
  | purge logId =>
    rcases purge_cases store logId with h | ⟨-, h⟩
    · left
      show (AgentOS.purge store logId).2.log[index]? = some row
      rw [h]
      exact hrow
    · rcases Nat.lt_or_ge logId.index index with hb | hr
      · left
        show (AgentOS.purge store logId).2.log[index]? = some row
        rw [h, OrdMap.lookup_filter, hrow]
        simp [hb]
      · exact .inr ⟨logId, rfl, by rw [h], hr⟩

/-- A call that answers with an error leaves the store as it was. -/
theorem call_of_error {call : LogCall} {err : LogStoreError}
    (h : (store.call V encode call).1 = .error err) : (store.call V encode call).2 = store := by
  cases call with
  | _ =>
    rcases transaction_cases with ⟨_, hsame⟩ | ⟨_, _, -, hcommitted⟩
    · exact congrArg Prod.snd hsame
    · exact nomatch (congrArg Prod.fst hcommitted).symm.trans h

/-! ## Whole runs -/

theorem run_keeps (hV : V.Lawful) (encode : Entry → Except String (List UInt8))
    (prior later : List LogCall) :
    Keeps V (runLogStore V encode prior) (runLogStore V encode (prior ++ later)) :=
  run_related (I := fun _ => True) (Keeps.refl hV) (Keeps.trans hV) trivial (fun _ _ _ => trivial)
    (fun store call _ => call_keeps hV encode store call) prior later

/-- A row at a committed index is there after every continuation, or a purge that succeeded has
reached it in between. -/
theorem run_keeps_row (hV : V.Lawful) (encode : Entry → Except String (List UInt8))
    {prior later : List LogCall}
    (hc : (runLogStore V encode prior).Covers index)
    (hrow : (runLogStore V encode prior).log[index]? = some row) :
    (runLogStore V encode (prior ++ later)).log[index]? = some row ∨
      ∃ pre logId post, later = pre ++ .purge logId :: post ∧ index ≤ logId.index ∧
        (AgentOS.purge (runLogStore V encode (prior ++ pre)) logId).1 = .ok () := by
  induction later using List.reverseRecOn with
  | nil =>
    rw [List.append_nil]
    exact .inl hrow
  | append_singleton later call ih =>
    rcases ih with hkept | ⟨pre, logId, post, rfl, hr, hok⟩
    · have hs := hc.mono (run_keeps hV encode prior later).committed
      rw [← List.append_assoc, runLogStore, run_snoc]
      rcases call_keeps_row V encode call hs hkept with
        h | ⟨logId, rfl, hok, hr⟩
      · exact .inl h
      · exact .inr ⟨later, logId, [], rfl, hr, hok⟩
    · exact .inr ⟨pre, logId, post ++ [call], by simp, hr, hok⟩

end RaftLogStore

/-- Committed entries are immutable. Between any two points of a run of calls on an empty store
the vote and the pointers only advance; a row at a committed index keeps its bytes or has been
taken away by a purge that succeeded and reached it; a committed index without a row stays without
one. A call that answers with an error changes nothing. -/
theorem committed_entries_immutable (V : VoteOrder) (hV : V.Lawful)
    (encode : Entry → Except String (List UInt8)) (earlier later : List LogCall) :
    let store := runLogStore V encode earlier
    let store' := runLogStore V encode (earlier ++ later)
    Advances V.le store.vote store'.vote ∧
    Advances LogId.le store.committed store'.committed ∧
    Advances LogId.le store.lastPurged store'.lastPurged ∧
    (∀ index, store.Covers index →
      match store.log[index]? with
      | none => store'.log[index]? = none
      | some row => store'.log[index]? = some row ∨
          store'.log[index]? = none ∧
          ∃ pre logId post, later = pre ++ .purge logId :: post ∧ index ≤ logId.index ∧
            (purge (runLogStore V encode (earlier ++ pre)) logId).1 = .ok ()) ∧
    ∀ call error, (store.call V encode call).1 = .error error →
      (store.call V encode call).2 = store := by
  intro store store'
  have hkeeps : RaftLogStore.Keeps V store store' := RaftLogStore.run_keeps hV encode earlier later
  refine ⟨hkeeps.vote, hkeeps.committed, hkeeps.lastPurged, ?_,
    fun call error h => RaftLogStore.call_of_error h⟩
  intro index hcovers
  cases hbefore : store.log[index]? with
  | none =>
    cases hafter : store'.log[index]? with
    | none => rfl
    | some row => exact absurd (hkeeps.rows index row hcovers hafter) (by simp [hbefore])
  | some row =>
    cases hafter : store'.log[index]? with
    | some row' =>
      left
      rw [← hkeeps.rows index row' hcovers hafter, hbefore]
    | none =>
      right
      rcases RaftLogStore.run_keeps_row hV encode hcovers hbefore with h | hpurged
      · exact absurd (hafter.symm.trans h) (by simp)
      · exact ⟨rfl, hpurged⟩

/-! ## A run -/

namespace Sample

/-- Votes by term, then by node, then by commitment. -/
def compareVotes : Vote → Vote → Ordering :=
  compareLex (compareOn (·.leaderId.term))
    (compareLex (compareOn (·.leaderId.nodeId)) (compareOn Vote.committed))

def voteOrder : VoteOrder := ⟨fun current vote => some (compareVotes current vote)⟩

theorem voteOrder_lawful : voteOrder.Lawful := by
  have htrans : Std.TransCmp compareVotes :=
    inferInstanceAs (Std.TransCmp (compareLex _ (compareLex _ _)))
  have hle : ∀ u v, voteOrder.le u v ↔ (compareVotes u v).isLE = true := by
    intro u v
    simp only [VoteOrder.le, voteOrder, Option.some.injEq]
    cases compareVotes u v with
    | lt => simp
    | eq => simp
    | gt => simp
  constructor
  · intro vote
    have hself : compareVotes vote vote = .eq := Std.ReflCmp.compare_self
    rw [hle, hself]
    rfl
  · intro u v w huv hvw
    rw [hle] at huv hvw ⊢
    exact htrans.isLE_trans huv hvw

def encode (_ : Entry) : Except String (List UInt8) := .ok [1]

/-- One row. -/
def oneRow : RaftLogStore :=
  { RaftLogStore.empty with log := RaftLogStore.empty.log.insert 1 [1] }

theorem appendEntries_first :
    appendEntries encode .empty (.ok none) [⟨logId 1, .blank⟩] = (.ok (), oneRow) := by
  have hfrontier : RaftLogStore.empty.checkFrontier none [⟨logId 1, .blank⟩] = .ok () := by
    simp [RaftLogStore.checkFrontier, RaftLogStore.durableFrontier, RaftLogStore.empty,
      List.reduceOption, pure_eq_ok]
  apply transaction_of_ok
  rw [show checkConsecutive [⟨logId 1, .blank⟩] = .ok () from rfl, ok_bind]
  simp only [Except.mapError, ok_bind, hfrontier]
  rfl

/-- An entry is stored and committed. -/
def storedAndCommitted : List LogCall :=
  [.append (.ok none) [⟨logId 1, .blank⟩], .saveVote ⟨⟨2, 1⟩, false⟩, .saveCommitted (logId 1)]

/-- A lower vote and a truncation are refused, and the entry is purged. -/
def refusedAndPurged : List LogCall :=
  [.saveVote ⟨⟨1, 2⟩, true⟩, .truncate (logId 1), .purge (logId 1)]

theorem runLogStore_stored (later : List LogCall) :
    runLogStore voteOrder encode (storedAndCommitted ++ later) =
      run (fun store call => (store.call voteOrder encode call).2) oneRow
        (storedAndCommitted.tail ++ later) := by
  have hfirst : (RaftLogStore.empty.call voteOrder encode
      (.append (.ok none) [⟨logId 1, .blank⟩])).2 = oneRow :=
    congrArg Prod.snd appendEntries_first
  rw [← hfirst]
  rfl

end Sample

open Sample in
theorem committed_entries_immutable_purged :
    let store := runLogStore voteOrder encode storedAndCommitted
    let store' := runLogStore voteOrder encode (storedAndCommitted ++ refusedAndPurged)
    store.log[1]? = some [1] ∧ store'.log[1]? = none ∧
      Advances voteOrder.le store.vote store'.vote ∧
      ∃ pre logId post, refusedAndPurged = pre ++ .purge logId :: post ∧ 1 ≤ logId.index := by
  intro store store'
  have hstore := runLogStore_stored []
  have hbefore : store.log[1]? = some [1] := by
    rw [show store = _ from hstore]
    decide +kernel
  have hafter : store'.log[1]? = none := by
    rw [show store' = _ from runLogStore_stored refusedAndPurged]
    decide +kernel
  have hcommitted : store.committed = some (logId 1) := by
    rw [show store = _ from hstore]
    decide +kernel
  obtain ⟨hvote, -, -, hrows, -⟩ := committed_entries_immutable voteOrder voteOrder_lawful
    encode storedAndCommitted refusedAndPurged
  have hrow := hrows 1 ⟨logId 1, hcommitted, le_rfl⟩
  rw [hbefore] at hrow
  refine ⟨hbefore, hafter, hvote, ?_⟩
  rcases hrow with hkept | ⟨-, pre, logId, post, hlater, hreaches, -⟩
  · exact nomatch hafter.symm.trans hkept
  · exact ⟨pre, logId, post, hlater, hreaches⟩

end AgentOS
