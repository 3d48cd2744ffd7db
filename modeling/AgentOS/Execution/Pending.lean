import AgentOS.Execution.Loop

/-!
# Unfinished calls

What `pending_tool_calls` finds after each way in which the executor changes its history. A result
removes the calls with its identifier, a response with calls makes exactly these pending, other
messages change nothing, and compaction changes nothing either, since it pins everything from the
latest tool-call turn on.
-/

namespace AgentOS

/-! ## The latest tool-call turn -/

variable {msgs : List StandardMessage}

theorem latestToolTurn_eq_none_iff :
    latestToolTurn msgs = none ↔ ∀ msg ∈ msgs, msg.toolCalls = none := by
  induction msgs with
  | nil => simp [latestToolTurn]
  | cons msg rest ih =>
    unfold latestToolTurn
    cases hrest : latestToolTurn rest with
    | some fd =>
      have hsome : ¬ ∀ later ∈ rest, later.toolCalls = none := by
        rw [← ih, hrest]
        simp
      simp only [reduceCtorEq, List.mem_cons, forall_eq_or_imp, false_iff, not_and]
      exact fun _ => hsome
    | none => simpa using fun _ => ih.1 hrest

variable {cs : List ToolCall} {later : List StandardMessage}

/-- The latest turn splits the history: nothing after it declares calls. -/
theorem latestToolTurn_eq_some (h : latestToolTurn msgs = some (cs, later)) :
    ∃ prior msg, msgs = prior ++ msg :: later ∧
      msg.toolCalls = some cs ∧ ∀ m ∈ later, m.toolCalls = none := by
  induction msgs with
  | nil => simp [latestToolTurn] at h
  | cons msg rest ih =>
    unfold latestToolTurn at h
    cases hrest : latestToolTurn rest with
    | some fd =>
      rw [hrest] at h
      cases h
      obtain ⟨prior, m, rfl, hm, hl⟩ := ih hrest
      exact ⟨msg :: prior, m, rfl, hm, hl⟩
    | none =>
      rw [hrest] at h
      obtain ⟨fd, hf, hpair⟩ := Option.map_eq_some_iff.1 h
      cases hpair
      exact ⟨[], msg, rfl, hf, latestToolTurn_eq_none_iff.1 hrest⟩

variable {prior : List StandardMessage} {msg : StandardMessage}

theorem latestToolTurn_append_cons (hm : msg.toolCalls = some cs)
    (hl : ∀ m ∈ later, m.toolCalls = none) :
    latestToolTurn (prior ++ msg :: later) = some (cs, later) := by
  induction prior with
  | nil =>
    rw [List.nil_append, latestToolTurn, latestToolTurn_eq_none_iff.2 hl, hm]
    rfl
  | cons fst prior ih => rw [List.cons_append, latestToolTurn, ih]

/-! ## Pending calls after an append -/

/-- Messages that declare nothing answer the calls whose identifiers they carry. -/
theorem pendingToolCalls_append (hl : ∀ m ∈ later, m.toolCalls = none) :
    pendingToolCalls (msgs ++ later) = (pendingToolCalls msgs).filter fun call =>
        !(later.filterMap StandardMessage.toolCallId).contains call.id := by
  cases hturn : latestToolTurn msgs with
  | none =>
    have hnone : latestToolTurn (msgs ++ later) = none := by
      rw [latestToolTurn_eq_none_iff] at hturn ⊢
      intro m hm
      rcases List.mem_append.1 hm with hm | hm
      · exact hturn m hm
      · exact hl m hm
    simp [pendingToolCalls, hturn, hnone]
  | some fd =>
    obtain ⟨cs, between⟩ := fd
    obtain ⟨prior, msg, rfl, hme, hb⟩ := latestToolTurn_eq_some hturn
    have hall : ∀ m ∈ between ++ later, m.toolCalls = none := by
      intro m hm
      rcases List.mem_append.1 hm with hm | hm
      · exact hb m hm
      · exact hl m hm
    have hw : latestToolTurn ((prior ++ msg :: between) ++ later) =
        some (cs, between ++ later) := by
      rw [List.append_assoc, List.cons_append]
      exact latestToolTurn_append_cons hme hall
    simp only [pendingToolCalls, hturn, hw, List.filter_filter, List.filterMap_append]
    apply List.filter_congr
    intro call _
    simp [Bool.and_comm]

/-- Messages that neither declare nor answer leave the pending calls as they are. -/
theorem pendingToolCalls_append_plain (hl : ∀ m ∈ later, m.toolCalls = none ∧ m.toolCallId = none) :
    pendingToolCalls (msgs ++ later) = pendingToolCalls msgs := by
  rw [pendingToolCalls_append fun m hm => (hl m hm).1]
  have hnone : later.filterMap StandardMessage.toolCallId = [] := by
    rw [List.filterMap_eq_nil_iff]
    exact fun m hm => (hl m hm).2
  simp [hnone]

theorem pendingToolCalls_snoc_result {id txt : Text} :
    pendingToolCalls (msgs ++ [.toolResult id txt]) =
      (pendingToolCalls msgs).filter fun call => decide (call.id ≠ id) := by
  rw [pendingToolCalls_append (by simp [StandardMessage.toolResult, StandardMessage.plain])]
  apply List.filter_congr
  intro call _
  simp [StandardMessage.toolResult]

/-- A response makes exactly its calls pending. -/
theorem pendingToolCalls_snoc_calls (hm : msg.toolCalls = some cs) :
    pendingToolCalls (msgs ++ [msg]) = cs := by
  have hturn : latestToolTurn (msgs ++ [msg]) = some (cs, []) :=
    latestToolTurn_append_cons hm (by simp)
  simp [pendingToolCalls, hturn]

/-! ## What a compaction keeps -/

/-- Every pinned position is kept. -/
def KeepsPinned (pinned keep : List Bool) : Prop :=
  List.Forall₂ (fun pin kept => pin = true → kept = true) pinned keep

theorem keepsPinned_keepNewest {ω : Type} (H : Host ω) (host : ω) (left : Nat)
    (es : List (StandardMessage × Bool)) :
    KeepsPinned (es.map Prod.snd) (keepNewest H host left es).1 := by
  induction es with
  | nil => exact .nil
  | cons e newer ih =>
    obtain ⟨msg, pin⟩ := e
    unfold keepNewest
    dsimp only
    split
    · exact .cons (fun _ => rfl) ih
    · next hpin =>
      split
      · exact .cons (fun _ => rfl) ih
      · exact .cons (fun h => absurd h hpin) ih

variable {pinned keep : List Bool}

theorem keepsPinned_set {i : Nat} (hc : KeepsPinned pinned keep)
    (hi : firstEvictable pinned keep = some i) : KeepsPinned pinned (keep.set i false) := by
  induction hc generalizing i with
  | nil => simp [firstEvictable] at hi
  | @cons pin kept pinned keep hf hrest ih =>
    unfold firstEvictable at hi
    split at hi
    · next he =>
      cases hi
      have hpin : pin = false := by simpa using (Bool.and_eq_true_iff.1 he).2
      exact .cons (fun h => absurd h (by simp [hpin])) hrest
    · obtain ⟨later, hl, rfl⟩ := Option.map_eq_some_iff.1 hi
      exact .cons hf (ih hl)

theorem keepsPinned_evictUntilFits {fits : List Bool → Bool} {keep' : List Bool}
    (hc : KeepsPinned pinned keep) (h : evictUntilFits fits pinned keep = .ok keep') :
    KeepsPinned pinned keep' ∧ fits keep' = true := by
  induction keep using evictUntilFits.induct fits pinned with
  | case1 keep hfits =>
    rw [evictUntilFits, if_pos hfits] at h
    cases h
    exact ⟨hc, hfits⟩
  | case2 keep hfits i hi ih =>
    rw [evictUntilFits, if_neg hfits] at h
    split at h
    · next later hl =>
      obtain rfl : later = i := Option.some.inj (hl.symm.trans hi)
      exact ih (keepsPinned_set hc hi) h
    · next hnone => exact absurd (hnone.symm.trans hi) (by simp)
  | case3 keep hfits hnone =>
    rw [evictUntilFits, if_neg hfits] at h
    split at h
    · next later hl => exact absurd (hl.symm.trans hnone) (by simp)
    · cases h

/-- A reference declares and answers nothing. -/
theorem spillReference_plain {ω : Type} (H : Host ω) (K : Crypto) (host : ω) (reserve : Nat)
    (key : Text) (evicted : List StandardMessage) :
    (spillReference H K host reserve key evicted).toolCalls = none ∧
      (spillReference H K host reserve key evicted).toolCallId = none := by
  unfold spillReference
  split
  · exact ⟨rfl, rfl⟩
  · exact ⟨rfl, rfl⟩

theorem latestToolState_append_cons (hme : msg.toolCalls = some cs)
    (hl : ∀ m ∈ later, m.toolCalls = none) :
    latestToolState (prior ++ msg :: later) = some prior.length := by
  have hnone : later.reverse.findIdx? (fun m => m.toolCalls.isSome) = none := by
    rw [List.findIdx?_eq_none_iff]
    intro m hm
    simp [hl m (List.mem_reverse.1 hm)]
  have hr : (prior ++ msg :: later).reverse = later.reverse ++ msg :: prior.reverse := by simp
  rw [latestToolState, hr, List.findIdx?_append, hnone, List.findIdx?_cons]
  simp only [hme, Option.isSome_some, if_true, Option.none_or, Option.map_some,
    List.length_reverse, List.length_append, List.length_cons, Option.some.injEq]
  omega

/-- From the latest tool-call turn on every message is pinned. -/
theorem mem_drop_pinnedFlags (hm : msg.toolCalls = some cs) (hl : ∀ m ∈ later, m.toolCalls = none)
    {pin : Bool} (hpin : pin ∈ (pinnedFlags (prior ++ msg :: later)).drop prior.length) :
    pin = true := by
  obtain ⟨i, hi, rfl⟩ := List.mem_iff_getElem.1 hpin
  simp [pinnedFlags, latestToolState_append_cons hm hl]

theorem length_pinnedFlags (msgs : List StandardMessage) :
    (pinnedFlags msgs).length = msgs.length := by
  simp [pinnedFlags]

theorem keepsPinned_pinnedFlags {ω : Type} (H : Host ω) (host : ω) (left : Nat)
    (msgs : List StandardMessage) :
    KeepsPinned (pinnedFlags msgs) (keepNewest H host left (msgs.zip (pinnedFlags msgs))).1 := by
  have hc := keepsPinned_keepNewest H host left (msgs.zip (pinnedFlags msgs))
  rwa [List.map_snd_zip (length_pinnedFlags msgs).le] at hc

theorem KeepsPinned.forall_true (hc : KeepsPinned pinned keep) (hp : ∀ pin ∈ pinned, pin = true) :
    ∀ kept ∈ keep, kept = true := by
  induction hc with
  | nil => simp
  | cons hf _ ih =>
    intro kept hkept
    rcases List.mem_cons.1 hkept with rfl | hkept
    · exact hf (hp _ List.mem_cons_self)
    · exact ih (fun pin hpin => hp pin (List.mem_cons_of_mem _ hpin)) kept hkept

/-! ## Pending calls after a compaction -/

/-- The kept messages of a stretch of the history that starts at a position. -/
def compactedFrom (ref : StandardMessage) (start : Nat)
    (es : List (StandardMessage × Bool)) : List StandardMessage :=
  (es.zipIdx start).flatMap fun (entry, index) =>
    (if index = 1 then [ref] else []) ++ (if entry.2 then [entry.1] else [])

theorem compactedFrom_append (ref : StandardMessage) (start : Nat)
    (es es' : List (StandardMessage × Bool)) :
    compactedFrom ref start (es ++ es') = compactedFrom ref start es ++
        compactedFrom ref (start + es.length) es' := by
  simp [compactedFrom, List.zipIdx_append]

theorem compactedFrom_cons (ref : StandardMessage) (start : Nat)
    (e : StandardMessage × Bool) (es : List (StandardMessage × Bool)) :
    compactedFrom ref start (e :: es) =
      ((if start = 1 then [ref] else []) ++ (if e.2 then [e.1] else [])) ++
        compactedFrom ref (start + 1) es := by
  simp [compactedFrom]

variable {ref : StandardMessage} {es : List (StandardMessage × Bool)}

theorem mem_compactedFrom {start : Nat} (h : msg ∈ compactedFrom ref start es) :
    msg = ref ∨ ∃ e ∈ es, msg = e.1 := by
  induction es generalizing start with
  | nil => simp [compactedFrom] at h
  | cons e es ih =>
    rw [compactedFrom_cons, List.mem_append, List.mem_append] at h
    rcases h with (h | h) | h
    · split at h
      · exact .inl (List.mem_singleton.1 h)
      · cases h
    · split at h
      · exact .inr ⟨e, List.mem_cons_self, List.mem_singleton.1 h⟩
      · cases h
    · rcases ih h with h | ⟨later, hl, h⟩
      · exact .inl h
      · exact .inr ⟨later, List.mem_cons_of_mem _ hl, h⟩

/-- A stretch that is kept whole answers the same calls. -/
theorem filterMap_compactedFrom (href : ref.toolCallId = none) (start : Nat)
    (hkept : ∀ e ∈ es, e.2 = true) :
    (compactedFrom ref start es).filterMap StandardMessage.toolCallId =
      (es.map Prod.fst).filterMap StandardMessage.toolCallId := by
  induction es generalizing start with
  | nil => simp [compactedFrom]
  | cons e es ih =>
    have hrest := ih (start + 1) fun later hl => hkept later (List.mem_cons_of_mem _ hl)
    have hi : (if start = 1 then [ref] else []).filterMap
        StandardMessage.toolCallId = [] := by
      split
      · simp [href]
      · rfl
    rw [compactedFrom_cons, List.filterMap_append, List.filterMap_append, hi, hrest,
      hkept e List.mem_cons_self, if_pos rfl, List.nil_append, ← List.filterMap_append,
      List.singleton_append, List.map_cons]

theorem pendingToolCalls_compactedMessages (hca : ref.toolCalls = none)
    (hid : ref.toolCallId = none) (hc : KeepsPinned (pinnedFlags msgs) keep) :
    pendingToolCalls (compactedMessages ref msgs keep) = pendingToolCalls msgs := by
  show pendingToolCalls (compactedFrom ref 0 (msgs.zip keep)) = _
  cases hturn : latestToolTurn msgs with
  | none =>
    -- without a declaring message in the history there is none among the kept ones
    have hnone : latestToolTurn (compactedFrom ref 0 (msgs.zip keep)) = none := by
      rw [latestToolTurn_eq_none_iff] at hturn ⊢
      intro m hm
      rcases mem_compactedFrom hm with rfl | ⟨e, he, rfl⟩
      · exact hca
      · exact hturn _ (List.of_mem_zip he).1
    simp [pendingToolCalls, hturn, hnone]
  | some fd =>
    obtain ⟨cs, later⟩ := fd
    obtain ⟨prior, msg, rfl, hme, hlater⟩ := latestToolTurn_eq_some hturn
    have hl : keep.length = (prior ++ msg :: later).length := by
      rw [← hc.length_eq, length_pinnedFlags]
    have hkept : ∀ kept ∈ keep.drop prior.length, kept = true :=
      KeepsPinned.forall_true (List.forall₂_drop prior.length hc)
        fun pin hpin => mem_drop_pinnedFlags hme hlater hpin
    -- split the flags at the declaring message, from which on all are set
    obtain ⟨before, after, rfl, hb⟩ :
        ∃ before after, keep = before ++ after ∧ before.length = prior.length := by
      refine ⟨keep.take prior.length, keep.drop prior.length, (List.take_append_drop _ _).symm, ?_⟩
      rw [List.length_take, hl]
      simp
    rw [← hb, List.drop_left] at hkept
    cases after with
    | nil => simp [hb] at hl
    | cons kept after =>
      have hflag : kept = true := hkept kept List.mem_cons_self
      have hen : ∀ e ∈ later.zip after, e.2 = true := fun e he =>
        hkept e.2 (List.mem_cons_of_mem _ (List.of_mem_zip he).2)
      have hfst : (later.zip after).map Prod.fst = later := by
        apply List.map_fst_zip
        simp only [List.length_append, List.length_cons] at hl
        omega
      rw [List.zip_append hb.symm, List.zip_cons_cons, compactedFrom_append,
        compactedFrom_cons, hflag]
      have hd : latestToolTurn
          (compactedFrom ref 0 (prior.zip before) ++
            ((if 0 + (prior.zip before).length = 1 then [ref] else []) ++
              (if true then [msg] else []) ++
                compactedFrom ref (0 + (prior.zip before).length + 1)
                  (later.zip after))) =
          some (cs, compactedFrom ref (0 + (prior.zip before).length + 1)
            (later.zip after)) := by
        rw [if_pos rfl, List.append_assoc, ← List.append_assoc, List.singleton_append]
        apply latestToolTurn_append_cons hme
        intro m hm
        rcases mem_compactedFrom hm with rfl | ⟨e, he, rfl⟩
        · exact hca
        · exact hlater _ (List.of_mem_zip he).1
      unfold pendingToolCalls
      rw [hd, hturn]
      simp only [filterMap_compactedFrom hid _ hen, hfst]

section Compact

variable {ω : Type} (H : Host ω) (K : Crypto) (C : ExecutorConfig)

/-- What a compaction does to the history: nothing, or the kept messages with one reference, in
which case it succeeds and all pinned messages are kept. -/
theorem compactToTokenBudget_cases (e : Executor ω) (ts : List ToolDefinition) :
    (compactToTokenBudget H K C e ts).2.messages = e.messages ∨ ∃ host reserve key keep,
        (compactToTokenBudget H K C e ts).1 = .ok () ∧ KeepsPinned (pinnedFlags e.messages) keep ∧
        (compactToTokenBudget H K C e ts).2.messages =
          candidatePrompt H K { e with host } reserve key keep := by
  unfold compactToTokenBudget
  dsimp only
  split
  · exact .inl rfl
  split
  · exact .inl rfl
  split
  · exact .inl rfl
  split
  · exact .inl rfl
  split
  · exact .inl rfl
  unfold evictAndCommit
  dsimp only
  split
  · exact .inl rfl
  split
  · next keep hkeep =>
    unfold commitCompaction
    dsimp only
    split
    · exact .inl rfl
    · exact .inr ⟨_, _, _, _, rfl, (keepsPinned_evictUntilFits
        (keepsPinned_pinnedFlags H e.host _ e.messages) hkeep).1, rfl⟩
  · exact .inl rfl

theorem pendingToolCalls_compactToTokenBudget (e : Executor ω) (ts : List ToolDefinition) :
    pendingToolCalls (compactToTokenBudget H K C e ts).2.messages =
      pendingToolCalls e.messages := by
  rcases compactToTokenBudget_cases H K C e ts with h | ⟨host, reserve, key, keep, -, hc, h⟩
  · rw [h]
  · rw [h, candidatePrompt]
    obtain ⟨hca, hid⟩ := spillReference_plain H K host reserve key (unflagged e.messages keep)
    exact pendingToolCalls_compactedMessages hca hid hc

end Compact

end AgentOS
