import AgentOS.Connector.Routing

/-!
# Breakers that recover

A breaker that lets a sender through after its cooldown goes to half-open and turns everybody else
away until a result is recorded. A send that leaves the provider without recording one leaves the
breaker half-open for ever: the half-open breaker is a resource, the sends at its provider are its
owners, and `Reported` says that an owner does not walk away. Under that condition no breaker is
half-open when no send is in progress (`breakers_recover`); `probeRejected_stuck` is a run in which
the probe is rejected by the provider and the breaker never lets anybody through again.
-/

namespace AgentOS

open Lib

/-- The provider that a send has passed the breaker of and not yet left. -/
def Phase.provider : Phase → Option ProviderId
  | .selecting _ _ => none
  | .calling call => some call.providerId
  | .returned id _ _ => some id
  | .closing outcome => some outcome.servedBy
  | .tripping id _ _ _ => some id
  | .finished _ => none

/-- The send has returned or was dropped. -/
def Send.isFinished (send : Send) : Bool :=
  match send.phase with
  | .finished _ => true
  | _ => false

variable {shared : Breakers} {id : ProviderId}

namespace Breakers

/-- The state of a provider's breaker. -/
def state (shared : Breakers) (id : ProviderId) : Option BreakerState :=
  shared.breakers[id]?.map CircuitBreaker.state

@[simp] theorem state_update (shared : Breakers) (id o : ProviderId)
    (f : CircuitBreaker → CircuitBreaker) :
    (shared.update id f).state o =
      if id = o then shared.breakers[o]?.map fun b => (f b).state
      else shared.state o := by
  unfold state update
  rw [OrdMap.lookup_modify]
  split
  · rw [Option.map_map]
    rfl
  · rfl

/-- Asking for a provider changes only its own breaker, and that only when it is let through. -/
theorem state_isAvailable (shared : Breakers) (id o : ProviderId) :
    (shared.isAvailable id).2.state o = shared.state o ∨
      id = o ∧ (shared.isAvailable id).1 = true ∧ shared.state o = some .opened := by
  unfold isAvailable
  split
  · exact .inl rfl
  · next brk hb =>
    unfold state
    dsimp only
    rw [OrdMap.lookup_insert]
    split
    · next heq =>
      subst heq
      rw [hb]
      rcases brk.isAvailable_cases shared.now with h | h | ⟨ho, h⟩
      · exact .inl (by rw [h])
      · exact .inl (by rw [h])
      · exact .inr ⟨rfl, by rw [h], by rw [Option.map_some, ho]⟩
    · exact .inl rfl

theorem isAvailable_of_halfOpen (h : shared.state id = some .halfOpen) :
    (shared.isAvailable id).1 = false := by
  obtain ⟨brk, hb, hs⟩ := Option.map_eq_some_iff.1 h
  rw [isAvailable, hb]
  exact congrArg Prod.fst (CircuitBreaker.isAvailable_of_halfOpen hs shared.now)

end Breakers

namespace Send

/-- The breaker is half-open. -/
def HalfOpen (id : ProviderId) (shared : Breakers) : Prop := shared.state id = some .halfOpen

/-- The send is at the provider. -/
def AtProvider (id : ProviderId) (send : Send) : Prop := send.phase.provider = some id

instance (id : ProviderId) (shared : Breakers) : Decidable (HalfOpen id shared) :=
  inferInstanceAs (Decidable (_ = _))

instance (id : ProviderId) (send : Send) : Decidable (AtProvider id send) :=
  inferInstanceAs (Decidable (_ = _))

/-! ## The condition -/

/-- The send is dropped in this iteration of the retry loop. -/
def drops (script : AttemptScript) (attempt : Nat) : Bool :=
  (attempt != 0 && script.backoff == .dropped) ||
    match script.session with
    | none => true
    | some (.error _) => false
    | some (.ok session) => session.result.isNone

/-- The breaker opens only from this number of failures on. -/
def threshold (shared : Breakers) (id : ProviderId) : Nat :=
  (shared.breakers[id]?).elim 0 CircuitBreaker.failureThreshold

/-- The send is about to leave its provider and the breaker gets no state from it: the send is
dropped, the call came back with an error that is not recorded, or the failure that is being
recorded does not reach the threshold. -/
def leavesUnreported (shared : Breakers) (send : Send) (script : AttemptScript) : Bool :=
  match send.phase with
  | .calling call => drops script call.attempt
  | .returned _ _ (.error e) => !isTransient e
  | .tripping id _ _ failures => failures < threshold shared id
  | _ => false

/-- A send leaves a provider whose breaker is half-open without reporting only if another send is
still at that provider. -/
def Reported (world : World Breakers Send) : Event Input AttemptScript Nat → Prop
  | .act index script =>
    ∀ send ∈ world.tasks[index]?, ∀ id ∈ send.phase.provider,
      HalfOpen id world.shared → leavesUnreported world.shared send script = true →
      ∃ other ∈ world.tasks.eraseIdx index, AtProvider id other
  | _ => True

instance (world : World Breakers Send) (event : Event Input AttemptScript Nat) :
    Decidable (Reported world event) :=
  match event with
  | .act index script =>
    inferInstanceAs (Decidable (∀ send ∈ world.tasks[index]?, ∀ id ∈ send.phase.provider,
      HalfOpen id world.shared → leavesUnreported world.shared send script = true →
      ∃ other ∈ world.tasks.eraseIdx index, AtProvider id other))
  | .start _ => .isTrue trivial
  | .outside _ => .isTrue trivial

/-! ## What one action does to the breakers -/

variable {connector : AgentConnector}

/-- A send gets to a provider by being let through, and stays there until it leaves. -/
theorem attemptOnce_provider (connector : AgentConnector) (send : Send) (call : Call)
    (scr : AttemptScript) :
    (attemptOnce connector send call scr).phase.provider = some call.providerId ∨
      (attemptOnce connector send call scr).phase = .finished none ∧
        drops scr call.attempt = true := by
  have he : ∀ e, (afterError call e).provider = some call.providerId := by
    intro e
    rw [afterError]
    split <;> rfl
  have htry : (send.tryOnce call scr).phase.provider = some call.providerId ∨
      (send.tryOnce call scr).phase = .finished none ∧ drops scr call.attempt = true := by
    rw [tryOnce]
    split
    · next hs => exact .inr ⟨rfl, by simp [drops, hs]⟩
    · exact .inl (he _)
    · next sess hs =>
      rw [exchange]
      split
      · exact .inl rfl
      · split
        · exact .inl rfl
        · show (afterAnswer _ _ _).provider = _ ∨ afterAnswer _ _ _ = _ ∧ _
          rw [seenResult]
          cases hr : sess.result with
          | none => exact .inr ⟨rfl, by simp [drops, hs, hr]⟩
          | some r =>
            cases r with
            | ok resp => exact .inl rfl
            | error e =>
              left
              show (afterAnswer _ _ (some (if _ then _ else _))).provider = _
              split
              · exact he _
              · exact he _
  rw [attemptOnce]
  split
  · exact .inl rfl
  · split
    · exact htry
    · next ha =>
      split
      · exact htry
      · exact .inl rfl
      · next hb => exact .inr ⟨rfl, by simp [drops, ha, hb]⟩

/-- What one action does, seen from the breaker of one provider. -/
structure Touches (id : ProviderId) (shared : Breakers) (send : Send) (script : AttemptScript)
    (shared' : Breakers) (send' : Send) : Prop where
  /-- The breaker changes state only for a send at its provider, or for one that it lets through. -/
  state : shared'.state id = shared.state id ∨ AtProvider id send ∨
    AtProvider id send' ∧ shared.state id = some .opened
  /-- A half-open breaker lets nobody through. -/
  entered : AtProvider id send' → AtProvider id send ∨ ¬ HalfOpen id shared
  /-- A send at the provider does not make the breaker half-open. -/
  kept : AtProvider id send → HalfOpen id shared' → HalfOpen id shared
  /-- A send that leaves and reports does not leave the breaker half-open. -/
  left : AtProvider id send → HalfOpen id shared' →
    AtProvider id send' ∨ leavesUnreported shared send script = true

/-- An action that does not touch the breaker. -/
theorem Touches.of_same {send send' : Send} {scr : AttemptScript}
    (he : AtProvider id send' → AtProvider id send)
    (hleft : AtProvider id send → HalfOpen id shared → ¬ AtProvider id send' → leavesUnreported
      shared send scr = true) : Touches id shared send scr shared send' := by
  refine ⟨.inl rfl, fun h => .inl (he h), fun _ h => h, ?_⟩
  intro hat hhalf
  by_cases hat' : AtProvider id send'
  · exact .inl hat'
  · exact .inr (hleft hat hhalf hat')

/-- An action on the breaker of the provider that the send is at. -/
theorem Touches.of_update {own : ProviderId} {send send' : Send} {scr : AttemptScript}
    {f : CircuitBreaker → CircuitBreaker} (hown : send.phase.provider = some own)
    (he : AtProvider id send' → AtProvider id send)
    (hkept : ∀ brk, shared.breakers[own]? = some brk → (f brk).state = .halfOpen →
      brk.state = .halfOpen)
    (hleft : ∀ brk, shared.breakers[own]? = some brk → (f brk).state = .halfOpen →
      send'.phase.provider = some own ∨ leavesUnreported shared send scr = true) :
    Touches id shared send scr (shared.update own f) send' := by
  by_cases hid : own = id
  · subst hid
    have hhalf : HalfOpen own (shared.update own f) →
        ∃ brk, shared.breakers[own]? = some brk ∧ (f brk).state = .halfOpen := by
      intro h
      rw [HalfOpen, Breakers.state_update, if_pos rfl] at h
      exact Option.map_eq_some_iff.1 h
    refine ⟨.inr (.inl hown), fun h => .inl (he h), ?_, ?_⟩
    · intro _ h
      obtain ⟨brk, hb, hs⟩ := hhalf h
      rw [HalfOpen, Breakers.state, hb, Option.map_some, hkept brk hb hs]
    · intro _ h
      obtain ⟨brk, hb, hs⟩ := hhalf h
      exact hleft brk hb hs
  · -- another provider's breaker, and the send is not there
    have ho : (shared.update own f).state id = shared.state id := by
      rw [Breakers.state_update, if_neg hid]
    have hnot : ¬ AtProvider id send := by
      intro hat
      exact hid (Option.some.inj (hown.symm.trans hat))
    exact ⟨.inl ho, fun h => .inl (he h), fun h => absurd h hnot, fun h => absurd h hnot⟩

theorem select_touches (id : ProviderId) (shared : Breakers) (send : Send)
    (scr : AttemptScript) (own : ProviderId) (i : Nat) (rest : List (ProviderId × Nat))
    (hown : send.phase.provider = none) :
    Touches id shared send scr (select connector shared send own i rest).1
      (select connector shared send own i rest).2 := by
  have hnot : ¬ AtProvider id send := by
    intro h
    rw [AtProvider, hown] at h
    cases h
  rw [select]
  split
  · exact .of_same (fun h => absurd h (by simp [AtProvider, Phase.provider])) fun h => absurd h hnot
  · split
    · split
      · next hp =>
        rcases shared.state_isAvailable own id with hsame | ⟨rfl, -, ho⟩
        · refine ⟨.inl hsame, ?_, fun h => absurd h hnot, fun h => absurd h hnot⟩
          -- the breaker that let the send through was not half-open
          intro hat
          obtain rfl : own = id := Option.some.inj hat
          right
          intro hhalf
          rw [Breakers.isAvailable_of_halfOpen hhalf] at hp
          cases hp
        · refine ⟨.inr (.inr ⟨rfl, ho⟩), ?_, fun h => absurd h hnot,
            fun h => absurd h hnot⟩
          intro _
          right
          intro hhalf
          rw [HalfOpen, ho] at hhalf
          cases hhalf
      · next hr =>
        rcases shared.state_isAvailable own id with hsame | ⟨rfl, hp, -⟩
        · exact ⟨.inl hsame, fun h => absurd h (by simp [AtProvider, Phase.provider]),
            fun h => absurd h hnot, fun h => absurd h hnot⟩
        · exact absurd hp hr
    · exact .of_same (fun h => absurd h (by simp [AtProvider, Phase.provider]))
        fun h => absurd h hnot

/-- A breaker that is half-open exists. -/
theorem exists_of_halfOpen (h : HalfOpen id shared) : shared.breakers[id]? ≠ none := by
  obtain ⟨brk, hb, -⟩ := Option.map_eq_some_iff.1 h
  rw [hb]
  simp

theorem settle_touches (id : ProviderId) (shared : Breakers) (send : Send) (scr : AttemptScript)
    {own : ProviderId} {rest : List (ProviderId × Nat)}
    {r : Except ConnectorError (LlmResponse × Text)} (h : send.phase = .returned own rest r) :
    Touches id shared send scr (settle shared send own rest r).1
      (settle shared send own rest r).2 := by
  have hown : send.phase.provider = some own := by
    rw [h]
    rfl
  have hnone : shared.breakers[own]? = none → AtProvider id send → ¬ HalfOpen id shared := by
    intro hb hat hhalf
    obtain rfl : own = id := Option.some.inj (hown.symm.trans hat)
    exact exists_of_halfOpen hhalf hb
  cases r with
  | ok ans =>
    rw [settle]
    split
    · next hb =>
      exact .of_same (fun h => absurd h (by simp [AtProvider, Phase.provider]))
        fun hat hhalf => absurd hhalf (hnone hb hat)
    · exact .of_update hown (fun hat => hown.trans hat) (fun _ _ hs => hs) fun _ _ _ => .inl rfl
  | error e =>
    have hu : isTransient e = false → leavesUnreported shared send scr = true := by
      intro he
      rw [leavesUnreported, h]
      simp [he]
    rw [settle]
    split
    · next hend =>
      exact .of_same (fun h => absurd h (by simp [AtProvider, Phase.provider]))
        fun _ _ _ => hu (isTransient_of_endsFailover hend)
    · split
      · split
        · next hb =>
          exact .of_same (fun h => absurd h (by simp [AtProvider, Phase.provider]))
            fun hat hhalf => absurd hhalf (hnone hb hat)
        · exact .of_update hown (fun hat => hown.trans hat) (fun _ _ hs => hs) fun _ _ _ => .inl rfl
      · next ht =>
        exact .of_same (fun h => absurd h (by simp [AtProvider, Phase.provider]))
          fun _ _ _ => hu (by simpa using ht)

theorem act_touches (connector : AgentConnector) (id : ProviderId) (shared : Breakers) (send : Send)
    (scr : AttemptScript) :
    Touches id shared send scr (act connector shared send scr).1
      (act connector shared send scr).2 := by
  rw [act]
  split
  · next h =>
    exact .of_same (fun h => absurd h (by simp [AtProvider, Phase.provider]))
      fun hat => absurd hat (by simp [AtProvider, Phase.provider, h])
  · next h => exact select_touches id shared send scr _ _ _ (by rw [h]; rfl)
  · next call h =>
    have hown : send.phase.provider = some call.providerId := by rw [h]; rfl
    rcases attemptOnce_provider connector send call scr with
      hstay | ⟨hf, hd⟩
    · refine .of_same ?_ ?_
      · intro hat
        exact hown.trans (hstay.symm.trans hat)
      · intro hat _ hnot
        exact absurd (hstay.trans (hown.symm.trans hat)) hnot
    · refine .of_same (fun hat => absurd hat (by simp [AtProvider, hf, Phase.provider])) ?_
      intro _ _ _
      rw [leavesUnreported, h]
      exact hd
  · next h => exact settle_touches id shared send scr h
  · next out h =>
    have hown : send.phase.provider = some out.servedBy := by rw [h]; rfl
    refine .of_update hown (fun hat => absurd hat (by simp [AtProvider, Phase.provider])) ?_ ?_
    · intro brk _ hs
      cases hs
    · intro brk _ hs
      cases hs
  · next own rest e failures h =>
    refine .of_update (by rw [h]; rfl)
      (fun hat => absurd hat (by simp [AtProvider, Phase.provider])) ?_ ?_
    · intro brk _ hs
      rw [CircuitBreaker.trip] at hs
      dsimp only at hs
      split at hs
      · cases hs
      · exact hs
    · -- below the threshold the breaker keeps its state
      intro brk hb hs
      right
      rw [CircuitBreaker.trip] at hs
      dsimp only at hs
      split at hs
      · cases hs
      · next hbe =>
        have ht : threshold shared own = brk.failureThreshold := by
          rw [threshold, hb]
          rfl
        simp only [leavesUnreported, h, ht]
        exact decide_eq_true (Nat.lt_of_not_le hbe)
  · exact .of_same (fun h => h) fun hat _ hnot => absurd hat hnot

/-! ## Half-open breakers and their owners -/

theorem start_fst (shared : Breakers) (x : Input) : (start connector shared x).1 = shared :=
  (start_cases connector shared x).2.2.2.1

theorem start_provider (shared : Breakers) (x : Input) :
    (start connector shared x).2.phase.provider = none := by
  obtain ⟨-, -, -, -, ⟨r, hp⟩ | hp⟩ := start_cases connector shared x
  · rw [hp]
    rfl
  · rw [hp]
    rfl

/-- A breaker becomes half-open by letting a send through. -/
theorem acquires (connector : AgentConnector) :
    Program.Acquires (program connector) HalfOpen AtProvider where
  start id shared input h := by
    have h : HalfOpen id (start connector shared input).1 := h
    rwa [start_fst] at h
  outside id shared elapsed h := h
  act id shared send script h := by
    have ht := act_touches connector id shared send script
    rcases ht.state with hsame | hat | ⟨hat, -⟩
    · left
      rw [HalfOpen, ← hsame]
      exact h
    · exact .inl (ht.kept hat h)
    · exact .inr hat

/-- A half-open breaker stays half-open for everybody who is not at its provider. -/
theorem retains (connector : AgentConnector) :
    Program.Retains (program connector) HalfOpen AtProvider where
  start id shared input h := by
    refine ⟨?_, ?_⟩
    · show HalfOpen id (start connector shared input).1
      rwa [start_fst]
    · show (start connector shared input).2.phase.provider ≠ some id
      rw [start_provider]
      simp
  outside id shared elapsed h := h
  act id shared send script h hnot := by
    have ht := act_touches connector id shared send script
    refine ⟨?_, ?_⟩
    · rcases ht.state with hsame | hat | ⟨-, ho⟩
      · show (act connector shared send script).1.state id = some .halfOpen
        rw [hsame]
        exact h
      · exact absurd hat hnot
      · rw [HalfOpen, ho] at h
        cases h
    · intro hat
      rcases ht.entered hat with hat | hhalf
      · exact hnot hat
      · exact hhalf h

/-- An event that respects `Reported` takes no half-open breaker's last send away. -/
theorem Reported.orderly {w : World Breakers Send} {ev : Event Input AttemptScript Nat}
    (hr : Reported w ev) : Program.Orderly (program connector) HalfOpen AtProvider w ev := by
  cases ev with
  | start x => trivial
  | outside elapsed => trivial
  | act i scr =>
    intro send id hi hat hhalf
    have ht := act_touches connector id w.shared send scr
    rcases ht.left hat hhalf with hs | hu
    · exact .inl hs
    · -- the condition names another send at the provider
      obtain ⟨o, ho, hat'⟩ :=
        hr send hi id hat (ht.kept hat hhalf) hu
      obtain ⟨pos, hne, hp⟩ := List.mem_eraseIdx_iff_getElem?.1 ho
      exact .inr ⟨pos, o, hne, hp, hat'⟩

/-- If every send that leaves a provider with a half-open breaker reports, or leaves another send
there, then no breaker is half-open once no send is in progress, and every breaker lets the next
send through after its cooldown. -/
theorem breakers_recover (connector : AgentConnector) (shared : Breakers)
    (hshared : ∀ id, ¬ HalfOpen id shared) (events : List (Event Input AttemptScript Nat))
    (hreported : EachAfter (fun pre event =>
      Reported ((program connector).interleave ⟨shared, []⟩ pre) event) events)
    (hidle : ∀ send ∈ ((program connector).interleave ⟨shared, []⟩ events).tasks,
      send.isFinished = true)
    (id : ProviderId) (breaker : CircuitBreaker)
    (hbreaker : ((program connector).interleave ⟨shared, []⟩ events).shared.breakers[id]? =
      some breaker) :
    breaker.state ≠ .halfOpen ∧
      ∀ now, (breaker.lastFailure ≠ none → breaker.cooledDown now = true) →
        (breaker.isAvailable now).1 = true := by
  have hinit : Program.Owned HalfOpen AtProvider (⟨shared, []⟩ : World Breakers Send) :=
    fun id h => absurd h (hshared id)
  have howned := Program.owned_run (acquires connector) hinit
    (hreported.mono fun _ _ _ h => h.orderly)
  have hstate : breaker.state ≠ .halfOpen := by
    intro hhalf
    have hheld : HalfOpen id ((program connector).interleave ⟨shared, []⟩ events).shared := by
      rw [HalfOpen, Breakers.state, hbreaker, Option.map_some, hhalf]
    -- its owner would be a send in progress
    obtain ⟨send, hsend, hat⟩ := howned id hheld
    have hfinished := hidle send hsend
    rw [isFinished] at hfinished
    split at hfinished
    · next hphase =>
      rw [AtProvider, hphase] at hat
      cases hat
    · cases hfinished
  exact ⟨hstate, fun now hcooled => CircuitBreaker.isAvailable_of_ne_halfOpen hstate hcooled⟩

/-! ### Probes -/

/-- A registry with one provider. -/
def soleConnector : AgentConnector := AgentConnector.new.registerProvider (sampleAdapter "a".toList)

/-- Its breaker. -/
def soleBreakers : Breakers := Breakers.register ⟨∅, 0⟩ "a".toList

/-- The send at a position runs to its end, with the same outcome for each attempt. -/
def sendAll (index : Nat) (script : AttemptScript) : List (Event Input AttemptScript Nat) :=
  .start ⟨.sendControlled "a".toList [StandardMessage.user "hi".toList] [] none, false⟩ ::
    List.replicate 6 (.act index script)

/-- Three sends time out, the cooldown passes, and a fourth send probes the provider. -/
def probed (script : AttemptScript) : List (Event Input AttemptScript Nat) :=
  let timedOut := answer (.error (.timeout ⟨"a".toList, [], none⟩)) 1
  sendAll 0 timedOut ++ sendAll 1 timedOut ++ sendAll 2 timedOut ++
    .outside 30000000000 :: sendAll 3 script

/-- The provider answers the probe. -/
def probeAnswered : List (Event Input AttemptScript Nat) :=
  probed (answer (.ok ⟨"hello".toList, [], none⟩) 1)

/-- The provider rejects the probe's credentials. -/
def probeRejected : List (Event Input AttemptScript Nat) :=
  probed (answer (.error (.authentication ⟨"a".toList, [], none⟩)) 1)

set_option maxRecDepth 100000 in
theorem probeAnswered_recovers :
    ∃ breaker, ((program soleConnector).interleave ⟨soleBreakers, []⟩
        probeAnswered).shared.breakers["a".toList]? = some breaker ∧
      breaker.state ≠ .halfOpen ∧
        ∀ now, (breaker.lastFailure ≠ none → breaker.cooledDown now = true) →
          (breaker.isAvailable now).1 = true := by
  have hsome : (((program soleConnector).interleave ⟨soleBreakers, []⟩
      probeAnswered).shared.breakers["a".toList]?).isSome = true := by decide +kernel
  obtain ⟨breaker, hbreaker⟩ := Option.isSome_iff_exists.1 hsome
  refine ⟨breaker, hbreaker, breakers_recover soleConnector soleBreakers ?_ probeAnswered ?_ ?_
    "a".toList breaker hbreaker⟩
  · intro id hhalf
    rw [HalfOpen, Breakers.state, soleBreakers, Breakers.register, OrdMap.lookup_insert] at hhalf
    split at hhalf
    · cases hhalf
    · simp at hhalf
  · apply eachAfter_of_take
    decide +kernel
  · decide +kernel

set_option maxRecDepth 100000 in
/-- After the rejected probe no send is in progress, and whatever happens later the breaker is
half-open and turns every send away. -/
theorem probeRejected_stuck :
    (∀ send ∈ ((program soleConnector).interleave ⟨soleBreakers, []⟩ probeRejected).tasks,
      send.isFinished = true) ∧
    ∀ later, HalfOpen "a".toList ((program soleConnector).interleave ⟨soleBreakers, []⟩
        (probeRejected ++ later)).shared ∧
      (((program soleConnector).interleave ⟨soleBreakers, []⟩
        (probeRejected ++ later)).shared.isAvailable "a".toList).1 = false := by
  refine ⟨by decide +kernel, fun later => ?_⟩
  have hlost : Program.Unowned HalfOpen AtProvider "a".toList
      ((program soleConnector).interleave ⟨soleBreakers, []⟩ probeRejected) :=
    ⟨by decide +kernel, by decide +kernel⟩
  have hstuck := (Program.unowned_run (retains soleConnector) hlost later).1
  rw [Program.interleave, Program.interleave, ← run_append] at hstuck
  exact ⟨hstuck, Breakers.isAvailable_of_halfOpen hstuck⟩

end Send

end AgentOS
