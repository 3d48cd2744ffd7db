import AgentOS.Connector.Failover

/-!
# The failover chain

`failover_chain` follows the configured backups from the primary and stops at a repeated provider or
after as many rounds as there are registered providers. It does not look at the registration of the
backups it follows (`chain_names_unregistered`). The chain is the documented one exactly if the
backups that it can reach in its rounds are registered (`failoverChain_documented_iff`).
-/

namespace AgentOS

open Lib

namespace AgentConnector

variable (connector : AgentConnector) (primary : ProviderId)

/-- What the source documents of a chain: it starts at the primary, follows the backups without a
repetition or an unregistered link, and ends only where it has to. -/
structure Documented (chain : List ProviderId) : Prop where
  starts : chain.head? = some primary
  distinct : chain.Nodup
  links : chain.IsChain fun id next => connector.backupProvider[id]? = some next
  registered : ∀ id ∈ chain.tail, id ∈ connector.providers
  stops : ∀ last ∈ chain.getLast?, ∀ next ∈ connector.backupProvider[last]?,
    next ∉ connector.providers ∨ next ∈ chain

/-- The provider that so many configured backups lead to. -/
def backupAfter : Nat → Option ProviderId
  | 0 => some primary
  | n + 1 => (backupAfter n).bind fun id => connector.backupProvider[id]?

/-- A state of the loop: the chain so far, which ends at `current`. -/
structure Walk (chain : List ProviderId) (current : ProviderId) : Prop where
  starts : chain.head? = some primary
  distinct : chain.Nodup
  links : chain.IsChain fun id next => connector.backupProvider[id]? = some next
  ends : chain.getLast? = some current

variable {connector} {primary} {chain : List ProviderId} {current next : ProviderId}

theorem Walk.snoc (h : connector.Walk primary chain current)
    (hn : connector.backupProvider[current]? = some next) (hc : next ∉ chain) :
    connector.Walk primary (chain ++ [next]) next := by
  have hne : chain ≠ [] := by
    rintro rfl
    cases h.starts
  refine ⟨?_, ?_, ?_, by simp⟩
  · rw [List.head?_append_of_ne_nil _ hne, h.starts]
  · exact h.distinct.append (List.nodup_singleton next) (by simpa using hc)
  · refine List.isChain_append.2 ⟨h.links, .singleton _, ?_⟩
    intro last hl fst hf
    rw [h.ends, Option.mem_some_iff] at hl
    rw [List.head?_cons, Option.mem_some_iff] at hf
    rw [← hl, ← hf, hn]

/-- The loop ends where it finds no backup or a repeated one, or has used its rounds. -/
theorem extendChain_walk (rds : Nat) (h : connector.Walk primary chain current) :
    ∃ last, connector.Walk primary (connector.extendChain rds chain current) last ∧
      (connector.extendChain rds chain current).length ≤ chain.length + rds ∧
      ((∀ next ∈ connector.backupProvider[last]?, next ∈ connector.extendChain rds chain current) ∨
        (connector.extendChain rds chain current).length = chain.length + rds) := by
  induction rds generalizing chain current with
  | zero => exact ⟨current, h, le_rfl, .inr rfl⟩
  | succ rds ih =>
    rw [extendChain]
    split
    · next hn => exact ⟨current, h, by omega, .inl (by simp [hn])⟩
    · next next hn =>
      split
      · next hc => exact ⟨current, h, by omega, .inl (by simpa [hn] using hc)⟩
      · next hc =>
        obtain ⟨last, hw, hlen, he⟩ := ih (h.snoc hn hc)
        rw [List.length_append, List.length_singleton] at hlen he
        exact ⟨last, hw, by omega, he.imp id fun heq => by omega⟩

theorem Walk.getElem? (h : connector.Walk primary chain current) {i : Nat} {id : ProviderId}
    (hi : chain[i]? = some id) : connector.backupAfter primary i = some id := by
  induction i generalizing id with
  | zero =>
    rw [← List.head?_eq_getElem?, h.starts] at hi
    exact hi
  | succ i ih =>
    obtain ⟨hlt, rfl⟩ := List.getElem?_eq_some_iff.1 hi
    rw [backupAfter, ih (List.getElem?_eq_getElem (Nat.lt_of_succ_lt hlt)), Option.bind_some]
    exact List.isChain_iff_getElem.1 h.links i hlt

/-- What the loop leaves, from the primary alone. -/
theorem failoverChain_walk (connector : AgentConnector) (primary : ProviderId) :
    ∃ last, connector.Walk primary (connector.failoverChain primary) last ∧
      (connector.failoverChain primary).length ≤ connector.providers.size + 1 ∧
      ((∀ next ∈ connector.backupProvider[last]?, next ∈ connector.failoverChain primary) ∨
        (connector.failoverChain primary).length = connector.providers.size + 1) := by
  have hw : connector.Walk primary [primary] primary := ⟨rfl, by simp, .singleton _, rfl⟩
  obtain ⟨last, hl, hle, he⟩ := extendChain_walk connector.providers.size hw
  rw [List.length_singleton, Nat.add_comm] at hle he
  exact ⟨last, hl, hle, he⟩

/-- The chain has every provider that its rounds can reach. -/
theorem mem_failoverChain {i : Nat} {id : ProviderId} (hi : i ≤ connector.providers.size)
    (h : connector.backupAfter primary i = some id) : id ∈ connector.failoverChain primary := by
  obtain ⟨last, hw, -, he⟩ := failoverChain_walk connector primary
  induction i generalizing id with
  | zero =>
    obtain rfl := Option.some.inj h
    exact List.mem_of_head? hw.starts
  | succ i ih =>
    obtain ⟨before, hb, hn⟩ := Option.bind_eq_some_iff.1 h
    obtain ⟨j, hj, rfl⟩ := List.mem_iff_getElem.1 (ih (Nat.le_of_succ_le hi) hb)
    by_cases hlt : j + 1 < (connector.failoverChain primary).length
    · -- inside the chain the next link is the backup
      have hl := List.isChain_iff_getElem.1 hw.links j hlt
      rw [hl] at hn
      rw [← Option.some.inj hn]
      exact List.getElem_mem hlt
    · -- the last link has index `j`, so it was not reached too early
      have hend : (connector.failoverChain primary)[j] = last := by
        have hends := hw.ends
        rw [List.getLast?_eq_getElem?, show _ - 1 = j by omega,
          List.getElem?_eq_getElem hj] at hends
        exact Option.some.inj hends
      rcases he with he | he
      · rw [hend] at hn
        exact he id hn
      · have hsame := hw.getElem? (List.getElem?_eq_getElem (show i < _ by omega))
        rw [hb] at hsame
        have hij := (hw.distinct.getElem_inj_iff).1 (Option.some.inj hsame)
        omega

/-- Distinct registered providers, as many as there are, are all of them. -/
theorem mem_of_length_eq {ids : List ProviderId} (hd : ids.Nodup)
    (hr : ∀ id ∈ ids, id ∈ connector.providers) (hlen : connector.providers.size ≤ ids.length)
    {id : ProviderId} (h : id ∈ connector.providers) : id ∈ ids := by
  have hsub : List.Subperm ids connector.providers.keys :=
    List.subperm_of_subset hd fun o ho => Std.ExtTreeMap.mem_keys.2 (hr o ho)
  have hperm := hsub.perm_of_length_le (by rwa [Std.ExtTreeMap.length_keys])
  exact hperm.mem_iff.2 (Std.ExtTreeMap.mem_keys.2 h)

/-- For every registry and every map of backups, the chain is the documented one exactly if each
provider that at most as many backups lead to as there are registered providers is the primary or
registered. -/
theorem failoverChain_documented_iff (connector : AgentConnector) (primary : ProviderId) :
    connector.Documented primary (connector.failoverChain primary) ↔
      ∀ i ≤ connector.providers.size, ∀ id ∈ connector.backupAfter primary i,
        id = primary ∨ id ∈ connector.providers := by
  obtain ⟨last, hw, hle, he⟩ := failoverChain_walk connector primary
  obtain ⟨tail, ht⟩ : ∃ tail, connector.failoverChain primary = primary :: tail :=
    List.head?_eq_some_iff.1 hw.starts
  constructor
  · intro h i hi id hid
    have hmem := mem_failoverChain hi hid
    have hr := h.registered
    rw [ht] at hmem hr
    exact (List.mem_cons.1 hmem).imp_right (hr id)
  · intro h
    have hd := hw.distinct
    rw [ht, List.nodup_cons] at hd
    have hr : ∀ id ∈ (connector.failoverChain primary).tail, id ∈ connector.providers := by
      intro id hid
      rw [ht, List.tail_cons] at hid
      obtain ⟨j, hj, rfl⟩ := List.mem_iff_getElem.1 hid
      have hlt : j + 1 ≤ connector.providers.size := by
        rw [ht, List.length_cons] at hle
        omega
      have hj' : (connector.failoverChain primary)[j + 1]? = some tail[j] := by
        rw [ht, List.getElem?_cons_succ, List.getElem?_eq_getElem hj]
      refine (h (j + 1) hlt _ (hw.getElem? hj')).resolve_left fun heq => ?_
      exact hd.1 (heq ▸ hid)
    refine ⟨hw.starts, hw.distinct, hw.links, hr, ?_⟩
    intro last' hl next hn
    rw [hw.ends, Option.mem_some_iff] at hl
    subst hl
    rcases he with he | he
    · exact .inr (he next hn)
    · -- all providers are in the chain
      refine (em (next ∈ connector.providers)).symm.imp_right fun hp => ?_
      rw [ht, List.length_cons, Nat.succ_inj] at he
      rw [ht, List.tail_cons] at hr
      rw [ht]
      exact List.mem_cons_of_mem _ (mem_of_length_eq hd.2 hr he.ge hp)

/-- One registered provider whose backup is not registered. -/
def dangling : AgentConnector :=
  (new.registerProvider ⟨['a'], .cloudProvider, ⟨true, []⟩, 1⟩).setBackup ['a'] ['b']

theorem chain_names_unregistered :
    dangling.failoverChain ['a'] = [['a'], ['b']] ∧
      ¬ dangling.Documented ['a'] (dangling.failoverChain ['a']) := by
  have hchain : dangling.failoverChain ['a'] = [['a'], ['b']] := by decide +kernel
  refine ⟨hchain, fun h => ?_⟩
  have hr := h.registered ['b']
  rw [hchain] at hr
  exact absurd (hr (by simp)) (by decide +kernel)

end AgentConnector

end AgentOS
