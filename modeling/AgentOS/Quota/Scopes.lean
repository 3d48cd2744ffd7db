import AgentOS.Base.Path
import AgentOS.Quota.Maintenance

/-!
# The scopes of tenants, profiles and agents

`cgroup_for_agent` files quota rows under the root, a tenant, a profile of the tenant and an agent
of the profile. Tenants and profiles have arbitrary names, which the path escapes. Erasure selects
rows by a beginning or an end of the path; the result is that it selects exactly the rows meant, and
that receipts stay numbered without a gap (`scopeErasure_exact`).
-/

namespace AgentOS

open Lib

/-- The scopes that `cgroup_for_agent` builds, below the root of the cgroups. -/
inductive CgroupScope where
  | root
  | tenant (tenantId : Text)
  | profile (tenantId profile : Text)
  | agent (tenantId profile : Text) (agentId : Uuid)

namespace CgroupScope

open QuotaLedger

/-- The scope string. -/
def path : CgroupScope → Text
  | root => ['/']
  | tenant tenantId => tenantScope tenantId
  | profile tenantId name => tenantScope tenantId ++ "/profile/".toList ++ quotaScopeSegment name
  | agent tenantId name agentId =>
    tenantScope tenantId ++ "/profile/".toList ++ quotaScopeSegment name ++ agentScopeSuffix agentId

/-- The tenant of a scope. -/
def tenant? : CgroupScope → Option Text
  | root => none
  | tenant tenantId | profile tenantId _ | agent tenantId _ _ => some tenantId

/-- The agent of an agent's own scope. -/
def agent? : CgroupScope → Option Uuid
  | agent _ _ agentId => some agentId
  | _ => none

/-- The scopes of an agent, root to leaf. -/
def lineage (tenantId profile : Text) (agentId : Uuid) : List CgroupScope :=
  [root, .tenant tenantId, .profile tenantId profile, .agent tenantId profile agentId]

/-! ## Paths decode -/

/-- The escape of one character of a name. -/
def escape (c : Char) : Text :=
  if c = '~' then ['~', '0'] else if c = '/' then ['~', '1'] else [c]

theorem quotaScopeSegment_cons (c : Char) (v : Text) :
    quotaScopeSegment (c :: v) = escape c ++ quotaScopeSegment v := rfl

/-- Escapes are a code without prefixes. -/
theorem escape_append {c d : Char} {x y : Text} (h : escape c ++ x = escape d ++ y) :
    c = d ∧ x = y := by
  unfold escape at h
  split_ifs at h <;> simp only [List.cons_append, List.nil_append, List.cons.injEq] at h <;> grind

theorem quotaScopeSegment_injective : Function.Injective quotaScopeSegment := by
  intro a
  induction a with
  | nil =>
    intro b h
    cases b with
    | nil => rfl
    | cons d b =>
      rw [quotaScopeSegment_cons, escape] at h
      split_ifs at h <;> cases h
  | cons c a ih =>
    intro b h
    cases b with
    | nil =>
      rw [quotaScopeSegment_cons, escape] at h
      split_ifs at h <;> cases h
    | cons d b =>
      rw [quotaScopeSegment_cons, quotaScopeSegment_cons] at h
      obtain ⟨rfl, hrest⟩ := escape_append h
      rw [ih hrest]

theorem slash_not_mem_segment (v : Text) : '/' ∉ quotaScopeSegment v := by
  intro h
  obtain ⟨c, -, hc⟩ := List.mem_flatMap.1 h
  split_ifs at hc with h₁ h₂
  · simp at hc
  · simp at hc
  · exact h₂ (List.mem_singleton.1 hc).symm

/-- The names between the slashes of a path. -/
def components : CgroupScope → List Text
  | root => [[], []]
  | tenant tenantId => [[], "tenant".toList, quotaScopeSegment tenantId]
  | profile tenantId name =>
    [[], "tenant".toList, quotaScopeSegment tenantId, "profile".toList, quotaScopeSegment name]
  | agent tenantId name agentId =>
    [[], "tenant".toList, quotaScopeSegment tenantId, "profile".toList, quotaScopeSegment name,
      "agent".toList, agentId.toString]

theorem splitOn_slash (a b : Text) :
    (a ++ '/' :: b).splitOn '/' = a.splitOn '/' ++ b.splitOn '/' :=
  List.splitOnP_append_cons a b rfl

theorem splitOn_free {a : Text} (h : '/' ∉ a) : a.splitOn '/' = [a] :=
  List.splitOnP_eq_singleton fun _ hc => beq_eq_false_iff_ne.2 fun heq => h (heq ▸ hc)

/-- A word and a name after a path. -/
theorem splitOn_below {above sep word name : Text} (hs : sep = '/' :: (word ++ ['/']))
    (hw : '/' ∉ word) (hn : '/' ∉ name) :
    (above ++ sep ++ name).splitOn '/' = above.splitOn '/' ++ [word, name] := by
  rw [hs, List.append_assoc, List.cons_append, List.append_assoc, List.singleton_append,
    splitOn_slash, splitOn_slash, splitOn_free hw, splitOn_free hn]
  rfl

theorem splitOn_tenant (tid : Text) :
    (tenantScope tid).splitOn '/' = components (.tenant tid) := by
  have h := @splitOn_below [] "/tenant/".toList "tenant".toList _ (by decide +kernel)
    (by decide +kernel) (slash_not_mem_segment tid)
  rwa [splitOn_free List.not_mem_nil] at h

theorem splitOn_profile (above name : Text) :
    (above ++ "/profile/".toList ++ quotaScopeSegment name).splitOn '/' =
      above.splitOn '/' ++ ["profile".toList, quotaScopeSegment name] :=
  splitOn_below (by decide +kernel) (by decide +kernel) (slash_not_mem_segment name)

theorem splitOn_agent (above : Text) (agentId : Uuid) :
    (above ++ agentScopeSuffix agentId).splitOn '/' =
      above.splitOn '/' ++ ["agent".toList, agentId.toString] := by
  have h := @splitOn_below above "/agent/".toList "agent".toList _ (by decide +kernel)
    (by decide +kernel) agentId.slash_not_mem_toString
  rwa [List.append_assoc above] at h

theorem splitOn_path (s : CgroupScope) : s.path.splitOn '/' = s.components := by
  cases s with
  | root =>
    rw [path, ← List.nil_append ['/'], splitOn_slash, splitOn_free List.not_mem_nil]
    rfl
  | tenant t => exact splitOn_tenant t
  | profile t name =>
    rw [path, splitOn_profile, splitOn_tenant]
    rfl
  | agent t name a =>
    rw [path, splitOn_agent, splitOn_profile, splitOn_tenant]
    rfl

/-- No two scopes share a string, at any level. -/
theorem path_injective : Function.Injective path := by
  intro s s' h
  have hsplit : s.components = s'.components := by rw [← splitOn_path, h, splitOn_path]
  cases s <;> cases s' <;>
    simp_all [components, quotaScopeSegment_injective.eq_iff, Uuid.toString_injective.eq_iff]

/-! ## What the selections mean -/

theorem tenant?_iff (s : CgroupScope) (tid : Text) :
    (s.path == tenantScope tid || (tenantScope tid ++ ['/']).isPrefixOf s.path) = true ↔
      s.tenant? = some tid := by
  rw [Bool.or_eq_true, beq_iff_eq, List.isPrefixOf_iff_prefix]
  constructor
  · rintro (h | ⟨rest, h⟩)
    · obtain rfl : s = .tenant tid := path_injective h
      rfl
    · have hsplit := splitOn_path s
      rw [← h, List.append_assoc, List.singleton_append, splitOn_slash, splitOn_tenant] at hsplit
      cases s with
      | root => cases hsplit
      | tenant t | profile t name | agent t name a =>
        injection hsplit with _ hsplit
        injection hsplit with _ hsplit
        injection hsplit with hsegment _
        rw [← quotaScopeSegment_injective hsegment, tenant?]
  · intro h
    cases s with
    | root => cases h
    | tenant t =>
      obtain rfl := Option.some.inj h
      exact .inl rfl
    | profile t name | agent t name a =>
      obtain rfl := Option.some.inj h
      have hword : "/profile/".toList = '/' :: "profile/".toList := by decide +kernel
      exact .inr (by simp [path, hword])

theorem agent?_iff (s : CgroupScope) (agentId : Uuid) :
    (agentScopeSuffix agentId).isSuffixOf s.path = true ↔ s.agent? = some agentId := by
  rw [List.isSuffixOf_iff_suffix]
  constructor
  · rintro ⟨before, h⟩
    have hsplit := splitOn_path s
    rw [← h, splitOn_agent] at hsplit
    -- the last two names are those of the suffix
    have hlast := congrArg (fun ns => ns.reverse.take 2) hsplit
    simp only [List.reverse_append, List.reverse_cons, List.reverse_nil, List.nil_append,
      List.cons_append, List.take_succ_cons, List.take_zero] at hlast
    cases s with
    | root => exact absurd (List.cons.inj (List.cons.inj hlast).2).1 (by decide +kernel)
    | tenant t | profile t name =>
      injection hlast with _ hlast
      injection hlast with hlast _
      exact absurd hlast (by decide +kernel)
    | agent t name a =>
      injection hlast with hlast _
      rw [agent?, Uuid.toString_injective hlast]
  · intro h
    cases s with
    | root | tenant t | profile t p => cases h
    | agent t p a =>
      obtain rfl := Option.some.inj h
      exact List.suffix_append _ _

end CgroupScope

/-! ## Erasure -/

namespace QuotaLedger

variable (ledger : QuotaLedger)

/-- A row of `quota_receipt_scopes`. -/
def HasRow (receiptId : Text) (row : StoredQuotaScope) : Prop :=
  ∃ receipt, ledger.receipts[receiptId]? = some receipt ∧ row ∈ receipt.scopes

/-- Every cgroup scope with a row was built by `cgroup_for_agent`. -/
structure Built : Prop where
  rows : ∀ receiptId row, ledger.HasRow receiptId row → row.key.kind = .cgroup →
    ∃ s : CgroupScope, row.key.id = s.path
  aggregates : ∀ (key : ScopeEpoch) (value : Nat × Nat), ledger.aggregates[key]? = some value →
    key.scope.kind = .cgroup → ∃ s : CgroupScope, key.scope.id = s.path

/-- Of the rows, those of the scopes in `gone` and no others are missing in `after`. -/
structure Erased (after : QuotaLedger) (gone : CgroupScope → Prop) : Prop where
  rows : ∀ receiptId row, after.HasRow receiptId row ↔
    ledger.HasRow receiptId row ∧ ¬ ∃ s, gone s ∧ row.key = .ofCgroup s.path
  aggregates : ∀ (key : ScopeEpoch) (value : Nat × Nat), after.aggregates[key]? = some value ↔
    ledger.aggregates[key]? = some value ∧ ¬ ∃ s, gone s ∧ key.scope = .ofCgroup s.path

/-- Every receipt was filed for the scopes of an agent, of which the leaves may be gone. -/
def Filed : Prop :=
  ∀ (receiptId : Text) (receipt : StoredQuotaReceipt), ledger.receipts[receiptId]? = some receipt →
    ∃ tenantId profile agentId count, receipt.scopes = scopeRows receipt
      (((CgroupScope.lineage tenantId profile agentId).take count).map CgroupScope.path)

/-- The scopes of every receipt are numbered from the provider's on. -/
def Numbered : Prop :=
  ∀ (receiptId : Text) (receipt : StoredQuotaReceipt), ledger.receipts[receiptId]? = some receipt →
    receipt.scopes.map StoredQuotaScope.order = List.range receipt.scopes.length ∧
      (receipt.scopes.map StoredQuotaScope.key).head? = some .providerGlobal

variable {ledger} {erased : Text → Bool} {gone : CgroupScope → Prop}

theorem receipts_eraseScopes (rid : Text) :
    (ledger.eraseScopes erased).receipts[rid]? = ledger.receipts[rid]?.map (erasedReceipt erased) :=
  Std.ExtTreeMap.getElem?_map

/-- A selection of paths erases the scopes that it means. -/
theorem Built.erasedScopes (h : ledger.Built) (hmeans : ∀ s, erased s.path = true ↔ gone s) :
    ledger.Erased (ledger.eraseScopes erased) gone := by
  have hgone : ∀ key : QuotaScopeKey,
      (key.kind = .cgroup → ∃ s : CgroupScope, key.id = s.path) →
      (erases erased key = false ↔ ¬ ∃ s, gone s ∧ key = .ofCgroup s.path) := by
    rintro ⟨kind, id⟩ hbuilt
    cases kind with
    | provider => simp [erases, QuotaScopeKey.ofCgroup]
    | cgroup =>
      obtain ⟨s, rfl⟩ := hbuilt rfl
      simp only [erases, beq_self_eq_true, Bool.true_and, QuotaScopeKey.ofCgroup,
        QuotaScopeKey.mk.injEq, true_and, ← Bool.not_eq_true, hmeans]
      refine not_congr ⟨fun hg => ⟨s, hg, rfl⟩, ?_⟩
      rintro ⟨s', hg, hp⟩
      rwa [CgroupScope.path_injective hp]
  constructor
  · intro rid row
    constructor
    · rintro ⟨receipt', hr', hrow⟩
      rw [receipts_eraseScopes] at hr'
      obtain ⟨receipt, hr, rfl⟩ := Option.map_eq_some_iff.1 hr'
      obtain ⟨hrow, hkept⟩ := List.mem_filter.1 hrow
      have hhas : ledger.HasRow rid row := ⟨receipt, hr, hrow⟩
      exact ⟨hhas, (hgone _ (h.rows rid row hhas)).1 (by simpa using hkept)⟩
    · rintro ⟨⟨receipt, hr, hrow⟩, hkept⟩
      have hkeep := (hgone _ (h.rows rid row ⟨receipt, hr, hrow⟩)).2 hkept
      refine ⟨erasedReceipt erased receipt, by rw [receipts_eraseScopes, hr]; rfl, ?_⟩
      exact List.mem_filter.2 ⟨hrow, by simpa using hkeep⟩
  · intro key v
    have hafter : (ledger.eraseScopes erased).aggregates[key]? =
        ledger.aggregates[key]?.filter fun _ => !erases erased key.scope :=
      OrdMap.lookup_filter _ _ _
    rw [hafter, Option.filter_eq_some_iff, Bool.not_eq_true']
    refine and_congr_right fun hv => ?_
    exact hgone _ (h.aggregates key v hv)

theorem numbered_scopeRows (receipt : StoredQuotaReceipt) (cgroups : List Text) :
    (scopeRows receipt cgroups).map StoredQuotaScope.order =
        List.range (scopeRows receipt cgroups).length ∧
      ((scopeRows receipt cgroups).map StoredQuotaScope.key).head? = some .providerGlobal := by
  refine ⟨?_, by rw [map_key_scopeRows]; rfl⟩
  rw [scopeRows, List.map_map, List.length_map, List.length_zipIdx, List.range_eq_range']
  exact List.zipIdx_map_snd 0 _

/-- A selection that follows every lineage downwards leaves receipts numbered. -/
theorem Filed.numbered (h : ledger.Filed)
    (hclosed : ∀ tid profile agentId, (CgroupScope.lineage tid profile agentId).Pairwise
      fun outer inner => erased outer.path = true → erased inner.path = true) :
    (ledger.eraseScopes erased).Numbered := by
  intro rid receipt' hr
  rw [receipts_eraseScopes] at hr
  obtain ⟨receipt, hreceipt, rfl⟩ := Option.map_eq_some_iff.1 hr
  obtain ⟨t, p, a, count, hrows⟩ := h rid receipt hreceipt
  have hpairs : (((CgroupScope.lineage t p a).take count).map CgroupScope.path).Pairwise
      fun outer inner => erased outer = true → erased inner = true :=
    List.pairwise_map.2 ((hclosed t p a).sublist (List.take_sublist _ _))
  obtain ⟨kept, hkept⟩ := filter_scopeRows receipt hpairs
  have hscopes : (erasedReceipt erased receipt).scopes = _ := (hrows ▸ hkept :)
  rw [hscopes]
  exact numbered_scopeRows receipt _

end QuotaLedger

open QuotaLedger

/-- For all names and identifiers: scopes have distinct strings at every level; of any rows filed
under such scopes, the erasure of a tenant takes exactly those of the tenant, its profiles and its
agents, and the erasure of an agent exactly those of the agent's own scopes; and receipts filed for
agents stay numbered. -/
theorem scopeErasure_exact :
    Function.Injective CgroupScope.path ∧
      ∀ ledger : QuotaLedger,
        (ledger.Built →
          (∀ tenantId, ledger.Erased (ledger.eraseTenant tenantId) (·.tenant? = some tenantId)) ∧
          ∀ agentId, ledger.Erased (ledger.eraseAgent agentId) (·.agent? = some agentId)) ∧
        (ledger.Filed →
          (∀ tenantId, (ledger.eraseTenant tenantId).Numbered) ∧
          ∀ agentId, (ledger.eraseAgent agentId).Numbered) := by
  refine ⟨CgroupScope.path_injective, fun ledger => ⟨fun h => ⟨?_, ?_⟩, fun h => ⟨?_, ?_⟩⟩⟩
  · exact fun tenantId => h.erasedScopes fun s => s.tenant?_iff tenantId
  · exact fun agentId => h.erasedScopes fun s => s.agent?_iff agentId
  · intro tenantId
    refine h.numbered fun t p a => ?_
    simp only [CgroupScope.tenant?_iff]
    simp [CgroupScope.lineage, CgroupScope.tenant?]
  · intro agentId
    refine h.numbered fun t p a => ?_
    simp only [CgroupScope.agent?_iff]
    simp [CgroupScope.lineage, CgroupScope.agent?]

/-- One request of an agent whose tenant and profile have separators in their names. -/
def Sample.filed : QuotaLedger :=
  let scopes := CgroupScope.lineage "a/b".toList "~%_".toList ⟨List.replicate 32 7, rfl⟩
  let receipt : StoredQuotaReceipt := ⟨4, .reserved, 1, 20, none, none, []⟩
  ⟨(∅ : OrdMap Text StoredQuotaReceipt).insert "r".toList
    { receipt with scopes := scopeRows receipt (scopes.map CgroupScope.path) }, ∅, ∅, none, ∅⟩

theorem scopeErasure_exact_filed :
    (Sample.filed.Built ∧ Sample.filed.Filed) ∧
      Sample.filed.Erased (Sample.filed.eraseTenant "a/b".toList)
        (·.tenant? = some "a/b".toList) ∧
      (Sample.filed.eraseTenant "a/b".toList).Numbered := by
  have hfiled : Sample.filed.Filed := by
    intro receiptId receipt hr
    rw [Sample.filed, OrdMap.lookup_insert] at hr
    split_ifs at hr
    · obtain rfl := Option.some.inj hr
      exact ⟨_, _, _, 4, rfl⟩
    · simp at hr
  have hbuilt : Sample.filed.Built := by
    refine ⟨?_, fun key value hv => by simp [Sample.filed] at hv⟩
    rintro receiptId row ⟨receipt, hr, hrow⟩ hkind
    obtain ⟨t, p, a, count, hscopes⟩ := hfiled receiptId receipt hr
    rcases List.mem_cons.1 (mem_scopeRows (hscopes ▸ hrow)).1 with hkey | hkey
    · rw [hkey] at hkind
      cases hkind
    · obtain ⟨path, hpath, hkey⟩ := List.mem_map.1 hkey
      obtain ⟨s, -, rfl⟩ := List.mem_map.1 hpath
      exact ⟨s, by rw [← hkey]; rfl⟩
  exact ⟨⟨hbuilt, hfiled⟩, ((scopeErasure_exact.2 Sample.filed).1 hbuilt).1 _,
    ((scopeErasure_exact.2 Sample.filed).2 hfiled).1 _⟩

end AgentOS
