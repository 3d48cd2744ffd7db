import AgentOS.Policy.Mac
import AgentOS.Lib.Scan

/-!
# Policy documents

A document is lowered to the rules of a MAC engine, with a catch-all for a default other than deny.
`lint` calls a rule unreachable when an earlier one covers its selectors. The probe behind that
answer takes the label and the resource for one string, so some of the rules it reports can still
decide a query (`lint_calls_dead_iff`). `explain` reports the catch-all as a matched rule
(`explain_faithful_iff`).
-/

namespace AgentOS

open Lib

inductive Decision where
  | allow
  | deny
  | audit
  deriving DecidableEq

/-- `Decision::as_engine_str`. -/
def Decision.asEngineStr : Decision → Text
  | allow => "allow".toList
  | deny => "deny".toList
  | audit => "audit".toList

/-- `Decision::to_mac`. -/
def Decision.toMac : Decision → MacDecision
  | allow => .allow
  | deny => .deny
  | audit => .audit

/-- How the decision is printed. -/
def Decision.debug : Decision → String
  | allow => "Allow"
  | deny => "Deny"
  | audit => "Audit"

structure Rule where
  name : Option Text
  (subject action object : Text)
  decision : Decision

structure PolicyDocument where
  version : Nat
  enforcing : Bool
  default : Decision
  rules : List Rule

structure Lint where
  ruleIndex : Option Nat
  message : String

structure Explanation where
  decision : MacDecision
  matchedRule : Option Nat
  matchedName : Option Text
  usedDefault : Bool
  deriving DecidableEq

/-! ## Validation -/

def canonicalActionLabels : List String :=
  ["read", "write", "delete", "net", "exec", "ipc", "browser", "credential", "package-install"]

/-- The name of a rule in brackets. -/
def ruleName (name : Option Text) : String :=
  (name.map fun name => " (" ++ String.ofList name ++ ")").getD ""

def validateActionLabel (index : Nat) (name : Option Text) (action : Text) : Except String Unit :=
  rejectIf (action ≠ ['*'] ∧ ∀ label ∈ canonicalActionLabels, label.toList ≠ action)
    ("rule #" ++ toString index ++ ruleName name ++ " uses unknown action label '" ++
      String.ofList action ++ "'; expected one of: " ++ ", ".intercalate canonicalActionLabels ++
      " (labels come from ToolSecurity, for example `exec`, not `execute`)")

/-- The checks of one rule. -/
def Rule.validate (index : Nat) (rule : Rule) : Except String Unit := do
  rejectIf (trim rule.subject = [] ∨ trim rule.action = [] ∨ trim rule.object = [])
    ("rule #" ++ toString index ++ ruleName rule.name ++
      " has an empty subject/action/object field")
  validateActionLabel index rule.name rule.action

variable (document : PolicyDocument)

/-- `PolicyDocument::validate`. -/
def PolicyDocument.validate : Except String Unit := do
  rejectIf (document.version ≠ 1) ("unsupported policy version " ++ toString document.version ++
    " (this build understands version 1)")
  document.rules.zipIdx.forM fun entry => entry.1.validate entry.2

/-! ## Lowering -/

namespace PolicyDocument

/-- An authored rule as a rule of the engine. -/
def lower (rule : Rule) : PolicyRule :=
  ⟨rule.subject, rule.action, rule.object, rule.decision.asEngineStr⟩

/-- `PolicyDocument::compile`. -/
def compile : List PolicyRule :=
  document.rules.map lower ++
    if document.default ≠ .deny then [⟨['*'], ['*'], ['*'], document.default.asEngineStr⟩] else []

/-- `PolicyDocument::to_engine`. -/
def toEngine : MacEngine :=
  ⟨document.compile, .deny, document.enforcing⟩

end PolicyDocument

/-- The three selectors of an authored rule match. -/
def Rule.selects (subject action objectLabel resource : Text) (rule : Rule) : Bool :=
  (PolicyDocument.lower rule).applies subject action objectLabel resource

namespace PolicyDocument

/-- The engine of a document takes the first authored rule that selects the query, and the declared
default when there is none. -/
theorem evaluate_toEngine (subj action obj res : Text) :
    document.toEngine.evaluate subj action obj res =
      match document.rules.findIdx? (Rule.selects subj action obj res) with
      | some i => (document.toEngine.effective
          ((document.rules[i]?.map fun rule => rule.decision.toMac).getD .deny), some i)
      | none => (document.toEngine.effective document.default.toMac,
          if document.default = .deny then none else some document.rules.length) := by
  have hdecision : ∀ rule : Rule, (lower rule).macDecision = rule.decision.toMac := by
    intro rule
    cases hd : rule.decision <;> simp [lower, PolicyRule.macDecision, hd] <;> rfl
  have ha : (document.rules.map lower).findIdx?
      (PolicyRule.applies subj action obj res) =
        document.rules.findIdx? (Rule.selects subj action obj res) := by
    rw [List.findIdx?_map]
    rfl
  rw [MacEngine.evaluate]
  show (match (document.compile).findIdx? _ with | some _ => _ | none => _) = _
  rw [compile, List.findIdx?_append, ha]
  cases hfind : document.rules.findIdx? (Rule.selects subj action obj res) with
  | some i =>
    obtain ⟨hlt, -⟩ := List.findIdx?_eq_some_iff_getElem.1 hfind
    have hrule : document.compile[i]? = some (lower document.rules[i]) := by
      rw [compile, List.getElem?_append_left (by rwa [List.length_map]), List.getElem?_map,
        List.getElem?_eq_getElem hlt, Option.map_some]
    simp [toEngine, hrule, hdecision, List.getElem?_eq_getElem hlt]
  | none =>
    cases hdf : document.default <;>
      simp [toEngine, compile, hdf, PolicyRule.applies, labelMatches, objectMatches] <;> rfl

/-! ## Explanations -/

/-- What a faithful explanation of the query is: the first authored rule that selects it, or the
declared default. -/
def declared (subject action object : Text) : Explanation :=
  match document.rules.findIdx? (Rule.selects subject action object object) with
  | some index => ⟨document.toEngine.effective
      ((document.rules[index]?.map fun rule => rule.decision.toMac).getD .deny), some index,
      document.rules[index]?.bind Rule.name, false⟩
  | none => ⟨document.toEngine.effective document.default.toMac, none, none, true⟩

def selectorCovers (earlier later : Text) : Bool := earlier == ['*'] || earlier == later

def objectSelectorCovers (earlier later : Text) : Bool :=
  if earlier = ['*'] ∨ earlier = ['*', '*'] ∨ earlier = later then true
  else if '*' ∈ later ∨ '?' ∈ later then false
  else
    let engine : MacEngine := ⟨[⟨['*'], ['*'], earlier, "allow".toList⟩], .deny, true⟩
    (engine.evaluate ['*'] ['*'] later later).2.isSome

def ruleSelectorCovers (earlier later : Rule) : Bool :=
  selectorCovers earlier.subject later.subject && selectorCovers earlier.action later.action &&
    objectSelectorCovers earlier.object later.object

/-- The message that calls a rule unreachable. -/
def unreachable (index shadowing : Nat) : String :=
  "rule #" ++ toString index ++ " is unreachable: earlier rule #" ++ toString shadowing ++
    " matches every subject/action/object it can match"

/-- What `lint` says of one rule. -/
def lintRule (index : Nat) (rule : Rule) : List Lint :=
  (match (document.rules.take index).findIdx? (ruleSelectorCovers · rule) with
    | some shadowing => [⟨some index, unreachable index shadowing⟩]
    | none => []) ++
  if rule.decision ≠ .deny ∧ rule.action = ['*'] then
    [⟨some index,
      "overbroad wildcard allows or audits every action for the matched subject and resource"⟩]
  else []

/-- `PolicyDocument::lint`. -/
def lint : List Lint :=
  (if document.enforcing then []
    else [⟨none,
      "SECURITY: policy is permissive; deny/audit decisions are logged but not enforced"⟩]) ++
  (if document.default = .deny then []
    else [⟨none, "SECURITY: terminal default is " ++ document.default.debug ++
      "; every otherwise-unmatched action is permitted"⟩]) ++
  (if document.enforcing ∧ document.rules = [] ∧ document.default = .deny then
    [⟨none,
      "enforcing policy has no rules and default = deny: every confined action will be denied"⟩]
    else []) ++
  document.rules.zipIdx.flatMap fun entry => document.lintRule entry.2 entry.1

/-- Lint calls the rule unreachable. -/
def CallsUnreachable (index : Nat) : Prop :=
  ∃ shadowing, ⟨some index, unreachable index shadowing⟩ ∈ document.lint

/-- A rule is called unreachable exactly if an earlier one covers its selectors. -/
theorem callsUnreachable_iff {document : PolicyDocument} {i : Nat} :
    document.CallsUnreachable i ↔ ∃ rule, document.rules[i]? = some rule ∧
      ∃ prior ∈ document.rules.take i, ruleSelectorCovers prior rule = true := by
  have hm : ∀ shad, unreachable i shad ≠
      "overbroad wildcard allows or audits every action for the matched subject and resource" := by
    intro shad h
    have hhead := congrArg (fun msg => msg.toList.head?) h
    simp [unreachable] at hhead
  constructor
  · rintro ⟨shad, hmem⟩
    rw [lint, List.mem_append] at hmem
    rcases hmem with hmem | hmem
    · exfalso
      revert hmem
      split_ifs <;> simp
    obtain ⟨⟨rule, pos⟩, hen, hlint⟩ := List.mem_flatMap.1 hmem
    rw [lintRule, List.mem_append] at hlint
    rcases hlint with hlint | hlint
    · cases hfind : (document.rules.take pos).findIdx? (ruleSelectorCovers · rule) with
      | none => simp [hfind] at hlint
      | some fst =>
        simp only [hfind, List.mem_singleton, Lint.mk.injEq, Option.some.injEq] at hlint
        obtain ⟨hlt, hc, -⟩ := List.findIdx?_eq_some_iff_getElem.1 hfind
        rw [hlint.1]
        exact ⟨rule, List.mem_zipIdx_iff_getElem?.1 hen, _, List.getElem_mem hlt, hc⟩
    · split_ifs at hlint
      · exact absurd (congrArg Lint.message (List.mem_singleton.1 hlint)) (hm _)
      · cases hlint
  · rintro ⟨rule, hrule, prior, he, hc⟩
    obtain ⟨shad, hfind⟩ : ∃ shad, (document.rules.take i).findIdx?
        (ruleSelectorCovers · rule) = some shad := by
      rw [← Option.isSome_iff_exists, List.findIdx?_isSome, List.any_eq_true]
      exact ⟨prior, he, hc⟩
    refine ⟨shad, List.mem_append_right _ (List.mem_flatMap.2 ⟨(rule, i),
      List.mem_zipIdx_iff_getElem?.2 hrule, List.mem_append_left _ ?_⟩)⟩
    simp [hfind]

/-- The earlier rule matches whatever the later one matches, the label and the resource of a query
being independent. -/
def shadows (earlier later : Rule) : Bool :=
  selectorCovers earlier.subject later.subject && selectorCovers earlier.action later.action &&
    (earlier.object == later.object || earlier.object.all (· == '*'))

/-- The probe of `lint`: the later object is a literal that the earlier one matches as a glob. -/
def probes (earlier later : Rule) : Bool :=
  selectorCovers earlier.subject later.subject && selectorCovers earlier.action later.action &&
    (later.object.all fun c => c != '*' && c != '?') &&
    globMatch (asBytes earlier.object) (asBytes later.object)

theorem objectSelectorCovers_iff {earlier later : Text} :
    objectSelectorCovers earlier later = true ↔
      (earlier = ['*'] ∨ earlier = ['*', '*'] ∨ earlier = later) ∨
        (later.all fun c => c != '*' && c != '?') = true ∧
          globMatch (asBytes earlier) (asBytes later) = true := by
  have hliteral : (later.all fun c => c != '*' && c != '?') = true ↔
      ¬ ('*' ∈ later ∨ '?' ∈ later) := by
    simp only [List.all_eq_true, Bool.and_eq_true, bne_iff_ne, not_or]
    exact ⟨fun h => ⟨fun hm => (h _ hm).1 rfl, fun hm => (h _ hm).2 rfl⟩,
      fun h c hc => ⟨fun heq => h.1 (heq ▸ hc), fun heq => h.2 (heq ▸ hc)⟩⟩
  rw [objectSelectorCovers, hliteral]
  split_ifs with hsame hwild
  · simp [hsame]
  · simp [hsame, hwild]
  · -- the engine of one rule matches the literal as its label or as a resource
    rw [not_or, not_or] at hsame
    cases hglob : globMatch (asBytes earlier) (asBytes later) <;>
      simp [hsame, hwild, MacEngine.evaluate, PolicyRule.applies, objectMatches, labelMatches,
        hglob, List.findIdx?_cons]

/-- The selectors of a rule are covered by a rule that shadows it or by the probe. -/
theorem ruleSelectorCovers_cases {prior later : Rule} (h : ruleSelectorCovers prior later = true) :
    shadows prior later = true ∨ probes prior later = true := by
  simp only [ruleSelectorCovers, Bool.and_eq_true, objectSelectorCovers_iff] at h
  obtain ⟨⟨hsubject, haction⟩, hobject⟩ := h
  simp only [shadows, probes, hsubject, haction, Bool.true_and, Bool.and_eq_true, Bool.or_eq_true,
    beq_iff_eq]
  rcases hobject with (hstar | hstars | hsame) | hprobe
  · exact .inl (.inr (by rw [hstar]; rfl))
  · exact .inl (.inr (by rw [hstars]; rfl))
  · exact .inl (.inl hsame)
  · exact .inr hprobe

theorem ruleSelectorCovers_of_probes {prior later : Rule} (h : probes prior later = true) :
    ruleSelectorCovers prior later = true := by
  simp only [probes, Bool.and_eq_true] at h
  simp only [ruleSelectorCovers, Bool.and_eq_true, objectSelectorCovers_iff]
  exact ⟨h.1.1, .inr ⟨h.1.2, h.2⟩⟩

theorem objectMatches_of_stars {object : Text} (hne : object ≠ []) (hs : ∀ c ∈ object, c = '*')
    (obj res : Text) : objectMatches object obj res = true := by
  match object, hne with
  | [c], _ =>
    rw [hs c List.mem_cons_self]
    simp [objectMatches, labelMatches]
  | c :: d :: rest, _ =>
    -- the two first stars take the whole resource and the others nothing
    obtain rfl := hs c (by simp)
    obtain rfl := hs d (by simp)
    refine Bool.or_eq_true_iff.2 (.inr (globMatch_asBytes_iff.2 ?_))
    exact ⟨asBytes res, [], (List.append_nil _).symm,
      reads_byteTokens_nil_iff.2 fun c hc => hs c (by simp [hc])⟩

theorem selects_of_shadows {prior later : Rule} (h : shadows prior later = true)
    (hne : prior.object ≠ []) {subj action obj res : Text}
    (hl : later.selects subj action obj res = true) :
    prior.selects subj action obj res = true := by
  have hlabel : ∀ {a b v : Text}, selectorCovers a b = true → labelMatches b v = true →
      labelMatches a v = true := by
    intro a b v hc hm
    simp only [selectorCovers, labelMatches, Bool.or_eq_true, beq_iff_eq] at hc hm ⊢
    rcases hc with ha | rfl
    · exact .inl ha
    · exact hm
  simp only [shadows, Bool.and_eq_true, Bool.or_eq_true, beq_iff_eq, List.all_eq_true] at h
  simp only [Rule.selects, PolicyRule.applies, lower, Bool.and_eq_true] at hl ⊢
  refine ⟨⟨hlabel h.1.1 hl.1.1, hlabel h.1.2 hl.1.2⟩, ?_⟩
  rcases h.2 with hsame | hs
  · rw [hsame]
    exact hl.2
  · exact objectMatches_of_stars hne hs ..

/-- A label that a selector matches and only those of the others that cover it. -/
theorem exists_separating (selector : Text) (others : List Text) :
    ∃ v, labelMatches selector v = true ∧
      ∀ o ∈ others, labelMatches o v = true → selectorCovers o selector = true := by
  by_cases hstar : selector = ['*']
  · obtain ⟨v, hf⟩ := Infinite.exists_notMem_finset others.toFinset
    refine ⟨v, by simp [labelMatches, hstar], fun o ho hm => ?_⟩
    have hne : o ≠ v := fun h => hf (List.mem_toFinset.2 (h ▸ ho))
    simp only [labelMatches, Bool.or_eq_true, beq_iff_eq, hne, or_false] at hm
    simp [selectorCovers, hm]
  · exact ⟨selector, by simp [labelMatches], fun o _ hm => hm⟩

/-- A query that a rule selects and, of the others, only those that shadow it: the label is the
rule's object and the resource is empty. -/
theorem exists_query (rules : List Rule) (later : Rule) :
    ∃ subj action obj res, later.selects subj action obj res = true ∧
      ∀ prior ∈ rules, prior.selects subj action obj res = true → shadows prior later = true := by
  obtain ⟨subj, hsb, hsubject⟩ :=
    exists_separating later.subject (rules.map Rule.subject)
  obtain ⟨action, hac, ha⟩ := exists_separating later.action (rules.map Rule.action)
  refine ⟨subj, action, later.object, [], ?_, fun prior he hs => ?_⟩
  · have ho : labelMatches later.object later.object = true := by simp [labelMatches]
    simp [Rule.selects, PolicyRule.applies, lower, hsb, hac, objectMatches, ho]
  · simp only [Rule.selects, PolicyRule.applies, lower, objectMatches, Bool.and_eq_true,
      Bool.or_eq_true] at hs
    rw [shadows, hsubject _ (List.mem_map_of_mem he) hs.1.1, ha _ (List.mem_map_of_mem he) hs.1.2]
    simp only [Bool.true_and, Bool.or_eq_true, beq_iff_eq, List.all_eq_true]
    rcases hs.2 with hl | hglob
    · simp only [labelMatches, Bool.or_eq_true, beq_iff_eq] at hl
      rcases hl with hstar | hsame
      · exact .inr (by simp [hstar])
      · exact .inl hsame
    · exact .inr (reads_byteTokens_nil_iff.1 (globMatch_asBytes_iff.1 hglob))

theorem object_ne_nil {document : PolicyDocument} (hv : document.validate = .ok ())
    {rule : Rule} (hrule : rule ∈ document.rules) : rule.object ≠ [] := by
  intro hnil
  simp only [validate, bind_eq_ok] at hv
  obtain ⟨-, -, hr⟩ := hv
  obtain ⟨i, hi⟩ := List.mem_iff_getElem?.1 hrule
  have hone := (forM_eq_ok_iff (fun _ => Iff.rfl) _).1 hr (rule, i)
    (List.mem_zipIdx_iff_getElem?.2 hi)
  simp only [Rule.validate, bind_eq_ok, rejectIf_eq_ok, hnil] at hone
  exact hone.choose_spec.1 (.inr (.inr rfl))

/-- An authored rule decides a query exactly if it is the first that selects it. -/
theorem evaluate_snd_eq_iff {document : PolicyDocument} {i : Nat}
    (hi : i < document.rules.length) {subj action obj res : Text} :
    (document.toEngine.evaluate subj action obj res).2 = some i ↔
      document.rules.findIdx? (Rule.selects subj action obj res) = some i := by
  rw [evaluate_toEngine]
  cases document.rules.findIdx? (Rule.selects subj action obj res) with
  | some fst => rfl
  | none =>
    have hne : document.rules.length ≠ i := Nat.ne_of_gt hi
    by_cases hd : document.default = .deny <;> simp [hd, hne]

/-- Lint calls only dead rules of a valid document dead exactly if every rule that the probe of an
earlier one finds covered is shadowed by an earlier one. -/
theorem lint_calls_dead_iff (document : PolicyDocument) (hvalid : document.validate = .ok ()) :
    (∀ index, document.CallsUnreachable index → ∀ subject action objectLabel resource,
      (document.toEngine.evaluate subject action objectLabel resource).2 ≠ some index) ↔
    ∀ index rule, document.rules[index]? = some rule →
      (∃ prior ∈ document.rules.take index, probes prior rule = true) →
        ∃ earlier ∈ document.rules.take index, shadows earlier rule = true := by
  constructor
  · rintro hdead index rule hrule ⟨prior, hprior, hprobes⟩
    have hcalls := callsUnreachable_iff.2
      ⟨rule, hrule, prior, hprior, ruleSelectorCovers_of_probes hprobes⟩
    obtain ⟨hindex, rfl⟩ := List.getElem?_eq_some_iff.1 hrule
    obtain ⟨subject, action, objectLabel, resource, hselects, hothers⟩ :=
      exists_query document.rules document.rules[index]
    have hnot := (evaluate_snd_eq_iff hindex).not.1
      (hdead index hcalls subject action objectLabel resource)
    rw [List.findIdx?_eq_some_iff_getElem] at hnot
    -- the query is not decided by the rule, so an earlier one selects it
    obtain ⟨first, hfirst, hearlier⟩ : ∃ first, ∃ hlt : first < index,
        document.rules[first].selects subject action objectLabel resource = true := by
      by_contra hnone
      exact hnot ⟨hindex, hselects, fun first hlt hfirst => hnone ⟨first, hlt, hfirst⟩⟩
    exact ⟨_, List.mem_take_iff_getElem.2 ⟨first, by omega, rfl⟩,
      hothers _ (List.getElem_mem _) hearlier⟩
  · intro hshadowed index hcalls subject action objectLabel resource hevaluate
    obtain ⟨rule, hrule, prior, hprior, hcovers⟩ := callsUnreachable_iff.1 hcalls
    obtain ⟨earlier, hearlier, hshadows⟩ : ∃ earlier ∈ document.rules.take index,
        shadows earlier rule = true := by
      rcases ruleSelectorCovers_cases hcovers with h | h
      · exact ⟨prior, hprior, h⟩
      · exact hshadowed index rule hrule ⟨prior, hprior, h⟩
    obtain ⟨hindex, rfl⟩ := List.getElem?_eq_some_iff.1 hrule
    obtain ⟨_, hselects, hfirst⟩ := List.findIdx?_eq_some_iff_getElem.1
      ((evaluate_snd_eq_iff hindex).1 hevaluate)
    obtain ⟨first, hlt, rfl⟩ := List.mem_take_iff_getElem.1 hearlier
    exact hfirst first (by omega) (selects_of_shadows hshadows
      (object_ne_nil hvalid (List.getElem_mem _)) hselects)

/-- A rule that allows a file. -/
def fileRule : Rule := ⟨none, ['*'], ['*'], ['/', 'a'], .allow⟩

/-- The rule after one that denies the file's directory. -/
def directoryThenFile : PolicyDocument :=
  ⟨1, true, .deny, [⟨none, ['*'], ['*'], ['/', '*'], .deny⟩, fileRule]⟩

/-- Lint calls the second rule unreachable, but a resource elsewhere that carries the label `/a` is
decided by it. -/
theorem reported_rule_decides : directoryThenFile.validate = .ok () ∧
    directoryThenFile.CallsUnreachable 1 ∧
    (directoryThenFile.toEngine.evaluate ['x'] ['y'] ['/', 'a'] ['b']).2 = some 1 := by
  have hfile : globMatch (asBytes ['/', '*']) (asBytes ['/', 'a']) = true := by
    rw [show asBytes ['/', '*'] = [47, 42] by decide, show asBytes ['/', 'a'] = [47, 97] by decide]
    simp [globMatch, Glob.globMatch]
  have hother : globMatch (asBytes ['/', '*']) (asBytes ['b']) = false := by
    rw [show asBytes ['/', '*'] = [47, 42] by decide, show asBytes ['b'] = [98] by decide]
    simp [globMatch, Glob.globMatch]
  refine ⟨by decide, callsUnreachable_iff.2 ⟨fileRule, rfl, _, List.mem_cons_self, ?_⟩, ?_⟩
  · simp [ruleSelectorCovers, selectorCovers, fileRule,
      objectSelectorCovers, MacEngine.evaluate, PolicyRule.applies, objectMatches, labelMatches,
      hfile]
  · rw [evaluate_snd_eq_iff (by decide)]
    simp [directoryThenFile, List.findIdx?_cons, Rule.selects, lower, PolicyRule.applies, fileRule,
      objectMatches, labelMatches, hother]

/-- The rule given twice: lint reports the second, and nothing reaches it. -/
theorem repeated_rule_dead :
    PolicyDocument.CallsUnreachable ⟨1, true, .deny, [fileRule, fileRule]⟩ 1 ∧
    ∀ subject action objectLabel resource,
      ((toEngine ⟨1, true, .deny, [fileRule, fileRule]⟩).evaluate subject action objectLabel
        resource).2 ≠ some 1 := by
  have hcalls : PolicyDocument.CallsUnreachable ⟨1, true, .deny, [fileRule, fileRule]⟩ 1 :=
    callsUnreachable_iff.2 ⟨fileRule, rfl, fileRule, List.mem_cons_self, rfl⟩
  refine ⟨hcalls, (lint_calls_dead_iff _ (by decide)).2 ?_ 1 hcalls⟩
  rintro index rule hrule ⟨prior, hprior, -⟩
  match index with
  | 0 => cases hprior
  | 1 => exact ⟨fileRule, by simp, by rw [← Option.some.inj hrule]; rfl⟩
  | n + 2 => simp at hrule

end PolicyDocument

end AgentOS
