import AgentOS.Base.Utf8
import AgentOS.Lib.Glob

/-!
# Mandatory access control

The engine takes the decision of the first rule whose three selectors match. An object selector
matches the label of the resource, or the resource itself as a glob over its bytes. So `?` stands
for one byte. A run may end within a character, but what follows it reads whole characters; a
pattern reads a resource as it documents if it has no `?` or the resource is ASCII
(`object_glob_documented`).
-/

namespace AgentOS

open Lib

inductive MacDecision where
  | allow
  | deny
  | audit
  deriving DecidableEq

structure PolicyRule where
  (subject action object decision : Text)
  deriving DecidableEq

/-- The fields of `MacEngine` that an evaluation reads. -/
structure MacEngine where
  rules : List PolicyRule
  default : MacDecision
  enforcing : Bool

/-- `MacEngine::matches`. -/
def labelMatches (pattern value : Text) : Bool := pattern == ['*'] || pattern == value

/-- `MacEngine::glob_match`. -/
def globMatch (pattern value : List UInt8) : Bool := Glob.globMatch 42 63 47 pattern value

/-- `MacEngine::object_matches`. -/
def objectMatches (pattern objectLabel resource : Text) : Bool :=
  labelMatches pattern objectLabel || globMatch (asBytes pattern) (asBytes resource)

namespace PolicyRule

/-- The three selectors of a rule match. -/
def applies (subject action objectLabel resource : Text) (rule : PolicyRule) : Bool :=
  labelMatches rule.subject subject && labelMatches rule.action action &&
    objectMatches rule.object objectLabel resource

/-- The decision that the text of a rule names. -/
def macDecision (rule : PolicyRule) : MacDecision :=
  if rule.decision = "allow".toList then .allow
  else if rule.decision = "deny".toList then .deny
  else if rule.decision = "audit".toList then .audit else .deny

end PolicyRule

namespace MacEngine

/-- A permissive engine allows everything. -/
def effective (engine : MacEngine) (decision : MacDecision) : MacDecision :=
  if engine.enforcing then decision else .allow

/-- `MacEngine::evaluate`. -/
def evaluate (engine : MacEngine) (subject action objectLabel resource : Text) :
    MacDecision × Option Nat :=
  match engine.rules.findIdx? (PolicyRule.applies subject action objectLabel resource) with
  | some index =>
    (engine.effective ((engine.rules[index]?.map PolicyRule.macDecision).getD .deny), some index)
  | none => (engine.effective engine.default, none)

end MacEngine

/-! ## Patterns over characters and over bytes -/

/-- The tokens over bytes of a token over characters. -/
def byteTokens : Glob.Token Char → List (Glob.Token UInt8)
  | .deep => [.deep]
  | .run => [.run]
  | .one => [.one]
  | .lit c => (String.utf8EncodeChar c).map .lit

theorem head?_asBytes {d : Char} (hd : d.toNat < 128) (v : Text) :
    (asBytes v).head? = some (asciiByte d) ↔ v.head? = some d := by
  cases v with
  | nil => simp [asBytes]
  | cons c v =>
    rw [asBytes_cons]
    by_cases hc : c.toNat < 128
    · simp [utf8EncodeChar_ascii hc, asciiByte_inj hc hd]
    · have hne : c ≠ d := fun h => hc (h ▸ hd)
      have hmem := (asciiByte_mem_utf8EncodeChar hd).not.2 hne
      cases hb : String.utf8EncodeChar c with
      | nil => exact absurd hb String.utf8EncodeChar_ne_nil
      | cons b bytes =>
        rw [hb, List.mem_cons, not_or] at hmem
        simp [hne, Ne.symm hmem.1]

/-- The bytes of a character have the tokens of the character, unless a second star follows. -/
theorem tokens_utf8EncodeChar {c : Char} {bytes : List UInt8}
    (h : ¬ (c = '*' ∧ bytes.head? = some (asciiByte '*'))) :
    Glob.tokens (asciiByte '*') (asciiByte '?') (String.utf8EncodeChar c ++ bytes) =
      byteTokens (Glob.token '*' '?' c) ++ Glob.tokens (asciiByte '*') (asciiByte '?') bytes := by
  by_cases hstar : c = '*'
  · subst hstar
    rw [utf8EncodeChar_ascii (by decide), List.singleton_append, Glob.tokens_cons,
      if_neg (fun hs => h ⟨rfl, hs.2⟩)]
    rfl
  · by_cases hq : c = '?'
    · subst hq
      rw [utf8EncodeChar_ascii (by decide), List.singleton_append, Glob.tokens_cons,
        if_neg (fun hs => absurd hs.1 (by decide))]
      rfl
    · rw [Glob.tokens_append ((asciiByte_mem_utf8EncodeChar (by decide)).not.2 hstar)
        ((asciiByte_mem_utf8EncodeChar (by decide)).not.2 hq), Glob.token, if_neg hstar,
        if_neg hq]
      rfl

/-- The wildcards of a pattern are single bytes, so its bytes have the tokens of its characters. -/
theorem tokens_asBytes (pat : Text) :
    Glob.tokens (asciiByte '*') (asciiByte '?') (asBytes pat) =
      (Glob.tokens '*' '?' pat).flatMap byteTokens := by
  fun_induction Glob.tokens '*' '?' pat with
  | case1 => rfl
  | case2 c =>
    rw [asBytes_cons, tokens_utf8EncodeChar (by simp [asBytes])]
    rfl
  | case3 c d rest h ih =>
    obtain ⟨rfl, rfl⟩ := h
    rw [asBytes_cons, asBytes_cons, utf8EncodeChar_ascii (by decide), List.singleton_append,
      List.singleton_append, Glob.tokens_cons, if_pos ⟨rfl, rfl⟩, List.tail_cons, ih]
    rfl
  | case4 c d rest h ih =>
    rw [asBytes_cons, tokens_utf8EncodeChar, ih]
    · rfl
    · rw [head?_asBytes (by decide)]
      simpa using h

theorem globMatch_asBytes_iff {pat : Text} {bytes : List UInt8} :
    globMatch (asBytes pat) bytes = true ↔
      Glob.Reads (asciiByte '/') ((Glob.tokens '*' '?' pat).flatMap byteTokens) bytes := by
  rw [← tokens_asBytes]
  exact Glob.globMatch_iff ..

/-- Tokens that stand for no single letter skip the other bytes of a wide character. -/
theorem reads_of_continues {tokens : List (Glob.Token Char)} (hone : .one ∉ tokens)
    {rest : List UInt8} (hrest : ∀ b ∈ rest, Continues b) {v : Text}
    (h : Glob.Reads (asciiByte '/') (tokens.flatMap byteTokens) (rest ++ asBytes v)) :
    Glob.Reads (asciiByte '/') (tokens.flatMap byteTokens) (asBytes v) := by
  induction tokens generalizing rest with
  | nil => exact (List.append_eq_nil_iff.1 h).2
  | cons token tokens ih =>
    rw [List.mem_cons, not_or] at hone
    -- a run ends after the bytes that are skipped, or among them
    have hcut : ∀ piece left, rest ++ asBytes v = piece ++ left →
        Glob.Reads (asciiByte '/') (tokens.flatMap byteTokens) left →
        ∃ piece' left', asBytes v = piece' ++ left' ∧ (∀ b ∈ piece', b ∈ piece) ∧
          Glob.Reads (asciiByte '/') (tokens.flatMap byteTokens) left' := by
      intro piece left heq hr
      rcases List.append_eq_append_iff.1 heq with ⟨z, rfl, hz⟩ | ⟨z, rfl, rfl⟩
      · exact ⟨z, left, hz, fun b hb => List.mem_append_right _ hb, hr⟩
      · exact ⟨[], asBytes v, rfl, nofun,
          ih hone.2 (fun b hb => hrest b (List.mem_append_right _ hb)) hr⟩
    rw [List.flatMap_cons] at h ⊢
    cases token with
    | deep =>
      obtain ⟨piece, left, heq, hr⟩ := h
      obtain ⟨piece', left', heq', -, hr'⟩ := hcut piece left heq hr
      exact ⟨piece', left', heq', hr'⟩
    | run =>
      obtain ⟨piece, left, heq, hp, hr⟩ := h
      obtain ⟨piece', left', heq', hsub, hr'⟩ := hcut piece left heq hr
      exact ⟨piece', left', heq', fun hm => hp (hsub _ hm), hr'⟩
    | one => exact absurd rfl hone.1
    | lit d =>
      cases rest with
      | nil => exact h
      | cons b rest =>
        obtain ⟨left, heq, -⟩ := Glob.reads_map_lit_append.1 h
        cases hd : String.utf8EncodeChar d with
        | nil => exact absurd hd String.utf8EncodeChar_ne_nil
        | cons b' bytes =>
          have hfirst : (String.utf8EncodeChar d)[0]? = some b' := by rw [hd]; rfl
          rw [hd] at heq
          obtain rfl := (List.cons.inj heq).1
          obtain ⟨_, hget⟩ := List.getElem?_eq_some_iff.1 hfirst
          exact absurd (hget ▸ UInt8.isUTF8FirstByte_getElem_utf8EncodeChar.2 rfl)
            (hrest b List.mem_cons_self)

/-- The tokens of the bytes read what the tokens of the characters read, if the resource is ASCII or
no token stands for a single letter. -/
theorem reads_byteTokens_iff {tokens : List (Glob.Token Char)} {v : Text}
    (h : isAscii v = true ∨ .one ∉ tokens) :
    Glob.Reads (asciiByte '/') (tokens.flatMap byteTokens) (asBytes v) ↔
      Glob.Reads '/' tokens v := by
  induction tokens generalizing v with
  | nil =>
    cases v with
    | nil => exact ⟨fun _ => rfl, fun _ => rfl⟩
    | cons c v => simp [Glob.Reads, asBytes_cons]
  | cons token tokens ih =>
    have hnext : ∀ p q, v = p ++ q → isAscii q = true ∨ .one ∉ tokens := by
      rintro p q rfl
      refine h.imp (fun ha => ?_) fun hone hm => hone (List.mem_cons_of_mem _ hm)
      rw [isAscii, List.all_append, Bool.and_eq_true] at ha
      exact ha.2
    -- a run of bytes is a run of characters, with the character that it was cut in
    have hcut : ∀ piece left, asBytes v = piece ++ left →
        Glob.Reads (asciiByte '/') (tokens.flatMap byteTokens) left →
        ∃ p q, v = p ++ q ∧ (∀ d ∈ p, d.toNat < 128 → asciiByte d ∈ piece) ∧
          Glob.Reads '/' tokens q := by
      intro piece left heq hr
      obtain ⟨p, q, rest, rfl, rfl, hrest, hascii, hp⟩ := asBytes_cut heq
      refine ⟨p, q, rfl, hp, (ih (hnext p q rfl)).1 ?_⟩
      rcases h with ha | hone
      · rw [hascii ha] at hr
        exact hr
      · exact reads_of_continues (fun hm => hone (List.mem_cons_of_mem _ hm)) hrest hr
    have hback : ∀ p q, v = p ++ q → Glob.Reads '/' tokens q →
        asBytes v = asBytes p ++ asBytes q ∧
          Glob.Reads (asciiByte '/') (tokens.flatMap byteTokens) (asBytes q) := by
      rintro p q rfl hr
      exact ⟨List.flatMap_append, (ih (hnext p q rfl)).2 hr⟩
    rw [List.flatMap_cons]
    cases token with
    | deep =>
      constructor
      · rintro ⟨piece, left, heq, hr⟩
        obtain ⟨p, q, hv, -, hq⟩ := hcut piece left heq hr
        exact ⟨p, q, hv, hq⟩
      · rintro ⟨p, q, hv, hq⟩
        exact ⟨_, _, hback p q hv hq⟩
    | run =>
      constructor
      · rintro ⟨piece, left, heq, hsep, hr⟩
        obtain ⟨p, q, hv, hp, hq⟩ := hcut piece left heq hr
        exact ⟨p, q, hv, fun hm => hsep (hp '/' hm (by decide)), hq⟩
      · rintro ⟨p, q, hv, hsep, hq⟩
        obtain ⟨heq, hr⟩ := hback p q hv hq
        exact ⟨_, _, heq, (asciiByte_mem_asBytes (by decide)).not.2 hsep, hr⟩
    | one =>
      have ha := h.resolve_right fun hone => hone List.mem_cons_self
      cases v with
      | nil => simp [byteTokens, Glob.Reads, asBytes]
      | cons c v =>
        rw [isAscii, List.all_cons, Bool.and_eq_true, decide_eq_true_eq] at ha
        simp [byteTokens, Glob.Reads, asBytes_cons, utf8EncodeChar_ascii ha.1,
          asciiByte_inj ha.1 (show '/'.toNat < 128 by decide), ih (.inl ha.2)]
    | lit d =>
      rw [byteTokens, Glob.reads_map_lit_append]
      cases v with
      | nil => simp [Glob.Reads, asBytes]
      | cons c v =>
        constructor
        · rintro ⟨left, heq, hr⟩
          obtain ⟨rfl, rfl⟩ := utf8EncodeChar_append_inj heq
          exact ⟨v, rfl, (ih (hnext [c] v rfl)).1 hr⟩
        · rintro ⟨_, heq, hr⟩
          obtain ⟨rfl, rfl⟩ := List.cons.inj heq
          exact ⟨asBytes v, rfl, (ih (hnext [c] v rfl)).2 hr⟩

/-- The empty resource is matched by stars only. -/
theorem reads_byteTokens_nil_iff {pat : Text} :
    Glob.Reads (asciiByte '/') ((Glob.tokens '*' '?' pat).flatMap byteTokens) [] ↔
      ∀ c ∈ pat, c = '*' :=
  (@reads_byteTokens_iff _ [] (.inl rfl)).trans Glob.reads_nil_iff

end AgentOS
