import Mathlib

/-!
# Glob patterns

Patterns over an arbitrary alphabet with a separator, two wildcards for runs and one for a single
letter. `Reads` says declaratively which words a list of tokens reads, `globMatch` is the
backtracking matcher on the letters of the pattern itself, and the two agree (`globMatch_iff`).
-/

namespace AgentOS.Lib.Glob

variable {α : Type}

/-- The parts of a pattern: any run, a run without separators, one letter that is no separator, and
a letter that stands for itself. -/
inductive Token (α : Type) where
  | deep
  | run
  | one
  | lit (a : α)
  deriving DecidableEq

/-- The word can be cut into pieces that the tokens read from left to right. -/
def Reads (separator : α) : List (Token α) → List α → Prop
  | [], word => word = []
  | .deep :: tokens, word => ∃ piece rest, word = piece ++ rest ∧ Reads separator tokens rest
  | .run :: tokens, word =>
    ∃ piece rest, word = piece ++ rest ∧ separator ∉ piece ∧ Reads separator tokens rest
  | .one :: tokens, word => ∃ a rest, word = a :: rest ∧ a ≠ separator ∧ Reads separator tokens rest
  | .lit a :: tokens, word => ∃ rest, word = a :: rest ∧ Reads separator tokens rest

section Steps

variable {separator : α} {tokens : List (Token α)} {word : List α}

/-- A run of any letters reads nothing, or one letter more. -/
theorem reads_deep_step : Reads separator (.deep :: tokens) word ↔
    Reads separator tokens word ∨ ∃ a rest, word = a :: rest ∧
      Reads separator (.deep :: tokens) rest := by
  constructor
  · rintro ⟨p, rest, rfl, h⟩
    cases p with
    | nil => exact .inl h
    | cons a p => exact .inr ⟨a, _, rfl, p, rest, rfl, h⟩
  · rintro (h | ⟨a, _, rfl, p, rest, rfl, h⟩)
    · exact ⟨[], word, rfl, h⟩
    · exact ⟨a :: p, rest, rfl, h⟩

/-- A run within a segment reads nothing, or one letter more that is no separator. -/
theorem reads_run_step : Reads separator (.run :: tokens) word ↔
    Reads separator tokens word ∨ ∃ a rest, word = a :: rest ∧ a ≠ separator ∧
      Reads separator (.run :: tokens) rest := by
  constructor
  · rintro ⟨p, rest, rfl, hp, h⟩
    cases p with
    | nil => exact .inl h
    | cons a p =>
      rw [List.mem_cons, not_or] at hp
      exact .inr ⟨a, _, rfl, Ne.symm hp.1, p, rest, rfl, hp.2, h⟩
  · rintro (h | ⟨a, _, rfl, ha, p, rest, rfl, hp, h⟩)
    · exact ⟨[], word, rfl, List.not_mem_nil, h⟩
    · exact ⟨a :: p, rest, rfl, by simp [Ne.symm ha, hp], h⟩

/-- Letters that stand for themselves are read off the front. -/
theorem reads_map_lit_append {as : List α} :
    Reads separator (as.map .lit ++ tokens) word ↔
      ∃ rest, word = as ++ rest ∧ Reads separator tokens rest := by
  induction as generalizing word with
  | nil => simp
  | cons a as ih =>
    constructor
    · rintro ⟨_, rfl, h⟩
      obtain ⟨rest, rfl, hrest⟩ := ih.1 h
      exact ⟨rest, rfl, hrest⟩
    · rintro ⟨rest, rfl, h⟩
      exact ⟨as ++ rest, rfl, ih.2 ⟨rest, rfl, h⟩⟩

end Steps

variable [DecidableEq α]

/-- The token of a letter that no second star follows. -/
def token (star question a : α) : Token α :=
  if a = star then .run else if a = question then .one else .lit a

/-- The tokens of a pattern, read from left to right. -/
def tokens (star question : α) : List α → List (Token α)
  | [] => []
  | [a] => [token star question a]
  | a :: b :: rest =>
    if a = star ∧ b = star then .deep :: tokens star question rest
    else token star question a :: tokens star question (b :: rest)

/-- The backtracking matcher. -/
def globMatch (star question separator : α) (pattern word : List α) : Bool :=
  match pattern with
  | [] => word.isEmpty
  | a :: rest =>
    if a = star ∧ rest.head? = some star then
      globMatch star question separator rest.tail word ||
        match word with
        | [] => false
        | _ :: word => globMatch star question separator (a :: rest) word
    else if a = star then
      globMatch star question separator rest word ||
        match word with
        | [] => false
        | c :: word => c ≠ separator && globMatch star question separator (a :: rest) word
    else if a = question then
      match word with
      | [] => false
      | c :: word => c ≠ separator && globMatch star question separator rest word
    else
      match word with
      | [] => false
      | c :: word => c = a && globMatch star question separator rest word
  termination_by (pattern.length, word.length)
  decreasing_by all_goals simp_wf; omega

theorem tokens_cons (star qn a : α) (rest : List α) :
    tokens star qn (a :: rest) =
      if a = star ∧ rest.head? = some star then .deep :: tokens star qn rest.tail
      else token star qn a :: tokens star qn rest := by
  cases rest with
  | nil => simp [tokens]
  | cons b rest => simp [tokens]

/-- The matcher finds a reading exactly if there is one. -/
theorem globMatch_iff (star qn separator : α) (pat word : List α) :
    globMatch star qn separator pat word = true ↔ Reads separator (tokens star qn pat) word := by
  fun_induction globMatch star qn separator pat word with
  | case1 word => simp [tokens, Reads]
  | case2 word a rest h ih ihstep =>
    -- two stars: the rest reads the word, or the stars read one letter more
    rw [Bool.or_eq_true, ih, tokens_cons, if_pos h, reads_deep_step]
    cases word with
    | nil => simp
    | cons c word =>
      rw [tokens_cons, if_pos h] at ihstep
      simp [ihstep]
  | case3 word rest h ih ihstep =>
    have hrun : tokens star qn (star :: rest) = .run :: tokens star qn rest := by
      rw [tokens_cons, if_neg h, token, if_pos rfl]
    rw [Bool.or_eq_true, ih, hrun, reads_run_step]
    cases word with
    | nil => simp
    | cons c word =>
      rw [hrun] at ihstep
      simp [ihstep]
  | case4 rest h hne => simp [tokens_cons, token, hne, Reads]
  | case5 rest c word h hne ih => simp [tokens_cons, token, hne, Reads, ih]
  | case6 a rest h hne hne' => simp [tokens_cons, token, hne, hne', Reads]
  | case7 a rest h hne hne' c word ih =>
    simp only [tokens_cons, token, if_neg h, if_neg hne, if_neg hne', Reads, Bool.and_eq_true,
      decide_eq_true_eq, ih, List.cons.injEq]
    constructor
    · rintro ⟨rfl, hr⟩
      exact ⟨word, ⟨rfl, rfl⟩, hr⟩
    · rintro ⟨_, ⟨rfl, rfl⟩, hr⟩
      exact ⟨rfl, hr⟩

/-- The empty word is read by stars only. -/
theorem reads_nil_iff {star qn separator : α} {pat : List α} :
    Reads separator (tokens star qn pat) [] ↔ ∀ a ∈ pat, a = star := by
  have ht : ∀ a rest, Reads separator (token star qn a :: rest) [] ↔
      a = star ∧ Reads separator rest [] := by
    intro a rest
    rw [token]
    split_ifs with hstar hq <;> simp [Reads, hstar]
  fun_induction tokens star qn pat with
  | case1 => simp [Reads]
  | case2 a => simp [ht, Reads]
  | case3 a b rest h ih => simp [Reads, ih, h.1, h.2]
  | case4 a b rest h ih => simp [ht, ih]

/-- Letters that are no wildcards stand for themselves. -/
theorem tokens_append {star qn : α} {cs : List α} (hstar : star ∉ cs)
    (hq : qn ∉ cs) (rest : List α) :
    tokens star qn (cs ++ rest) = cs.map .lit ++ tokens star qn rest := by
  induction cs with
  | nil => rfl
  | cons a cs ih =>
    rw [List.mem_cons, not_or] at hstar hq
    rw [List.cons_append, tokens_cons, if_neg (fun h => hstar.1 h.1.symm), token,
      if_neg (Ne.symm hstar.1), if_neg (Ne.symm hq.1), ih hstar.2 hq.2]
    rfl

end AgentOS.Lib.Glob
