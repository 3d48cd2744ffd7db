import AgentOS.Base.Json
import AgentOS.Base.Uuid

/-!
# File names

A file name is one component of a path. The program derives the names of companion files by
appending suffixes, which keeps a name a name.
-/

namespace AgentOS

/-- `u8::is_ascii_alphanumeric` on the characters it can hold for. -/
def isAsciiAlphanumeric (c : Char) : Bool :=
  ('a' ≤ c && c ≤ 'z') || ('A' ≤ c && c ≤ 'Z') || ('0' ≤ c && c ≤ '9')

/-- `Path::new(name).file_name() == Some(name)`. -/
def isBasename (name : Text) : Bool :=
  !name.isEmpty && !name.contains '/' && name != ['.'] && name != ['.', '.']

/-- A name that the operating system accepts: one component of at most 255 bytes. -/
structure FileName where
  text : Text
  basename : isBasename text = true
  short : byteLength text ≤ 255
  deriving DecidableEq

namespace FileName

variable (name : FileName) {suffix suffix' : Text}

theorem text_ne_nil : name.text ≠ [] := by
  intro h
  have hbase := name.basename
  rw [h] at hbase
  exact absurd hbase (by decide)

/-- A suffix of two characters or more without a slash gives a name again. -/
theorem isBasename_append (hs : '/' ∉ suffix) (hl : 2 ≤ suffix.length) :
    isBasename (name.text ++ suffix) = true := by
  have hbase := name.basename
  have hne := List.length_pos_of_ne_nil name.text_ne_nil
  have hlong : 3 ≤ (name.text ++ suffix).length := by
    rw [List.length_append]
    omega
  simp only [isBasename, Bool.and_eq_true, bne_iff_ne, ne_eq, Bool.not_eq_true',
    List.contains_eq_mem, decide_eq_false_iff_not] at hbase ⊢
  refine ⟨⟨⟨?_, ?_⟩, ?_⟩, ?_⟩
  · simp [name.text_ne_nil]
  · simp [hbase.1.1.2, hs]
  · intro h
    rw [h] at hlong
    exact absurd hlong (by decide)
  · intro h
    rw [h] at hlong
    exact absurd hlong (by decide)

end FileName

theorem Uuid.slash_not_mem_toString (u : Uuid) : '/' ∉ u.toString := by
  intro h
  rcases Uuid.mem_toString h with h | ⟨d, h⟩
  · exact absurd h (by decide)
  · revert d
    decide

theorem Uuid.byteLength_toString (u : Uuid) : byteLength u.toString = 36 := by
  have hhex : ∀ d, (hexChar d).utf8Size = 1 := by decide
  have hd : ∀ l : List (Fin 16), byteLength (l.map hexChar) = l.length := by
    intro l
    induction l with
    | nil => rfl
    | cons d rest ih =>
      rw [List.map_cons, byteLength_cons, hhex, ih, List.length_cons, Nat.add_comm]
  have hl := u.wellFormed
  have hh : ('-' : Char).utf8Size = 1 := by decide
  simp only [Uuid.toString, ← List.map_take, ← List.map_drop, byteLength_append, byteLength_cons,
    hd, hh, List.length_take, List.length_drop, hl]
  decide

end AgentOS
