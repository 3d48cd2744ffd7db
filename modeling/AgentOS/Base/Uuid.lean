import AgentOS.Base.Text

/-!
# UUID spellings

`Uuid::parse_str` accepts four spellings of one identifier: 32 digits, the hyphenated form, the
hyphenated form in braces and the hyphenated form after `urn:uuid:`, with digits in either case.
`to_string` writes the lowercase hyphenated one. Both are the library's: results over all inputs use
of `toString` that it is injective, has 36 bytes and writes digits and hyphens only, and of
`parseStr` only which lengths it accepts.
-/

namespace AgentOS

/-- A 128-bit identifier as its 32 hexadecimal digits. -/
structure Uuid where
  digits : List (Fin 16)
  wellFormed : digits.length = 32
  deriving DecidableEq

namespace Uuid

def parseSimple (cs : Text) : Option Uuid :=
  match cs.mapM hexDigit with
  | none => none
  | some digits => if h : digits.length = 32 then some ⟨digits, h⟩ else none

def parseHyphenated (cs : Text) : Option Uuid :=
  if cs[8]? = some '-' ∧ cs[13]? = some '-' ∧ cs[18]? = some '-' ∧ cs[23]? = some '-' then
    parseSimple (cs.take 8 ++ (cs.drop 9).take 4 ++ (cs.drop 14).take 4 ++ (cs.drop 19).take 4 ++
      cs.drop 24)
  else none

/-- `Uuid::parse_str`. All accepted characters are ASCII, so lengths in characters and in bytes
agree on every accepted input. -/
def parseStr (cs : Text) : Option Uuid :=
  match cs.length with
  | 32 => parseSimple cs
  | 36 => parseHyphenated cs
  | 38 =>
    if cs.head? = some '\x7b' ∧ cs.getLast? = some '\x7d' then
      parseHyphenated cs.tail.dropLast
    else none
  | 45 => if cs.take 9 = "urn:uuid:".toList then parseHyphenated (cs.drop 9) else none
  | _ => none

/-- `Uuid::to_string`. -/
def toString (u : Uuid) : Text :=
  let cs := u.digits.map hexChar
  cs.take 8 ++ '-' :: (cs.drop 8).take 4 ++ '-' :: (cs.drop 12).take 4 ++
    '-' :: (cs.drop 16).take 4 ++ '-' :: cs.drop 20

end Uuid

theorem hexChar_injective : Function.Injective hexChar := by decide

theorem hexChar_ne_hyphen : ∀ d, (hexChar d != '-') = true := by decide

/-- The digits of a canonical text are those of the UUID. -/
theorem Uuid.filter_toString (u : Uuid) :
    u.toString.filter (fun c => c != '-') = u.digits.map hexChar := by
  have hkeep : ∀ l : List (Fin 16), (l.map hexChar).filter (fun c => c != '-') = l.map hexChar := by
    intro l
    rw [List.filter_eq_self]
    intro c hc
    obtain ⟨d, -, rfl⟩ := List.mem_map.1 hc
    exact hexChar_ne_hyphen d
  have hs : ∀ (n m : Nat) (l : List (Fin 16)),
      l.drop n = (l.drop n).take m ++ l.drop (n + m) := by
    intro n m l
    rw [← List.drop_drop, List.take_append_drop]
  simp only [Uuid.toString, ← List.map_take, ← List.map_drop, List.filter_append, List.filter_cons,
    hkeep, bne_self_eq_false, Bool.false_eq_true, if_false, ← List.map_append]
  congr 1
  rw [List.append_assoc, List.append_assoc, List.append_assoc, ← hs 16 4, ← hs 12 4,
    ← hs 8 4, List.take_append_drop]

theorem Uuid.toString_injective : Function.Injective Uuid.toString := by
  intro u v h
  have hd := congrArg (List.filter fun c => c != '-') h
  rw [Uuid.filter_toString, Uuid.filter_toString] at hd
  obtain ⟨ds, _⟩ := u
  obtain ⟨ds', _⟩ := v
  obtain rfl : ds = ds' := hexChar_injective.list_map hd
  rfl

/-- A canonical text consists of digits and hyphens. -/
theorem Uuid.mem_toString {u : Uuid} {c : Char} (h : c ∈ u.toString) :
    c = '-' ∨ ∃ d, c = hexChar d := by
  by_cases hy : c = '-'
  · exact .inl hy
  · have hmem : c ∈ u.toString.filter fun c => c != '-' :=
      List.mem_filter.2 ⟨h, by simpa using hy⟩
    rw [Uuid.filter_toString] at hmem
    obtain ⟨d, -, rfl⟩ := List.mem_map.1 hmem
    exact .inr ⟨d, rfl⟩

/-- `Uuid::parse_str(_).is_ok()`. -/
def isUuid (s : Text) : Bool := (Uuid.parseStr s).isSome

def canonicalOperationId (operationId : Text) : Option Text := do
  let parsed ← Uuid.parseStr operationId
  let canonical := parsed.toString
  if canonical = operationId then some canonical else none

theorem canonicalOperationId_eq_some {opId canonical : Text}
    (h : canonicalOperationId opId = some canonical) : canonical = opId := by
  unfold canonicalOperationId at h
  cases hp : Uuid.parseStr opId with
  | none => simp [hp] at h
  | some parsed =>
    simp only [hp, Option.bind_eq_bind, Option.bind_some] at h
    split at h
    · next heq => rw [← heq, Option.some.inj h]
    · cases h

/-! ## Samples -/

/-- 64 equal hexadecimal digits. -/
def Sample.hex (digit : Char) : Text := List.replicate 64 digit

/-- The hyphenated UUID with one digit. -/
def Sample.uuid (digit : Char) : Text :=
  List.replicate 8 digit ++ ['-'] ++ List.replicate 4 digit ++ ['-'] ++ List.replicate 4 digit ++
    ['-'] ++ List.replicate 4 digit ++ ['-'] ++ List.replicate 12 digit

end AgentOS
