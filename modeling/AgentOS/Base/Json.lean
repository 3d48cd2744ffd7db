import AgentOS.Base.Text

/-!
# JSON texts

Decimal numbers and the compact JSON that `serde_json` writes. Of the library's writer, results
over all inputs use only the bounds on lengths below.
-/

namespace AgentOS

/-- The decimal text of a number. -/
def decimal (n : Nat) : Text := (toString n).toList

theorem decimal_eq (n : Nat) : decimal n = Nat.toDigits 10 n := by
  simp [decimal, Nat.repr]

theorem decimal_injective : Function.Injective decimal := by
  intro n m h
  rw [decimal_eq, decimal_eq] at h
  rw [← @Nat.ofDigitChars_ten_toDigits n, h, Nat.ofDigitChars_ten_toDigits]

/-- The escape that `serde_json` writes for one character of a string. -/
def jsonEscape (c : Char) : Text :=
  if c = '"' then "\\\"".toList
  else if c = '\\' then "\\\\".toList
  else if c = '\n' then "\\n".toList
  else if c = '\r' then "\\r".toList
  else if c = '\t' then "\\t".toList
  else if c = '\x08' then "\\b".toList
  else if c = '\x0c' then "\\f".toList
  else if c.toNat < 0x20 then
    "\\u00".toList ++ [hexChar (Fin.ofNat 16 (c.toNat / 16)), hexChar (Fin.ofNat 16 (c.toNat % 16))]
  else [c]

/-- A JSON string. -/
def jsonString (value : Text) : Text := '"' :: value.flatMap jsonEscape ++ ['"']

/-- The members of an array or object, separated by commas. -/
def jsonJoin : List Text → Text
  | [] => []
  | [value] => value
  | value :: rest => value ++ ',' :: jsonJoin rest

/-- A JSON array of encoded values. -/
def jsonArray (values : List Text) : Text := '[' :: jsonJoin values ++ [']']

/-- A JSON object of encoded members. -/
def jsonObject (members : List (Text × Text)) : Text :=
  '\x7b' :: jsonJoin (members.map fun member => jsonString member.1 ++ ':' :: member.2) ++ ['\x7d']

/-! ## Lengths -/

@[simp] theorem byteLength_nil : byteLength [] = 0 := rfl

@[simp] theorem byteLength_cons (c : Char) (v : Text) :
    byteLength (c :: v) = c.utf8Size + byteLength v := by
  simp [byteLength]

@[simp] theorem byteLength_append (a b : Text) :
    byteLength (a ++ b) = byteLength a + byteLength b := by
  simp [byteLength]

theorem length_le_byteLength (v : Text) : v.length ≤ byteLength v := by
  induction v with
  | nil => exact Nat.le_refl 0
  | cons c rest ih =>
    have hone : 1 ≤ c.utf8Size := c.utf8Size_pos
    rw [List.length_cons, byteLength_cons]
    omega

theorem byteLength_jsonEscape_le (c : Char) : byteLength (jsonEscape c) ≤ 6 := by
  have hhex : ∀ d, (hexChar d).utf8Size = 1 := by decide
  have hsize : c.utf8Size ≤ 4 := c.utf8Size_le_four
  unfold jsonEscape
  split_ifs
  -- the two-character escapes
  iterate 7 decide
  · -- a control character in hexadecimal
    rw [byteLength_append, byteLength_cons, byteLength_cons, hhex, hhex]
    decide
  · rw [byteLength_cons, byteLength_nil]
    omega

/-- An escaped string is at most six times as long as its characters, with two quotes. -/
theorem byteLength_jsonString_le (v : Text) : byteLength (jsonString v) ≤ 6 * v.length + 2 := by
  have hq : ('"' : Char).utf8Size = 1 := by decide
  have hbody : byteLength (v.flatMap jsonEscape) ≤ 6 * v.length := by
    induction v with
    | nil => exact Nat.le_refl 0
    | cons c rest ih =>
      have hc := byteLength_jsonEscape_le c
      rw [List.flatMap_cons, byteLength_append, List.length_cons]
      omega
  rw [jsonString, List.cons_append, byteLength_cons, byteLength_append, byteLength_cons,
    byteLength_nil, hq]
  omega

end AgentOS
