import AgentOS.Base.Text

/-!
# Hexadecimal strings

`hex_decode` reads what `hex_encode` writes, and in either case. It takes each pair of bytes through
`u8::from_str_radix`, which lets a sign stand for the first digit: exactly the strings that need
such a sign are accepted without being hexadecimal (`hexDecode_exact_iff`).
-/

namespace AgentOS

def isAsciiHexdigit (c : Char) : Bool :=
  ('0' ≤ c && c ≤ '9') || ('a' ≤ c && c ≤ 'f') || ('A' ≤ c && c ≤ 'F')

/-- Pairs whose second character is a digit and whose first is a digit or a sign. -/
def signedPairs : Text → Bool
  | [] => true
  | [_] => false
  | a :: b :: rest => (a == '+' || isAsciiHexdigit a) && isAsciiHexdigit b && signedPairs rest

/-- Exactly a hexadecimal string is accepted, and its bytes are written as the string in lower
case. A character of more than one byte has no byte that is a digit. -/
structure DecodesExactly (s : Text) : Prop where
  accepts : (hexDecode s).isSome ↔ byteLength s % 2 = 0 ∧ ∀ c ∈ s, isAsciiHexdigit c = true
  encodes : ∀ bytes, hexDecode s = some bytes → hexEncode bytes = s.map Char.toLower

/-! ## Digits -/

theorem hexDigit_hexChar : ∀ n, hexDigit (hexChar n) = some n := by decide

theorem hexChar_ne_plus : ∀ n, hexChar n ≠ '+' := by decide

theorem isSome_hexDigit (c : Char) : (hexDigit c).isSome = isAsciiHexdigit c := by
  unfold hexDigit isAsciiHexdigit
  split_ifs <;> simp_all

/-- A digit is ASCII, where the facts about it are checked one by one. -/
theorem exists_ascii_of_hexdigit {c : Char} (h : isAsciiHexdigit c = true) :
    ∃ n : Fin 128, c = Char.ofNat n := by
  have hle : c.toNat ≤ 102 := by
    simp only [isAsciiHexdigit, Bool.or_eq_true, Bool.and_eq_true, decide_eq_true_eq] at h
    rcases h with (h | h) | h
    · exact (Char.le_def.1 h.2).trans (by decide : (57 : UInt32) ≤ 102)
    · exact h.2
    · exact (Char.le_def.1 h.2).trans (by decide : (70 : UInt32) ≤ 102)
  exact ⟨⟨c.toNat, by omega⟩, (Char.ofNat_toNat c).symm⟩

theorem hexChar_of_hexDigit {c : Char} {d : Fin 16} (h : hexDigit c = some d) :
    hexChar d = c.toLower := by
  have hc : isAsciiHexdigit c = true := by rw [← isSome_hexDigit, h]; rfl
  obtain ⟨n, rfl⟩ := exists_ascii_of_hexdigit hc
  revert n d
  decide

theorem utf8Size_of_hexdigit {c : Char} (h : isAsciiHexdigit c = true) : c.utf8Size = 1 := by
  obtain ⟨n, rfl⟩ := exists_ascii_of_hexdigit h
  revert n
  decide

/-! ## Strings -/

theorem hexEncode_cons (high low : Fin 16) (bytes : List UInt8) :
    hexEncode (UInt8.ofNat (16 * high.val + low.val) :: bytes) =
      hexChar high :: hexChar low :: hexEncode bytes := by
  have hb : (UInt8.ofNat (16 * high.val + low.val)).toNat = 16 * high.val + low.val := by
    rw [UInt8.toNat_ofNat']
    omega
  have hh : Fin.ofNat 16 ((16 * high.val + low.val) / 16) = high := by
    ext
    simp only [Fin.ofNat_eq_cast, Fin.val_natCast]
    omega
  have hl : Fin.ofNat 16 ((16 * high.val + low.val) % 16) = low := by
    ext
    simp only [Fin.ofNat_eq_cast, Fin.val_natCast]
    omega
  rw [hexEncode, List.flatMap_cons, hb, hh, hl]
  rfl

theorem exists_nibbles (byte : UInt8) :
    ∃ high low : Fin 16, byte = UInt8.ofNat (16 * high.val + low.val) := by
  have hlt := byte.toNat_lt
  refine ⟨⟨byte.toNat / 16, by omega⟩, ⟨byte.toNat % 16, by omega⟩, ?_⟩
  rw [← UInt8.toNat_inj, UInt8.toNat_ofNat', Nat.div_add_mod, Nat.mod_eq_of_lt hlt]

theorem hexDecode_hexEncode (bytes : List UInt8) : hexDecode (hexEncode bytes) = some bytes := by
  induction bytes with
  | nil => rfl
  | cons byte bytes ih =>
    obtain ⟨high, low, rfl⟩ := exists_nibbles byte
    rw [hexEncode_cons]
    simp [hexDecode, hexByte, hexDigit_hexChar, hexChar_ne_plus, ih]

theorem isSome_hexByte (a b : Char) :
    (hexByte a b).isSome = ((a == '+' || isAsciiHexdigit a) && isAsciiHexdigit b) := by
  rw [← isSome_hexDigit, ← isSome_hexDigit, hexByte]
  cases hexDigit b with
  | none => simp
  | some low => by_cases ha : a = '+' <;> simp [ha]

theorem hexDecode_eq_some {a b : Char} {rest : Text} {bytes : List UInt8} :
    hexDecode (a :: b :: rest) = some bytes ↔
      ∃ byte bytes', hexByte a b = some byte ∧ hexDecode rest = some bytes' ∧
        byte :: bytes' = bytes := by
  simp [hexDecode, Option.bind_eq_some_iff]

theorem isSome_hexDecode : ∀ s : Text, (hexDecode s).isSome = signedPairs s
  | [] => rfl
  | [_] => rfl
  | a :: b :: rest => by
    rw [signedPairs, ← isSome_hexByte, ← isSome_hexDecode rest, hexDecode]
    cases hexByte a b with
    | none => rfl
    | some byte => cases hexDecode rest <;> rfl

theorem byteLength_digits {a b : Char} (ha : isAsciiHexdigit a = true)
    (hb : isAsciiHexdigit b = true) (rest : Text) :
    byteLength (a :: b :: rest) % 2 = byteLength rest % 2 := by
  simp only [byteLength, List.map_cons, List.sum_cons, utf8Size_of_hexdigit ha,
    utf8Size_of_hexdigit hb]
  omega

theorem hexadecimal_iff : ∀ s : Text, (byteLength s % 2 = 0 ∧ ∀ c ∈ s, isAsciiHexdigit c = true) ↔
    signedPairs s = true ∧ '+' ∉ s
  | [] => by simp [byteLength, signedPairs]
  | [c] => by
    refine ⟨?_, nofun⟩
    rintro ⟨heven, hc⟩
    simp [byteLength, utf8Size_of_hexdigit (hc c List.mem_cons_self)] at heven
  | a :: b :: rest => by
    have ih := hexadecimal_iff rest
    have hplus : isAsciiHexdigit '+' ≠ true := by decide
    rw [List.forall_mem_cons, List.forall_mem_cons]
    simp only [List.mem_cons, not_or, signedPairs, Bool.and_eq_true, Bool.or_eq_true, beq_iff_eq]
    constructor
    · rintro ⟨heven, ha, hb, hr⟩
      rw [byteLength_digits ha hb] at heven
      obtain ⟨hp, hn⟩ := ih.1 ⟨heven, hr⟩
      exact ⟨⟨⟨.inr ha, hb⟩, hp⟩, fun h => hplus (h ▸ ha), fun h => hplus (h ▸ hb), hn⟩
    · rintro ⟨⟨⟨ha, hb⟩, hp⟩, hna, -, hn⟩
      have ha := ha.resolve_left (Ne.symm hna)
      rw [byteLength_digits ha hb]
      obtain ⟨heven, hr⟩ := ih.2 ⟨hp, hn⟩
      exact ⟨heven, ha, hb, hr⟩

theorem hexEncode_of_hexDecode : ∀ {s : Text} {bytes : List UInt8}, '+' ∉ s →
    hexDecode s = some bytes → hexEncode bytes = s.map Char.toLower
  | [], _, _, h => by
    cases h
    rfl
  | [_], _, _, h => by cases h
  | a :: b :: rest, _, hs, h => by
    obtain ⟨byte, bytes, hbyte, hrest, rfl⟩ := hexDecode_eq_some.1 h
    simp only [List.mem_cons, not_or] at hs
    have ih := hexEncode_of_hexDecode hs.2.2 hrest
    unfold hexByte at hbyte
    split at hbyte
    · cases hbyte
    · next low hlow =>
      rw [if_neg (Ne.symm hs.1), Option.map_eq_some_iff] at hbyte
      obtain ⟨high, hhigh, rfl⟩ := hbyte
      rw [hexEncode_cons, hexChar_of_hexDigit hhigh, hexChar_of_hexDigit hlow, ih]
      rfl

/-- A string is decoded as promised unless a sign in it stands for a digit. -/
theorem hexDecode_exact_iff (bytes : List UInt8) (s : Text) :
    hexDecode (hexEncode bytes) = some bytes ∧
      (DecodesExactly s ↔ ¬ (signedPairs s = true ∧ '+' ∈ s)) := by
  refine ⟨hexDecode_hexEncode bytes, ?_, ?_⟩
  · rintro ⟨haccepts, -⟩ ⟨hp, hplus⟩
    rw [isSome_hexDecode, hexadecimal_iff] at haccepts
    exact (haccepts.1 hp).2 hplus
  · intro h
    refine ⟨?_, ?_⟩
    · rw [isSome_hexDecode, hexadecimal_iff]
      exact ⟨fun hp => ⟨hp, fun hplus => h ⟨hp, hplus⟩⟩, And.left⟩
    · intro bytes hb
      have hp : signedPairs s = true := by rw [← isSome_hexDecode, hb]; rfl
      exact hexEncode_of_hexDecode (fun hplus => h ⟨hp, hplus⟩) hb

/-- A sign before one digit is a byte. -/
theorem hexDecode_accepts_sign : ¬ DecodesExactly ['+', 'f'] := by
  intro h
  exact absurd (h.encodes [15] (by decide)) (by decide)

end AgentOS
