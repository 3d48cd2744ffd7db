import AgentOS.Base.Text

/-!
# Bytes of a text

An ASCII character is one byte below 128; every byte of any other character is above. So functions
that look for ASCII bytes see characters.
-/

namespace AgentOS

/-- Every character is one byte. -/
def isAscii (value : Text) : Bool := value.all fun c => c.toNat < 128

/-- The byte of an ASCII character. -/
def asciiByte (c : Char) : UInt8 := UInt8.ofNat c.toNat

theorem utf8EncodeChar_ascii {c : Char} (h : c.toNat < 128) :
    String.utf8EncodeChar c = [asciiByte c] := by
  have hv : c.val.toNat ≤ 127 := Nat.le_of_lt_succ h
  simp only [String.utf8EncodeChar, if_pos hv]
  rfl

theorem utf8EncodeChar_wide {c : Char} (h : 128 ≤ c.toNat) :
    2 ≤ (String.utf8EncodeChar c).length ∧ ∀ b ∈ String.utf8EncodeChar c, 128 ≤ b := by
  have hv : ¬ c.val.toNat ≤ 127 := Nat.not_le.2 h
  have hbyte : ∀ n, n < 256 → 128 ≤ n → (128 : UInt8) ≤ UInt8.ofNat n := by
    intro n hn hle
    rw [UInt8.le_iff_toNat_le, UInt8.toNat_ofNat_of_lt' hn]
    exact hle
  simp only [String.utf8EncodeChar, if_neg hv]
  split
  · refine ⟨le_rfl, ?_⟩
    simp only [List.mem_cons, List.not_mem_nil, or_false]
    rintro b (rfl | rfl) <;> exact hbyte _ (by omega) (by omega)
  split
  · refine ⟨by simp, ?_⟩
    simp only [List.mem_cons, List.not_mem_nil, or_false]
    rintro b (rfl | rfl | rfl) <;> exact hbyte _ (by omega) (by omega)
  · refine ⟨by simp, ?_⟩
    simp only [List.mem_cons, List.not_mem_nil, or_false]
    rintro b (rfl | rfl | rfl | rfl) <;> exact hbyte _ (by omega) (by omega)

theorem toNat_asciiByte {c : Char} (h : c.toNat < 128) : (asciiByte c).toNat = c.toNat :=
  UInt8.toNat_ofNat_of_lt' (Nat.lt_trans h (by decide))

theorem asciiByte_inj {c d : Char} (hc : c.toNat < 128) (hd : d.toNat < 128) :
    asciiByte c = asciiByte d ↔ c = d := by
  refine ⟨fun h => ?_, fun h => h ▸ rfl⟩
  have hnat := congrArg UInt8.toNat h
  rw [toNat_asciiByte hc, toNat_asciiByte hd] at hnat
  exact Char.toNat_inj.1 hnat

/-- The byte of an ASCII character occurs in its own encoding only. -/
theorem asciiByte_mem_utf8EncodeChar {c d : Char} (hd : d.toNat < 128) :
    asciiByte d ∈ String.utf8EncodeChar c ↔ c = d := by
  have hs : ¬ (128 : UInt8) ≤ asciiByte d := by
    rw [UInt8.le_iff_toNat_le, toNat_asciiByte hd]
    exact Nat.not_le.2 hd
  by_cases hc : c.toNat < 128
  · rw [utf8EncodeChar_ascii hc, List.mem_singleton, asciiByte_inj hd hc, eq_comm]
  · refine ⟨fun h => absurd ((utf8EncodeChar_wide (Nat.not_lt.1 hc)).2 _ h) hs, ?_⟩
    rintro rfl
    exact absurd hd hc

theorem asBytes_cons (c : Char) (v : Text) :
    asBytes (c :: v) = String.utf8EncodeChar c ++ asBytes v := rfl

theorem asciiByte_mem_asBytes {d : Char} (hd : d.toNat < 128) {v : Text} :
    asciiByte d ∈ asBytes v ↔ d ∈ v := by
  simp [asBytes, List.mem_flatMap, asciiByte_mem_utf8EncodeChar hd]

/-- A character is read back from the front of its bytes. -/
theorem utf8EncodeChar_append_inj {c d : Char} {x y : List UInt8}
    (h : String.utf8EncodeChar c ++ x = String.utf8EncodeChar d ++ y) : c = d ∧ x = y := by
  have hread : ∀ (c : Char) (x : List UInt8),
      (String.utf8EncodeChar c ++ x).toByteArray.utf8DecodeChar? 0 = some c := by
    intro c x
    rw [List.toByteArray_append]
    exact ByteArray.utf8DecodeChar?_utf8EncodeChar_append
  have hc : some c = some d := by rw [← hread c x, h, hread]
  obtain rfl := Option.some.inj hc
  exact ⟨rfl, List.append_cancel_left h⟩

/-- A byte that does not begin a character. -/
abbrev Continues (b : UInt8) : Prop := ¬ b.IsUTF8FirstByte

/-- The bytes of a character after the first do not begin a character. -/
theorem continues_of_append {c : Char} {x y : List UInt8} (h : String.utf8EncodeChar c = x ++ y)
    (hx : x ≠ []) : ∀ b ∈ y, Continues b := by
  intro b hb hfirst
  obtain ⟨i, hi, rfl⟩ := List.mem_iff_getElem.1 hb
  have hlt : x.length + i < (String.utf8EncodeChar c).length := by
    rw [h, List.length_append]
    omega
  have hget : (String.utf8EncodeChar c)[x.length + i] = y[i] := by simp [h]
  have hzero := UInt8.isUTF8FirstByte_getElem_utf8EncodeChar.1 (hget ▸ hfirst)
  exact hx (List.eq_nil_of_length_eq_zero (Nat.eq_zero_of_add_eq_zero_right hzero))

/-- The bytes of a text are cut between two characters, or within a wide one, whose other bytes do
not begin a character. -/
theorem asBytes_cut {v : Text} {x y : List UInt8} (h : asBytes v = x ++ y) :
    ∃ p q rest, v = p ++ q ∧ y = rest ++ asBytes q ∧ (∀ b ∈ rest, Continues b) ∧
      (isAscii v = true → rest = []) ∧ ∀ d ∈ p, d.toNat < 128 → asciiByte d ∈ x := by
  induction v generalizing x with
  | nil =>
    obtain ⟨rfl, rfl⟩ := List.append_eq_nil_iff.1 h.symm
    exact ⟨[], [], [], rfl, rfl, nofun, fun _ => rfl, nofun⟩
  | cons c v ih =>
    rw [asBytes_cons, List.append_eq_append_iff] at h
    rcases h with ⟨z, rfl, hz⟩ | ⟨z, hz, rfl⟩
    · obtain ⟨p, q, rest, rfl, hy, hrest, hascii, hp⟩ := ih hz
      refine ⟨c :: p, q, rest, rfl, hy, hrest, fun ha => hascii ?_, ?_⟩
      · rw [isAscii, List.all_cons, Bool.and_eq_true] at ha
        exact ha.2
      · rintro d (_ | ⟨_, hd⟩) hlt
        · exact List.mem_append_left _ ((asciiByte_mem_utf8EncodeChar hlt).2 rfl)
        · exact List.mem_append_right _ (hp d hd hlt)
    · cases x with
      | nil =>
        exact ⟨[], c :: v, [], rfl, by rw [asBytes_cons, hz]; rfl, nofun, fun _ => rfl, nofun⟩
      | cons b x =>
        have hone : c.toNat < 128 → asciiByte c = b ∧ x ++ z = [] := by
          intro hc
          rw [utf8EncodeChar_ascii hc] at hz
          exact ⟨(List.cons.inj hz).1, (List.cons.inj hz).2.symm⟩
        refine ⟨[c], v, z, rfl, rfl, continues_of_append hz (by simp), fun ha => ?_, ?_⟩
        · rw [isAscii, List.all_cons, Bool.and_eq_true, decide_eq_true_eq] at ha
          exact (List.append_eq_nil_iff.1 (hone ha.1).2).2
        · intro d hd hlt
          obtain rfl := List.mem_singleton.1 hd
          exact (hone hlt).1 ▸ List.mem_cons_self

end AgentOS
