import AgentOS.Base.Text

/-!
# ASCII case

Comparison of texts up to the case of ASCII letters.
-/

namespace AgentOS

/-- `char::to_ascii_lowercase`. -/
def asciiLower (c : Char) : Char :=
  if 'A' ≤ c ∧ c ≤ 'Z' then Char.ofNat (c.toNat + 32) else c

/-- `str::eq_ignore_ascii_case`. -/
def eqIgnoreAsciiCase (a b : Text) : Bool := a.map asciiLower == b.map asciiLower

end AgentOS
