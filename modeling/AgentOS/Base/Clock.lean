import AgentOS.Base.Text

/-!
# Instants

`DateTime<Utc>` as a number of nanoseconds since the Unix epoch, with the range of the clock
library as a field: additions that leave the range fail. Leap seconds, which the library only
keeps when it parses one, are not represented.
-/

namespace AgentOS

open Lib

/-- Nanoseconds in one second. -/
def nanosPerSecond : Int := 1000000000

/-- `DateTime::<Utc>::MIN_UTC`. -/
def minUtc : Int := -8334601228800 * nanosPerSecond

/-- `DateTime::<Utc>::MAX_UTC`. -/
def maxUtc : Int := 8210266876799 * nanosPerSecond + 999999999

/-- `DateTime<Utc>`. -/
@[ext] structure DateTime where
  nanos : Int
  inRange : minUtc ≤ nanos ∧ nanos ≤ maxUtc
  deriving DecidableEq

namespace DateTime

/-- The Unix epoch. -/
instance : Inhabited DateTime := ⟨⟨0, by decide⟩⟩

theorem nanos_injective : Function.Injective DateTime.nanos := fun _ _ h => DateTime.ext h

instance : LinearOrder DateTime := LinearOrder.lift' DateTime.nanos nanos_injective

theorem le_iff {a b : DateTime} : a ≤ b ↔ a.nanos ≤ b.nanos := Iff.rfl

theorem lt_iff {a b : DateTime} : a < b ↔ a.nanos < b.nanos := Iff.rfl

/-- `checked_add_signed` with a duration in nanoseconds. -/
def checkedAddSigned (t : DateTime) (duration : Int) : Option DateTime :=
  if h : minUtc ≤ t.nanos + duration ∧ t.nanos + duration ≤ maxUtc then
    some ⟨t.nanos + duration, h⟩
  else none

theorem checkedAddSigned_eq_some {t t' : DateTime} {duration : Int} :
    t.checkedAddSigned duration = some t' ↔ t'.nanos = t.nanos + duration := by
  unfold checkedAddSigned
  split
  · next h => simp [DateTime.ext_iff, eq_comm]
  · next h =>
    simp only [reduceCtorEq, false_iff]
    intro heq
    exact h (heq ▸ t'.inRange)

/-- A shorter addition succeeds when a longer one does. -/
theorem checkedAddSigned_of_le {t t' : DateTime} {d d' : Int} (h : t.checkedAddSigned d' = some t')
    (h0 : 0 ≤ d) (hd : d ≤ d') : ∃ s, t.checkedAddSigned d = some s ∧ s ≤ t' := by
  rw [checkedAddSigned_eq_some] at h
  have hlow := t.inRange.1
  have hhigh := t'.inRange.2
  refine ⟨⟨t.nanos + d, by omega⟩, by rw [checkedAddSigned_eq_some], ?_⟩
  rw [le_iff]
  dsimp only
  omega

end DateTime

/-- `TimeDelta::seconds`. -/
def seconds (n : Nat) : Int := n * nanosPerSecond

/-- `TimeDelta::microseconds`. -/
def microseconds (n : Nat) : Int := n * 1000

theorem seconds_pos {n : Nat} (h : 0 < n) : 0 < seconds n := by
  unfold seconds nanosPerSecond
  omega

theorem seconds_le {m n : Nat} (h : m ≤ n) : seconds m ≤ seconds n := by
  unfold seconds nanosPerSecond
  omega

/-! ## Timestamps in the database

A timestamp column holds the text that `to_rfc3339` writes, which determines the instant; the
model keeps the instant. Years outside `0000..=9999` are written with a sign and more digits, and
`parse_from_rfc3339` refuses to read that back. Results use the two only through
`parseTimestamp_eq_ok`. -/

/-- The instant has a year between 0 and 9999. -/
def DateTime.hasFourDigitYear (t : DateTime) : Prop :=
  -62167219200 * nanosPerSecond ≤ t.nanos ∧ t.nanos < 253402300800 * nanosPerSecond

instance (t : DateTime) : Decidable t.hasFourDigitYear := inferInstanceAs (Decidable (_ ∧ _))

/-- `parse_timestamp` of a stored instant. -/
def parseTimestamp (stored : DateTime) : Except ContextError DateTime := do
  rejectIf (¬ stored.hasFourDigitYear)
    (storageError "invalid cluster timestamp: input contains invalid characters")
  return stored

theorem parseTimestamp_eq_ok {sto t : DateTime} :
    parseTimestamp sto = .ok t ↔ sto.hasFourDigitYear ∧ sto = t := by
  simp only [parseTimestamp, bind_eq_ok, rejectIf_eq_ok, not_not, exists_const, pure_eq_ok]

end AgentOS
