import AgentOS.Lib.OrdMap

/-!
# Texts, bytes and digests

The validation helpers of `cluster_control` that look at strings, and the two cryptographic
primitives, which stay parameters: the development holds for every digest function and every
signature check.

Here and in every later module, a definition that models a function, a type or a constant of the
source bears its name in the case of Lean: `validateText` is `validate_text`.
-/

namespace AgentOS

open Lib

/-- `ContextError`; the cluster code raises its `StorageError` variant only. -/
inductive ContextError where
  | storageError (message : String)
  deriving DecidableEq

/-- The `Display` text of a `ContextError`. -/
def ContextError.toString : ContextError → String
  | .storageError message => "Storage error: " ++ message

def storageError (message : String) : ContextError := .storageError message

/-- A `String` of the program that carries data: its sequence of characters. Error messages are
Lean strings. -/
abbrev Text : Type := List Char

instance : LawfulBEq Text := List.instLawfulBEq

instance neZeroHex : NeZero 16 := Nat.instNeZeroSucc

/-- `str::len`, which counts bytes. -/
def byteLength (value : Text) : Nat := (value.map Char.utf8Size).sum

/-- `char::is_whitespace`: the Unicode property `White_Space`. -/
def isWhitespace (c : Char) : Bool :=
  (9 ≤ c.toNat && c.toNat ≤ 13) || c.toNat == 0x20 || c.toNat == 0x85 || c.toNat == 0xA0 ||
    c.toNat == 0x1680 || (0x2000 ≤ c.toNat && c.toNat ≤ 0x200A) || c.toNat == 0x2028 ||
    c.toNat == 0x2029 || c.toNat == 0x202F || c.toNat == 0x205F || c.toNat == 0x3000

/-- `char::is_control`: the Unicode category `Cc`. -/
def isControl (c : Char) : Bool :=
  c.toNat ≤ 0x1F || (0x7F ≤ c.toNat && c.toNat ≤ 0x9F)

/-- `str::trim`. -/
def trim (value : Text) : Text :=
  ((value.dropWhile isWhitespace).reverse.dropWhile isWhitespace).reverse

def maxReasonBytes : Nat := 1024

/-- The test of `validate_text`; the field name occurs in the error only. -/
def isInvalidText (value : Text) : Prop :=
  trim value = [] ∨ maxReasonBytes < byteLength value ∨ '\x00' ∈ value

instance (value : Text) : Decidable (isInvalidText value) :=
  inferInstanceAs (Decidable (_ ∨ _ ∨ _))

def validateText (value : Text) (field : String) : Except ContextError Unit :=
  rejectIf (isInvalidText value) (storageError ("invalid " ++ field))

def validateReason (reason : Text) : Except ContextError Unit :=
  validateText reason "cluster-control reason"

@[simp] theorem validateText_eq_ok {v : Text} {field : String} {u : Unit} :
    validateText v field = .ok u ↔ ¬ isInvalidText v :=
  rejectIf_eq_ok

@[simp] theorem validateReason_eq_ok {reason : Text} {u : Unit} :
    validateReason reason = .ok u ↔ ¬ isInvalidText reason :=
  rejectIf_eq_ok

def validateMemberText (value : Text) (maxBytes : Nat) (field : String) :
    Except ContextError Unit :=
  rejectIf
    (trim value ≠ value ∨ value = [] ∨ maxBytes < byteLength value ∨ value.any isControl)
    (storageError ("invalid " ++ field))

/-! ## Hexadecimal -/

/-- The value of a hexadecimal digit in either case. -/
def hexDigit (c : Char) : Option (Fin 16) :=
  if '0' ≤ c ∧ c ≤ '9' then some (Fin.ofNat 16 (c.toNat - 48))
  else if 'a' ≤ c ∧ c ≤ 'f' then some (Fin.ofNat 16 (c.toNat - 87))
  else if 'A' ≤ c ∧ c ≤ 'F' then some (Fin.ofNat 16 (c.toNat - 55))
  else none

/-- The lowercase digit of a value below 16. -/
def hexChar (n : Fin 16) : Char :=
  Char.ofNat (if n.val < 10 then 48 + n.val else 87 + n.val)

/-- `u8::from_str_radix` in base 16 on a pair of characters: a sign may stand for the first
digit. -/
def hexByte (a b : Char) : Option UInt8 :=
  match hexDigit b with
  | none => none
  | some low =>
    if a = '+' then some (UInt8.ofNat low.val)
    else (hexDigit a).map fun high => UInt8.ofNat (16 * high.val + low.val)

/-- `hex_decode`. A character outside ASCII occupies bytes that are no digits, so pairs of
characters and pairs of bytes decode alike. -/
def hexDecode : Text → Option (List UInt8)
  | [] => some []
  | [_] => none
  | a :: b :: rest => do
      let byte ← hexByte a b
      let bytes ← hexDecode rest
      return byte :: bytes

def hexEncode (bytes : List UInt8) : Text :=
  bytes.flatMap fun byte =>
    [hexChar (Fin.ofNat 16 (byte.toNat / 16)), hexChar (Fin.ofNat 16 (byte.toNat % 16))]

/-- `hex_decode` followed by the filter on 32 bytes. -/
def hexDecode32 (value : Text) : Option (List UInt8) :=
  (hexDecode value).filter fun bytes => bytes.length = 32

/-- A lowercase hexadecimal SHA-256 fingerprint of a TLS leaf. -/
def validTlsFingerprint (fingerprint : Text) : Bool :=
  byteLength fingerprint == 64 &&
    fingerprint.all fun c => ('0' ≤ c && c ≤ '9') || ('a' ≤ c && c ≤ 'f')

/-- `str::as_bytes`. -/
def asBytes (value : Text) : List UInt8 := value.flatMap String.utf8EncodeChar

/-! ## Primitives -/

/-- The cryptographic primitives: SHA-256 and Ed25519 verification of a signature over a payload
under a public key. -/
structure Crypto where
  sha256 : List UInt8 → List UInt8
  ed25519Verify : (publicKey payload signature : List UInt8) → Bool

namespace Crypto

variable (K : Crypto)

def sha256Hex (bytes : List UInt8) : Text := hexEncode (K.sha256 bytes)

/-- `ClusterControl::verify_challenge`. -/
def verifyChallenge (publicKeyHex : Text) (challenge signature : List UInt8) : Bool :=
  match hexDecode publicKeyHex with
  | none => false
  | some publicKey => K.ed25519Verify publicKey challenge signature

end Crypto

/-! ## Machine arithmetic -/

/-- `u64::checked_add(1)`. -/
def checkedSucc (n : Nat) : Option Nat := if n + 1 < 2 ^ 64 then some (n + 1) else none

theorem checkedSucc_eq_some {n m : Nat} : checkedSucc n = some m ↔ n + 1 < 2 ^ 64 ∧ m = n + 1 := by
  unfold checkedSucc
  by_cases h : n + 1 < 2 ^ 64
  · rw [if_pos h, Option.some_inj]
    exact ⟨fun hm => ⟨h, hm.symm⟩, fun hm => hm.2.symm⟩
  · rw [if_neg h]
    exact ⟨fun hm => (by cases hm), fun hm => absurd hm.1 h⟩

/-- `i64::MAX`. -/
def maxI64 : Nat := 2 ^ 63 - 1

/-- The `Debug` text of an `Option<u64>`. -/
def debugOption : Option Nat → String
  | none => "None"
  | some n => "Some(" ++ toString n ++ ")"

/-- The `Debug` text of a string. -/
def debugString (s : Text) : String :=
  "\"" ++ String.join (s.map escape) ++ "\""
where
  escape : Char → String
    | '"' => "\\\""
    | '\\' => "\\\\"
    | '\n' => "\\n"
    | '\r' => "\\r"
    | '\t' => "\\t"
    | '\x00' => "\\0"
    | c => String.singleton c

end AgentOS
