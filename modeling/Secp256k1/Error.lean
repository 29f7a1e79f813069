/-!
# What can go wrong

Malformed input and misuse are errors, one constructor for each cause.  A well-formed signature
that does not match its digest and key is no error: verification answers `false`.  `message`
gives the wording.
-/

set_option autoImplicit false

namespace Secp256k1

inductive DerFault where
  | truncatedInput
  | expectedSequence
  | unsupportedLength
  | sequenceLengthMismatch
  | expectedInteger
  | lengthExceedsInput
  | emptyInteger
  | negativeInteger
  | nonMinimalInteger
  | trailingData
deriving DecidableEq, Repr

inductive Usage where
  | signing
  | verification
deriving DecidableEq, Repr

inductive Error where
  | invalidDer (fault : DerFault)
  /-- A secret scalar or a half of a signature is zero or not below the group order. -/
  | scalarOutOfRange
  | invalidLength (expected found : Nat)
  | nonCanonicalFieldElement
  | invalidPointEncoding
  | pointNotOnCurve
  | infinityPublicKey
  | wrongKeyType (usage : Usage)
  | notInitialized (usage : Usage)
  /-- A nonce was asked of a source that was not started or has none left to give. -/
  | nonceNotInitialized
  /-- A group order below two leaves no nonce. -/
  | invalidOrder
  | invalidRecoveryId (id : Nat)
  | recoveryFailed
  | keyMismatch
  | invalidCompactHeader (header : UInt8)
  /-- An entropy source holds fewer octets than one request asks for. -/
  | entropyExhausted
  /-- No attempt of the allowed number of them gave a result. -/
  | attemptsExhausted
deriving DecidableEq, Repr

namespace DerFault

def message : DerFault → String
  | truncatedInput => "truncated input"
  | expectedSequence => "expected SEQUENCE tag"
  | unsupportedLength => "unsupported length encoding"
  | sequenceLengthMismatch => "SEQUENCE length mismatch"
  | expectedInteger => "expected INTEGER tag"
  | lengthExceedsInput => "length exceeds input"
  | emptyInteger => "empty INTEGER"
  | negativeInteger => "negative INTEGER"
  | nonMinimalInteger => "non-minimal INTEGER"
  | trailingData => "trailing data in SEQUENCE"

end DerFault

namespace Usage

def name : Usage → String
  | signing => "signing"
  | verification => "verification"

def keyKind : Usage → String
  | signing => "private"
  | verification => "public"

end Usage

namespace Error

def message : Error → String
  | invalidDer fault => "invalid DER signature: " ++ fault.message
  | scalarOutOfRange => "scalar is out of range [1, n-1]"
  | invalidLength expected found =>
      "invalid length: expected " ++ toString expected ++ " bytes, found " ++ toString found
  | nonCanonicalFieldElement => "field element encoding is not canonical"
  | invalidPointEncoding => "invalid point encoding"
  | pointNotOnCurve => "point is not on the curve"
  | infinityPublicKey => "the point-at-infinity is not a valid public key"
  | wrongKeyType usage =>
      "wrong key type: " ++ usage.name ++ " requires a " ++ usage.keyKind ++ " key"
  | notInitialized usage => "signer not initialized for " ++ usage.name
  | nonceNotInitialized => "nonce calculator used before initialization"
  | invalidOrder => "group order too small for nonce generation"
  | invalidRecoveryId id => "invalid recovery id: " ++ toString id
  | recoveryFailed => "public key recovery failed"
  | keyMismatch => "public key does not match the private key"
  | invalidCompactHeader header => "invalid compact signature header: " ++ toString header.toNat
  | entropyExhausted => "entropy source exhausted"
  | attemptsExhausted => "no result within the allowed attempts"

end Error

/-- Two steps succeed together only if each of them does. -/
theorem exists_of_bind_eq_ok {ε α β : Type} {first : Except ε α} {rest : α → Except ε β}
    {result : β} (success : first >>= rest = .ok result) :
    ∃ value, first = .ok value ∧ rest value = .ok result := by
  cases first with
  | error cause => cases success
  | ok value => exact ⟨value, rfl, success⟩

end Secp256k1
