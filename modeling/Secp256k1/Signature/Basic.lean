import Secp256k1.Scalar

/-!
# Signatures

A signature is a pair of valid scalars.  If `(r, s)` fits a digest and a key then so does
`(r, -s)`; the one of the two with the smaller second half is the low form.
-/

set_option autoImplicit false

namespace Secp256k1

structure Signature where
  r : Nat
  s : Nat
  r_valid : Scalar.IsValid r
  s_valid : Scalar.IsValid s
deriving DecidableEq

namespace Signature

def ofScalars (r s : Nat) : Except Error Signature :=
  if valid : Scalar.IsValid r ∧ Scalar.IsValid s then .ok ⟨r, s, valid.1, valid.2⟩
  else .error .scalarOutOfRange

theorem ofScalars_eq_ok_iff {r s : Nat} {signature : Signature} :
    ofScalars r s = .ok signature ↔ r = signature.r ∧ s = signature.s := by
  unfold ofScalars
  constructor
  · intro success
    split at success
    · cases success
      exact ⟨rfl, rfl⟩
    · cases success
  · rintro ⟨rfl, rfl⟩
    rw [dif_pos ⟨signature.r_valid, signature.s_valid⟩]

def isLow (signature : Signature) : Bool :=
  decide (signature.s ≤ Scalar.halfOrder)

def flip (signature : Signature) : Signature :=
  ⟨signature.r, Scalar.order - signature.s, signature.r_valid, by
    have valid := signature.s_valid
    unfold Scalar.IsValid at valid ⊢
    omega⟩

def canonicalize (signature : Signature) : Signature :=
  if signature.isLow then signature else signature.flip

/-! ## Fixed-size octets -/

def toOctets (signature : Signature) : Octets :=
  Scalar.encode signature.r ++ Scalar.encode signature.s

/-- Reads exactly 64 octets that write two valid scalars. -/
def ofOctets (octets : Octets) : Except Error Signature :=
  if octets.length = 64 then
    ofScalars (Octets.toNat (octets.take 32)) (Octets.toNat (octets.drop 32))
  else .error (.invalidLength 64 octets.length)

end Signature
end Secp256k1
