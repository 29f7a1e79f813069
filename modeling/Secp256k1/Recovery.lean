import Secp256k1.Key.Public

/-!
# Recovery of public keys

A signature and a digest leave at most four candidates for the public key, one for each point
whose abscissa is `r` modulo the group order.  A recovery id names the candidate: whether the
abscissa is `r` plus the order, and whether the ordinate is odd.  For the nonce point `R` the key
is `Q = (s * R - e * G) / r`.
-/

set_option autoImplicit false

namespace Secp256k1

structure RecoveryId where
  overflow : Bool
  odd : Bool
deriving DecidableEq, Repr

namespace RecoveryId

def toNat (id : RecoveryId) : Nat :=
  2 * id.overflow.toNat + id.odd.toNat

def ofNat (id : Nat) : Except Error RecoveryId :=
  if id < 4 then .ok ⟨2 ≤ id, id % 2 = 1⟩ else .error (.invalidRecoveryId id)

def all : List RecoveryId :=
  [⟨false, false⟩, ⟨false, true⟩, ⟨true, false⟩, ⟨true, true⟩]

/-- The candidate for the nonce point, if the curve has it and it has the order of the group. -/
def noncePoint? (id : RecoveryId) (r : Nat) : Option Point :=
  match FieldElement.ofCanonical? (if id.overflow then r + Scalar.order else r) with
  | none => none
  | some x =>
    match Point.decompress x id.odd with
    | none => none
    | some R =>
      if (Multiplier.standard.multiply R Scalar.order).isInfinity then some R else none

end RecoveryId

namespace Recovery

/-- The point `(s * R - e * G) / r`. -/
def keyPoint (R : Point) (signature : Signature) (digest : Octets) : Point :=
  let e := Scalar.reduce (Scalar.ofDigest digest)
  let inverse := Scalar.invert signature.r
  Point.sumOfMultiples Point.generator (Scalar.product (Scalar.negate e) inverse) R
    (Scalar.product signature.s inverse)

def candidate (id : RecoveryId) (signature : Signature) (digest : Octets) (compressed : Bool) :
    Except Error PublicKey :=
  match id.noncePoint? signature.r with
  | none => .error .recoveryFailed
  | some R =>
    match PublicKey.ofPoint (keyPoint R signature digest) compressed with
    | .ok key => .ok key
    | .error _ => .error .recoveryFailed

def recover (id : Nat) (signature : Signature) (digest : Octets) (compressed : Bool) :
    Except Error PublicKey := do
  candidate (← RecoveryId.ofNat id) signature digest compressed

def leadsTo (signature : Signature) (digest : Octets) (key : PublicKey) (id : RecoveryId) : Bool :=
  match candidate id signature digest key.compressed with
  | .ok found => found.point.sameAs key.point
  | .error _ => false

def findId (signature : Signature) (digest : Octets) (key : PublicKey) :
    Except Error RecoveryId :=
  match RecoveryId.all.find? (leadsTo signature digest key) with
  | some id => .ok id
  | none => .error .recoveryFailed

end Recovery
end Secp256k1
