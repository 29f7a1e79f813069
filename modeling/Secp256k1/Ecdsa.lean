import Secp256k1.Multiplier
import Secp256k1.Scalar

/-!
# The signature equations

One attempt at the halves of a signature, and the test of given halves.  For the secret scalar
`d`, the nonce `k` and the integer `e` of the digest, `r` is the abscissa of `k * G` and
`s = (e + d * r) / k`, both modulo the group order.
-/

set_option autoImplicit false

namespace Secp256k1.Ecdsa

/-- The abscissa of a finite point modulo the group order. -/
def residue (P : Point) : Option Nat :=
  P.affineX.map fun x => Scalar.reduce x.val

/-- The halves that a nonce gives.  There are none if the nonce point is infinite or if a half
would be zero. -/
def halves? (multiplier : Multiplier) (d e k : Nat) : Option (Nat × Nat) :=
  match residue (multiplier.multiply Point.generator k) with
  | none => none
  | some r =>
    if r = 0 then none
    else
      let s := Scalar.product (Scalar.invert k) (Scalar.reduce (e + d * r))
      if s = 0 then none else some (r, s)

def accepts (Q : Point) (digest : Octets) (r s : Nat) : Bool :=
  if Scalar.IsValid r ∧ Scalar.IsValid s then
    let e := Scalar.reduce (Scalar.ofDigest digest)
    let w := Scalar.invert s
    residue (Point.sumOfMultiples Point.generator (Scalar.product e w) Q (Scalar.product r w)) ==
      some r
  else false

end Secp256k1.Ecdsa
