import Secp256k1.Field

/-!
# Points in Jacobian coordinates

A triple `(x, y, z)` with `z ≠ 0` stands for the affine point `(x / z ^ 2, y / z ^ 3)`, and every
triple with `z = 0` stands for the point at infinity.  The same point has many triples:
`sameAs` compares the points, structural equality the triples.
-/

set_option autoImplicit false

namespace Secp256k1

/-! ## The curve -/

namespace Curve

/-- The curve is `y ^ 2 = x ^ 3 + a * x + b`. -/
def a : FieldElement := 0

def b : FieldElement := FieldElement.ofNat 7

/-- How many times the generated group fits into the group of all points. -/
def cofactor : Nat := 1

def rhs (x : FieldElement) : FieldElement :=
  x.square * x + b

end Curve

structure Point where
  x : FieldElement
  y : FieldElement
  z : FieldElement
deriving DecidableEq

namespace Point

def infinity : Point :=
  ⟨1, 1, 0⟩

/-- The triple of an affine point, which may or may not lie on the curve. -/
def ofAffine (x y : FieldElement) : Point :=
  ⟨x, y, 1⟩

def generator : Point :=
  ofAffine
    (FieldElement.ofNat 0x79BE667EF9DCBBAC55A06295CE870B07029BFCDB2DCE28D959F2815B16F81798)
    (FieldElement.ofNat 0x483ADA7726A3C4655DA4FBFC0E1108A8FD17B448A68554199C47D08FFB10D4B8)

instance : Inhabited Point := ⟨infinity⟩

def isInfinity (P : Point) : Bool :=
  P.z.isZero

def isNormalized (P : Point) : Bool :=
  P.z.isZero || P.z.isOne

/-- Whether the point is infinity or satisfies the curve equation, here `y² = x³ + b * z⁶`. -/
def isOnCurve (P : Point) : Bool :=
  if P.isInfinity then true
  else
    let zz := P.z.square
    P.y.square == P.x.square * P.x + Curve.b * (zz * zz * zz)

/-- The affine triple of the same point, or the standard triple of infinity. -/
def normalize (P : Point) : Point :=
  if P.isInfinity then infinity
  else if P.z.isOne then P
  else
    let inverse := P.z.invert
    let inverseSquare := inverse.square
    ofAffine (P.x * inverseSquare) (P.y * (inverseSquare * inverse))

def toAffine (P : Point) : Option (FieldElement × FieldElement) :=
  if P.isInfinity then none
  else some (P.normalize.x, P.normalize.y)

def affineX (P : Point) : Option FieldElement :=
  P.toAffine.map Prod.fst

def affineY (P : Point) : Option FieldElement :=
  P.toAffine.map Prod.snd

/-- Whether two triples stand for the same point: both for infinity, or for points whose
coordinates agree after the denominators are cleared. -/
def sameAs (P Q : Point) : Bool :=
  match P.isInfinity, Q.isInfinity with
  | true, true => true
  | false, false =>
    P.x * Q.z.square == Q.x * P.z.square &&
      P.y * (Q.z * Q.z.square) == Q.y * (P.z * P.z.square)
  | _, _ => false

def ofAffineOnCurve (x y : FieldElement) : Except Error Point :=
  if (ofAffine x y).isOnCurve then .ok (ofAffine x y) else .error .pointNotOnCurve

/-- The affine point with this abscissa and an ordinate of the wanted parity, if the curve has
a point with this abscissa. -/
def decompress (x : FieldElement) (odd : Bool) : Option Point :=
  (Curve.rhs x).sqrt.map fun y => ofAffine x (if y.isOdd = odd then y else -y)

end Point
end Secp256k1
