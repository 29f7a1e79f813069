import Secp256k1.Point.Basic

/-!
# The group law

Addition and doubling on Jacobian triples.  The formulas never mention the constant `b`, so they
give the group law of every curve `y ^ 2 = x ^ 3 + b` that the operands lie on.  Equal, opposite
and infinite operands and points with `y = 0` are told apart before a formula is used.
-/

set_option autoImplicit false

namespace Secp256k1.Point

def negate (P : Point) : Point :=
  ⟨P.x, -P.y, P.z⟩

/-- The abscissa and ordinate of `P` brought to a denominator that also contains `z`. -/
def scaledBy (P : Point) (z : FieldElement) : FieldElement × FieldElement :=
  if z.isOne then (P.x, P.y)
  else (P.x * z.square, P.y * (z * z.square))

/-- Twice a point, by the formulas for curves without a linear term; a point with `y = 0` is
its own opposite. -/
def twice (P : Point) : Point :=
  if P.isInfinity then infinity
  else if P.y.isZero then infinity
  else
    let a := P.x.square
    let b := P.y.square
    let c := b.square
    let d := ((P.x + b).square - a - c).scale 2
    let e := a.scale 3
    let x := e.square - d.scale 2
    ⟨x, e * (d - x) - c.scale 8, (P.y * P.z).scale 2⟩

/-- The sum of two finite points with different abscissas, from the coordinates at their common
denominator: `h` and `r` are the differences of the abscissas and of the ordinates. -/
def chord (u s z h r : FieldElement) : Point :=
  let hh := h.square
  let hhh := hh * h
  let v := u * hh
  let x := r.square - hhh - v.scale 2
  ⟨x, r * (v - x) - s * hhh, z * h⟩

def add (P Q : Point) : Point :=
  if P.isInfinity then Q
  else if Q.isInfinity then P
  else
    let (u₁, s₁) := P.scaledBy Q.z
    let (u₂, s₂) := Q.scaledBy P.z
    let h := u₂ - u₁
    let r := s₂ - s₁
    if h.isZero then (if r.isZero then P.twice else infinity)
    else chord u₁ s₁ (P.z * Q.z) h r

def subtract (P Q : Point) : Point :=
  P.add Q.negate

def twicePlus (P Q : Point) : Point :=
  if P.isInfinity then Q
  else if Q.isInfinity then P.twice
  else if P.y.isZero then Q
  else P.twice.add Q

def threeTimes (P : Point) : Point :=
  P.twicePlus P

/-- The point `2 ^ e * P`, by `e` doublings; infinity needs none. -/
def timesPowTwo (P : Point) : (e : Nat) → Point
  | 0 => P
  | e + 1 => if P.isInfinity then P else P.twice.timesPowTwo e

end Secp256k1.Point
