import Secp256k1.Point.Basic

/-!
# Octets of a point

The SEC 1 encodings.  A compressed point is the tag 2 or 3, which gives the parity of the
ordinate, followed by the abscissa; an uncompressed one is the tag 4 followed by both
coordinates.  The single octet zero encodes infinity.  Infinity has no place in the two fixed
formats: written in one of them it gives zeros only, which no decoder accepts.
-/

set_option autoImplicit false

namespace Secp256k1.Point

def encodeCompressed (P : Point) : Octets :=
  match P.toAffine with
  | none => List.replicate 33 0
  | some (x, y) => (if y.isOdd then 3 else 2) :: x.encode

def encodeUncompressed (P : Point) : Octets :=
  match P.toAffine with
  | none => List.replicate 65 0
  | some (x, y) => 4 :: (x.encode ++ y.encode)

def decodeCompressed (odd : Bool) (octets : Octets) : Except Error Point := do
  let x ← FieldElement.decode octets
  match decompress x odd with
  | some P => .ok P
  | none => .error .pointNotOnCurve

def decodeUncompressed (octets : Octets) : Except Error Point := do
  let x ← FieldElement.decode (octets.take 32)
  let y ← FieldElement.decode (octets.drop 32)
  ofAffineOnCurve x y

/-- Reads any of the three formats; the tag and the length choose the format. -/
def decode (octets : Octets) : Except Error Point :=
  match octets with
  | [] => .error .invalidPointEncoding
  | tag :: body =>
    if tag = 0 ∧ body.length = 0 then .ok infinity
    else if (tag = 2 ∨ tag = 3) ∧ body.length = 32 then decodeCompressed (tag == 3) body
    else if tag = 4 ∧ body.length = 64 then decodeUncompressed body
    else .error .invalidPointEncoding

@[simp] theorem length_encodeCompressed (P : Point) : P.encodeCompressed.length = 33 := by
  unfold encodeCompressed
  split <;> simp

@[simp] theorem length_encodeUncompressed (P : Point) : P.encodeUncompressed.length = 65 := by
  unfold encodeUncompressed
  split <;> simp

end Secp256k1.Point
