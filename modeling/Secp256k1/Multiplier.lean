import Secp256k1.Point.Group
import Secp256k1.NonAdjacentForm

/-!
# Multiples of a point

Four ways to compute `k * P`.  They differ in the sequence of point operations and therefore in
the triple that they end with, and they agree on the point.
-/

set_option autoImplicit false

namespace Secp256k1
namespace Point

/-- Left-to-right double-and-add: each digit doubles, a set digit also adds. -/
def timesByDoubleAndAdd (P : Point) (k : Nat) : Point :=
  (Binary.msbFirst k).foldl
    (fun R bit => if bit then R.twice.add P else R.twice) infinity

/-- Left-to-right over the non-adjacent form: each digit doubles and adds or subtracts, then the
zeros below it double. -/
def timesByNonAdjacentForm (P : Point) (k : Nat) : Point :=
  let plus := P.normalize
  let minus := plus.negate
  (NonAdjacentForm.ofNat k).reverse.foldl
    (fun R digit =>
      (R.twicePlus (if digit.negative then minus else plus)).timesPowTwo digit.zeros) infinity

/-- One digit of the ladder on a pair of points: their sum replaces the one that the digit does
not select, and the selected one is doubled. -/
def ladderStep (pair : Point × Point) (bit : Bool) : Point × Point :=
  if bit then (pair.1.add pair.2, pair.2.twice) else (pair.1.twice, pair.2.add pair.1)

/-- The ladder: two points whose difference is `P` at every digit. -/
def timesByLadder (P : Point) (k : Nat) : Point :=
  ((Binary.msbFirst k).foldl ladderStep (infinity, P)).1

/-- Digits one and minus one only: for an odd number each bit above the lowest gives a digit one
place lower.  The trailing zeros of `k` double at the end. -/
def timesBySignedDigits (P : Point) (k : Nat) : Point :=
  let plus := P.normalize
  let minus := plus.negate
  let zeros := Binary.trailingZeros k
  ((Binary.msbFirst (k >>> (zeros + 1))).foldl
    (fun R bit => R.twicePlus (if bit then plus else minus)) plus).timesPowTwo zeros

/-- The point `j * P + k * Q`, with the doublings of both products shared. -/
def sumOfMultiples (P : Point) (j : Nat) (Q : Point) (k : Nat) : Point :=
  let P := P.normalize
  let Q := Q.normalize
  let both := (P.add Q).normalize
  (Binary.pairsMsbFirst j k).foldl
    (fun R bits =>
      match bits with
      | (true, true) => R.twice.add both
      | (true, false) => R.twice.add P
      | (false, true) => R.twice.add Q
      | (false, false) => R.twice) infinity

end Point

inductive Multiplier where
  | doubleAndAdd
  | nonAdjacentForm
  | ladder
  | signedDigits
deriving DecidableEq, Repr

namespace Multiplier

def all : List Multiplier :=
  [doubleAndAdd, nonAdjacentForm, ladder, signedDigits]

def standard : Multiplier :=
  nonAdjacentForm

/-- The point `k * P`; zero times any point and any multiple of infinity are the standard triple
of infinity. -/
def multiply (multiplier : Multiplier) (P : Point) (k : Nat) : Point :=
  if k = 0 ∨ P.isInfinity then Point.infinity
  else
    match multiplier with
    | doubleAndAdd => P.timesByDoubleAndAdd k
    | nonAdjacentForm => P.timesByNonAdjacentForm k
    | ladder => P.timesByLadder k
    | signedDigits => P.timesBySignedDigits k

end Multiplier
end Secp256k1
