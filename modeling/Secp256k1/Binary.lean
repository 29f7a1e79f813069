/-!
# Binary digits of natural numbers

The digits of a number as lists of truth values, least or most significant first, without
leading zeros: the number zero has no digit.  Exponentiation and the scalar multiplications
run over these lists, and `ofMsbFirst` reads a number back from its digits.
-/

set_option autoImplicit false

namespace Secp256k1.Binary

def bitLength (k : Nat) : Nat :=
  if k = 0 then 0 else k.log2 + 1

/-- The digits of `k`, least significant first; the last one is set. -/
def lsbFirst (k : Nat) : List Bool :=
  (List.range (bitLength k)).map k.testBit

/-- The digits of `k`, most significant first; the first one is set. -/
def msbFirst (k : Nat) : List Bool :=
  (lsbFirst k).reverse

/-- The digits of `a` and `b` side by side, most significant first, over the length of the
longer of the two. -/
def pairsMsbFirst (a b : Nat) : List (Bool × Bool) :=
  ((List.range (max (bitLength a) (bitLength b))).map
    fun i => (a.testBit i, b.testBit i)).reverse

/-- How many of the lowest digits of `k` are clear; zero has no digit, so none of them is. -/
def trailingZeros (k : Nat) : Nat :=
  ((lsbFirst k).takeWhile fun bit => !bit).length

def ofMsbFirst (bits : List Bool) : Nat :=
  bits.foldl (fun value bit => 2 * value + bit.toNat) 0

end Secp256k1.Binary
