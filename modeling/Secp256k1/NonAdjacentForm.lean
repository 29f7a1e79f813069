import Secp256k1.Binary

/-!
# Non-adjacent form

A number written with the signed digits minus one, zero and one such that no two neighbours are
both non-zero.  The form is kept compact: a list of the non-zero digits, least significant
first, each with the number of zeros directly below it.
-/

set_option autoImplicit false

namespace Secp256k1

/-- A non-zero digit of a non-adjacent form with the zeros directly below it. -/
structure SignedDigit where
  negative : Bool
  zeros : Nat
deriving DecidableEq, Repr

def SignedDigit.sign (digit : SignedDigit) : Int :=
  if digit.negative then -1 else 1

namespace NonAdjacentForm

/-- What decides the digits of `k`, lowest first: whether `3 * k` and `k` differ at a position, and
whether `k` has a bit there.  The digit one place lower is not zero exactly when they differ, and
then it is minus one exactly when the bit is set.  Neither position zero, where they never differ,
nor the top position of `3 * k` is listed. -/
def positions (k : Nat) : List (Bool × Bool) :=
  let differing := 3 * k ^^^ k
  (List.range (Binary.bitLength (3 * k) - 2)).map fun i =>
    (differing.testBit (i + 1), k.testBit (i + 1))

/-- Reads the digits off, with `zeros` zero digits pending.  The position after a digit is skipped,
because the next digit is zero; the top digit is one. -/
def scan (zeros : Nat) : (positions : List (Bool × Bool)) → List SignedDigit
  | [] => [⟨false, zeros⟩]
  | (false, _) :: rest => scan (zeros + 1) rest
  | [(true, negative)] => [⟨negative, zeros⟩, ⟨false, 1⟩]
  | (true, negative) :: _ :: rest => ⟨negative, zeros⟩ :: scan 1 rest

/-- The non-adjacent form of `k`; zero has no digit. -/
def ofNat (k : Nat) : List SignedDigit :=
  if k = 0 then [] else scan 0 (positions k)

end NonAdjacentForm
end Secp256k1
