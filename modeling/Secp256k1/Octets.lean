import Secp256k1.Binary

/-!
# Octet strings and the integers they write

Integers are written big-endian.  `fixed width v` has exactly `width` octets and keeps the low
`8 * width` bits of `v`; `toNat` reads any number of octets.
-/

set_option autoImplicit false

namespace Secp256k1

abbrev Octets := List UInt8

namespace Octets

/-- The integer that the octets write, most significant octet first. -/
def toNat (octets : Octets) : Nat :=
  octets.foldl (fun value octet => value * 256 + octet.toNat) 0

/-- The low `8 * width` bits of `v` over exactly `width` octets. -/
def fixed : (width : Nat) → (v : Nat) → Octets
  | 0, _ => []
  | width + 1, v => UInt8.ofNat (v >>> (8 * width)) :: fixed width v

def widthOfBits (bits : Nat) : Nat :=
  (bits + 7) / 8

/-- The shortest non-empty string that writes `v`. -/
def minimal (v : Nat) : Octets :=
  fixed (max 1 (widthOfBits (Binary.bitLength v))) v

/-- The integer written by the leftmost `bits` bits of the string, or by all of it when it is
shorter than that. -/
def leftmost (bits : Nat) (octets : Octets) : Nat :=
  if bits < 8 * octets.length then toNat octets >>> (8 * octets.length - bits)
  else toNat octets

@[simp] theorem length_fixed (width v : Nat) : (fixed width v).length = width := by
  induction width with
  | zero => rfl
  | succ width ih => simp [fixed, ih]

end Octets
end Secp256k1
