import Secp256k1.Error
import Secp256k1.Modular
import Secp256k1.Octets

/-!
# Scalars

Secret keys, nonces and the halves of a signature are integers between one and the group order.
Arithmetic on them is arithmetic of natural numbers followed by `reduce`.
-/

set_option autoImplicit false

namespace Secp256k1.Scalar

/-- The number of points of the curve. -/
def order : Nat :=
  0xFFFFFFFFFFFFFFFFFFFFFFFFFFFFFFFEBAAEDCE6AF48A03BBFD25E8CD0364141

def halfOrder : Nat :=
  order / 2

theorem order_pos : 0 < order := by decide

def IsValid (k : Nat) : Prop :=
  0 < k ∧ k < order

instance (k : Nat) : Decidable (IsValid k) :=
  inferInstanceAs (Decidable (0 < k ∧ k < order))

def reduce (k : Nat) : Nat :=
  k % order

def negate (k : Nat) : Nat :=
  if reduce k = 0 then 0 else order - reduce k

def product (j k : Nat) : Nat :=
  reduce (j * k)

/-- The inverse modulo the order; multiples of the order have none and give zero. -/
def invert (k : Nat) : Nat :=
  Modular.power order k (order - 2)

/-- The integer that a digest stands for: its leftmost 256 bits, not reduced. -/
def ofDigest (digest : Octets) : Nat :=
  Octets.leftmost (Binary.bitLength order) digest

/-- The low 256 bits of `k` over 32 octets. -/
def encode (k : Nat) : Octets :=
  Octets.fixed 32 k

/-! ## Small laws -/

theorem bitLength_order : Binary.bitLength order = 256 := by decide +kernel

theorem reduce_lt (k : Nat) : reduce k < order :=
  Nat.mod_lt k order_pos

theorem add_negate (k : Nat) : reduce (k + negate k) = 0 := by
  have bound := reduce_lt k
  unfold negate
  split
  · rename_i multiple; simpa using multiple
  · show (k + (order - k % order)) % order = 0
    change k % order < order at bound
    rw [Nat.add_mod, Nat.mod_eq_of_lt (a := order - k % order) (by
      rename_i multiple; change ¬ k % order = 0 at multiple; omega)]
    rw [show k % order + (order - k % order) = order by omega, Nat.mod_self]

end Secp256k1.Scalar
