import Mathlib
import Secp256k1.Scalar
import Secp256k1.Proofs.ModularPower
import Secp256k1.Proofs.OctetStrings
import Secp256k1.Proofs.Primality

/-!
# Residues, inverses and octets of scalars

Modulo the order, which is prime, the operations on scalars are those of a field.
-/

set_option autoImplicit false

namespace Secp256k1.Scalar

theorem invert_eq (k : Nat) : invert k = k ^ (order - 2) % order :=
  Modular.power_eq order k (order - 2)

theorem toNat_encode {k : Nat} (bounded : k < order) : Octets.toNat (encode k) = k := by
  rw [encode, Octets.toNat_fixed_of_lt (Nat.lt_trans bounded (by decide))]

theorem encode_toNat {octets : Octets} (width : octets.length = 32) :
    encode octets.toNat = octets := by
  rw [encode, ← width, Octets.fixed_toNat]

/-! ## Classes modulo the order -/

@[simp] theorem cast_reduce (k : Nat) : (reduce k : ZMod order) = k :=
  ZMod.natCast_mod k order

@[simp] theorem cast_product (j k : Nat) : (product j k : ZMod order) = j * k := by
  rw [product, cast_reduce, Nat.cast_mul]

@[simp] theorem cast_negate (k : Nat) : (negate k : ZMod order) = -k := by
  have sum : (reduce (k + negate k) : ZMod order) = 0 := by rw [add_negate, Nat.cast_zero]
  rw [cast_reduce, Nat.cast_add] at sum
  exact eq_neg_of_add_eq_zero_right sum

theorem cast_eq_zero_iff (k : Nat) : (k : ZMod order) = 0 ↔ reduce k = 0 := by
  rw [ZMod.natCast_eq_zero_iff, Nat.dvd_iff_mod_eq_zero]
  rfl

theorem cast_ne_zero {k : Nat} (valid : IsValid k) : (k : ZMod order) ≠ 0 := by
  rw [Ne, cast_eq_zero_iff, reduce, Nat.mod_eq_of_lt valid.2]
  exact Nat.ne_of_gt valid.1

@[simp] theorem cast_invert (k : Nat) : (invert k : ZMod order) = (k : ZMod order)⁻¹ := by
  rw [invert_eq, ZMod.natCast_mod, Nat.cast_pow]
  by_cases null : (k : ZMod order) = 0
  · rw [null, inv_zero, zero_pow (by decide)]
  · have fermat := ZMod.pow_card_sub_one_eq_one null
    rw [show order - 1 = order - 2 + 1 by decide, pow_succ] at fermat
    exact eq_inv_of_mul_eq_one_left fermat

theorem cast_order_sub {k : Nat} (valid : IsValid k) : ((order - k : Nat) : ZMod order) = -k := by
  rw [Nat.cast_sub (Nat.le_of_lt valid.2), ZMod.natCast_self, zero_sub]

end Secp256k1.Scalar
