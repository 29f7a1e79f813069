import Mathlib
import Secp256k1.Field
import Secp256k1.Proofs.FieldPowers
import Secp256k1.Proofs.Primality

/-!
# The base field is a field

The operations on representatives make the elements a field with `fieldModulus` elements: the cast
to the integers modulo `fieldModulus` is injective and respects them.  What the evaluated
operations `scale`, `invert`, `power` and `sqrt` compute is then said in terms of that field.
-/

set_option autoImplicit false

namespace Secp256k1
namespace FieldElement

/-- The residue class of the representative. -/
def toZMod (a : FieldElement) : ZMod fieldModulus :=
  (a.val : ZMod fieldModulus)

theorem val_toZMod (a : FieldElement) : a.toZMod.val = a.val :=
  ZMod.val_natCast_of_lt a.isLt

theorem toZMod_injective : Function.Injective toZMod := by
  intro a b same
  apply ext
  rw [← val_toZMod a, same, val_toZMod]

theorem toZMod_ofNat (v : Nat) : (ofNat v).toZMod = (v : ZMod fieldModulus) := by
  rw [toZMod, val_ofNat, ZMod.natCast_mod]

/-! ## Ring operations -/

section Structure

-- These six stay local: outside this section they are the ones that the field structure carries.
local instance : NatCast FieldElement := ⟨ofNat⟩

local instance : IntCast FieldElement := ⟨fun v => ofNat (v % fieldModulus).toNat⟩

local instance : SMul Nat FieldElement := ⟨fun n a => ofNat (n * a.val)⟩

local instance : SMul Int FieldElement := ⟨fun n a => (n : FieldElement) * a⟩

local instance : Pow FieldElement Nat := ⟨power⟩

local instance : Inv FieldElement := ⟨invert⟩

theorem toZMod_zero : (0 : FieldElement).toZMod = 0 := Nat.cast_zero

theorem toZMod_one : (1 : FieldElement).toZMod = 1 := Nat.cast_one

theorem toZMod_add (a b : FieldElement) : (a + b).toZMod = a.toZMod + b.toZMod := by
  rw [toZMod, val_add, ZMod.natCast_mod, Nat.cast_add]
  rfl

theorem toZMod_mul (a b : FieldElement) : (a * b).toZMod = a.toZMod * b.toZMod := by
  rw [toZMod, val_mul, ZMod.natCast_mod, Nat.cast_mul]
  rfl

theorem toZMod_neg (a : FieldElement) : (-a).toZMod = -a.toZMod := by
  rw [toZMod, val_neg, ZMod.natCast_mod, Nat.cast_sub a.isLt.le, ZMod.natCast_self, zero_sub]
  rfl

theorem toZMod_sub (a b : FieldElement) : (a - b).toZMod = a.toZMod - b.toZMod := by
  rw [toZMod, val_sub, ZMod.natCast_mod, Nat.cast_add, Nat.cast_sub b.isLt.le, ZMod.natCast_self,
    zero_sub, ← sub_eq_add_neg]
  rfl

theorem toZMod_intCast (v : Int) : (v : FieldElement).toZMod = (v : ZMod fieldModulus) := by
  have positive : (fieldModulus : Int) ≠ 0 := by decide
  change (ofNat (v % fieldModulus).toNat).toZMod = _
  rw [toZMod_ofNat, ← Int.cast_natCast, Int.toNat_of_nonneg (Int.emod_nonneg v positive),
    ZMod.intCast_mod]

theorem toZMod_nsmul (n : Nat) (a : FieldElement) : (n • a).toZMod = n • a.toZMod := by
  change (ofNat (n * a.val)).toZMod = _
  rw [toZMod_ofNat, Nat.cast_mul, nsmul_eq_mul]
  rfl

theorem toZMod_zsmul (n : Int) (a : FieldElement) : (n • a).toZMod = n • a.toZMod := by
  change ((n : FieldElement) * a).toZMod = _
  rw [toZMod_mul, toZMod_intCast, zsmul_eq_mul]

theorem toZMod_pow (a : FieldElement) (n : Nat) : (a ^ n).toZMod = a.toZMod ^ n := by
  change (a.power n).toZMod = _
  rw [toZMod, val_power, ZMod.natCast_mod, Nat.cast_pow]
  rfl

instance : CommRing FieldElement :=
  toZMod_injective.commRing toZMod toZMod_zero toZMod_one toZMod_add toZMod_mul toZMod_neg
    toZMod_sub toZMod_nsmul toZMod_zsmul toZMod_pow toZMod_ofNat toZMod_intCast

theorem pow_modulus_sub_one {a : FieldElement} (nonzero : a ≠ 0) : a ^ (fieldModulus - 1) = 1 := by
  apply toZMod_injective
  have nonzeroClass : a.toZMod ≠ 0 := fun vanishes =>
    nonzero (toZMod_injective (vanishes.trans toZMod_zero.symm))
  rw [toZMod_pow, toZMod_one, ZMod.pow_card_sub_one_eq_one nonzeroClass]

instance : Field FieldElement where
  inv := invert
  exists_pair_ne := ⟨0, 1, by decide⟩
  mul_inv_cancel a nonzero := by
    have fermat := pow_modulus_sub_one nonzero
    rwa [show fieldModulus - 1 = fieldModulus - 2 + 1 by decide, pow_succ'] at fermat
  inv_zero := by decide +kernel
  nnqsmul := _
  nnqsmul_def _ _ := rfl
  qsmul := _
  qsmul_def _ _ := rfl

end Structure

/-- The field of representatives is the field of residue classes. -/
def equivZMod : FieldElement ≃+* ZMod fieldModulus where
  toFun := toZMod
  invFun c := ofNat c.val
  left_inv a := toZMod_injective (by rw [toZMod_ofNat, ZMod.natCast_zmod_val])
  right_inv c := by rw [toZMod_ofNat, ZMod.natCast_zmod_val]
  map_mul' := toZMod_mul
  map_add' := toZMod_add

instance : CharP FieldElement fieldModulus :=
  charP_of_injective_ringHom (f := equivZMod.symm.toRingHom) equivZMod.symm.injective fieldModulus

instance : Fintype FieldElement :=
  Fintype.ofEquiv (ZMod fieldModulus) equivZMod.symm.toEquiv

theorem card_fieldElement : Nat.card FieldElement = fieldModulus := by
  rw [Nat.card_congr equivZMod.toEquiv, Nat.card_zmod]

/-! ## Evaluated operations -/

@[simp] theorem isZero_iff (a : FieldElement) : a.isZero = true ↔ a = 0 := by
  rw [isZero, beq_iff_eq]
  exact ⟨fun null => ext null, fun null => null ▸ val_zero⟩

@[simp] theorem isOne_iff (a : FieldElement) : a.isOne = true ↔ a = 1 := by
  rw [isOne, beq_iff_eq]
  exact ⟨fun unit => ext unit, fun unit => unit ▸ val_one⟩

@[simp] theorem square_eq (a : FieldElement) : a.square = a ^ 2 := by
  rw [square, sq]

@[simp] theorem scale_eq (a : FieldElement) (factor : Nat) : a.scale factor = a * factor := by
  apply toZMod_injective
  rw [scale, toZMod_ofNat, toZMod_mul, Nat.cast_mul]
  exact congrArg (a.toZMod * ·) (toZMod_ofNat factor).symm

@[simp] theorem invert_eq (a : FieldElement) : a.invert = a⁻¹ := rfl

theorem power_eq_pow (a : FieldElement) (exponent : Nat) : a.power exponent = a ^ exponent := rfl

theorem natCast_ne_zero {v : Nat} (positive : 0 < v) (small : v < fieldModulus) :
    (v : FieldElement) ≠ 0 := by
  intro vanishes
  have divides := (CharP.cast_eq_zero_iff FieldElement fieldModulus v).mp vanishes
  exact absurd (Nat.le_of_dvd positive divides) (Nat.not_le.mpr small)

instance : NeZero (2 : FieldElement) :=
  ⟨natCast_ne_zero (v := 2) (by decide) (by decide)⟩

instance : NeZero (3 : FieldElement) :=
  ⟨natCast_ne_zero (v := 3) (by decide) (by decide)⟩

theorem eq_neg_self_iff (a : FieldElement) : a = -a ↔ a = 0 := by
  refine ⟨fun opposite => ?_, fun null => by rw [null, neg_zero]⟩
  have twofold : 2 * a = 0 := by linear_combination opposite
  exact (mul_eq_zero.mp twofold).resolve_left two_ne_zero

end FieldElement
end Secp256k1
