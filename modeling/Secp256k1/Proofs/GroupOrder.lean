import Mathlib
import Secp256k1.Scalar
import Secp256k1.Proofs.Multiples
import Secp256k1.Proofs.Primality
import Secp256k1.Proofs.SquareRoots

/-!
# The order of the group

The generator has the prime order `n`, so the number of points is a multiple of `n`.  An abscissa
has at most two ordinates, which leaves only `n` and `2 * n`, and the latter would give a point of
order two, that is one with the ordinate zero.  So every point of the curve has an order that
divides `n`, and the scalars modulo `n` act on all points.
-/

set_option autoImplicit false

namespace Secp256k1

namespace Curve

open WeierstrassCurve.Affine (Point.some_ne_zero)

theorem nonsingular_iff_rhs {x y : FieldElement} :
    (weierstrass b).Nonsingular x y ↔ y ^ 2 = rhs x := by
  rw [nonsingular_iff, rhs_eq]
  refine ⟨fun regular => regular.1, fun equation => ⟨equation, fun origin => ?_⟩⟩
  rw [origin.1, origin.2] at equation
  exact absurd equation (by decide)

theorem nonsingular_generator :
    (weierstrass b).Nonsingular Point.generator.x Point.generator.y :=
  nonsingular_iff_rhs.mpr (by decide +kernel)

def base : Group b :=
  .some _ _ nonsingular_generator

theorem represents_generator : Point.Represents b Point.generator base :=
  Point.represents_ofAffine nonsingular_generator

theorem base_ne_zero : base ≠ 0 :=
  Point.some_ne_zero nonsingular_generator

theorem order_nsmul_base : Scalar.order • base = 0 := by
  have multiple := (reading b).multiply represents_generator .doubleAndAdd Scalar.order
  exact ((reading b).isInfinity_iff multiple).mp (by decide +kernel)

theorem addOrderOf_base : addOrderOf base = Scalar.order :=
  addOrderOf_eq_prime order_nsmul_base base_ne_zero

/-! ## Counting points -/

/-- The abscissa and the parity of the ordinate, as in a compressed encoding. -/
def signedAbscissa : Group b → Option (FieldElement × Bool)
  | .zero => none
  | .some x y _ => some (x, y.isOdd)

theorem signedAbscissa_injective : Function.Injective signedAbscissa := by
  intro A B same
  cases A with
  | zero =>
    cases B with
    | zero => rfl
    | some x y nonsingular => cases same
  | some x y nonsingular =>
    cases B with
    | zero => cases same
    | some x' y' nonsingular' =>
      obtain ⟨abscissa, parity⟩ := Prod.mk.inj (Option.some.inj same)
      subst abscissa
      have squares : y ^ 2 = y' ^ 2 := by
        rw [nonsingular_iff_rhs.mp nonsingular, nonsingular_iff_rhs.mp nonsingular']
      have ordinate := FieldElement.eq_of_square_eq squares parity
      subst ordinate
      rfl

instance : Finite (Group b) :=
  Finite.of_injective signedAbscissa signedAbscissa_injective

theorem card_group_le : Nat.card (Group b) ≤ 2 * fieldModulus + 1 := by
  have bound := Nat.card_le_card_of_injective signedAbscissa signedAbscissa_injective
  have parities : Nat.card Bool = 2 := Nat.card_eq_fintype_card
  rw [Finite.card_option, Nat.card_prod, FieldElement.card_fieldElement, parities] at bound
  rwa [mul_comm 2]

theorem eq_zero_of_add_self {A : Group b} (twofold : A + A = 0) : A = 0 := by
  cases A with
  | zero => rfl
  | some x y nonsingular =>
    have opposite : (.some x y nonsingular : Group b) = -.some x y nonsingular :=
      eq_neg_of_add_eq_zero_left twofold
    rw [WeierstrassCurve.Affine.Point.neg_some, WeierstrassCurve.Affine.Point.some.injEq,
      negY_eq] at opposite
    have flat : y = 0 := (FieldElement.eq_neg_self_iff y).mp opposite.2
    have square := nonsingular_iff_rhs.mp nonsingular
    rw [flat, zero_pow two_ne_zero] at square
    exact absurd square.symm (rhs_ne_zero x)

/-- The curve has exactly as many points as the generator has multiples. -/
theorem card_group : Nat.card (Group b) = Scalar.order := by
  have divides : Scalar.order ∣ Nat.card (Group b) :=
    addOrderOf_base ▸ addOrderOf_dvd_natCard base
  obtain ⟨index, count⟩ := divides
  have bound := card_group_le
  have positive : 0 < Nat.card (Group b) := Nat.card_pos
  have notTwo : index ≠ 2 := by
    intro two
    have even : 2 ∣ Nat.card (Group b) := ⟨Scalar.order, by rw [count, two, mul_comm]⟩
    obtain ⟨A, order⟩ := exists_prime_addOrderOf_dvd_card' 2 even
    have twofold : A + A = 0 := by rw [← two_nsmul, ← order, addOrderOf_nsmul_eq_zero]
    rw [eq_zero_of_add_self twofold, addOrderOf_zero] at order
    exact absurd order (by decide)
  have small : 2 * fieldModulus + 1 < Scalar.order * 3 := by decide
  have fewer : index < 3 := by
    by_contra many
    have := Nat.mul_le_mul_left Scalar.order (Nat.le_of_not_lt many)
    omega
  have one : index = 1 := by
    have : index ≠ 0 := by
      intro null
      rw [null, mul_zero] at count
      omega
    omega
  rw [count, one, mul_one]

theorem order_nsmul (A : Group b) : Scalar.order • A = 0 := by
  rw [← card_group]
  exact card_nsmul_eq_zero'

instance : Module (ZMod Scalar.order) (Group b) :=
  AddCommGroup.zmodModule order_nsmul

end Curve

/-! ## Triples on the curve -/

namespace Point

theorem isOnCurve_iff (P : Point) : P.isOnCurve = true ↔ P.LiesOn Curve.b := by
  unfold isOnCurve LiesOn
  split
  · rename_i infinite
    exact ⟨fun _ => Or.inl ((Point.isInfinity_iff P).mp infinite), fun _ => rfl⟩
  · rename_i finite
    rw [Point.isInfinity_iff] at finite
    simp only [beq_iff_eq, FieldElement.square_eq]
    constructor
    · intro equation
      have cleared : P.y ^ 2 = P.x ^ 3 + Curve.b * P.z ^ 6 := by linear_combination equation
      refine Or.inr ⟨cleared, fun origin => ?_⟩
      rw [origin.1, origin.2, zero_pow two_ne_zero, zero_pow three_ne_zero, zero_add] at cleared
      exact mul_ne_zero (by decide) (pow_ne_zero 6 finite) cleared.symm
    · intro onCurve
      linear_combination (onCurve.resolve_left finite).1

end Point
end Secp256k1
