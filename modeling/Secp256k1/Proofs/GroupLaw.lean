import Mathlib
import Secp256k1.Proofs.CurveGroup

/-!
# The operations compute in the group

Every operation on triples stands for the operation of the group, for each curve without a linear
term and all triples on it: whatever the denominators, and also where the chord or tangent formula
has no meaning because the operands are equal, opposite or infinite or have `y = 0`.
-/

set_option autoImplicit false

namespace Secp256k1

/-! ## Sums along a line -/

namespace Curve

open WeierstrassCurve.Affine (nonsingular_add)
open WeierstrassCurve.Affine.Point (add_of_X_ne add_self_of_Y_ne add_of_Y_eq)

variable {b x₁ y₁ x₂ y₂ x y : FieldElement}

theorem exists_chord (first : (weierstrass b).Nonsingular x₁ y₁)
    (second : (weierstrass b).Nonsingular x₂ y₂) (apart : x₁ ≠ x₂) :
    ∃ (slope : FieldElement) (third : (weierstrass b).Nonsingular (slope ^ 2 - x₁ - x₂)
        (slope * (2 * x₁ + x₂ - slope ^ 2) - y₁)),
      slope * (x₂ - x₁) = y₂ - y₁ ∧
        (.some x₁ y₁ first + .some x₂ y₂ second : Group b) = .some _ _ third := by
  have difference : x₂ - x₁ ≠ 0 := sub_ne_zero.mpr apart.symm
  have slopeValue : (weierstrass b).slope x₁ x₂ y₁ y₂ = (y₂ - y₁) / (x₂ - x₁) := by
    rw [WeierstrassCurve.Affine.slope_of_X_ne apart, ← neg_sub y₂, ← neg_sub x₂, neg_div_neg_eq]
  have sumX : (weierstrass b).addX x₁ x₂ ((y₂ - y₁) / (x₂ - x₁)) =
      ((y₂ - y₁) / (x₂ - x₁)) ^ 2 - x₁ - x₂ := by
    simp [weierstrass]
  have sumY : (weierstrass b).addY x₁ x₂ y₁ ((y₂ - y₁) / (x₂ - x₁)) =
      (y₂ - y₁) / (x₂ - x₁) * (2 * x₁ + x₂ - ((y₂ - y₁) / (x₂ - x₁)) ^ 2) - y₁ := by
    rw [WeierstrassCurve.Affine.addY, negY_eq, WeierstrassCurve.Affine.negAddY, sumX]
    ring
  have third := nonsingular_add first second fun same => apart same.1
  rw [slopeValue, sumX, sumY] at third
  refine ⟨(y₂ - y₁) / (x₂ - x₁), third, div_mul_cancel₀ _ difference, ?_⟩
  rw [add_of_X_ne apart]
  simp only [slopeValue, sumX, sumY]

theorem exists_tangent (nonsingular : (weierstrass b).Nonsingular x y) (upright : y ≠ 0) :
    ∃ (slope : FieldElement) (third : (weierstrass b).Nonsingular (slope ^ 2 - 2 * x)
        (slope * (3 * x - slope ^ 2) - y)),
      slope * (2 * y) = 3 * x ^ 2 ∧
        (.some x y nonsingular + .some x y nonsingular : Group b) = .some _ _ third := by
  have denominator : 2 * y ≠ 0 := mul_ne_zero two_ne_zero upright
  have notOpposite : y ≠ (weierstrass b).negY x y := by
    rw [negY_eq]
    exact fun opposite => upright ((FieldElement.eq_neg_self_iff y).mp opposite)
  have slopeValue : (weierstrass b).slope x x y y = 3 * x ^ 2 / (2 * y) := by
    rw [WeierstrassCurve.Affine.slope_of_Y_ne rfl notOpposite, negY_eq]
    simp [weierstrass, two_mul]
  have sumX : (weierstrass b).addX x x (3 * x ^ 2 / (2 * y)) =
      (3 * x ^ 2 / (2 * y)) ^ 2 - 2 * x := by
    simp only [WeierstrassCurve.Affine.addX, weierstrass]
    ring
  have sumY : (weierstrass b).addY x x y (3 * x ^ 2 / (2 * y)) =
      3 * x ^ 2 / (2 * y) * (3 * x - (3 * x ^ 2 / (2 * y)) ^ 2) - y := by
    rw [WeierstrassCurve.Affine.addY, negY_eq, WeierstrassCurve.Affine.negAddY, sumX]
    ring
  have third := nonsingular_add nonsingular nonsingular fun same => notOpposite same.2
  rw [slopeValue, sumX, sumY] at third
  refine ⟨3 * x ^ 2 / (2 * y), third, div_mul_cancel₀ _ denominator, ?_⟩
  rw [add_self_of_Y_ne notOpposite]
  simp only [slopeValue, sumX, sumY]

theorem add_opposite (first : (weierstrass b).Nonsingular x y₁)
    (second : (weierstrass b).Nonsingular x y₂) (opposite : y₁ = -y₂) :
    (.some x y₁ first + .some x y₂ second : Group b) = 0 :=
  add_of_Y_eq rfl (opposite.trans negY_eq.symm)

/-- Points with the same abscissa are equal or opposite. -/
theorem ordinates_of_same_abscissa (first : (weierstrass b).Nonsingular x y₁)
    (second : (weierstrass b).Nonsingular x y₂) : y₁ = y₂ ∨ y₁ = -y₂ := by
  have equations := (nonsingular_iff.mp first).1.trans (nonsingular_iff.mp second).1.symm
  exact sq_eq_sq_iff_eq_or_eq_neg.mp equations

end Curve

/-! ## The operations -/

namespace Point

open Curve

variable {b : FieldElement} {P Q : Point} {A B : Group b}

theorem represents_infinity : Represents b infinity 0 :=
  .infinite rfl

theorem Represents.negate (stands : Represents b P A) : Represents b P.negate (-A) := by
  cases stands with
  | infinite denominator =>
    rw [neg_zero]
    exact .infinite denominator
  | @finite x y nonsingular denominator abscissa ordinate =>
    have opposite : (weierstrass b).Nonsingular x (-y) := by
      rw [← negY_eq (b := b) (x := x)]
      exact (WeierstrassCurve.Affine.nonsingular_neg x y).mpr nonsingular
    rw [neg_eq nonsingular opposite]
    refine .finite opposite denominator abscissa ?_
    simp only [Point.negate, ordinate]
    ring

theorem Represents.normalize (stands : Represents b P A) : Represents b P.normalize A := by
  cases stands with
  | infinite denominator =>
    rw [Point.normalize, if_pos ((Point.isInfinity_iff P).mpr denominator)]
    exact represents_infinity
  | @finite x y nonsingular denominator abscissa ordinate =>
    rw [Point.normalize, if_neg (by rwa [Point.isInfinity_iff])]
    split
    · exact .finite nonsingular denominator abscissa ordinate
    · refine .finite nonsingular one_ne_zero ?_ ?_
      · simp only [ofAffine, FieldElement.invert_eq, FieldElement.square_eq, abscissa]
        field_simp
      · simp only [ofAffine, FieldElement.invert_eq, FieldElement.square_eq, ordinate]
        field_simp

theorem Represents.twice (stands : Represents b P A) : Represents b P.twice (A + A) := by
  cases stands with
  | infinite denominator =>
    rw [Point.twice, if_pos ((Point.isInfinity_iff P).mpr denominator), add_zero]
    exact represents_infinity
  | @finite x y nonsingular denominator abscissa ordinate =>
    rw [Point.twice, if_neg (by rwa [Point.isInfinity_iff])]
    simp only [FieldElement.isZero_iff]
    split
    · rename_i flat
      have upright : y = 0 := by simpa [ordinate, denominator] using flat
      rw [add_opposite nonsingular nonsingular (by rw [upright, neg_zero])]
      exact represents_infinity
    · rename_i notFlat
      have upright : y ≠ 0 := fun flat => notFlat (by rw [ordinate, flat, zero_mul])
      obtain ⟨slope, third, tangent, sum⟩ := exists_tangent nonsingular upright
      rw [sum]
      simp only [FieldElement.square_eq, FieldElement.scale_eq, abscissa, ordinate,
        Nat.cast_ofNat]
      -- The numerator of the slope is the slope times the new denominator.
      have rise : (x * P.z ^ 2) ^ 2 * 3 = slope * (y * P.z ^ 3 * P.z * 2) := by
        linear_combination (-P.z ^ 4) * tangent
      rw [rise]
      refine .finite third ?_ (by ring) (by ring)
      exact mul_ne_zero (mul_ne_zero (mul_ne_zero upright (pow_ne_zero 3 denominator))
        denominator) two_ne_zero

theorem scaledBy_eq (P : Point) (z : FieldElement) :
    P.scaledBy z = (P.x * z ^ 2, P.y * z ^ 3) := by
  unfold scaledBy
  split
  · rename_i unit
    rw [(FieldElement.isOne_iff z).mp unit]
    simp
  · rw [FieldElement.square_eq, show z * z ^ 2 = z ^ 3 by ring]

/-- The chord formula on coordinates over the common denominator `z`. -/
theorem represents_chord {x₁ y₁ x₂ y₂ z : FieldElement}
    (first : (weierstrass b).Nonsingular x₁ y₁) (second : (weierstrass b).Nonsingular x₂ y₂)
    (apart : x₁ ≠ x₂) (denominator : z ≠ 0) :
    Represents b (chord (x₁ * z ^ 2) (y₁ * z ^ 3) z (x₂ * z ^ 2 - x₁ * z ^ 2)
        (y₂ * z ^ 3 - y₁ * z ^ 3)) (.some x₁ y₁ first + .some x₂ y₂ second) := by
  obtain ⟨slope, third, secant, sum⟩ := exists_chord first second apart
  rw [sum]
  have run : x₂ * z ^ 2 - x₁ * z ^ 2 = (x₂ - x₁) * z ^ 2 := by ring
  have rise : y₂ * z ^ 3 - y₁ * z ^ 3 = slope * (x₂ - x₁) * z ^ 3 := by
    linear_combination (-z ^ 3) * secant
  rw [chord, run, rise]
  simp only [FieldElement.square_eq, FieldElement.scale_eq, Nat.cast_ofNat]
  refine .finite third ?_ (by ring) (by ring)
  exact mul_ne_zero denominator (mul_ne_zero (sub_ne_zero.mpr apart.symm)
    (pow_ne_zero 2 denominator))

theorem Represents.add (first : Represents b P A) (second : Represents b Q B) :
    Represents b (P.add Q) (A + B) := by
  cases first with
  | infinite denominator =>
    rwa [Point.add, if_pos ((Point.isInfinity_iff P).mpr denominator), zero_add]
  | @finite x₁ y₁ nonsingular₁ denominator₁ abscissa₁ ordinate₁ =>
    rw [Point.add, if_neg (by rwa [Point.isInfinity_iff])]
    cases second with
    | infinite denominator =>
      rw [if_pos ((Point.isInfinity_iff Q).mpr denominator), add_zero]
      exact .finite nonsingular₁ denominator₁ abscissa₁ ordinate₁
    | @finite x₂ y₂ nonsingular₂ denominator₂ abscissa₂ ordinate₂ =>
      rw [if_neg (by rwa [Point.isInfinity_iff])]
      have common : P.z * Q.z ≠ 0 := mul_ne_zero denominator₁ denominator₂
      have u₁ : P.x * Q.z ^ 2 = x₁ * (P.z * Q.z) ^ 2 := by rw [abscissa₁]; ring
      have s₁ : P.y * Q.z ^ 3 = y₁ * (P.z * Q.z) ^ 3 := by rw [ordinate₁]; ring
      have u₂ : Q.x * P.z ^ 2 = x₂ * (P.z * Q.z) ^ 2 := by rw [abscissa₂]; ring
      have s₂ : Q.y * P.z ^ 3 = y₂ * (P.z * Q.z) ^ 3 := by rw [ordinate₂]; ring
      simp only [scaledBy_eq, FieldElement.isZero_iff, sub_eq_zero, u₁, s₁, u₂, s₂]
      split
      · rename_i sameScaled
        have same : x₁ = x₂ := (mul_right_cancel₀ (pow_ne_zero 2 common) sameScaled).symm
        subst same
        split
        · rename_i sameScaled
          have same : y₁ = y₂ := (mul_right_cancel₀ (pow_ne_zero 3 common) sameScaled).symm
          subst same
          exact (Represents.finite nonsingular₁ denominator₁ abscissa₁ ordinate₁).twice
        · rename_i differ
          have opposite : y₁ = -y₂ :=
            (ordinates_of_same_abscissa nonsingular₁ nonsingular₂).resolve_left
              fun same => differ (by rw [same])
          rw [add_opposite nonsingular₁ nonsingular₂ opposite]
          exact represents_infinity
      · rename_i differ
        exact represents_chord nonsingular₁ nonsingular₂ (fun same => differ (by rw [same])) common

end Point
end Secp256k1
