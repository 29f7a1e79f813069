import Mathlib
import Secp256k1.Point.Group
import Secp256k1.Proofs.FieldStructure

/-!
# Triples and the group of a curve

For every constant `b` the points of `y ^ 2 = x ^ 3 + b` that are not singular form a group.  The
only point that can be singular is `(0, 0)`.  `Represents` says which element of the group a triple
stands for; every triple on the curve stands for exactly one element.
-/

set_option autoImplicit false

namespace Secp256k1

/-! ## The curves without a linear term -/

namespace Curve

def weierstrass (b : FieldElement) : WeierstrassCurve.Affine FieldElement :=
  ⟨0, 0, 0, 0, b⟩

abbrev Group (b : FieldElement) : Type :=
  (weierstrass b).Point

variable {b x y : FieldElement}

theorem equation_iff : (weierstrass b).Equation x y ↔ y ^ 2 = x ^ 3 + b := by
  simp [WeierstrassCurve.Affine.equation_iff, weierstrass]

theorem nonsingular_iff :
    (weierstrass b).Nonsingular x y ↔ y ^ 2 = x ^ 3 + b ∧ ¬ (x = 0 ∧ y = 0) := by
  rw [WeierstrassCurve.Affine.nonsingular_iff, equation_iff, not_and_or]
  simp [weierstrass, eq_comm (a := (0 : FieldElement)), three_ne_zero,
    FieldElement.eq_neg_self_iff]

theorem negY_eq : (weierstrass b).negY x y = -y := by
  simp [WeierstrassCurve.Affine.negY, weierstrass]

theorem neg_eq (nonsingular : (weierstrass b).Nonsingular x y)
    (opposite : (weierstrass b).Nonsingular x (-y)) :
    -(.some x y nonsingular : Group b) = .some x (-y) opposite := by
  simp only [WeierstrassCurve.Affine.Point.neg_some, negY_eq]

end Curve

/-! ## What a triple stands for -/

namespace Point

open Curve

variable {b : FieldElement} {P Q : Point} {A B : Group b}

/-- The triple stands for infinity or for a point of the curve other than `(0, 0)`. -/
def LiesOn (b : FieldElement) (P : Point) : Prop :=
  P.z = 0 ∨ P.y ^ 2 = P.x ^ 3 + b * P.z ^ 6 ∧ ¬ (P.x = 0 ∧ P.y = 0)

/-- The triple stands for an element of the group. -/
inductive Represents (b : FieldElement) : Point → Group b → Prop where
  | infinite {P : Point} (denominator : P.z = 0) : Represents b P 0
  | finite {P : Point} {x y : FieldElement} (nonsingular : (weierstrass b).Nonsingular x y)
      (denominator : P.z ≠ 0) (abscissa : P.x = x * P.z ^ 2) (ordinate : P.y = y * P.z ^ 3) :
      Represents b P (.some x y nonsingular)

@[simp] theorem isInfinity_iff (P : Point) : P.isInfinity = true ↔ P.z = 0 :=
  FieldElement.isZero_iff P.z

theorem isInfinity_eq_false_iff (P : Point) : P.isInfinity = false ↔ P.z ≠ 0 := by
  rw [← Bool.not_eq_true, isInfinity_iff]

theorem LiesOn.represents (onCurve : P.LiesOn b) : ∃ A : Group b, Represents b P A := by
  by_cases denominator : P.z = 0
  · exact ⟨0, .infinite denominator⟩
  · obtain ⟨equation, regular⟩ := onCurve.resolve_left denominator
    have nonsingular : (weierstrass b).Nonsingular (P.x / P.z ^ 2) (P.y / P.z ^ 3) := by
      refine nonsingular_iff.mpr ⟨?_, fun origin => regular ?_⟩
      · field_simp
        linear_combination equation
      · simpa [denominator] using origin
    exact ⟨_, .finite nonsingular denominator (by field_simp) (by field_simp)⟩

theorem Represents.liesOn (stands : Represents b P A) : P.LiesOn b := by
  cases stands with
  | infinite denominator => exact Or.inl denominator
  | finite nonsingular denominator abscissa ordinate =>
    obtain ⟨equation, regular⟩ := nonsingular_iff.mp nonsingular
    refine Or.inr ⟨?_, fun origin => regular ?_⟩
    · rw [abscissa, ordinate]
      linear_combination P.z ^ 6 * equation
    · simpa [abscissa, ordinate, denominator] using origin

theorem Represents.isInfinity_iff (stands : Represents b P A) :
    P.isInfinity = true ↔ A = 0 := by
  rw [Point.isInfinity_iff]
  cases stands with
  | infinite denominator => exact ⟨fun _ => rfl, fun _ => denominator⟩
  | finite nonsingular denominator _ _ =>
    exact ⟨fun vanishes => absurd vanishes denominator,
      fun neutral => absurd neutral (WeierstrassCurve.Affine.Point.some_ne_zero nonsingular)⟩

/-- A triple stands for one element only. -/
theorem Represents.unique (first : Represents b P A) (second : Represents b P B) : A = B := by
  cases first with
  | infinite denominator =>
    exact (second.isInfinity_iff.mp ((Point.isInfinity_iff P).mpr denominator)).symm
  | finite nonsingular denominator abscissa ordinate =>
    cases second with
    | infinite vanishes => exact absurd vanishes denominator
    | finite nonsingular' _ abscissa' ordinate' =>
      have sameAbscissa := mul_right_cancel₀ (pow_ne_zero 2 denominator)
        (abscissa.symm.trans abscissa')
      have sameOrdinate := mul_right_cancel₀ (pow_ne_zero 3 denominator)
        (ordinate.symm.trans ordinate')
      subst sameAbscissa sameOrdinate
      rfl

theorem represents_ofAffine {x y : FieldElement} (nonsingular : (weierstrass b).Nonsingular x y) :
    Represents b (ofAffine x y) (.some x y nonsingular) :=
  .finite nonsingular one_ne_zero (by simp [ofAffine]) (by simp [ofAffine])

end Point
end Secp256k1
