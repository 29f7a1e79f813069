import Mathlib
import Secp256k1.Proofs.KeyRecovery

/-!
# Orders of points

The number of points is the prime `n`, so each finite point of the curve has the order `n`, whether
or not it is a known multiple of the generator.  A multiple depends on the scalar modulo `n` only,
and the check of the order in recovery has nothing to reject.
-/

set_option autoImplicit false

namespace Secp256k1

open Curve

namespace Curve

theorem nsmul_eq_zero_iff {A : Group b} (proper : A ≠ 0) (k : Nat) :
    k • A = 0 ↔ Scalar.order ∣ k := by
  have orderOfA : addOrderOf A = Scalar.order := addOrderOf_eq_prime (order_nsmul A) proper
  rw [← addOrderOf_dvd_iff_nsmul_eq_zero, orderOfA]

theorem reduce_nsmul (A : Group b) (k : Nat) : Scalar.reduce k • A = k • A := by
  rw [← Nat.cast_smul_eq_nsmul (ZMod Scalar.order), Scalar.cast_reduce, Nat.cast_smul_eq_nsmul]

end Curve

namespace Point

theorem multiply_isInfinity_iff {P : Point} (onCurve : P.isOnCurve = true)
    (finite : ¬ P.isInfinity = true) (multiplier : Multiplier) (k : Nat) :
    (multiplier.multiply P k).isInfinity = true ↔ Scalar.order ∣ k := by
  obtain ⟨A, stands⟩ := ((isOnCurve_iff P).mp onCurve).represents
  have proper : A ≠ 0 := fun neutral => finite (stands.isInfinity_iff.mpr neutral)
  have multiple := (reading b).multiply stands multiplier k
  rw [(reading b).isInfinity_iff multiple, nsmul_eq_zero_iff proper]

theorem multiply_reduce_sameAs {P : Point} (onCurve : P.isOnCurve = true)
    (first second : Multiplier) (k : Nat) :
    (first.multiply P k).sameAs (second.multiply P (Scalar.reduce k)) = true := by
  obtain ⟨A, stands⟩ := ((isOnCurve_iff P).mp onCurve).represents
  have multiple := (reading b).multiply stands first k
  have reduced := (reading b).multiply stands second (Scalar.reduce k)
  rw [reduce_nsmul] at reduced
  exact (sameAs_iff_of_represents multiple reduced).mpr rfl

theorem multiply_order_of_decompress {x : FieldElement} {odd : Bool} {R : Point}
    (found : decompress x odd = some R) :
    (Multiplier.standard.multiply R Scalar.order).isInfinity = true := by
  obtain ⟨A, _, stands⟩ := (isAffineOnCurve_of_decompress found).represents
  exact RecoveryId.multiply_order_isInfinity stands

end Point

/-- The candidate for the nonce point is the decompressed point; its order is not looked at. -/
theorem RecoveryId.noncePoint_eq_decompress (id : RecoveryId) (r : Nat) :
    id.noncePoint? r =
      (FieldElement.ofCanonical? (if id.overflow then r + Scalar.order else r)).bind
        fun x => Point.decompress x id.odd := by
  unfold noncePoint?
  split
  · rename_i outside
    rw [outside, Option.bind_none]
  · rename_i x canonical
    rw [canonical, Option.bind_some]
    split
    · rename_i offCurve
      exact offCurve.symm
    · rename_i R found
      rw [if_pos (Point.multiply_order_of_decompress found), found]

namespace Point

/-- The curve has `n` points and `n` is prime.  A multiple of a finite point is infinity exactly for
the multiples of `n`, scalars matter modulo `n` only, and no decompressed point fails the check of
the order in recovery. -/
theorem finite_points_have_prime_order :
    Nat.Prime Scalar.order ∧ Nat.card (Group b) = Curve.cofactor * Scalar.order ∧
    (∀ P : Point, P.isOnCurve = true → ¬ P.isInfinity = true →
      ∀ (multiplier : Multiplier) (k : Nat),
        (multiplier.multiply P k).isInfinity = true ↔ Scalar.order ∣ k) ∧
    (∀ P : Point, P.isOnCurve = true → ∀ (first second : Multiplier) (k : Nat),
      (first.multiply P k).sameAs (second.multiply P (Scalar.reduce k)) = true) ∧
    (∀ (x : FieldElement) (odd : Bool) (R : Point), decompress x odd = some R →
      (Multiplier.standard.multiply R Scalar.order).isInfinity = true) ∧
    ∀ (id : RecoveryId) (r : Nat), id.noncePoint? r =
      (FieldElement.ofCanonical? (if id.overflow then r + Scalar.order else r)).bind
        fun x => decompress x id.odd := by
  refine ⟨Scalar.order_prime, ?_, ?_, ?_, ?_, RecoveryId.noncePoint_eq_decompress⟩
  · rw [card_group, Curve.cofactor, one_mul]
  · intro P onCurve finite
    exact multiply_isInfinity_iff onCurve finite
  · intro P onCurve
    exact multiply_reduce_sameAs onCurve
  · intro x odd R found
    exact multiply_order_of_decompress found

/-- The point with the abscissa one and an even ordinate, not given as a multiple of the
generator. -/
theorem order_of_the_point_over_one :
    ∃ R : Point, decompress 1 false = some R ∧ R.isOnCurve = true ∧ ¬ R.isInfinity = true ∧
      (Multiplier.ladder.multiply R (3 * Scalar.order)).isInfinity = true ∧
      ¬ (Multiplier.signedDigits.multiply R (Scalar.order + 1)).isInfinity = true ∧
      (Multiplier.doubleAndAdd.multiply R (Scalar.order + 1)).sameAs
        (Multiplier.standard.multiply R (Scalar.reduce (Scalar.order + 1))) = true ∧
      (Multiplier.standard.multiply R Scalar.order).isInfinity = true := by
  obtain ⟨_, _, multiples, residues, decompressed, _⟩ := finite_points_have_prime_order
  obtain ⟨R, found⟩ : ∃ R, decompress 1 false = some R :=
    Option.isSome_iff_exists.mp (by decide +kernel)
  have onCurve : R.isOnCurve = true :=
    (isOnCurve_iff R).mpr (isAffineOnCurve_of_decompress found).onCurve
  have finite : ¬ R.isInfinity = true := by
    rw [isInfinity_iff, (isAffineOnCurve_of_decompress found).affine]
    exact one_ne_zero
  refine ⟨R, found, onCurve, finite, ?_, ?_, residues R onCurve _ _ _, decompressed _ _ R found⟩
  · exact (multiples R onCurve finite .ladder (3 * Scalar.order)).mpr (Dvd.intro_left 3 rfl)
  · intro infinite
    have divides := (multiples R onCurve finite .signedDigits (Scalar.order + 1)).mp infinite
    exact absurd divides (by decide)

end Point
end Secp256k1
