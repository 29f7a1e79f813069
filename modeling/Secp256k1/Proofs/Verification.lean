import Mathlib
import Secp256k1.Proofs.BitStrings
import Secp256k1.Proofs.SignatureEquation

/-!
# The textbook predicate of verification

The textbook asks for the point `R` with `s * R = e * G + r * Q` and compares its abscissa with `r`.
The program divides by `s` first.  The group has prime order, so a valid `s` leaves exactly one such
point for every key point, and both tests look at this one.
-/

set_option autoImplicit false

namespace Secp256k1

open Curve

namespace Ecdsa

variable {e r s : Nat} {R B : Group b}

/-- The equation with natural multiples, which need no order of the group. -/
theorem relates_iff_nsmul : Relates e r s R B ↔ s • R = e • base + r • B := by
  rw [Relates, Nat.cast_smul_eq_nsmul, Nat.cast_smul_eq_nsmul, Nat.cast_smul_eq_nsmul]

theorem existsUnique_nonce (e r : Nat) (B : Group b) (valid : Scalar.IsValid s) :
    ∃! R : Group b, s • R = e • base + r • B := by
  simp only [← relates_iff_nsmul, relates_iff_nonce valid]
  exact existsUnique_eq

theorem residue_eq_some_iff_abscissa :
    Curve.residue R = some r ↔
      ∃ (x y : FieldElement) (point : (weierstrass b).Nonsingular x y),
        R = .some x y point ∧ x.val % Scalar.order = r := by
  constructor
  · intro abscissa
    cases R with
    | zero => cases abscissa
    | some x y point => exact ⟨x, y, point, rfl, Option.some.inj abscissa⟩
  · rintro ⟨x, y, point, rfl, reduced⟩
    exact congrArg some reduced

/-- The integer of a digest is the one that its first 256 bits write, or all of them. -/
theorem ofDigest_eq_leading_bits (digest : Octets) :
    Scalar.ofDigest digest = Binary.ofMsbFirst (digest.bits.take 256) := by
  rw [Scalar.ofDigest, Octets.leftmost_eq, Scalar.bitLength_order]

/-- For every finite point of the curve, in any triple, all digests and halves of any size: what is
accepted are the halves below the order, other than zero, for which the one point `R` with
`s * R = e * G + r * Q` is finite and has the abscissa `r` modulo the order. -/
theorem acceptance_is_textbook_predicate {Q : Point} (onCurve : Q.isOnCurve = true)
    (finite : ¬ Q.isInfinity = true) (digest : Octets) (r s : Nat) :
    ∃ B : Group b, B ≠ 0 ∧ Point.Represents b Q B ∧
      (Scalar.IsValid s → ∃! R : Group b,
        s • R = Binary.ofMsbFirst (digest.bits.take 256) • base + r • B) ∧
      (accepts Q digest r s = true ↔
        (1 ≤ r ∧ r ≤ Scalar.order - 1) ∧ (1 ≤ s ∧ s ≤ Scalar.order - 1) ∧
          ∃ (x y : FieldElement) (point : (weierstrass b).Nonsingular x y),
            s • (.some x y point : Group b) =
              Binary.ofMsbFirst (digest.bits.take 256) • base + r • B ∧
            x.val % Scalar.order = r) := by
  obtain ⟨B, standsQ⟩ := ((Point.isOnCurve_iff Q).mp onCurve).represents
  have proper : B ≠ 0 := fun neutral => finite (standsQ.isInfinity_iff.mpr neutral)
  refine ⟨B, proper, standsQ, existsUnique_nonce _ r B, ?_⟩
  have range : ∀ k, Scalar.IsValid k ↔ 1 ≤ k ∧ k ≤ Scalar.order - 1 := by
    intro k
    have positive := Scalar.order_pos
    unfold Scalar.IsValid
    omega
  rw [accepts_iff standsQ, ← range, ← range, ← ofDigest_eq_leading_bits]
  refine and_congr_right fun _ => and_congr_right fun _ => ?_
  simp only [relates_iff_nsmul, residue_eq_some_iff_abscissa]
  constructor
  · rintro ⟨_, related, x, y, point, rfl, reduced⟩
    exact ⟨x, y, point, related, reduced⟩
  · rintro ⟨x, y, point, related, reduced⟩
    exact ⟨_, related, x, y, point, rfl, reduced⟩

/-- The double of the generator over its own denominator as the key, the generator as the nonce
point, and 33 octets of which the first 32 write one. -/
theorem acceptance_under_the_doubled_generator :
    Point.generator.twice.isOnCurve = true ∧ ¬ Point.generator.twice.isInfinity = true ∧
      ∃ B : Group b, Point.Represents b Point.generator.twice B ∧
        ∃ (x y : FieldElement) (point : (weierstrass b).Nonsingular x y),
          Scalar.reduce (1 + 2 * Point.generator.x.val) • (.some x y point : Group b) =
            Binary.ofMsbFirst ((Octets.fixed 32 1 ++ [255]).bits.take 256) • base +
              Point.generator.x.val • B ∧
          x.val % Scalar.order = Point.generator.x.val := by
  have onCurve : Point.generator.twice.isOnCurve = true := by decide +kernel
  have finite : ¬ Point.generator.twice.isInfinity = true := by decide +kernel
  obtain ⟨B, _, standsQ, _, accepted⟩ := acceptance_is_textbook_predicate onCurve finite
    (Octets.fixed 32 1 ++ [255]) Point.generator.x.val
    (Scalar.reduce (1 + 2 * Point.generator.x.val))
  exact ⟨onCurve, finite, B, standsQ, (accepted.mp (by decide +kernel)).2.2⟩

end Ecdsa
end Secp256k1
