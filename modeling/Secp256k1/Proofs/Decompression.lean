import Mathlib
import Secp256k1.Proofs.PointEquality
import Secp256k1.Proofs.RecoveryConditions

/-!
# Decompression

An abscissa with a square right-hand side has two ordinates, one the opposite of the other, and
neither of them is zero.  They differ in parity, so the two parities name the two points over the
abscissa, and decompression finds each of them.
-/

set_option autoImplicit false

namespace Secp256k1

open Curve

theorem FieldElement.isOdd_eq_iff {a : FieldElement} {odd : Bool} :
    a.isOdd = odd ↔ a.val % 2 = odd.toNat := by
  rw [isOdd]
  cases odd with
  | false => simp
  | true => simp

namespace Point

variable {x : FieldElement} {odd : Bool} {P R S : Point}

/-- The element that decompression finds is the only affine one on the curve with the abscissa and
the parity. -/
theorem decompress_eq_some_iff_onCurve :
    decompress x odd = some R ↔
      R.z = 1 ∧ R.x = x ∧ R.isOnCurve = true ∧ R.y.val % 2 = odd.toNat := by
  rw [decompress_eq_some_iff, ← FieldElement.isOdd_eq_iff]
  constructor
  · rintro ⟨y, rfl, square, parity⟩
    have found := decompress_eq_some_iff.mpr ⟨y, rfl, square, parity⟩
    obtain ⟨affine, onCurve⟩ := isAffineOnCurve_iff.mp (isAffineOnCurve_of_decompress found)
    exact ⟨affine, rfl, onCurve, parity⟩
  · rintro ⟨affine, rfl, onCurve, parity⟩
    have valid := isAffineOnCurve_iff.mpr ⟨affine, onCurve⟩
    exact ⟨R.y, valid.eq_ofAffine, valid.square, parity⟩

/-- Whether there is an ordinate does not depend on the parity that is asked for. -/
theorem exists_decompress_iff :
    (∃ R, decompress x odd = some R) ↔ IsAbscissa x.val := by
  rw [isAbscissa_val_iff]
  constructor
  · rintro ⟨R, found⟩
    obtain ⟨y, _, square, _⟩ := decompress_eq_some_iff.mp found
    exact ⟨y, square⟩
  · rintro ⟨Y, square⟩
    obtain ⟨y, square', parity⟩ := exists_ordinate_of_parity square odd
    exact ⟨_, decompress_eq_some_iff.mpr ⟨y, rfl, square', parity⟩⟩

theorem eq_negate_of_decompress (found : decompress x odd = some R)
    (other : decompress x (!odd) = some S) : S = R.negate := by
  obtain ⟨y, rfl, square, parity⟩ := decompress_eq_some_iff.mp found
  obtain ⟨y', rfl, square', parity'⟩ := decompress_eq_some_iff.mp other
  rcases sq_eq_sq_iff_eq_or_eq_neg.mp (square'.trans square.symm) with same | opposite
  · rw [same, parity] at parity'
    simp at parity'
  · rw [opposite]
    rfl

theorem not_sameAs_of_decompress (found : decompress x odd = some R)
    (other : decompress x (!odd) = some S) : ¬ R.sameAs S = true := by
  intro same
  obtain ⟨affine, _, _, parity⟩ := decompress_eq_some_iff_onCurve.mp found
  obtain ⟨affine', _, _, parity'⟩ := decompress_eq_some_iff_onCurve.mp other
  rw [eq_of_sameAs affine affine' same, parity'] at parity
  cases odd <;> cases parity

theorem affineX_of_decompress (found : decompress x odd = some R) : R.affineX = some x := by
  obtain ⟨_, rfl, _⟩ := decompress_eq_some_iff_onCurve.mp found
  rw [affineX, (isAffineOnCurve_of_decompress found).toAffine]
  rfl

/-- A point over `x` is found when its own parity is asked for. -/
theorem affineX_eq_some_iff (finite : ¬ P.isInfinity = true) (onCurve : P.isOnCurve = true) :
    P.affineX = some x ↔ ∃ odd R, decompress x odd = some R ∧ P.sameAs R = true := by
  constructor
  · intro abscissa
    have valid := isAffineOnCurve_normalize finite ((isOnCurve_iff P).mp onCurve)
    rw [affineX, ← toAffine_normalize, valid.toAffine] at abscissa
    cases abscissa
    refine ⟨P.normalize.y.isOdd, P.normalize, ?_, ?_⟩
    · exact decompress_eq_some_iff.mpr ⟨_, valid.eq_ofAffine, valid.square, rfl⟩
    · rw [sameAs_iff, toAffine_normalize]
  · rintro ⟨odd, R, found, same⟩
    rw [affineX, (sameAs_iff P R).mp same]
    exact affineX_of_decompress found

end Point

theorem Curve.not_dvd_ordinate {x : FieldElement} {y : Nat}
    (square : y ^ 2 ≡ x.val ^ 3 + 7 [MOD fieldModulus]) : ¬ fieldModulus ∣ y := by
  intro multiple
  have null : (y : FieldElement) = 0 := (CharP.cast_eq_zero_iff _ fieldModulus y).mpr multiple
  rw [← natCast_square_eq_rhs_iff, natCast_val, null, zero_pow two_ne_zero] at square
  exact rhs_ne_zero x square.symm

namespace Point

/-- Decompression succeeds exactly if the right-hand side of the curve is a square at the abscissa,
whichever parity is asked for, and what it finds is the one affine triple on the curve with the
abscissa and the parity.  The two parities give two points, one the opposite of the other, and a
finite point of the curve has the abscissa exactly if it is one of these.  No ordinate is zero. -/
theorem decompression_is_exact (x : FieldElement) :
    (∀ odd, (∃ R, decompress x odd = some R) ↔
      ∃ y, y ^ 2 ≡ x.val ^ 3 + 7 [MOD fieldModulus]) ∧
    (∀ odd R, decompress x odd = some R ↔
      R.z = 1 ∧ R.x = x ∧ R.isOnCurve = true ∧ R.y.val % 2 = odd.toNat) ∧
    (∀ odd R S, decompress x odd = some R → decompress x (!odd) = some S →
      ¬ R.sameAs S = true ∧ S = R.negate) ∧
    (∀ P : Point, ¬ P.isInfinity = true → P.isOnCurve = true →
      (P.affineX = some x ↔ ∃ odd R, decompress x odd = some R ∧ P.sameAs R = true)) ∧
    ∀ y, y ^ 2 ≡ x.val ^ 3 + 7 [MOD fieldModulus] → ¬ fieldModulus ∣ y := by
  refine ⟨fun _ => exists_decompress_iff, fun _ _ => decompress_eq_some_iff_onCurve, ?_,
    fun _ finite onCurve => affineX_eq_some_iff finite onCurve, fun _ => not_dvd_ordinate⟩
  intro odd R S found other
  exact ⟨not_sameAs_of_decompress found other, eq_negate_of_decompress found other⟩

/-- Twice the generator, as the doubling leaves it, is one of the two points over its abscissa. -/
theorem points_over_the_doubled_generator :
    let x := generator.twice.normalize.x
    ¬ generator.twice.isNormalized = true ∧ ∃ R S : Point,
      decompress x false = some R ∧ decompress x true = some S ∧
        ¬ R.sameAs S = true ∧ S = R.negate ∧
        ∃ odd T, decompress x odd = some T ∧ generator.twice.sameAs T = true := by
  intro x
  obtain ⟨admitted, _, opposite, above, _⟩ := decompression_is_exact x
  have abscissa : generator.twice.affineX = some x := by decide +kernel
  obtain ⟨odd, T, found, same⟩ :=
    (above generator.twice (by decide +kernel) (by decide +kernel)).mp abscissa
  have square := (admitted odd).mp ⟨T, found⟩
  obtain ⟨R, even⟩ := (admitted false).mpr square
  obtain ⟨S, odd'⟩ := (admitted true).mpr square
  obtain ⟨distinct, negative⟩ := opposite false R S even odd'
  exact ⟨by decide +kernel, R, S, even, odd', distinct, negative, odd, T, found, same⟩

end Point
end Secp256k1
