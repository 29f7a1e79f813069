import Mathlib
import Secp256k1.Point.Basic
import Secp256k1.Proofs.FieldStructure

/-!
# Square roots and parities

The modulus is odd, so the parity of the representative tells the two roots of a square apart.  It
is three modulo four, so one power is a root of every square.  Minus seven is not a cube, so no
point of the curve has the ordinate zero and each abscissa has no ordinate or two.
-/

set_option autoImplicit false

namespace Secp256k1

namespace FieldElement

theorem isOdd_neg {a : FieldElement} (nonzero : a ≠ 0) : (-a).isOdd = !a.isOdd := by
  have positive : a.val ≠ 0 := fun null => nonzero (ext null)
  have bound := a.isLt
  have modulusOdd : fieldModulus % 2 = 1 := by decide
  have opposite : (-a).val = fieldModulus - a.val := by
    rw [val_neg, Nat.mod_eq_of_lt (by omega)]
  rw [isOdd, isOdd, opposite]
  by_cases odd : a.val % 2 = 1
  · simp [odd, show (fieldModulus - a.val) % 2 = 0 by omega]
  · simp [show a.val % 2 = 0 by omega, show (fieldModulus - a.val) % 2 = 1 by omega]

theorem eq_of_square_eq {a c : FieldElement} (squares : a ^ 2 = c ^ 2)
    (parities : a.isOdd = c.isOdd) : a = c := by
  rcases sq_eq_sq_iff_eq_or_eq_neg.mp squares with same | opposite
  · exact same
  · by_cases null : c = 0
    · rw [opposite, null, neg_zero]
    · rw [opposite, isOdd_neg null] at parities
      simp at parities

theorem square_of_sqrt {a root : FieldElement} (found : a.sqrt = some root) : root ^ 2 = a := by
  rw [sqrt] at found
  split at found
  · rename_i squares
    cases found
    rwa [square_eq] at squares
  · cases found

theorem exists_sqrt (y : FieldElement) : ∃ root, (y ^ 2).sqrt = some root := by
  have squares : ((y ^ 2) ^ ((fieldModulus + 1) / 4)) ^ 2 = y ^ 2 := by
    by_cases null : y = 0
    · rw [null, zero_pow two_ne_zero, zero_pow (by decide), zero_pow two_ne_zero]
    · have exponents : 2 * ((fieldModulus + 1) / 4 * 2) = fieldModulus - 1 + 2 := by decide
      rw [← pow_mul, ← pow_mul, exponents, pow_add, pow_modulus_sub_one null, one_mul]
  refine ⟨(y ^ 2) ^ ((fieldModulus + 1) / 4), ?_⟩
  rw [sqrt, power_eq_pow, square_eq, if_pos squares]

theorem isSquare_of_sqrt {a root : FieldElement} (found : a.sqrt = some root) : IsSquare root := by
  have square := square_of_sqrt found
  have power : a ^ ((fieldModulus + 1) / 4) = root := by
    rw [sqrt] at found
    split at found
    · exact Option.some.inj found
    · cases found
  refine ⟨root ^ ((fieldModulus + 1) / 4), ?_⟩
  rw [← mul_pow, ← sq, square, power]

theorem not_isSquare_neg_one : ¬ IsSquare (-1 : FieldElement) := by
  rw [FiniteField.isSquare_neg_one_iff, ← Nat.card_eq_fintype_card, card_fieldElement, not_not]
  decide

/-- Of two opposite elements at most one is a square. -/
theorem eq_of_isSquare {a c : FieldElement} (squares : a ^ 2 = c ^ 2) (squareA : IsSquare a)
    (squareC : IsSquare c) : a = c := by
  rcases sq_eq_sq_iff_eq_or_eq_neg.mp squares with same | opposite
  · exact same
  · by_cases null : c = 0
    · rw [opposite, null, neg_zero]
    · have quotient : a / c = -1 := by rw [opposite, neg_div, div_self null]
      exact absurd (quotient ▸ squareA.div squareC) not_isSquare_neg_one

/-- The root that is found is the one that is a square itself. -/
theorem sqrt_eq_some_iff {a root : FieldElement} :
    a.sqrt = some root ↔ root ^ 2 = a ∧ IsSquare root := by
  constructor
  · exact fun found => ⟨square_of_sqrt found, isSquare_of_sqrt found⟩
  · rintro ⟨rfl, itself⟩
    obtain ⟨found, extracted⟩ := exists_sqrt root
    rw [extracted, eq_of_isSquare (square_of_sqrt extracted) (isSquare_of_sqrt extracted) itself]

end FieldElement

namespace Curve

theorem rhs_eq (x : FieldElement) : rhs x = x ^ 3 + b := by
  rw [rhs, FieldElement.square_eq, ← pow_succ]

/-- Two thirds of the non-zero elements are no cubes, and minus seven is one of these. -/
theorem rhs_ne_zero (x : FieldElement) : rhs x ≠ 0 := by
  intro vanishes
  have cube : x ^ 3 = -b := eq_neg_of_add_eq_zero_left ((rhs_eq x).symm.trans vanishes)
  have nonzero : x ≠ 0 := by
    intro null
    rw [null, zero_pow three_ne_zero] at cube
    exact absurd cube (by decide)
  have fermat : (-b) ^ ((fieldModulus - 1) / 3) = 1 := by
    have exponents : 3 * ((fieldModulus - 1) / 3) = fieldModulus - 1 := by decide
    rw [← cube, ← pow_mul, exponents, FieldElement.pow_modulus_sub_one nonzero]
  exact absurd fermat (by decide +kernel)

end Curve

namespace Point

/-- Decompression finds exactly the point of the curve with the abscissa and the parity. -/
theorem decompress_eq_some_iff {x : FieldElement} {odd : Bool} {R : Point} :
    decompress x odd = some R ↔
      ∃ y, R = ofAffine x y ∧ y ^ 2 = Curve.rhs x ∧ y.isOdd = odd := by
  constructor
  · intro found
    obtain ⟨root, extracted, chosen⟩ := Option.map_eq_some_iff.mp found
    have square := FieldElement.square_of_sqrt extracted
    have nonzero : root ≠ 0 := by
      intro null
      rw [null, zero_pow two_ne_zero] at square
      exact Curve.rhs_ne_zero x square.symm
    refine ⟨if root.isOdd = odd then root else -root, chosen.symm, ?_, ?_⟩
    · split
      · exact square
      · rw [neg_sq, square]
    · split
      · assumption
      · rename_i other
        rw [FieldElement.isOdd_neg nonzero]
        revert other
        cases root.isOdd <;> cases odd <;> simp
  · rintro ⟨y, rfl, square, parity⟩
    obtain ⟨root, extracted⟩ := FieldElement.exists_sqrt y
    have sameSquare := FieldElement.square_of_sqrt extracted
    rw [decompress, ← square, extracted, Option.map_some, Option.some.injEq]
    congr 1
    split
    · rename_i sameParity
      exact FieldElement.eq_of_square_eq sameSquare (sameParity.trans parity.symm)
    · rename_i otherParity
      rcases sq_eq_sq_iff_eq_or_eq_neg.mp sameSquare with same | opposite
      · exact absurd (same ▸ parity) otherParity
      · rw [opposite, neg_neg]

end Point
end Secp256k1
