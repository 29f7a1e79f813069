import Mathlib
import Secp256k1.Point.Encoding
import Secp256k1.Proofs.Reading
import Secp256k1.Proofs.SignedDigits

/-!
# The multipliers compute multiples

Each loop keeps an invariant that ties its triple to the number whose digits it has consumed: the
number itself for double-and-add and for the non-adjacent form, the number and its successor for the
ladder, and twice the number plus one for the signed digits.  The invariants hold in every reading,
so the four multipliers agree wherever a triple has a reading.
-/

set_option autoImplicit false

namespace Secp256k1
namespace Reading

variable {A : Type} [AddCommGroup A] (reading : Reading A) {P Q : Point} {a c : A}

theorem foldl_doubleAndAdd (standsP : reading.stands P a) (bits : List Bool) :
    ∀ (R : Point) (value : Nat), reading.stands R (value • a) →
      reading.stands (bits.foldl (fun R bit => if bit then R.twice.add P else R.twice) R)
        (bits.foldl (fun value bit => 2 * value + bit.toNat) value • a) := by
  induction bits with
  | nil => intro R value standsR; exact standsR
  | cons bit rest ih =>
    intro R value standsR
    rw [List.foldl_cons, List.foldl_cons]
    apply ih
    have doubled := reading.twice standsR
    cases bit with
    | false =>
      rwa [Bool.toNat_false, add_zero, two_mul, add_nsmul]
    | true =>
      rw [Bool.toNat_true, succ_nsmul, two_mul, add_nsmul]
      exact reading.add doubled standsP

theorem timesByDoubleAndAdd (standsP : reading.stands P a) (k : Nat) :
    reading.stands (P.timesByDoubleAndAdd k) (k • a) := by
  have run := reading.foldl_doubleAndAdd standsP (Binary.msbFirst k) Point.infinity 0
    (by rw [zero_nsmul]; exact reading.infinity)
  rwa [Binary.foldl_msbFirst] at run

theorem foldl_nonAdjacentForm {plus minus : Point} (standsPlus : reading.stands plus a)
    (standsMinus : reading.stands minus (-a)) (digits : List SignedDigit) :
    reading.stands
      (digits.reverse.foldl
        (fun R digit =>
          (R.twicePlus (if digit.negative then minus else plus)).timesPowTwo digit.zeros)
        Point.infinity)
      (NonAdjacentForm.value digits • a) := by
  induction digits with
  | nil =>
    rw [NonAdjacentForm.value, zero_zsmul]
    exact reading.infinity
  | cons digit higher ih =>
    -- The reversed list ends with the lowest digit, so the fold over the higher ones comes first.
    rw [List.reverse_cons, List.foldl_append, List.foldl_cons, List.foldl_nil,
      NonAdjacentForm.value]
    have standsDigit : reading.stands (if digit.negative then minus else plus)
        (digit.sign • a) := by
      unfold SignedDigit.sign
      split
      · rwa [neg_one_zsmul]
      · rwa [one_zsmul]
    have step := reading.timesPowTwo digit.zeros (reading.twicePlus ih standsDigit)
    have regroup : (2 ^ digit.zeros * (digit.sign + 2 * NonAdjacentForm.value higher)) • a =
        2 ^ digit.zeros • (NonAdjacentForm.value higher • a + NonAdjacentForm.value higher • a +
          digit.sign • a) := by
      rw [← natCast_zsmul, Nat.cast_pow, Nat.cast_ofNat, ← add_zsmul, ← add_zsmul, ← mul_zsmul']
      congr 1
      ring
    rw [regroup]
    exact step

theorem timesByNonAdjacentForm (standsP : reading.stands P a) (k : Nat) :
    reading.stands (P.timesByNonAdjacentForm k) (k • a) := by
  have standsPlus := reading.normalize standsP
  have run := reading.foldl_nonAdjacentForm standsPlus (reading.negate standsPlus)
    (NonAdjacentForm.ofNat k)
  rwa [NonAdjacentForm.value_ofNat, natCast_zsmul] at run

/-- The second point of the ladder is always one `P` ahead of the first. -/
theorem foldl_ladderStep (bits : List Bool) : ∀ (pair : Point × Point) (value : Nat),
    reading.stands pair.1 (value • a) → reading.stands pair.2 ((value + 1) • a) →
      reading.stands (bits.foldl Point.ladderStep pair).1
        (bits.foldl (fun value bit => 2 * value + bit.toNat) value • a) := by
  induction bits with
  | nil => intro pair value behind _; exact behind
  | cons bit rest ih =>
    intro pair value behind ahead
    rw [List.foldl_cons, List.foldl_cons]
    have sum := reading.add behind ahead
    have sum' := reading.add ahead behind
    have behindTwice := reading.twice behind
    have aheadTwice := reading.twice ahead
    rw [← add_nsmul] at sum sum' behindTwice aheadTwice
    cases bit with
    | false =>
      have even : value + value = 2 * value + false.toNat := (Nat.two_mul value).symm
      have odd : value + 1 + value = 2 * value + false.toNat + 1 := by
        rw [Bool.toNat_false]
        omega
      rw [even] at behindTwice
      rw [odd] at sum'
      exact ih (Point.ladderStep pair false) _ behindTwice sum'
    | true =>
      have odd : value + (value + 1) = 2 * value + true.toNat := by
        rw [Bool.toNat_true]
        omega
      have even : value + 1 + (value + 1) = 2 * value + true.toNat + 1 := by
        rw [Bool.toNat_true]
        omega
      rw [odd] at sum
      rw [even] at aheadTwice
      exact ih (Point.ladderStep pair true) _ sum aheadTwice

theorem timesByLadder (standsP : reading.stands P a) (k : Nat) :
    reading.stands (P.timesByLadder k) (k • a) := by
  have run := reading.foldl_ladderStep (Binary.msbFirst k) (Point.infinity, P) 0
    (by rw [zero_nsmul a]; exact reading.infinity) (by rwa [zero_add, one_nsmul])
  rwa [Binary.foldl_msbFirst] at run

/-- The triple is always an odd multiple: a digit leads from `2 * value + 1` to the odd number on
either side of its double. -/
theorem foldl_signedDigits {plus minus : Point} (standsPlus : reading.stands plus a)
    (standsMinus : reading.stands minus (-a)) (bits : List Bool) : ∀ (R : Point) (value : Nat),
    reading.stands R ((2 * value + 1) • a) →
      reading.stands (bits.foldl (fun R bit => R.twicePlus (if bit then plus else minus)) R)
        ((2 * bits.foldl (fun value bit => 2 * value + bit.toNat) value + 1) • a) := by
  induction bits with
  | nil => intro R value standsR; exact standsR
  | cons bit rest ih =>
    intro R value standsR
    rw [List.foldl_cons, List.foldl_cons]
    apply ih
    cases bit with
    | false =>
      have below : (2 * (2 * value + false.toNat) + 1) • a =
          (2 * value + 1) • a + (2 * value + 1) • a + -a := by
        rw [Bool.toNat_false]
        module
      rw [below]
      exact reading.twicePlus standsR standsMinus
    | true =>
      have above : (2 * (2 * value + true.toNat) + 1) • a =
          (2 * value + 1) • a + (2 * value + 1) • a + a := by
        rw [Bool.toNat_true]
        module
      rw [above]
      exact reading.twicePlus standsR standsPlus

theorem timesBySignedDigits (standsP : reading.stands P a) {k : Nat} (positive : k ≠ 0) :
    reading.stands (P.timesBySignedDigits k) (k • a) := by
  have standsPlus := reading.normalize standsP
  have run := reading.foldl_signedDigits standsPlus (reading.negate standsPlus)
    (Binary.msbFirst (k >>> (Binary.trailingZeros k + 1))) P.normalize 0
    (by rwa [mul_zero, zero_add, one_nsmul])
  rw [Binary.foldl_msbFirst, ← Binary.shiftRight_trailingZeros positive] at run
  have shifted := reading.timesPowTwo (Binary.trailingZeros k) run
  rwa [← mul_nsmul', Binary.two_pow_trailingZeros_mul] at shifted

theorem multiply (standsP : reading.stands P a) (multiplier : Multiplier) (k : Nat) :
    reading.stands (multiplier.multiply P k) (k • a) := by
  unfold Multiplier.multiply
  split
  · rename_i trivial
    have null : k • a = 0 := by
      rcases trivial with null | infinite
      · rw [null, zero_nsmul]
      · rw [(reading.isInfinity_iff standsP).mp infinite, nsmul_zero]
    rw [null]
    exact reading.infinity
  · rename_i proper
    have positive : k ≠ 0 := fun null => proper (Or.inl null)
    cases multiplier with
    | doubleAndAdd => exact reading.timesByDoubleAndAdd standsP k
    | nonAdjacentForm => exact reading.timesByNonAdjacentForm standsP k
    | ladder => exact reading.timesByLadder standsP k
    | signedDigits => exact reading.timesBySignedDigits standsP positive

/-! ## Two multiples at once -/

theorem foldl_bitPairs {both : Point} (standsP : reading.stands P a) (standsQ : reading.stands Q c)
    (standsBoth : reading.stands both (a + c)) (pairs : List (Bool × Bool)) :
    ∀ (R : Point) (j k : Nat), reading.stands R (j • a + k • c) →
      reading.stands
        (pairs.foldl
          (fun R bits =>
            match bits with
            | (true, true) => R.twice.add both
            | (true, false) => R.twice.add P
            | (false, true) => R.twice.add Q
            | (false, false) => R.twice) R)
        ((pairs.map Prod.fst).foldl (fun value bit => 2 * value + bit.toNat) j • a +
          (pairs.map Prod.snd).foldl (fun value bit => 2 * value + bit.toNat) k • c) := by
  induction pairs with
  | nil => intro R j k standsR; exact standsR
  | cons bits rest ih =>
    intro R j k standsR
    rw [List.foldl_cons, List.map_cons, List.map_cons, List.foldl_cons, List.foldl_cons]
    apply ih
    have doubled := reading.twice standsR
    have regroup : (2 * j + bits.1.toNat) • a + (2 * k + bits.2.toNat) • c =
        j • a + k • c + (j • a + k • c) + (bits.1.toNat • a + bits.2.toNat • c) := by module
    rw [regroup]
    rcases bits with ⟨_ | _, _ | _⟩
    · simpa using doubled
    · simpa using reading.add doubled standsQ
    · simpa using reading.add doubled standsP
    · simpa using reading.add doubled standsBoth

theorem sumOfMultiples (standsP : reading.stands P a) (standsQ : reading.stands Q c) (j k : Nat) :
    reading.stands (P.sumOfMultiples j Q k) (j • a + k • c) := by
  have standsP' := reading.normalize standsP
  have standsQ' := reading.normalize standsQ
  have run := reading.foldl_bitPairs standsP' standsQ'
    (reading.normalize (reading.add standsP' standsQ')) (Binary.pairsMsbFirst j k) Point.infinity
    0 0 (by rw [zero_nsmul, zero_nsmul, add_zero]; exact reading.infinity)
  have first := Binary.ofMsbFirst_fst_pairsMsbFirst j k
  have second := Binary.ofMsbFirst_snd_pairsMsbFirst j k
  rw [Binary.ofMsbFirst] at first second
  rwa [first, second] at run

end Reading

/-! ## The choice of the multiplier -/

namespace Point

open Curve

/-- The constant of the curve without a linear term that a finite triple lies on. -/
def constant (P : Point) : FieldElement :=
  P.normalize.y ^ 2 - P.normalize.x ^ 3

theorem liesOn_constant {P : Point} (proper : ¬ P.IsOrigin) : P.LiesOn P.constant := by
  by_cases denominator : P.z = 0
  · exact Or.inl denominator
  · refine Or.inr ⟨?_, fun origin => proper ⟨denominator, origin⟩⟩
    rw [constant, normalize_x denominator, normalize_y denominator]
    field_simp
    ring

/-- Equal affine coordinates are all that comparison and encoding look at. -/
theorem indistinguishable_of_toAffine_eq {P Q : Point} (affine : P.toAffine = Q.toAffine) :
    P.sameAs Q = true ∧ P.encodeCompressed = Q.encodeCompressed ∧
      P.encodeUncompressed = Q.encodeUncompressed := by
  refine ⟨(sameAs_iff P Q).mpr affine, ?_, ?_⟩
  · rw [encodeCompressed, affine]
    rfl
  · rw [encodeUncompressed, affine]
    rfl

/-- All multipliers give the same point, and it is the multiple in the group of the curve through
the operand.  The singular point, which lies in no such group, has order two. -/
theorem multipliers_interchangeable (P : Point) (k : Nat) :
    (∀ first second : Multiplier,
      (first.multiply P k).sameAs (second.multiply P k) = true ∧
      (first.multiply P k).encodeCompressed = (second.multiply P k).encodeCompressed ∧
      (first.multiply P k).encodeUncompressed = (second.multiply P k).encodeUncompressed) ∧
    (¬ P.IsOrigin → ∃ A : Group P.constant, Represents P.constant P A ∧
      ∀ multiplier : Multiplier, Represents P.constant (multiplier.multiply P k) (k • A)) ∧
    (P.IsOrigin → ∀ multiplier : Multiplier,
      if Even k then (multiplier.multiply P k).isInfinity = true
      else (multiplier.multiply P k).sameAs P = true) := by
  by_cases isOrigin : P.IsOrigin
  · have reads : originReading.stands P 1 := .origin isOrigin
    have multiples := originReading.multiply reads
    refine ⟨fun first second => indistinguishable_of_toAffine_eq
        (originReading.toAffine (multiples first k) (multiples second k)),
      fun proper => absurd isOrigin proper, fun _ multiplier => ?_⟩
    have multiple := multiples multiplier k
    rw [nsmul_one] at multiple
    split
    · rename_i even
      exact (originReading.isInfinity_iff multiple).mpr ((ZMod.natCast_eq_zero_iff_even).mpr even)
    · rename_i odd
      rw [(ZMod.natCast_eq_one_iff_odd).mpr (Nat.not_even_iff_odd.mp odd)] at multiple
      exact (sameAs_iff _ _).mpr (originReading.toAffine multiple reads)
  · obtain ⟨A, standsP⟩ := (liesOn_constant isOrigin).represents
    have multiples := (reading P.constant).multiply standsP
    exact ⟨fun first second => indistinguishable_of_toAffine_eq
        ((reading P.constant).toAffine (multiples first k) (multiples second k)),
      fun _ => ⟨A, standsP, fun multiplier => multiples multiplier k⟩,
      fun origin => absurd origin isOrigin⟩

/-! ## The sum of two multiples -/

/-- Sharing the doublings makes no difference to the point: on every curve without a linear term, for
all triples on it and scalars of all sizes, the result is the sum of the two multiples.  The operands
may be equal, opposite or infinite or have small orders. -/
theorem shared_doublings_give_sum_of_multiples (b : FieldElement) (P Q : Point) (onP : P.LiesOn b)
    (onQ : Q.LiesOn b) (j k : Nat) :
    (∃ A B : Group b, Represents b P A ∧ Represents b Q B ∧
      Realizes b (P.sumOfMultiples j Q k) (j • A + k • B)) ∧
    (P.sumOfMultiples j Q k).sameAs
      ((Multiplier.doubleAndAdd.multiply P j).add (Multiplier.doubleAndAdd.multiply Q k)) =
        true := by
  obtain ⟨A, standsP⟩ := onP.represents
  obtain ⟨B, standsQ⟩ := onQ.represents
  have shared : Represents b (P.sumOfMultiples j Q k) (j • A + k • B) :=
    (reading b).sumOfMultiples standsP standsQ j k
  have first := (reading b).multiply standsP .doubleAndAdd j
  have second := (reading b).multiply standsQ .doubleAndAdd k
  exact ⟨⟨A, B, standsP, standsQ, shared.realizes⟩,
    (sameAs_iff_of_represents shared ((reading b).add first second)).mpr rfl⟩

/-- On `y ^ 2 = x ^ 3 + 1`, the point `(2, 3)` of order six and its opposite over the denominator
two, with scalars of three and five bits: the sum of the operands and that of the multiples are
infinite. -/
theorem sum_of_opposite_multiples :
    (ofAffine 2 3).LiesOn 1 ∧ (⟨8, -24, 2⟩ : Point).LiesOn 1 ∧
      ((ofAffine 2 3).add ⟨8, -24, 2⟩).isInfinity = true ∧
      ((ofAffine 2 3).sumOfMultiples 5 ⟨8, -24, 2⟩ 17).isInfinity = true ∧
      (∃ A B : Group 1, Represents 1 (ofAffine 2 3) A ∧ Represents 1 ⟨8, -24, 2⟩ B ∧
        Realizes 1 ((ofAffine 2 3).sumOfMultiples 5 ⟨8, -24, 2⟩ 17) (5 • A + 17 • B)) ∧
      ((ofAffine 2 3).sumOfMultiples 5 ⟨8, -24, 2⟩ 17).sameAs
        ((Multiplier.doubleAndAdd.multiply (ofAffine 2 3) 5).add
          (Multiplier.doubleAndAdd.multiply ⟨8, -24, 2⟩ 17)) = true := by
  have onP : (ofAffine 2 3).LiesOn 1 := Or.inr (by decide)
  have onQ : (⟨8, -24, 2⟩ : Point).LiesOn 1 := Or.inr (by decide)
  obtain ⟨realized, same⟩ := shared_doublings_give_sum_of_multiples 1 _ _ onP onQ 5 17
  exact ⟨onP, onQ, by decide +kernel, by decide +kernel, realized, same⟩

end Point
end Secp256k1
