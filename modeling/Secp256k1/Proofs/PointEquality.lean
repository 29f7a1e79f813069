import Mathlib
import Secp256k1.Proofs.PointEncodings

/-!
# Equality of points

Two triples stand for one point exactly when both are infinite or one of them is the other over a
multiplied denominator.  The formulas of the group law are homogeneous in that factor, whether or
not their operands lie on a curve, so each operation sends equal operands to equal results.  The
loops of the multipliers inherit this from their steps.
-/

set_option autoImplicit false

namespace Secp256k1
namespace Point

variable {P P' Q Q' : Point} {c d : FieldElement}

/-! ## Multiplied denominators -/

/-- The same point over a denominator that is `c` times as large. -/
def rescale (P : Point) (c : FieldElement) : Point :=
  ⟨P.x * c ^ 2, P.y * c ^ 3, P.z * c⟩

theorem toAffine_of_infinite (infinite : P.z = 0) : P.toAffine = none := by
  rw [toAffine_eq, if_pos infinite]

theorem toAffine_of_finite (finite : P.z ≠ 0) :
    P.toAffine = some (P.x / P.z ^ 2, P.y / P.z ^ 3) := by
  rw [toAffine_eq, if_neg finite]

theorem isInfinity_eq_isNone (P : Point) : P.isInfinity = P.toAffine.isNone := by
  rw [Point.toAffine]
  cases infinite : P.isInfinity with
  | true => rfl
  | false => rfl

theorem isInfinity_congr (same : P.toAffine = P'.toAffine) : P.isInfinity = P'.isInfinity := by
  rw [isInfinity_eq_isNone, same, ← isInfinity_eq_isNone]

theorem z_eq_zero_iff_of_toAffine_eq (same : P.toAffine = P'.toAffine) : P.z = 0 ↔ P'.z = 0 := by
  rw [← Point.isInfinity_iff, ← Point.isInfinity_iff, isInfinity_congr same]

theorem toAffine_rescale (P : Point) (nonzero : c ≠ 0) : (P.rescale c).toAffine = P.toAffine := by
  by_cases infinite : P.z = 0
  · have infinite' : (P.rescale c).z = 0 := by simp [rescale, infinite]
    rw [toAffine_of_infinite infinite, toAffine_of_infinite infinite']
  · have finite' : (P.rescale c).z ≠ 0 := mul_ne_zero infinite nonzero
    rw [toAffine_of_finite infinite, toAffine_of_finite finite', Option.some.injEq, Prod.mk.injEq]
    simp only [rescale]
    constructor
    · field_simp
    · field_simp

theorem exists_rescale (finite : P.z ≠ 0) (same : P.toAffine = P'.toAffine) :
    ∃ c, c ≠ 0 ∧ P' = P.rescale c := by
  have finite' : P'.z ≠ 0 := fun infinite =>
    finite ((z_eq_zero_iff_of_toAffine_eq same).mpr infinite)
  rw [toAffine_of_finite finite, toAffine_of_finite finite', Option.some.injEq,
    Prod.mk.injEq] at same
  obtain ⟨abscissa, ordinate⟩ := same
  refine ⟨P'.z / P.z, div_ne_zero finite' finite, ?_⟩
  have x : P'.x = P.x * (P'.z / P.z) ^ 2 := by
    field_simp at abscissa ⊢
    linear_combination -abscissa
  have y : P'.y = P.y * (P'.z / P.z) ^ 3 := by
    field_simp at ordinate ⊢
    linear_combination -ordinate
  have z : P'.z = P.z * (P'.z / P.z) := by field_simp
  rw [rescale, ← x, ← y, ← z]

/-! ## Homogeneous formulas -/

theorem twice_of_trivial (trivial : P.z = 0 ∨ P.y = 0) : P.twice = infinity := by
  simp only [twice, Point.isInfinity_iff, FieldElement.isZero_iff]
  rcases trivial with infinite | flat
  · rw [if_pos infinite]
  · rw [if_pos flat, ite_self]

theorem twice_rescale (proper : ¬ (P.z = 0 ∨ P.y = 0)) (nonzero : c ≠ 0) :
    (P.rescale c).twice = P.twice.rescale (c ^ 4) := by
  obtain ⟨finite, upright⟩ := not_or.mp proper
  have finite' : ¬ (P.rescale c).z = 0 := mul_ne_zero finite nonzero
  have upright' : ¬ (P.rescale c).y = 0 := mul_ne_zero upright (pow_ne_zero 3 nonzero)
  simp only [twice, Point.isInfinity_iff, FieldElement.isZero_iff, if_neg finite, if_neg upright,
    if_neg finite', if_neg upright']
  simp only [rescale, FieldElement.square_eq, FieldElement.scale_eq, Nat.cast_ofNat, mk.injEq]
  refine ⟨?_, ?_, ?_⟩
  · ring
  · ring
  · ring

theorem chord_rescale (u s z h r k : FieldElement) :
    chord (u * k ^ 2) (s * k ^ 3) (z * k) (h * k ^ 2) (r * k ^ 3) =
      (chord u s z h r).rescale (k ^ 3) := by
  simp only [chord, rescale, FieldElement.square_eq, FieldElement.scale_eq, Nat.cast_ofNat,
    mk.injEq]
  refine ⟨?_, ?_, ?_⟩
  · ring
  · ring
  · ring

theorem toAffine_twice_congr (same : P.toAffine = P'.toAffine) :
    P.twice.toAffine = P'.twice.toAffine := by
  by_cases infinite : P.z = 0
  · have infinite' := (z_eq_zero_iff_of_toAffine_eq same).mp infinite
    rw [twice_of_trivial (Or.inl infinite), twice_of_trivial (Or.inl infinite')]
  · obtain ⟨c, nonzero, rfl⟩ := exists_rescale infinite same
    by_cases flat : P.y = 0
    · have flat' : (P.rescale c).y = 0 := by simp [rescale, flat]
      rw [twice_of_trivial (Or.inr flat), twice_of_trivial (Or.inr flat')]
    · rw [twice_rescale (not_or.mpr ⟨infinite, flat⟩) nonzero,
        toAffine_rescale _ (pow_ne_zero 4 nonzero)]

/-- The sum of two finite points, with the differences of their coordinates over the common
denominator. -/
theorem add_of_finite (finiteP : P.z ≠ 0) (finiteQ : Q.z ≠ 0) :
    P.add Q =
      if Q.x * P.z ^ 2 - P.x * Q.z ^ 2 = 0 then
        if Q.y * P.z ^ 3 - P.y * Q.z ^ 3 = 0 then P.twice else infinity
      else
        chord (P.x * Q.z ^ 2) (P.y * Q.z ^ 3) (P.z * Q.z) (Q.x * P.z ^ 2 - P.x * Q.z ^ 2)
          (Q.y * P.z ^ 3 - P.y * Q.z ^ 3) := by
  simp only [add, Point.isInfinity_iff, FieldElement.isZero_iff, if_neg finiteP, if_neg finiteQ,
    scaledBy_eq]

theorem toAffine_add_rescale (finiteP : P.z ≠ 0) (finiteQ : Q.z ≠ 0) (nonzeroC : c ≠ 0)
    (nonzeroD : d ≠ 0) :
    ((P.rescale c).add (Q.rescale d)).toAffine = (P.add Q).toAffine := by
  have nonzero : c * d ≠ 0 := mul_ne_zero nonzeroC nonzeroD
  have u : (P.rescale c).x * (Q.rescale d).z ^ 2 = P.x * Q.z ^ 2 * (c * d) ^ 2 := by
    simp only [rescale]
    ring
  have s : (P.rescale c).y * (Q.rescale d).z ^ 3 = P.y * Q.z ^ 3 * (c * d) ^ 3 := by
    simp only [rescale]
    ring
  have z : (P.rescale c).z * (Q.rescale d).z = P.z * Q.z * (c * d) := by
    simp only [rescale]
    ring
  have h : (Q.rescale d).x * (P.rescale c).z ^ 2 - P.x * Q.z ^ 2 * (c * d) ^ 2 =
      (Q.x * P.z ^ 2 - P.x * Q.z ^ 2) * (c * d) ^ 2 := by
    simp only [rescale]
    ring
  have r : (Q.rescale d).y * (P.rescale c).z ^ 3 - P.y * Q.z ^ 3 * (c * d) ^ 3 =
      (Q.y * P.z ^ 3 - P.y * Q.z ^ 3) * (c * d) ^ 3 := by
    simp only [rescale]
    ring
  rw [add_of_finite finiteP finiteQ, add_of_finite (mul_ne_zero finiteP nonzeroC)
    (mul_ne_zero finiteQ nonzeroD), u, s, z, h, r, chord_rescale]
  simp only [mul_eq_zero_iff_right (pow_ne_zero 2 nonzero),
    mul_eq_zero_iff_right (pow_ne_zero 3 nonzero)]
  split
  · split
    · exact toAffine_twice_congr (toAffine_rescale P nonzeroC)
    · rfl
  · exact toAffine_rescale _ (pow_ne_zero 3 nonzero)

theorem toAffine_add_congr (sameP : P.toAffine = P'.toAffine) (sameQ : Q.toAffine = Q'.toAffine) :
    (P.add Q).toAffine = (P'.add Q').toAffine := by
  by_cases infiniteP : P.z = 0
  · have infiniteP' := (z_eq_zero_iff_of_toAffine_eq sameP).mp infiniteP
    rw [add, add, if_pos ((Point.isInfinity_iff P).mpr infiniteP),
      if_pos ((Point.isInfinity_iff P').mpr infiniteP')]
    exact sameQ
  · obtain ⟨c, nonzeroC, rfl⟩ := exists_rescale infiniteP sameP
    have infiniteP' := mt (z_eq_zero_iff_of_toAffine_eq sameP).mpr infiniteP
    by_cases infiniteQ : Q.z = 0
    · have infiniteQ' := (z_eq_zero_iff_of_toAffine_eq sameQ).mp infiniteQ
      simp only [add, Point.isInfinity_iff, if_neg infiniteP, if_neg infiniteP', if_pos infiniteQ,
        if_pos infiniteQ']
      exact sameP
    · obtain ⟨d, nonzeroD, rfl⟩ := exists_rescale infiniteQ sameQ
      exact (toAffine_add_rescale infiniteP infiniteQ nonzeroC nonzeroD).symm

/-! ## Composed operations -/

theorem toAffine_negate (P : Point) :
    P.negate.toAffine = P.toAffine.map fun affine => (affine.1, -affine.2) := by
  by_cases infinite : P.z = 0
  · rw [toAffine_of_infinite infinite, toAffine_of_infinite (P := P.negate) infinite]
    rfl
  · rw [toAffine_of_finite infinite, toAffine_of_finite (P := P.negate) infinite, Option.map_some]
    simp only [negate, neg_div]

theorem toAffine_negate_congr (same : P.toAffine = P'.toAffine) :
    P.negate.toAffine = P'.negate.toAffine := by
  rw [toAffine_negate, toAffine_negate, same]

theorem toAffine_subtract_congr (sameP : P.toAffine = P'.toAffine)
    (sameQ : Q.toAffine = Q'.toAffine) :
    (P.subtract Q).toAffine = (P'.subtract Q').toAffine :=
  toAffine_add_congr sameP (toAffine_negate_congr sameQ)

/-- The cases that `twicePlus` treats first give what doubling and adding would give. -/
theorem toAffine_twicePlus (P Q : Point) : (P.twicePlus Q).toAffine = (P.twice.add Q).toAffine := by
  have sumOfInfinity : infinity.add Q = Q := if_pos rfl
  simp only [twicePlus, Point.isInfinity_iff, FieldElement.isZero_iff]
  split
  · rename_i infinite
    rw [twice_of_trivial (Or.inl infinite), sumOfInfinity]
  · split
    · rename_i infinite
      rw [add]
      split
      · rename_i doubleInfinite
        rw [toAffine_of_infinite infinite,
          toAffine_of_infinite ((Point.isInfinity_iff _).mp doubleInfinite)]
      · rw [if_pos ((Point.isInfinity_iff Q).mpr infinite)]
    · split
      · rename_i flat
        rw [twice_of_trivial (Or.inr flat), sumOfInfinity]
      · rfl

theorem toAffine_twicePlus_congr (sameP : P.toAffine = P'.toAffine)
    (sameQ : Q.toAffine = Q'.toAffine) :
    (P.twicePlus Q).toAffine = (P'.twicePlus Q').toAffine := by
  rw [toAffine_twicePlus, toAffine_twicePlus]
  exact toAffine_add_congr (toAffine_twice_congr sameP) sameQ

theorem toAffine_timesPowTwo_congr (e : Nat) : ∀ {P P' : Point}, P.toAffine = P'.toAffine →
    (P.timesPowTwo e).toAffine = (P'.timesPowTwo e).toAffine := by
  induction e with
  | zero =>
    intro P P' same
    exact same
  | succ e ih =>
    intro P P' same
    rw [timesPowTwo, timesPowTwo, isInfinity_congr same]
    split
    · exact same
    · exact ih (toAffine_twice_congr same)

/-- Affine triples of one point are one triple. -/
theorem eq_of_sameAs (affineP : P.z = 1) (affineQ : Q.z = 1) (same : P.sameAs Q = true) :
    P = Q := by
  rw [Point.sameAs_iff, Point.toAffine_eq, Point.toAffine_eq, affineP, affineQ] at same
  cases P
  cases Q
  simp_all

theorem normalize_congr (same : P.toAffine = P'.toAffine) : P.normalize = P'.normalize := by
  by_cases infinite : P.z = 0
  · have infinite' := (z_eq_zero_iff_of_toAffine_eq same).mp infinite
    rw [normalize, normalize, if_pos ((Point.isInfinity_iff P).mpr infinite),
      if_pos ((Point.isInfinity_iff P').mpr infinite')]
  · have finite' := mt (z_eq_zero_iff_of_toAffine_eq same).mpr infinite
    apply eq_of_sameAs (normalize_z infinite) (normalize_z finite')
    rw [sameAs_iff, toAffine_normalize, toAffine_normalize, same]

theorem liesOn_congr {b : FieldElement} (same : P.toAffine = P'.toAffine) (onCurve : P.LiesOn b) :
    P'.LiesOn b := by
  by_cases infinite : P.z = 0
  · exact Or.inl ((z_eq_zero_iff_of_toAffine_eq same).mp infinite)
  · obtain ⟨c, nonzero, rfl⟩ := exists_rescale infinite same
    obtain ⟨equation, regular⟩ := onCurve.resolve_left infinite
    refine Or.inr ⟨?_, fun origin => regular ?_⟩
    · simp only [rescale]
      linear_combination c ^ 6 * equation
    · simpa [rescale, nonzero] using origin

theorem isOnCurve_congr (same : P.toAffine = P'.toAffine) : P.isOnCurve = P'.isOnCurve := by
  rw [Bool.eq_iff_iff, isOnCurve_iff, isOnCurve_iff]
  exact ⟨liesOn_congr same, liesOn_congr same.symm⟩

/-! ## Multipliers -/

theorem toAffine_timesByDoubleAndAdd_congr (same : P.toAffine = P'.toAffine) (k : Nat) :
    (P.timesByDoubleAndAdd k).toAffine = (P'.timesByDoubleAndAdd k).toAffine := by
  apply List.foldl_rel (r := fun R R' : Point => R.toAffine = R'.toAffine) rfl
  intro bit _ R R' sameR
  cases bit with
  | false => exact toAffine_twice_congr sameR
  | true => exact toAffine_add_congr (toAffine_twice_congr sameR) same

theorem ladderStep_congr {pair pair' : Point × Point} (behind : pair.1.toAffine = pair'.1.toAffine)
    (ahead : pair.2.toAffine = pair'.2.toAffine) (bit : Bool) :
    (ladderStep pair bit).1.toAffine = (ladderStep pair' bit).1.toAffine ∧
      (ladderStep pair bit).2.toAffine = (ladderStep pair' bit).2.toAffine := by
  cases bit with
  | false => exact ⟨toAffine_twice_congr behind, toAffine_add_congr ahead behind⟩
  | true => exact ⟨toAffine_add_congr behind ahead, toAffine_twice_congr ahead⟩

theorem foldl_ladderStep_congr (bits : List Bool) : ∀ {pair pair' : Point × Point},
    pair.1.toAffine = pair'.1.toAffine → pair.2.toAffine = pair'.2.toAffine →
      (bits.foldl ladderStep pair).1.toAffine = (bits.foldl ladderStep pair').1.toAffine := by
  induction bits with
  | nil =>
    intro pair pair' behind _
    exact behind
  | cons bit rest ih =>
    intro pair pair' behind ahead
    obtain ⟨behind', ahead'⟩ := ladderStep_congr behind ahead bit
    exact ih behind' ahead'

theorem toAffine_multiply_congr (same : P.toAffine = P'.toAffine) (multiplier : Multiplier)
    (k : Nat) : (multiplier.multiply P k).toAffine = (multiplier.multiply P' k).toAffine := by
  simp only [Multiplier.multiply, isInfinity_congr same]
  split
  · rfl
  · cases multiplier with
    | doubleAndAdd => exact toAffine_timesByDoubleAndAdd_congr same k
    | ladder => exact foldl_ladderStep_congr (Binary.msbFirst k) rfl same
    -- The other two look at nothing but the affine triple of their operand.
    | nonAdjacentForm => simp only [timesByNonAdjacentForm, normalize_congr same]
    | signedDigits => simp only [timesBySignedDigits, normalize_congr same]

theorem sumOfMultiples_congr (sameP : P.toAffine = P'.toAffine) (sameQ : Q.toAffine = Q'.toAffine)
    (j k : Nat) : P.sumOfMultiples j Q k = P'.sumOfMultiples j Q' k := by
  rw [sumOfMultiples, sumOfMultiples, normalize_congr sameP, normalize_congr sameQ]

/-! ## What encodings tell -/

theorem encodeUncompressed_eq_iff :
    P.encodeUncompressed = Q.encodeUncompressed ↔ P.toAffine = Q.toAffine := by
  constructor
  · intro same
    cases affineP : P.toAffine with
    | none =>
      cases affineQ : Q.toAffine with
      | none => rfl
      | some affine =>
        simp only [encodeUncompressed, affineP, affineQ, List.replicate] at same
        exact absurd (List.cons.inj same).1 (by decide)
    | some affine =>
      cases affineQ : Q.toAffine with
      | none =>
        simp only [encodeUncompressed, affineP, affineQ, List.replicate] at same
        exact absurd (List.cons.inj same).1 (by decide)
      | some affine' =>
        simp only [encodeUncompressed, affineP, affineQ] at same
        obtain ⟨abscissa, ordinate⟩ := List.append_inj (List.cons.inj same).2 (by simp)
        rw [Option.some.injEq, Prod.ext_iff]
        exact ⟨FieldElement.encode_injective abscissa, FieldElement.encode_injective ordinate⟩
  · intro same
    exact (indistinguishable_of_toAffine_eq same).2.2

/-- On the curve the parity stands for the ordinate: each encoding decodes to the affine triple, and
the zeros that are written for infinity do not decode. -/
theorem encodeCompressed_eq_iff (onP : P.isOnCurve = true) (onQ : Q.isOnCurve = true) :
    P.encodeCompressed = Q.encodeCompressed ↔ P.toAffine = Q.toAffine := by
  constructor
  · intro same
    have normal : P.normalize = Q.normalize := by
      by_cases infiniteP : P.isInfinity = true
      · by_cases infiniteQ : Q.isInfinity = true
        · rw [normalize, normalize, if_pos infiniteP, if_pos infiniteQ]
        · have decoded := (decode_encode_of_finite onQ infiniteQ).1
          rw [← same, (encodings_of_isInfinity infiniteP).1] at decoded
          cases decoded
      · have decodedP := (decode_encode_of_finite onP infiniteP).1
        by_cases infiniteQ : Q.isInfinity = true
        · rw [same, (encodings_of_isInfinity infiniteQ).1] at decodedP
          cases decodedP
        · have decodedQ := (decode_encode_of_finite onQ infiniteQ).1
          rw [same, decodedQ] at decodedP
          exact (Except.ok.inj decodedP).symm
    rw [← toAffine_normalize P, normal, toAffine_normalize]
  · intro same
    exact (indistinguishable_of_toAffine_eq same).2.1

/-! ## Equality -/

theorem equivalence_sameAs : Equivalence fun P Q : Point => P.sameAs Q = true where
  refl P := (sameAs_iff P P).mpr rfl
  symm {P Q} same := (sameAs_iff Q P).mpr ((sameAs_iff P Q).mp same).symm
  trans {P Q R} first second :=
    (sameAs_iff P R).mpr (((sameAs_iff P Q).mp first).trans ((sameAs_iff Q R).mp second))

/-- The affine coordinates by the definition of Jacobian coordinates. -/
theorem toAffine_eq_iff_quotients : P.toAffine = Q.toAffine ↔
    P.z = 0 ∧ Q.z = 0 ∨
      P.z ≠ 0 ∧ Q.z ≠ 0 ∧ P.x / P.z ^ 2 = Q.x / Q.z ^ 2 ∧ P.y / P.z ^ 3 = Q.y / Q.z ^ 3 := by
  by_cases infiniteP : P.z = 0
  · by_cases infiniteQ : Q.z = 0
    · simp [toAffine_of_infinite, infiniteP, infiniteQ]
    · simp [toAffine_of_infinite, toAffine_of_finite, infiniteP, infiniteQ]
  · by_cases infiniteQ : Q.z = 0
    · simp [toAffine_of_infinite, toAffine_of_finite, infiniteP, infiniteQ]
    · simp [toAffine_of_finite, infiniteP, infiniteQ]

theorem toAffine_eq_iff_coordinates :
    P.toAffine = Q.toAffine ↔ P.affineX = Q.affineX ∧ P.affineY = Q.affineY := by
  rw [affineX, affineX, affineY, affineY]
  cases P.toAffine with
  | none => cases Q.toAffine with
    | none => simp
    | some affine => simp
  | some affine => cases Q.toAffine with
    | none => simp
    | some affine' => simp [Prod.ext_iff]

/-- The operations on two pairs of triples have equal results. -/
structure SameResults (P Q P' Q' : Point) : Prop where
  add : (P.add Q).sameAs (P'.add Q') = true
  subtract : (P.subtract Q).sameAs (P'.subtract Q') = true
  twice : P.twice.sameAs P'.twice = true
  twicePlus : (P.twicePlus Q).sameAs (P'.twicePlus Q') = true
  threeTimes : P.threeTimes.sameAs P'.threeTimes = true
  negate : P.negate.sameAs P'.negate = true
  timesPowTwo : ∀ e, (P.timesPowTwo e).sameAs (P'.timesPowTwo e) = true
  normalize : P.normalize.sameAs P'.normalize = true
  multiply : ∀ (multiplier : Multiplier) (k : Nat),
    (multiplier.multiply P k).sameAs (multiplier.multiply P' k) = true
  sumOfMultiples : ∀ j k, (P.sumOfMultiples j Q k).sameAs (P'.sumOfMultiples j Q' k) = true
  isOnCurve : P.isOnCurve = P'.isOnCurve

/-- Equality of triples is equality of points: an equivalence that the affine coordinates and the
encodings decide, and that no operation breaks, on the curve or off it. -/
theorem equality_is_mathematical :
    (Equivalence fun P Q : Point => P.sameAs Q = true) ∧
    (∀ P Q : Point,
      (P.sameAs Q = true ↔
        P.z = 0 ∧ Q.z = 0 ∨
          P.z ≠ 0 ∧ Q.z ≠ 0 ∧ P.x / P.z ^ 2 = Q.x / Q.z ^ 2 ∧ P.y / P.z ^ 3 = Q.y / Q.z ^ 3) ∧
      (P.sameAs Q = true ↔ P.affineX = Q.affineX ∧ P.affineY = Q.affineY) ∧
      (P.sameAs Q = true ↔ P.encodeUncompressed = Q.encodeUncompressed) ∧
      (P.isOnCurve = true → Q.isOnCurve = true →
        (P.sameAs Q = true ↔ P.encodeCompressed = Q.encodeCompressed))) ∧
    ∀ P Q P' Q' : Point, P.sameAs P' = true → Q.sameAs Q' = true →
      SameResults P Q P' Q' := by
  refine ⟨equivalence_sameAs, fun P Q => ?_, fun P Q P' Q' equalP equalQ => ?_⟩
  · rw [sameAs_iff]
    refine ⟨toAffine_eq_iff_quotients, toAffine_eq_iff_coordinates, encodeUncompressed_eq_iff.symm,
      fun onP onQ => (encodeCompressed_eq_iff onP onQ).symm⟩
  · have sameP := (sameAs_iff P P').mp equalP
    have sameQ := (sameAs_iff Q Q').mp equalQ
    exact
      { add := (sameAs_iff _ _).mpr (toAffine_add_congr sameP sameQ)
        subtract := (sameAs_iff _ _).mpr (toAffine_subtract_congr sameP sameQ)
        twice := (sameAs_iff _ _).mpr (toAffine_twice_congr sameP)
        twicePlus := (sameAs_iff _ _).mpr (toAffine_twicePlus_congr sameP sameQ)
        threeTimes := (sameAs_iff _ _).mpr (toAffine_twicePlus_congr sameP sameP)
        negate := (sameAs_iff _ _).mpr (toAffine_negate_congr sameP)
        timesPowTwo := fun e => (sameAs_iff _ _).mpr (toAffine_timesPowTwo_congr e sameP)
        normalize := (sameAs_iff _ _).mpr (congrArg toAffine (normalize_congr sameP))
        multiply := fun multiplier k =>
          (sameAs_iff _ _).mpr (toAffine_multiply_congr sameP multiplier k)
        sumOfMultiples := fun j k =>
          (sameAs_iff _ _).mpr (congrArg toAffine (sumOfMultiples_congr sameP sameQ j k))
        isOnCurve := isOnCurve_congr sameP }

/-- Two triples of `(1, 1)`, which is not on the curve, and two triples of infinity; the generator
and its opposite, which the tags of their compressed encodings tell apart. -/
theorem equality_off_the_curve :
    (ofAffine 1 1).sameAs ⟨4, 8, 2⟩ = true ∧ (ofAffine 1 1).isOnCurve = false ∧
      (⟨5, 6, 0⟩ : Point).sameAs infinity = true ∧
      SameResults (ofAffine 1 1) ⟨5, 6, 0⟩ ⟨4, 8, 2⟩ infinity ∧
      generator.isOnCurve = true ∧ generator.negate.isOnCurve = true ∧
      generator.encodeCompressed ≠ generator.negate.encodeCompressed := by
  obtain ⟨_, decided, respected⟩ := equality_is_mathematical
  have sameOffCurve : (ofAffine 1 1).sameAs ⟨4, 8, 2⟩ = true := by decide
  have sameInfinity : (⟨5, 6, 0⟩ : Point).sameAs infinity = true := by decide
  have onCurve : generator.isOnCurve = true := by decide +kernel
  have onCurve' : generator.negate.isOnCurve = true := by decide +kernel
  obtain ⟨_, _, _, compressed⟩ := decided generator generator.negate
  refine ⟨sameOffCurve, by decide, sameInfinity, respected _ _ _ _ sameOffCurve sameInfinity,
    onCurve, onCurve', fun same => ?_⟩
  have opposite : generator.sameAs generator.negate = true :=
    (compressed onCurve onCurve').mpr same
  exact absurd opposite (by decide +kernel)

end Point
end Secp256k1
