import Mathlib
import Secp256k1.Multiplier
import Secp256k1.Proofs.GroupLaw

/-!
# Readings of triples

A reading says which element of a commutative group a triple stands for, in such a way that the
four basic operations compute in the group.  Everything that is composed of these operations then
computes in the group too, for every reading.  The regular points of a curve give a reading, and so
does the singular point `(0, 0)`, which the operations treat as an element of order two.
-/

set_option autoImplicit false

namespace Secp256k1

structure Reading (A : Type) [AddCommGroup A] where
  stands : Point → A → Prop
  infinity : stands Point.infinity 0
  isInfinity_iff {P : Point} {a : A} : stands P a → (P.isInfinity = true ↔ a = 0)
  negate {P : Point} {a : A} : stands P a → stands P.negate (-a)
  normalize {P : Point} {a : A} : stands P a → stands P.normalize a
  twice {P : Point} {a : A} : stands P a → stands P.twice (a + a)
  add {P Q : Point} {a c : A} : stands P a → stands Q c → stands (P.add Q) (a + c)
  /-- Triples of the same element have the same affine coordinates. -/
  toAffine {P Q : Point} {a : A} : stands P a → stands Q a → P.toAffine = Q.toAffine

namespace Reading

variable {A : Type} [AddCommGroup A] (reading : Reading A) {P Q : Point} {a c : A}

/-! ## Composed operations -/

theorem stands_of_isInfinity (standsP : reading.stands P a) (infinite : P.isInfinity = true) :
    reading.stands P 0 := by
  rwa [(reading.isInfinity_iff standsP).mp infinite] at standsP

theorem subtract (standsP : reading.stands P a) (standsQ : reading.stands Q c) :
    reading.stands (P.subtract Q) (a - c) := by
  rw [sub_eq_add_neg]
  exact reading.add standsP (reading.negate standsQ)

theorem twice_of_flat (standsP : reading.stands P a) (flat : P.y.isZero = true) : a + a = 0 := by
  have doubled := reading.twice standsP
  have infinite : P.twice.isInfinity = true := by
    rw [Point.twice, if_pos flat, ite_self]
    rfl
  exact (reading.isInfinity_iff doubled).mp infinite

theorem twicePlus (standsP : reading.stands P a) (standsQ : reading.stands Q c) :
    reading.stands (P.twicePlus Q) (a + a + c) := by
  unfold Point.twicePlus
  split
  · rename_i infinite
    rwa [(reading.isInfinity_iff standsP).mp infinite, add_zero, zero_add]
  · split
    · rename_i infinite
      rw [(reading.isInfinity_iff standsQ).mp infinite, add_zero]
      exact reading.twice standsP
    · split
      · rename_i flat
        rwa [reading.twice_of_flat standsP flat, zero_add]
      · exact reading.add (reading.twice standsP) standsQ

theorem threeTimes (standsP : reading.stands P a) : reading.stands P.threeTimes (3 • a) := by
  rw [show 3 • a = a + a + a by abel]
  exact reading.twicePlus standsP standsP

theorem timesPowTwo (e : Nat) : ∀ {P : Point} {a : A}, reading.stands P a →
    reading.stands (P.timesPowTwo e) (2 ^ e • a) := by
  induction e with
  | zero =>
    intro P a standsP
    rwa [pow_zero, one_nsmul]
  | succ e ih =>
    intro P a standsP
    rw [Point.timesPowTwo]
    split
    · rename_i infinite
      rw [(reading.isInfinity_iff standsP).mp infinite, nsmul_zero]
      exact reading.stands_of_isInfinity standsP infinite
    · rw [pow_succ, mul_nsmul', two_nsmul]
      exact ih (reading.twice standsP)

end Reading

/-! ## The two readings -/

namespace Point

open Curve

theorem normalize_x {P : Point} (denominator : P.z ≠ 0) : P.normalize.x = P.x / P.z ^ 2 := by
  rw [normalize, if_neg (by rwa [Point.isInfinity_iff])]
  split
  · rename_i unit
    rw [(FieldElement.isOne_iff P.z).mp unit, one_pow, div_one]
  · simp only [ofAffine, FieldElement.invert_eq, FieldElement.square_eq]
    field_simp

theorem normalize_y {P : Point} (denominator : P.z ≠ 0) : P.normalize.y = P.y / P.z ^ 3 := by
  rw [normalize, if_neg (by rwa [Point.isInfinity_iff])]
  split
  · rename_i unit
    rw [(FieldElement.isOne_iff P.z).mp unit, one_pow, div_one]
  · simp only [ofAffine, FieldElement.invert_eq, FieldElement.square_eq]
    field_simp

theorem normalize_z {P : Point} (denominator : P.z ≠ 0) : P.normalize.z = 1 := by
  rw [normalize, if_neg (by rwa [Point.isInfinity_iff])]
  split
  · rename_i unit
    exact (FieldElement.isOne_iff P.z).mp unit
  · rfl

theorem toAffine_eq (P : Point) :
    P.toAffine = if P.z = 0 then none else some (P.x / P.z ^ 2, P.y / P.z ^ 3) := by
  unfold toAffine
  simp only [Point.isInfinity_iff]
  split
  · rfl
  · rename_i denominator
    rw [normalize_x denominator, normalize_y denominator]

theorem sameAs_iff (P Q : Point) : P.sameAs Q = true ↔ P.toAffine = Q.toAffine := by
  rw [toAffine_eq, toAffine_eq, sameAs]
  cases infiniteP : P.isInfinity with
  | true =>
    have denominatorP := (Point.isInfinity_iff P).mp infiniteP
    cases infiniteQ : Q.isInfinity with
    | true => simp [denominatorP, (Point.isInfinity_iff Q).mp infiniteQ]
    | false => simp [denominatorP, (isInfinity_eq_false_iff Q).mp infiniteQ]
  | false =>
    have denominatorP := (isInfinity_eq_false_iff P).mp infiniteP
    cases infiniteQ : Q.isInfinity with
    | true => simp [denominatorP, (Point.isInfinity_iff Q).mp infiniteQ]
    | false =>
      have denominatorQ := (isInfinity_eq_false_iff Q).mp infiniteQ
      simp only [denominatorP, denominatorQ, if_false, Option.some.injEq, Prod.mk.injEq,
        Bool.and_eq_true, beq_iff_eq, FieldElement.square_eq, ← pow_succ',
        div_eq_div_iff (pow_ne_zero _ denominatorP) (pow_ne_zero _ denominatorQ)]

end Point

namespace Curve

/-- The affine coordinates of a point; the neutral element has none. -/
def coordinates {b : FieldElement} : Group b → Option (FieldElement × FieldElement)
  | .zero => none
  | .some x y _ => some (x, y)

variable {b : FieldElement}

theorem toAffine_of_represents {P : Point} {A : Group b} (stands : Point.Represents b P A) :
    P.toAffine = coordinates A := by
  rw [Point.toAffine_eq]
  cases stands with
  | infinite denominator =>
    rw [if_pos denominator]
    rfl
  | finite nonsingular denominator abscissa ordinate =>
    rw [if_neg denominator, abscissa, ordinate, mul_div_cancel_right₀ _ (pow_ne_zero 2 denominator),
      mul_div_cancel_right₀ _ (pow_ne_zero 3 denominator)]
    rfl

theorem coordinates_injective : Function.Injective (coordinates (b := b)) := by
  intro A B same
  cases A with
  | zero =>
    cases B with
    | zero => rfl
    | some x y nonsingular => cases same
  | some x y nonsingular =>
    cases B with
    | zero => cases same
    | some x' y' nonsingular' =>
      obtain ⟨abscissa, ordinate⟩ := Prod.mk.inj (Option.some.inj same)
      subst abscissa ordinate
      rfl

theorem sameAs_iff_of_represents {P Q : Point} {A B : Group b} (first : Point.Represents b P A)
    (second : Point.Represents b Q B) : P.sameAs Q = true ↔ A = B := by
  rw [Point.sameAs_iff, toAffine_of_represents first, toAffine_of_represents second]
  exact coordinates_injective.eq_iff

def reading (b : FieldElement) : Reading (Group b) where
  stands := Point.Represents b
  infinity := Point.represents_infinity
  isInfinity_iff stands := stands.isInfinity_iff
  negate stands := stands.negate
  normalize stands := stands.normalize
  twice stands := stands.twice
  add first second := first.add second
  toAffine first second :=
    (toAffine_of_represents first).trans (toAffine_of_represents second).symm

end Curve

namespace Point

open Curve

/-- The triple stands for the singular point `(0, 0)`. -/
def IsOrigin (P : Point) : Prop :=
  P.z ≠ 0 ∧ P.x = 0 ∧ P.y = 0

instance (P : Point) : Decidable P.IsOrigin :=
  inferInstanceAs (Decidable (P.z ≠ 0 ∧ P.x = 0 ∧ P.y = 0))

/-- Infinity is read as zero and the singular point as one. -/
inductive OriginClass : Point → ZMod 2 → Prop where
  | infinite {P : Point} (denominator : P.z = 0) : OriginClass P 0
  | origin {P : Point} (isOrigin : P.IsOrigin) : OriginClass P 1

theorem OriginClass.isInfinity_iff {P : Point} {a : ZMod 2} (reads : OriginClass P a) :
    P.isInfinity = true ↔ a = 0 := by
  rw [Point.isInfinity_iff]
  cases reads with
  | infinite denominator => exact ⟨fun _ => rfl, fun _ => denominator⟩
  | origin isOrigin => exact ⟨fun vanishes => absurd vanishes isOrigin.1, fun one => by
      exact absurd one (by decide)⟩

theorem OriginClass.twice {P : Point} {a : ZMod 2} (reads : OriginClass P a) :
    P.twice = Point.infinity := by
  cases reads with
  | infinite denominator => rw [Point.twice, if_pos ((Point.isInfinity_iff P).mpr denominator)]
  | origin isOrigin =>
    rw [Point.twice, if_pos ((FieldElement.isZero_iff P.y).mpr isOrigin.2.2), ite_self]

theorem OriginClass.add {P Q : Point} {a c : ZMod 2} (first : OriginClass P a)
    (second : OriginClass Q c) : OriginClass (P.add Q) (a + c) := by
  cases first with
  | infinite denominator =>
    rwa [Point.add, if_pos ((Point.isInfinity_iff P).mpr denominator), zero_add]
  | origin first =>
    rw [Point.add, if_neg (by rw [Point.isInfinity_iff]; exact first.1)]
    cases second with
    | infinite denominator =>
      rw [if_pos ((Point.isInfinity_iff Q).mpr denominator), add_zero]
      exact .origin first
    | origin second =>
      have equalOperands : P.twice = Point.infinity := (OriginClass.origin first).twice
      rw [if_neg (by rw [Point.isInfinity_iff]; exact second.1)]
      simp only [scaledBy_eq, first.2.1, first.2.2, second.2.1, second.2.2, zero_mul, sub_zero,
        FieldElement.isZero_iff, if_true, equalOperands]
      exact .infinite rfl

theorem OriginClass.normalize {P : Point} {a : ZMod 2} (reads : OriginClass P a) :
    OriginClass P.normalize a := by
  cases reads with
  | infinite denominator =>
    rw [Point.normalize, if_pos ((Point.isInfinity_iff P).mpr denominator)]
    exact .infinite rfl
  | origin isOrigin =>
    obtain ⟨denominator, abscissa, ordinate⟩ := isOrigin
    rw [Point.normalize, if_neg (by rwa [Point.isInfinity_iff])]
    split
    · exact .origin ⟨denominator, abscissa, ordinate⟩
    · exact .origin ⟨one_ne_zero, by simp [ofAffine, abscissa], by simp [ofAffine, ordinate]⟩

theorem OriginClass.toAffine {P Q : Point} {a : ZMod 2} (first : OriginClass P a)
    (second : OriginClass Q a) : P.toAffine = Q.toAffine := by
  rw [toAffine_eq, toAffine_eq]
  cases first with
  | infinite denominator =>
    have denominator' := (Point.isInfinity_iff Q).mp (second.isInfinity_iff.mpr rfl)
    rw [if_pos denominator, if_pos denominator']
  | origin isOrigin =>
    cases second with
    | origin isOrigin' =>
      rw [if_neg isOrigin.1, if_neg isOrigin'.1, isOrigin.2.1, isOrigin.2.2, isOrigin'.2.1,
        isOrigin'.2.2]
      simp

def originReading : Reading (ZMod 2) where
  stands := OriginClass
  infinity := .infinite rfl
  isInfinity_iff reads := reads.isInfinity_iff
  negate reads := by
    cases reads with
    | infinite denominator => exact .infinite denominator
    | origin isOrigin =>
      exact .origin ⟨isOrigin.1, isOrigin.2.1, by simp [Point.negate, isOrigin.2.2]⟩
  normalize reads := reads.normalize
  twice {P a} reads := by
    rw [reads.twice, CharTwo.add_self_eq_zero]
    exact .infinite rfl
  add first second := first.add second
  toAffine first second := first.toAffine second

/-! ## The operations of a curve -/

/-- The triple stands for the element, lies on the curve, and is infinite exactly for the neutral
element. -/
structure Realizes (b : FieldElement) (R : Point) (C : Group b) : Prop where
  represents : Represents b R C
  liesOn : R.LiesOn b
  denominator_eq_zero_iff : R.z = 0 ↔ C = 0

theorem Represents.realizes {b : FieldElement} {R : Point} {C : Group b}
    (stands : Represents b R C) : Realizes b R C :=
  ⟨stands, stands.liesOn, (Point.isInfinity_iff R).symm.trans stands.isInfinity_iff⟩

/-- On every curve without a linear term, for all triples on it, each operation computes in the
group. -/
theorem operations_realize_group_law (b : FieldElement) (P Q : Point) (onP : P.LiesOn b)
    (onQ : Q.LiesOn b) :
    ∃ A B : Group b, Represents b P A ∧ Represents b Q B ∧
      Realizes b (P.add Q) (A + B) ∧ Realizes b (P.subtract Q) (A - B) ∧
      Realizes b P.negate (-A) ∧ Realizes b P.twice (2 • A) ∧
      Realizes b (P.twicePlus Q) (2 • A + B) ∧ Realizes b P.threeTimes (3 • A) ∧
      (∀ e, Realizes b (P.timesPowTwo e) (2 ^ e • A)) ∧ Realizes b P.normalize A := by
  obtain ⟨A, standsP⟩ := onP.represents
  obtain ⟨B, standsQ⟩ := onQ.represents
  refine ⟨A, B, standsP, standsQ, (standsP.add standsQ).realizes,
    ((reading b).subtract standsP standsQ).realizes, standsP.negate.realizes, ?_, ?_,
    ((reading b).threeTimes standsP).realizes,
    fun e => ((reading b).timesPowTwo e standsP).realizes, standsP.normalize.realizes⟩
  · rw [two_nsmul]
    exact standsP.twice.realizes
  · rw [two_nsmul]
    exact ((reading b).twicePlus standsP standsQ).realizes

/-- On `y ^ 2 = x ^ 3 + 1`, the point `(2, 3)` of order six and the point `(-1, 0)` of order two,
the latter over the denominator two. -/
theorem operations_at_small_orders :
    (ofAffine 2 3).LiesOn 1 ∧ (⟨-4, 0, 2⟩ : Point).LiesOn 1 ∧
      ∃ A B : Group 1, Represents 1 (ofAffine 2 3) A ∧ Represents 1 ⟨-4, 0, 2⟩ B ∧
        Realizes 1 ((ofAffine 2 3).add ⟨-4, 0, 2⟩) (A + B) ∧
        Realizes 1 ((ofAffine 2 3).threeTimes) (3 • A) := by
  have onP : (ofAffine 2 3).LiesOn 1 := Or.inr (by decide)
  have onQ : (⟨-4, 0, 2⟩ : Point).LiesOn 1 := Or.inr (by decide)
  obtain ⟨A, B, standsP, standsQ, sum, _, _, _, _, triple, _⟩ :=
    operations_realize_group_law 1 _ _ onP onQ
  exact ⟨onP, onQ, A, B, standsP, standsQ, sum, triple⟩

end Point
end Secp256k1
