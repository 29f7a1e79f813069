import Mathlib
import Secp256k1.Proofs.PointOrders
import Secp256k1.Proofs.RecoveryParity
import Secp256k1.Proofs.Verification

/-!
# When recovery succeeds

An id asks for the point with a given abscissa and parity.  There is one exactly if the abscissa is
below the field modulus and the right-hand side of the curve is a square there, and then recovery
succeeds unless the signature equation gives the neutral element.  No other check can fail.
-/

set_option autoImplicit false

namespace Secp256k1

open Curve

/-! ## Elements over an abscissa -/

namespace Curve

/-- The finite element with the abscissa `x` and an ordinate of the parity of `parity`. -/
def LiesAbove (x parity : Nat) (R : Group b) : Prop :=
  ∃ (X Y : FieldElement) (point : (weierstrass b).Nonsingular X Y),
    R = .some X Y point ∧ X.val = x ∧ Y.val % 2 = parity % 2

/-- The right-hand side of the curve equation at `x` is a square. -/
def IsAbscissa (x : Nat) : Prop :=
  ∃ y, y ^ 2 ≡ x ^ 3 + 7 [MOD fieldModulus]

variable {x parity : Nat} {R R' : Group b}

theorem natCast_val (a : FieldElement) : (a.val : FieldElement) = a :=
  FieldElement.ext (Nat.mod_eq_of_lt a.isLt)

theorem natCast_square_eq_rhs_iff {x y : Nat} :
    (y : FieldElement) ^ 2 = rhs x ↔ y ^ 2 ≡ x ^ 3 + 7 [MOD fieldModulus] := by
  rw [rhs_eq, ← CharP.natCast_eq_natCast FieldElement fieldModulus, Nat.cast_add, Nat.cast_pow,
    Nat.cast_pow]
  rfl

theorem isAbscissa_val_iff (X : FieldElement) : IsAbscissa X.val ↔ ∃ Y, Y ^ 2 = rhs X := by
  constructor
  · rintro ⟨y, square⟩
    rw [← natCast_square_eq_rhs_iff, natCast_val] at square
    exact ⟨y, square⟩
  · rintro ⟨Y, square⟩
    refine ⟨Y.val, natCast_square_eq_rhs_iff.mp ?_⟩
    rwa [natCast_val, natCast_val]

/-- Both parities occur, because no ordinate is zero. -/
theorem exists_ordinate_of_parity {X Y : FieldElement} (square : Y ^ 2 = rhs X) (odd : Bool) :
    ∃ y, y ^ 2 = rhs X ∧ y.isOdd = odd := by
  obtain ⟨root, extracted⟩ := FieldElement.exists_sqrt Y
  rw [square] at extracted
  have found : Point.decompress X odd =
      some (.ofAffine X (if root.isOdd = odd then root else -root)) := by
    rw [Point.decompress, extracted]
    rfl
  obtain ⟨y, _, square', parity⟩ := Point.decompress_eq_some_iff.mp found
  exact ⟨y, square', parity⟩

theorem isOdd_eq_decide_iff {Y : FieldElement} :
    Y.isOdd = decide (parity % 2 = 1) ↔ Y.val % 2 = parity % 2 := by
  rw [FieldElement.isOdd, Bool.eq_iff_iff, beq_iff_eq, decide_eq_true_iff]
  omega

theorem existsUnique_liesAbove (below : x < fieldModulus) (onCurve : IsAbscissa x) (parity : Nat) :
    ∃! R : Group b, LiesAbove x parity R := by
  obtain ⟨Y, square⟩ := (isAbscissa_val_iff ⟨x, below⟩).mp onCurve
  obtain ⟨y, square, odd⟩ := exists_ordinate_of_parity square (decide (parity % 2 = 1))
  refine ⟨.some ⟨x, below⟩ y (nonsingular_iff_rhs.mpr square),
    ⟨_, _, _, rfl, rfl, isOdd_eq_decide_iff.mp odd⟩, ?_⟩
  rintro _ ⟨X', y', point, rfl, rfl, odd'⟩
  have sameSquare : y' ^ 2 = y ^ 2 := (nonsingular_iff_rhs.mp point).trans square.symm
  have same : y' = y :=
    FieldElement.eq_of_square_eq sameSquare ((isOdd_eq_decide_iff.mpr odd').trans odd.symm)
  subst same
  rfl

theorem LiesAbove.bounds (above : LiesAbove x parity R) : x < fieldModulus ∧ IsAbscissa x := by
  obtain ⟨X, Y, point, _, rfl, _⟩ := above
  exact ⟨X.isLt, (isAbscissa_val_iff X).mpr ⟨Y, nonsingular_iff_rhs.mp point⟩⟩

theorem exists_liesAbove_iff :
    (∃ R : Group b, LiesAbove x parity R) ↔ x < fieldModulus ∧ IsAbscissa x :=
  ⟨fun ⟨_, above⟩ => above.bounds,
    fun admitted => (existsUnique_liesAbove admitted.1 admitted.2 parity).exists⟩

end Curve

/-! ## Success and failure -/

namespace Recovery

variable {id : RecoveryId} {number : Nat} {signature : Signature} {digest : Octets}
  {compressed : Bool} {key : PublicKey} {cause : Error} {A B : Group b}

/-- The abscissa that an id asks for. -/
def abscissa (number r : Nat) : Nat :=
  r + number / 2 * Scalar.order

theorem names_iff_liesAbove {r : Nat} :
    id.Names r A ↔ LiesAbove (abscissa id.toNat r) id.toNat A := by
  have wanted : abscissa id.toNat r = if id.overflow then r + Scalar.order else r := by
    rcases id with ⟨_ | _, _ | _⟩ <;> simp [abscissa, RecoveryId.toNat]
  have parity : ∀ Y : FieldElement, Y.isOdd = id.odd ↔ Y.val % 2 = id.toNat % 2 := by
    intro Y
    rw [← isOdd_eq_decide_iff]
    rcases id with ⟨_ | _, _ | _⟩ <;> rfl
  rw [wanted]
  constructor
  · rintro ⟨point, abscissa, odd⟩
    exact ⟨_, _, point, rfl, abscissa, (parity _).mp odd⟩
  · rintro ⟨X, Y, point, rfl, abscissa, odd⟩
    exact .intro point abscissa ((parity Y).mpr odd)

/-- The key element is neutral exactly when the two known terms of the equation cancel. -/
theorem eq_zero_iff_of_relates (related : Relates signature digest A B) :
    B = 0 ↔ signature.s • A = Scalar.ofDigest digest • base := by
  rw [Ecdsa.relates_iff_nsmul.mp related, add_eq_left]
  constructor
  · rintro rfl
    exact nsmul_zero signature.r
  · intro vanishes
    by_contra proper
    have divides := (nsmul_eq_zero_iff proper signature.r).mp vanishes
    have valid := signature.r_valid
    exact absurd (Nat.le_of_dvd valid.1 divides) (Nat.not_le.mpr valid.2)

theorem exists_candidate_iff :
    (∃ key, candidate id signature digest compressed = .ok key) ↔
      ∃ A, id.Names signature.r A ∧ signature.s • A ≠ Scalar.ofDigest digest • base := by
  constructor
  · rintro ⟨key, success⟩
    have valid := PublicKey.isAffineOnCurve_of_candidate success
    obtain ⟨A, B, names, related, stands⟩ := candidate_sound success
    refine ⟨A, names, fun cancels => valid.finite (stands.isInfinity_iff.mpr ?_)⟩
    exact (eq_zero_iff_of_relates related).mpr cancels
  · rintro ⟨A, names, differ⟩
    obtain ⟨B, related⟩ := exists_relates signature digest A
    have proper : B ≠ 0 := fun neutral => differ ((eq_zero_iff_of_relates related).mp neutral)
    obtain ⟨key, success, _⟩ := candidate_complete compressed names related proper
    exact ⟨key, success⟩

theorem recover_toNat (id : RecoveryId) (signature : Signature) (digest : Octets)
    (compressed : Bool) :
    recover id.toNat signature digest compressed = candidate id signature digest compressed := by
  rw [recover, RecoveryId.ofNat_eq_ok_iff.mpr rfl]
  rfl

theorem recover_of_large (large : 3 < number) :
    recover number signature digest compressed = .error (.invalidRecoveryId number) := by
  rw [recover, RecoveryId.ofNat, if_neg (Nat.not_lt.mpr large)]
  rfl

theorem cause_of_recover (small : number ≤ 3)
    (failure : recover number signature digest compressed = .error cause) :
    cause = .recoveryFailed := by
  obtain ⟨id, rfl⟩ := RecoveryId.exists_toNat_eq (Nat.lt_succ_of_le small)
  rw [recover_toNat] at failure
  exact cause_of_candidate failure

theorem exists_recover_iff (small : number ≤ 3) :
    (∃ key, recover number signature digest compressed = .ok key) ↔
      abscissa number signature.r < fieldModulus ∧ IsAbscissa (abscissa number signature.r) ∧
        ∀ R, LiesAbove (abscissa number signature.r) number R →
          signature.s • R ≠ Scalar.ofDigest digest • base := by
  obtain ⟨id, rfl⟩ := RecoveryId.exists_toNat_eq (Nat.lt_succ_of_le small)
  simp only [recover_toNat, exists_candidate_iff, names_iff_liesAbove]
  constructor
  · rintro ⟨A, above, differ⟩
    obtain ⟨below, onCurve⟩ := above.bounds
    refine ⟨below, onCurve, fun R aboveR => ?_⟩
    rwa [(existsUnique_liesAbove below onCurve id.toNat).unique aboveR above]
  · rintro ⟨below, onCurve, differ⟩
    obtain ⟨R, above⟩ := exists_liesAbove_iff.mpr ⟨below, onCurve⟩
    exact ⟨R, above, differ R above⟩

theorem recovered_key_relates
    (success : recover number signature digest compressed = .ok key) :
    key.compressed = compressed ∧ key.point.isInfinity = false ∧ key.point.isOnCurve = true ∧
      ∃ R Q : Group b, LiesAbove (abscissa number signature.r) number R ∧
        Point.Represents b key.point Q ∧
        signature.r • Q = signature.s • R - Scalar.ofDigest digest • base := by
  obtain ⟨id, rfl, chosen⟩ := recover_eq_ok_iff.mp success
  have valid := PublicKey.isAffineOnCurve_of_candidate chosen
  obtain ⟨R, Q, names, related, stands⟩ := candidate_sound chosen
  refine ⟨compressed_of_candidate chosen, Bool.eq_false_iff.mpr valid.finite,
    (Point.isOnCurve_iff _).mpr valid.onCurve, R, Q, names_iff_liesAbove.mp names, stands, ?_⟩
  rw [Ecdsa.relates_iff_nsmul.mp related, add_sub_cancel_left]

/-- A number above three is refused as such.  For the other ones recovery succeeds exactly if the
abscissa is below the modulus and one of the curve, and the equation does not give infinity at the
point over it; there is one such point.  The key is then a finite point of the curve that satisfies
the equation, in the wanted format.  All other failures are of one kind. -/
theorem recovery_succeeds_exactly (number : Nat) (signature : Signature) (digest : Octets)
    (compressed : Bool) :
    (recover number signature digest compressed = .error (.invalidRecoveryId number) ↔
      3 < number) ∧
    (∀ x parity, x < fieldModulus → IsAbscissa x → ∃! R : Group b, LiesAbove x parity R) ∧
    (number ≤ 3 →
      ((∃ key, recover number signature digest compressed = .ok key) ↔
        abscissa number signature.r < fieldModulus ∧ IsAbscissa (abscissa number signature.r) ∧
          ∀ R, LiesAbove (abscissa number signature.r) number R →
            signature.s • R ≠ Scalar.ofDigest digest • base) ∧
      (∀ key, recover number signature digest compressed = .ok key →
        key.compressed = compressed ∧ key.point.isInfinity = false ∧
          key.point.isOnCurve = true ∧
          ∃ R Q : Group b, LiesAbove (abscissa number signature.r) number R ∧
            Point.Represents b key.point Q ∧
            signature.r • Q = signature.s • R - Scalar.ofDigest digest • base) ∧
      ((¬ ∃ key, recover number signature digest compressed = .ok key) →
        recover number signature digest compressed = .error .recoveryFailed)) := by
  refine ⟨⟨fun refused => ?_, recover_of_large⟩,
    fun x parity below onCurve => existsUnique_liesAbove below onCurve parity,
    fun small => ⟨exists_recover_iff small, fun key => recovered_key_relates, fun none => ?_⟩⟩
  · by_contra small
    cases cause_of_recover (Nat.le_of_not_lt small) refused
  · cases outcome : recover number signature digest compressed with
    | ok key => exact absurd ⟨key, outcome⟩ none
    | error cause => rw [cause_of_recover small outcome]

/-- The abscissa two more than the order, which only an overflow reaches, with an odd ordinate; the
empty digest stands for zero. -/
theorem recovery_after_overflow :
    3 ≤ 3 ∧ ∃ signature : Signature, signature.r = 2 ∧ signature.s = 1 ∧
      ∃ key, recover 3 signature [] false = .ok key ∧ key.compressed = false ∧
        ∃ R Q : Group b, LiesAbove (2 + Scalar.order) 3 R ∧ Point.Represents b key.point Q ∧
          2 • Q = 1 • R - 0 • base := by
  let signature : Signature := ⟨2, 1, by decide, by decide⟩
  obtain ⟨_, _, small⟩ := recovery_succeeds_exactly 3 signature [] false
  obtain ⟨succeeds, recovered, _⟩ := small (Nat.le_refl 3)
  have onCurve : IsAbscissa (2 + Scalar.order) :=
    ⟨0x36b1aa62eb77c1973025cbcbea9740eed8eacdab8772268b395064453269d1d3, by decide +kernel⟩
  obtain ⟨key, success⟩ := succeeds.mpr ⟨by decide, onCurve, by
    rintro _ ⟨X, Y, point, rfl, _, _⟩ cancels
    exact WeierstrassCurve.Affine.Point.some_ne_zero point
      ((one_nsmul _).symm.trans (cancels.trans (zero_nsmul base)))⟩
  obtain ⟨format, _, _, related⟩ := recovered key success
  exact ⟨Nat.le_refl 3, signature, rfl, rfl, key, success, format, related⟩

end Recovery
end Secp256k1
