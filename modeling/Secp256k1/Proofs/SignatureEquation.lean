import Mathlib
import Secp256k1.Key.Private
import Secp256k1.Proofs.GroupOrder
import Secp256k1.Proofs.ScalarPowers

/-!
# The signature equation

A signature `(r, s)` of a digest with the integer `e` relates a nonce element `R` and a key element
`Q` by `s * R = e * G + r * Q`, and `r` is the abscissa of `R` modulo the order.  Verification
accepts exactly when some nonce element does this, and signing produces such an element.
-/

set_option autoImplicit false

namespace Secp256k1

open Curve

/-! ## Abscissas modulo the order -/

namespace Curve

/-- The abscissa of an element modulo the group order; the neutral element has none. -/
def residue (A : Group b) : Option Nat :=
  (coordinates A).map fun affine => Scalar.reduce affine.1.val

theorem residue_of_represents {P : Point} {A : Group b} (stands : Point.Represents b P A) :
    Ecdsa.residue P = residue A := by
  rw [Ecdsa.residue, Point.affineX, toAffine_of_represents stands, residue, Option.map_map]
  rfl

theorem residue_neg (A : Group b) : residue (-A) = residue A := by
  cases A with
  | zero => rfl
  | some x y nonsingular => rfl

theorem residue_lt {A : Group b} {r : Nat} (abscissa : residue A = some r) : r < Scalar.order := by
  obtain ⟨affine, _, reduced⟩ := Option.map_eq_some_iff.mp abscissa
  rw [← reduced]
  exact Scalar.reduce_lt _

theorem represents_nsmul {P : Point} {A : Group b} (stands : Point.Represents b P A)
    (multiplier : Multiplier) (k : Nat) :
    Point.Represents b (multiplier.multiply P k) ((k : ZMod Scalar.order) • A) := by
  rw [Nat.cast_smul_eq_nsmul]
  exact (reading b).multiply stands multiplier k

theorem represents_sumOfMultiples {P Q : Point} {A B : Group b} (first : Point.Represents b P A)
    (second : Point.Represents b Q B) (j k : Nat) :
    Point.Represents b (P.sumOfMultiples j Q k)
      ((j : ZMod Scalar.order) • A + (k : ZMod Scalar.order) • B) := by
  rw [Nat.cast_smul_eq_nsmul, Nat.cast_smul_eq_nsmul]
  exact (reading b).sumOfMultiples first second j k

end Curve

namespace Ecdsa

/-- The equation between the nonce element `R` and the key element `B`. -/
def Relates (e r s : Nat) (R B : Group b) : Prop :=
  (s : ZMod Scalar.order) • R = (e : ZMod Scalar.order) • base + (r : ZMod Scalar.order) • B

variable {e r s : Nat} {R B : Group b}

theorem eq_smul_add_smul_iff {j k l : ZMod Scalar.order} {A B C : Group b} (nonzero : l ≠ 0) :
    l • A = j • B + k • C ↔ A = (j * l⁻¹) • B + (k * l⁻¹) • C := by
  have spread : l⁻¹ • (j • B + k • C) = (j * l⁻¹) • B + (k * l⁻¹) • C := by
    rw [smul_add, smul_smul, smul_smul, mul_comm, mul_comm k]
  rw [← spread, eq_inv_smul_iff₀ nonzero]

theorem relates_iff_nonce (valid : Scalar.IsValid s) :
    Relates e r s R B ↔
      R = ((e : ZMod Scalar.order) * (s : ZMod Scalar.order)⁻¹) • base +
        ((r : ZMod Scalar.order) * (s : ZMod Scalar.order)⁻¹) • B :=
  eq_smul_add_smul_iff (Scalar.cast_ne_zero valid)

theorem relates_iff_key (valid : Scalar.IsValid r) :
    Relates e r s R B ↔
      B = (-(e : ZMod Scalar.order) * (r : ZMod Scalar.order)⁻¹) • base +
        ((s : ZMod Scalar.order) * (r : ZMod Scalar.order)⁻¹) • R := by
  rw [← eq_smul_add_smul_iff (Scalar.cast_ne_zero valid), Relates, neg_smul,
    eq_neg_add_iff_add_eq, eq_comm]

theorem Relates.flip (relates : Relates e r s R B) (valid : Scalar.IsValid s) :
    Relates e r (Scalar.order - s) (-R) B := by
  rw [Relates, Scalar.cast_order_sub valid, neg_smul_neg]
  exact relates

theorem accepts_iff {Q : Point} (standsQ : Point.Represents b Q B) (digest : Octets) (r s : Nat) :
    accepts Q digest r s = true ↔
      Scalar.IsValid r ∧ Scalar.IsValid s ∧
        ∃ R, Relates (Scalar.ofDigest digest) r s R B ∧ Curve.residue R = some r := by
  unfold accepts
  split
  · rename_i valid
    have sum := represents_sumOfMultiples represents_generator standsQ
      (Scalar.product (Scalar.reduce (Scalar.ofDigest digest)) (Scalar.invert s))
      (Scalar.product r (Scalar.invert s))
    simp only [Scalar.cast_product, Scalar.cast_reduce, Scalar.cast_invert] at sum
    simp only [beq_iff_eq, residue_of_represents sum, relates_iff_nonce valid.2, exists_eq_left]
    exact ⟨fun abscissa => ⟨valid.1, valid.2, abscissa⟩, fun fits => fits.2.2⟩
  · rename_i invalid
    exact ⟨fun refused => absurd refused Bool.false_ne_true,
      fun fits => absurd ⟨fits.1, fits.2.1⟩ invalid⟩

/-- The halves that a nonce gives are valid and satisfy the equation at the nonce's multiple of the
generator, whatever the size of the nonce. -/
theorem halves_relate {multiplier : Multiplier} {d e k r s : Nat}
    (found : halves? multiplier d e k = some (r, s)) :
    Scalar.IsValid r ∧ Scalar.IsValid s ∧
      Relates e r s ((k : ZMod Scalar.order) • base) ((d : ZMod Scalar.order) • base) ∧
      Curve.residue ((k : ZMod Scalar.order) • base) = some r := by
  have stands := represents_nsmul represents_generator multiplier k
  unfold halves? at found
  rw [residue_of_represents stands] at found
  split at found
  · cases found
  · rename_i r' abscissa
    split at found
    · cases found
    · rename_i nonzeroR
      dsimp only at found
      split at found
      · cases found
      · rename_i nonzeroS
        cases found
        have finite : (k : ZMod Scalar.order) ≠ 0 := by
          intro null
          rw [null, zero_smul (ZMod Scalar.order) base] at abscissa
          cases abscissa
        refine ⟨⟨Nat.pos_of_ne_zero nonzeroR, residue_lt abscissa⟩,
          ⟨Nat.pos_of_ne_zero nonzeroS, Scalar.reduce_lt _⟩, ?_, abscissa⟩
        rw [Relates, ← mul_smul, ← mul_smul, ← add_smul, Scalar.cast_product,
          Scalar.cast_invert, Scalar.cast_reduce, Nat.cast_add, Nat.cast_mul]
        congr 1
        field_simp

end Ecdsa

namespace PublicKey

variable {key : PublicKey} {B : Group b}

theorem verify_iff (stands : Point.Represents b key.point B) (digest : Octets)
    (signature : Signature) :
    key.verify digest signature = true ↔
      ∃ R, Ecdsa.Relates (Scalar.ofDigest digest) signature.r signature.s R B ∧
        Curve.residue R = some signature.r := by
  rw [verify, Ecdsa.accepts_iff stands]
  exact ⟨fun accepted => accepted.2.2,
    fun related => ⟨signature.r_valid, signature.s_valid, related⟩⟩

/-- The opposite second half fits the opposite nonce element, which has the same abscissa. -/
theorem verify_flip (stands : Point.Represents b key.point B) {digest : Octets}
    {signature : Signature} (accepted : key.verify digest signature = true) :
    key.verify digest signature.flip = true := by
  obtain ⟨R, related, abscissa⟩ := (verify_iff stands digest signature).mp accepted
  refine (verify_iff stands digest signature.flip).mpr
    ⟨-R, related.flip signature.s_valid, ?_⟩
  rw [residue_neg]
  exact abscissa

theorem verify_low (stands : Point.Represents b key.point B) {digest : Octets}
    {signature : Signature} (accepted : key.verify digest signature = true) :
    key.verify digest signature.canonicalize = true := by
  unfold Signature.canonicalize
  split
  · exact accepted
  · exact verify_flip stands accepted

end PublicKey

theorem PrivateKey.represents_publicKey (key : PrivateKey) :
    Point.Represents b key.publicKey.point ((key.scalar : ZMod Scalar.order) • base) :=
  (represents_nsmul represents_generator Multiplier.standard key.scalar).normalize

end Secp256k1
