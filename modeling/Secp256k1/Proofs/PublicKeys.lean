import Mathlib
import Secp256k1.CompactSignature
import Secp256k1.Proofs.GroupOrder

/-!
# Public keys that can be obtained

Decoding, construction from a point, derivation from a private key, recovery from a signature and a
change of the format are the only sources of public keys.  Each of them gives a finite affine triple
on the curve, so every key stands for an element of the group other than the neutral one.
-/

set_option autoImplicit false

namespace Secp256k1

namespace Point

/-- An affine triple on the curve. -/
structure IsAffineOnCurve (P : Point) : Prop where
  affine : P.z = 1
  onCurve : P.LiesOn Curve.b

theorem IsAffineOnCurve.represents {P : Point} (valid : P.IsAffineOnCurve) :
    ∃ A : Curve.Group Curve.b, A ≠ 0 ∧ Represents Curve.b P A := by
  obtain ⟨A, stands⟩ := valid.onCurve.represents
  refine ⟨A, fun neutral => ?_, stands⟩
  have infinite := stands.isInfinity_iff.mpr neutral
  rw [Point.isInfinity_iff, valid.affine] at infinite
  exact absurd infinite one_ne_zero

theorem isAffineOnCurve_normalize {P : Point} (finite : ¬ P.isInfinity = true)
    (onCurve : P.LiesOn Curve.b) : P.normalize.IsAffineOnCurve := by
  obtain ⟨A, stands⟩ := onCurve.represents
  rw [Point.isInfinity_iff] at finite
  exact ⟨normalize_z finite, stands.normalize.liesOn⟩

theorem isAffineOnCurve_of_decompress {x : FieldElement} {odd : Bool} {P : Point}
    (found : decompress x odd = some P) : P.IsAffineOnCurve := by
  obtain ⟨y, rfl, square, _⟩ := decompress_eq_some_iff.mp found
  exact ⟨rfl, (represents_ofAffine (Curve.nonsingular_iff_rhs.mpr square)).liesOn⟩

theorem isAffineOnCurve_of_ofAffineOnCurve {x y : FieldElement} {P : Point}
    (success : ofAffineOnCurve x y = .ok P) : P.IsAffineOnCurve := by
  unfold ofAffineOnCurve at success
  split at success
  · rename_i onCurve
    cases success
    exact ⟨rfl, (isOnCurve_iff _).mp onCurve⟩
  · cases success

/-- What decodes is infinity or an affine triple on the curve. -/
theorem isAffineOnCurve_of_decode {octets : Octets} {P : Point} (success : decode octets = .ok P)
    (finite : ¬ P.isInfinity = true) : P.IsAffineOnCurve := by
  unfold decode at success
  split at success
  · cases success
  · split at success
    · cases success
      exact absurd rfl finite
    · split at success
      · obtain ⟨x, _, found⟩ := exists_of_bind_eq_ok success
        split at found
        · rename_i decompressed
          cases found
          exact isAffineOnCurve_of_decompress decompressed
        · cases found
      · split at success
        · obtain ⟨x, _, remaining⟩ := exists_of_bind_eq_ok success
          obtain ⟨y, _, found⟩ := exists_of_bind_eq_ok remaining
          exact isAffineOnCurve_of_ofAffineOnCurve found
        · cases success

end Point

namespace PublicKey

/-- The keys that some operation returns. -/
inductive Obtainable : PublicKey → Prop where
  | decoded {octets : Octets} {key : PublicKey} (success : decode octets = .ok key) :
      Obtainable key
  | ofPoint {P : Point} {compressed : Bool} {key : PublicKey}
      (success : ofPoint P compressed = .ok key) : Obtainable key
  | ofPrivate (key : PrivateKey) : Obtainable key.publicKey
  | recovered {id : Nat} {signature : Signature} {digest : Octets} {compressed : Bool}
      {key : PublicKey} (success : Recovery.recover id signature digest compressed = .ok key) :
      Obtainable key
  | recoveredCompact {compact : CompactSignature} {digest : Octets} {key : PublicKey}
      (success : compact.recover digest = .ok key) : Obtainable key
  | recoveredOctets {octets digest : Octets} {key : PublicKey}
      (success : CompactSignature.recoverFromOctets octets digest = .ok key) : Obtainable key
  | reformatted {key : PublicKey} (compressed : Bool) (obtainable : Obtainable key) :
      Obtainable (key.withCompression compressed)

theorem ofPoint_eq_ok_iff {P : Point} {compressed : Bool} {key : PublicKey} :
    PublicKey.ofPoint P compressed = .ok key ↔
      ¬ P.isInfinity = true ∧ P.isOnCurve = true ∧ key = ⟨P.normalize, compressed⟩ := by
  unfold PublicKey.ofPoint
  constructor
  · intro success
    split at success
    · cases success
    · rename_i finite
      split at success
      · cases success
      · rename_i onCurve
        cases success
        exact ⟨finite, by simpa using onCurve, rfl⟩
  · rintro ⟨finite, onCurve, rfl⟩
    rw [if_neg finite, onCurve, Bool.not_true, if_neg Bool.false_ne_true]

theorem isAffineOnCurve_of_ofPoint {P : Point} {compressed : Bool} {key : PublicKey}
    (success : PublicKey.ofPoint P compressed = .ok key) : key.point.IsAffineOnCurve := by
  obtain ⟨finite, onCurve, rfl⟩ := ofPoint_eq_ok_iff.mp success
  exact Point.isAffineOnCurve_normalize finite ((Point.isOnCurve_iff P).mp onCurve)

theorem isAffineOnCurve_of_candidate {id : RecoveryId} {signature : Signature} {digest : Octets}
    {compressed : Bool} {key : PublicKey}
    (success : Recovery.candidate id signature digest compressed = .ok key) :
    key.point.IsAffineOnCurve := by
  unfold Recovery.candidate at success
  split at success
  · cases success
  · split at success
    · rename_i constructed
      cases success
      exact isAffineOnCurve_of_ofPoint constructed
    · cases success

theorem isAffineOnCurve_of_decode {octets : Octets} {key : PublicKey}
    (success : decode octets = .ok key) : key.point.IsAffineOnCurve := by
  obtain ⟨P, decoded, checked⟩ := exists_of_bind_eq_ok success
  split at checked
  · cases checked
  · rename_i finite
    cases checked
    exact Point.isAffineOnCurve_of_decode decoded finite

/-- A valid scalar is no multiple of the order, so its multiple of the generator is finite. -/
theorem isAffineOnCurve_publicKey (key : PrivateKey) :
    key.publicKey.point.IsAffineOnCurve := by
  have stands := (Curve.reading Curve.b).multiply Curve.represents_generator Multiplier.standard
    key.scalar
  refine Point.isAffineOnCurve_normalize (fun infinite => ?_) stands.liesOn
  have neutral := stands.isInfinity_iff.mp infinite
  have divides := addOrderOf_dvd_of_nsmul_eq_zero neutral
  rw [Curve.addOrderOf_base] at divides
  exact absurd (Nat.le_of_dvd key.valid.1 divides) (Nat.not_le.mpr key.valid.2)

theorem Obtainable.isAffineOnCurve {key : PublicKey} (obtainable : key.Obtainable) :
    key.point.IsAffineOnCurve := by
  induction obtainable with
  | decoded success => exact isAffineOnCurve_of_decode success
  | ofPoint success => exact isAffineOnCurve_of_ofPoint success
  | ofPrivate key => exact isAffineOnCurve_publicKey key
  | recovered success =>
    obtain ⟨id, _, found⟩ := exists_of_bind_eq_ok success
    exact isAffineOnCurve_of_candidate found
  | recoveredCompact success => exact isAffineOnCurve_of_candidate success
  | recoveredOctets success =>
    obtain ⟨compact, _, found⟩ := exists_of_bind_eq_ok success
    exact isAffineOnCurve_of_candidate found
  | reformatted compressed _ ih => exact ih

end PublicKey
end Secp256k1
