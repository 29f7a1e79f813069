import Mathlib
import Secp256k1.Proofs.PointEquality

/-!
# Public keys and their octets

The keys that can be obtained are exactly those that hold an affine triple of the curve, and these
are the keys that their own octets decode to.  Decoding is therefore both a way to obtain a key and
a test that nothing but such a key passes.
-/

set_option autoImplicit false

namespace Secp256k1
namespace PublicKey

variable {key key' : PublicKey} {octets : Octets}

theorem eq_of_sameAs (valid : key.point.IsAffineOnCurve) (valid' : key'.point.IsAffineOnCurve)
    (samePoint : key.point.sameAs key'.point = true)
    (sameFormat : key.compressed = key'.compressed) : key = key' := by
  have equal := Point.eq_of_sameAs valid.affine valid'.affine samePoint
  cases key
  cases key'
  cases equal
  cases sameFormat
  rfl

/-! ## The format in the octets -/

theorem length_encode (key : PublicKey) :
    key.encode.length = if key.compressed then 33 else 65 := by
  rw [encode]
  split
  · exact Point.length_encodeCompressed key.point
  · exact Point.length_encodeUncompressed key.point

theorem point_decode_encode (valid : key.point.IsAffineOnCurve) :
    Point.decode key.encode = .ok key.point := by
  rw [encode]
  split
  · exact Point.decode_encodeCompressed valid
  · exact Point.decode_encodeUncompressed valid

theorem decode_encode (valid : key.point.IsAffineOnCurve) : decode key.encode = .ok key := by
  have format : (key.encode.length == 33) = key.compressed := by
    rw [length_encode]
    cases key.compressed with
    | false => rfl
    | true => rfl
  simp only [decode, point_decode_encode valid, bind, Except.bind, if_neg valid.finite, format,
    pure, Except.pure]

theorem encode_of_decode (success : decode octets = .ok key) : key.encode = octets := by
  obtain ⟨P, decoded, checked⟩ := exists_of_bind_eq_ok success
  split at checked
  · cases checked
  · rename_i finite
    cases checked
    rcases Point.decode_eq_ok_iff.mp decoded with ⟨_, rfl⟩ | ⟨valid, rfl | rfl⟩
    · exact absurd rfl finite
    · simp [encode, encodeCompressed]
    · simp [encode, encodeUncompressed]

/-! ## Valid keys -/

/-- The operations reach no other keys than decoding does. -/
theorem obtainable_iff : key.Obtainable ↔ key.point.IsAffineOnCurve := by
  constructor
  · intro obtainable
    exact obtainable.isAffineOnCurve
  · intro valid
    exact .decoded (decode_encode valid)

/-- Every key that any sequence of operations yields is a finite affine point of the curve and is
what its own octets decode to, in its own format; there are no other such keys.  What decodes is
written again as the same octets. -/
theorem obtainable_keys_are_valid :
    (∀ key : PublicKey, key.Obtainable →
      ¬ key.point.isInfinity = true ∧ key.point.z = 1 ∧ key.point.isOnCurve = true ∧
        decode key.encode = .ok key) ∧
    (∀ (octets : Octets) (key : PublicKey), decode octets = .ok key → key.encode = octets) ∧
    ∀ key : PublicKey, key.point.z = 1 → key.point.isOnCurve = true → key.Obtainable := by
  refine ⟨fun key obtainable => ?_, fun octets key success => encode_of_decode success,
    fun key affine onCurve => ?_⟩
  · have valid := obtainable_iff.mp obtainable
    obtain ⟨affine, onCurve⟩ := Point.isAffineOnCurve_iff.mp valid
    exact ⟨valid.finite, affine, onCurve, decode_encode valid⟩
  · exact obtainable_iff.mpr (Point.isAffineOnCurve_iff.mpr ⟨affine, onCurve⟩)

/-- The key of a seed whose hash writes a multiple of the order, in the longer format; the key of
twice the generator, given by a triple that is not affine; and the generator as it is written. -/
theorem keys_of_a_null_seed_and_a_doubled_point :
    (PrivateKey.ofSeed (fun _ => Octets.fixed 64 (5 * Scalar.order)) [1, 2]).scalar = 1 ∧
      (∃ key : PublicKey, key.Obtainable ∧ decode key.encode = .ok key ∧
        key = (PrivateKey.ofSeed (fun _ => Octets.fixed 64 (5 * Scalar.order))
          [1, 2]).publicKey.withCompression false) ∧
      (∃ key, ofPoint Point.generator.twice true = .ok key ∧ ¬ Point.generator.twice.z = 1 ∧
        key.point.z = 1 ∧ decode key.encode = .ok key) ∧
      (∃ key, decode Point.generator.encodeUncompressed = .ok key ∧
        key.encode = Point.generator.encodeUncompressed) ∧
      (PublicKey.mk Point.generator true).Obtainable := by
  obtain ⟨valid, rewritten, complete⟩ := obtainable_keys_are_valid
  refine ⟨by decide +kernel, ?_, ?_, ?_, complete _ rfl (by decide +kernel)⟩
  · have obtainable : ((PrivateKey.ofSeed (fun _ => Octets.fixed 64 (5 * Scalar.order))
        [1, 2]).publicKey.withCompression false).Obtainable := .reformatted false (.ofPrivate _)
    obtain ⟨_, _, _, decoded⟩ := valid _ obtainable
    exact ⟨_, obtainable, decoded, rfl⟩
  · have finite : ¬ Point.generator.twice.isInfinity = true := by decide +kernel
    have onCurve : Point.generator.twice.isOnCurve = true := by decide +kernel
    have success := ofPoint_eq_ok_iff.mpr ⟨finite, onCurve, Eq.refl
      (PublicKey.mk Point.generator.twice.normalize true)⟩
    obtain ⟨_, affine, _, decoded⟩ := valid _ (.ofPoint success)
    exact ⟨_, success, by decide +kernel, affine, decoded⟩
  · have success : decode Point.generator.encodeUncompressed =
        .ok (PublicKey.mk Point.generator false) := by decide +kernel
    exact ⟨_, success, rewritten _ _ success⟩

end PublicKey
end Secp256k1
