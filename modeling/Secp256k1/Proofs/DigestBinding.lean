import Mathlib
import Secp256k1.Proofs.DigestClasses
import Secp256k1.Proofs.RecoveryConditions

/-!
# What recovery says about the digest

An id fixes the nonce element, and then the signature equation pairs the classes of digests with key
elements one to one, because the generator has the order by which the classes are taken.  A key
therefore has at most one class for each id, and each class that verifies has an id.
-/

set_option autoImplicit false

namespace Secp256k1

open Curve
open Scalar (SameClass)

theorem RecoveryId.toNat_injective : Function.Injective RecoveryId.toNat := by
  intro id id' same
  have read : ofNat id.toNat = .ok id' := ofNat_eq_ok_iff.mpr same
  rw [ofNat_eq_ok_iff.mpr rfl] at read
  exact Except.ok.inj read

namespace Recovery

variable {id : RecoveryId} {signature : Signature} {first second digest : Octets}
  {compressed compressed' : Bool} {key key' : PublicKey} {A A' B B' : Group b}

theorem nonce_unique {r : Nat} (names : id.Names r A) (names' : id.Names r A') : A = A' := by
  have above := names_iff_liesAbove.mp names
  obtain ⟨below, onCurve⟩ := above.bounds
  exact (existsUnique_liesAbove below onCurve id.toNat).unique above
    (names_iff_liesAbove.mp names')

theorem sameClass_iff_smul_base :
    SameClass first second ↔
      (Scalar.ofDigest first : ZMod Scalar.order) • base =
        (Scalar.ofDigest second : ZMod Scalar.order) • base := by
  rw [(smul_left_injective (ZMod Scalar.order) base_ne_zero).eq_iff]
  exact (ZMod.natCast_eq_natCast_iff _ _ _).symm

/-- Over one nonce element the key elements and the classes determine each other. -/
theorem key_eq_iff_sameClass (related : Relates signature first A B)
    (related' : Relates signature second A B') : B = B' ↔ SameClass first second := by
  have proper := Scalar.cast_ne_zero signature.r_valid
  rw [sameClass_iff_smul_base, ← (smul_right_injective (Group b) proper).eq_iff,
    ← add_right_inj ((Scalar.ofDigest first : ZMod Scalar.order) • base)]
  rw [Relates, Ecdsa.Relates] at related related'
  rw [← related, related', add_left_inj, eq_comm]

theorem sameAs_iff_sameClass {number : Nat}
    (found : recover number signature first compressed = .ok key)
    (found' : recover number signature second compressed' = .ok key') :
    key.point.sameAs key'.point = true ↔ SameClass first second := by
  obtain ⟨id, numbered, candidate⟩ := recover_eq_ok_iff.mp found
  obtain ⟨id', numbered', candidate'⟩ := recover_eq_ok_iff.mp found'
  obtain ⟨A, B, names, related, stands⟩ := candidate_sound candidate
  obtain ⟨A', B', names', related', stands'⟩ := candidate_sound candidate'
  have sameId : id = id' := RecoveryId.toNat_injective (numbered.symm.trans numbered')
  subst sameId
  obtain rfl := nonce_unique names names'
  rw [sameAs_iff_of_represents stands stands', key_eq_iff_sameClass related related']

/-! ## The classes that a key verifies -/

/-- The classes modulo the order of the digests that a key verifies. -/
def verifiedClasses (key : PublicKey) (signature : Signature) : Set (ZMod Scalar.order) :=
  {e | ∃ digest, (Scalar.ofDigest digest : ZMod Scalar.order) = e ∧
    key.verify digest signature = true}

/-- Verification does not depend on the digest that stands for a class. -/
theorem verify_iff_mem_verifiedClasses :
    key.verify digest signature = true ↔
      (Scalar.ofDigest digest : ZMod Scalar.order) ∈ verifiedClasses key signature := by
  constructor
  · exact fun accepted => ⟨digest, rfl, accepted⟩
  · rintro ⟨other, sameClass, accepted⟩
    rw [PublicKey.verify] at accepted ⊢
    rwa [← Ecdsa.accepts_of_sameClass ((ZMod.natCast_eq_natCast_iff _ _ _).mp sameClass)]

/-- A key that verifies is recovered under an id. -/
theorem exists_recover_of_verify (valid : key.point.IsAffineOnCurve)
    (accepted : key.verify digest signature = true) :
    ∃ number < 4, recover number signature digest key.compressed = .ok key := by
  obtain ⟨id, chosen⟩ := findId_of_verify valid accepted
  refine ⟨id.toNat, id.toNat_lt, ?_⟩
  rw [recover_toNat]
  exact candidate_of_findId valid chosen

theorem encard_verifiedClasses_le (valid : key.point.IsAffineOnCurve) (signature : Signature) :
    (verifiedClasses key signature).encard ≤ 4 := by
  have named : ∀ e ∈ verifiedClasses key signature, ∃ number < 4, ∃ digest,
      (Scalar.ofDigest digest : ZMod Scalar.order) = e ∧
        recover number signature digest key.compressed = .ok key := by
    rintro e ⟨digest, isClass, accepted⟩
    obtain ⟨number, small, found⟩ := exists_recover_of_verify valid accepted
    exact ⟨number, small, digest, isClass, found⟩
  choose! number small digest isClass found using named
  have inRange : Set.MapsTo number (verifiedClasses key signature) (Finset.range 4) :=
    fun e listed => Finset.mem_coe.mpr (Finset.mem_range.mpr (small e listed))
  have injective : Set.InjOn number (verifiedClasses key signature) := by
    intro e listed e' listed' sameNumber
    have recovered := found e listed
    rw [sameNumber] at recovered
    have same := (sameAs_iff_sameClass recovered (found e' listed')).mp
      ((Point.sameAs_iff _ _).mpr rfl)
    rw [← isClass e listed, ← isClass e' listed']
    exact (ZMod.natCast_eq_natCast_iff _ _ _).mpr same
  refine (Set.encard_le_encard_of_injOn inRange injective).trans ?_
  rw [Set.encard_coe_eq_coe_finsetCard, Finset.card_range]
  rfl

/-- Two digests for which one id recovers a key have the same key exactly if their integers are
congruent modulo the order.  For every key a signature therefore verifies at most four classes of
digests, each of them as a whole. -/
theorem recovery_binds_the_digest (signature : Signature) :
    (∀ number first second compressed compressed' key key',
      recover number signature first compressed = .ok key →
        recover number signature second compressed' = .ok key' →
          (key.point.sameAs key'.point = true ↔
            Scalar.ofDigest first ≡ Scalar.ofDigest second [MOD Scalar.order])) ∧
    ∀ key : PublicKey, key.Obtainable →
      (∀ digest, key.verify digest signature = true ↔
        (Scalar.ofDigest digest : ZMod Scalar.order) ∈ verifiedClasses key signature) ∧
      (verifiedClasses key signature).encard ≤ 4 := by
  refine ⟨fun number first second compressed compressed' key key' found found' => ?_,
    fun key obtainable => ⟨fun digest => verify_iff_mem_verifiedClasses, ?_⟩⟩
  · exact sameAs_iff_sameClass found found'
  · exact encard_verifiedClasses_le obtainable.isAffineOnCurve signature

theorem exists_recover_of_isOk {number : Nat}
    (succeeds : (recover number signature digest compressed).isOk = true) :
    ∃ key, recover number signature digest compressed = .ok key := by
  cases recovered : recover number signature digest compressed with
  | error cause =>
    rw [recovered] at succeeds
    cases succeeds
  | ok key => exact ⟨key, rfl⟩

/-- The empty digest and the octets of the order lead to one key, the digest that writes one to
another. -/
theorem recovery_of_three_digests :
    ∃ signature : Signature, signature.r = Point.generator.x.val ∧ signature.s = 2 ∧
      ∃ key same other, recover 0 signature [] true = .ok key ∧
        recover 0 signature (Octets.fixed 32 Scalar.order) false = .ok same ∧
        recover 0 signature [1] true = .ok other ∧
        key.point.sameAs same.point = true ∧ ¬ key.point.sameAs other.point = true ∧
        key.Obtainable ∧ (verifiedClasses key signature).encard ≤ 4 := by
  let signature : Signature := ⟨Point.generator.x.val, 2, by decide +kernel, by decide⟩
  have isOk : (recover 0 signature [] true).isOk = true := by decide +kernel
  have isOk' : (recover 0 signature (Octets.fixed 32 Scalar.order) false).isOk = true := by
    decide +kernel
  have isOk'' : (recover 0 signature [1] true).isOk = true := by decide +kernel
  obtain ⟨key, found⟩ := exists_recover_of_isOk isOk
  obtain ⟨same, found'⟩ := exists_recover_of_isOk isOk'
  obtain ⟨other, found''⟩ := exists_recover_of_isOk isOk''
  obtain ⟨binds, bounded⟩ := recovery_binds_the_digest signature
  have obtainable : key.Obtainable := .recovered found
  refine ⟨signature, rfl, rfl, key, same, other, found, found', found'',
    (binds 0 _ _ _ _ _ _ found found').mpr ?_, fun equal => ?_, obtainable,
    (bounded key obtainable).2⟩
  · exact (by decide +kernel : SameClass [] (Octets.fixed 32 Scalar.order))
  · exact (by decide +kernel : ¬ SameClass [] [1]) ((binds 0 _ _ _ _ _ _ found found'').mp equal)

end Recovery
end Secp256k1
