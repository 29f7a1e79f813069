import Mathlib
import Secp256k1.Proofs.CompactSigning

/-!
# The parity of a flipped signature

The signature `(r, -s)` pairs the opposite of a nonce element with the key element that `(r, s)`
pairs the nonce element with.  The opposite has the same abscissa and the other parity, so the id
with the other low bit recovers the same key.  Failures correspond too, because flipping twice
changes nothing.
-/

set_option autoImplicit false

namespace Secp256k1

open Curve

namespace RecoveryId

/-- The id of the opposite nonce element. -/
def opposite (id : RecoveryId) : RecoveryId :=
  ⟨id.overflow, !id.odd⟩

variable {id : RecoveryId} {r : Nat} {A : Group b}

@[simp] theorem opposite_opposite (id : RecoveryId) : id.opposite.opposite = id := by
  simp [opposite]

theorem toNat_opposite (id : RecoveryId) : id.opposite.toNat = id.toNat ^^^ 1 := by
  rcases id with ⟨_ | _, _ | _⟩ <;> rfl

/-- No ordinate is zero, so the two elements over an abscissa differ in parity. -/
theorem Names.opposite (named : id.Names r A) : id.opposite.Names r (-A) := by
  cases named with
  | @intro x y nonsingular abscissa parity =>
    have square := nonsingular_iff_rhs.mp nonsingular
    have upright : y ≠ 0 := by
      intro flat
      rw [flat, zero_pow two_ne_zero] at square
      exact rhs_ne_zero x square.symm
    have reflected : (weierstrass b).Nonsingular x (-y) :=
      nonsingular_iff_rhs.mpr (by rw [neg_sq, square])
    rw [neg_eq nonsingular reflected]
    refine .intro reflected abscissa ?_
    rw [FieldElement.isOdd_neg upright, parity]
    rfl

end RecoveryId

namespace Recovery

variable {id : RecoveryId} {signature : Signature} {digest : Octets} {compressed : Bool}
  {key : PublicKey} {cause : Error}

/-! ## Candidates -/

theorem cause_of_candidate (failure : candidate id signature digest compressed = .error cause) :
    cause = .recoveryFailed := by
  unfold candidate at failure
  split at failure
  · cases failure
    rfl
  · split at failure
    · cases failure
    · cases failure
      rfl

theorem candidate_flip_of_ok (success : candidate id signature digest compressed = .ok key) :
    candidate id.opposite signature.flip digest compressed = .ok key := by
  have valid := PublicKey.isAffineOnCurve_of_candidate success
  obtain ⟨A, B, names, related, stands⟩ := candidate_sound success
  have proper : B ≠ 0 := fun neutral => valid.finite (stands.isInfinity_iff.mpr neutral)
  have names' : id.opposite.Names signature.flip.r (-A) := names.opposite
  have related' : Relates signature.flip digest (-A) B := related.flip signature.s_valid
  obtain ⟨key', success', stands'⟩ := candidate_complete compressed names' related' proper
  have samePoint : key'.point.sameAs key.point = true :=
    (sameAs_iff_of_represents stands' stands).mpr rfl
  have sameFormat : key'.compressed = key.compressed :=
    (compressed_of_candidate success').trans (compressed_of_candidate success).symm
  rw [success', PublicKey.eq_of_sameAs (PublicKey.isAffineOnCurve_of_candidate success') valid
    samePoint sameFormat]

theorem candidate_flip (id : RecoveryId) (signature : Signature) (digest : Octets)
    (compressed : Bool) :
    candidate id.opposite signature.flip digest compressed =
      candidate id signature digest compressed := by
  cases straight : candidate id signature digest compressed with
  | ok key => exact candidate_flip_of_ok straight
  | error cause =>
    cases flipped : candidate id.opposite signature.flip digest compressed with
    | ok key =>
      -- Flipped once more, this success would be one of the candidate that failed.
      have again := candidate_flip_of_ok flipped
      rw [RecoveryId.opposite_opposite, Signature.flip_flip, straight] at again
      cases again
    | error cause' => rw [cause_of_candidate straight, cause_of_candidate flipped]

theorem recover_flip {number : Nat} (small : number < 4) (signature : Signature)
    (digest : Octets) (compressed : Bool) :
    recover (number ^^^ 1) signature.flip digest compressed =
      recover number signature digest compressed := by
  obtain ⟨id, rfl⟩ := RecoveryId.exists_toNat_eq small
  rw [← RecoveryId.toNat_opposite, recover, recover, RecoveryId.ofNat_eq_ok_iff.mpr rfl,
    RecoveryId.ofNat_eq_ok_iff.mpr rfl]
  exact candidate_flip id signature digest compressed

/-! ## The search for an id -/

theorem cause_of_findId (failure : findId signature digest key = .error cause) :
    cause = .recoveryFailed := by
  unfold findId at failure
  split at failure
  · cases failure
  · cases failure
    rfl

theorem leadsTo_flip (signature : Signature) (digest : Octets) (key : PublicKey)
    (id : RecoveryId) :
    leadsTo signature.flip digest key id.opposite = leadsTo signature digest key id := by
  rw [leadsTo, leadsTo, candidate_flip]

theorem findId_flip_of_ok (success : findId signature digest key = .ok id) :
    findId signature.flip digest key = .ok id.opposite := by
  rw [findId_eq_ok_iff_leadsTo] at success ⊢
  rwa [leadsTo_flip]

theorem findId_flip (signature : Signature) (digest : Octets) (key : PublicKey) :
    findId signature.flip digest key = (findId signature digest key).map RecoveryId.opposite := by
  cases straight : findId signature digest key with
  | ok id => exact findId_flip_of_ok straight
  | error cause =>
    cases flipped : findId signature.flip digest key with
    | ok id =>
      have again := findId_flip_of_ok flipped
      rw [Signature.flip_flip, straight] at again
      cases again
    | error cause' =>
      rw [cause_of_findId straight, cause_of_findId flipped]
      rfl

/-- The id with the other low bit recovers from the flipped signature what the id recovers from the
signature, a key or a failure.  So a high signature and its low form have ids that differ in the
low bit only, or neither of them has one, whichever key they are looked up for. -/
theorem flipping_changes_parity :
    (∀ (number : Nat) (signature : Signature) (digest : Octets) (compressed : Bool), number < 4 →
      recover (number ^^^ 1) signature.flip digest compressed =
        recover number signature digest compressed) ∧
    ∀ (signature : Signature) (digest : Octets) (key : PublicKey), ¬ signature.isLow = true →
      (∃ id id' : RecoveryId, findId signature digest key = .ok id ∧
        findId signature.canonicalize digest key = .ok id' ∧ id'.toNat = id.toNat ^^^ 1) ∨
      findId signature digest key = .error .recoveryFailed ∧
        findId signature.canonicalize digest key = .error .recoveryFailed := by
  refine ⟨fun number signature digest compressed small =>
    recover_flip small signature digest compressed, fun signature digest key high => ?_⟩
  rw [Signature.canonicalize_of_high high, findId_flip]
  cases search : findId signature digest key with
  | ok id => exact Or.inl ⟨id, id.opposite, rfl, rfl, id.toNat_opposite⟩
  | error cause =>
    rw [cause_of_findId search]
    exact Or.inr ⟨rfl, rfl⟩

/-- The empty digest and the abscissa of the generator as the first half, its opposite as the second:
a high signature with the nonce element below the generator, which is odd. -/
theorem parity_below_the_generator :
    ∃ signature : Signature, signature.r = Point.generator.x.val ∧
      signature.s = Scalar.order - Point.generator.x.val ∧ ¬ signature.isLow = true ∧
      recover 0 signature.flip [] true = recover 1 signature [] true ∧
      findId signature [] (PrivateKey.mk 1 (by decide)).publicKey = .ok ⟨false, true⟩ ∧
      ∃ id, findId signature.canonicalize [] (PrivateKey.mk 1 (by decide)).publicKey = .ok id ∧
        id.toNat = 0 := by
  obtain ⟨recovered, searched⟩ := flipping_changes_parity
  let signature : Signature := ⟨Point.generator.x.val, Scalar.order - Point.generator.x.val,
    by decide +kernel, by decide +kernel⟩
  have high : ¬ signature.isLow = true := by decide +kernel
  have odd : findId signature [] (PrivateKey.mk 1 (by decide)).publicKey = .ok ⟨false, true⟩ := by
    decide +kernel
  refine ⟨signature, rfl, rfl, high, recovered 1 signature [] true (by decide), odd, ?_⟩
  rcases searched signature [] _ high with ⟨id, id', found, found', parity⟩ | ⟨failed, _⟩
  · rw [odd] at found
    cases found
    exact ⟨id', found', parity⟩
  · rw [odd] at failed
    cases failed

end Recovery
end Secp256k1
