import Mathlib
import Secp256k1.Proofs.FixedSignatures
import Secp256k1.Proofs.LowForm
import Secp256k1.Proofs.PublicKeyOctets
import Secp256k1.Proofs.Signing

/-!
# Compact signing

A private key's signature verifies under its public key, so the search for the recovery id finds
one, and the id found for a key recovers that key, down to the triple and the format.  Only signing
itself can make compact signing fail.
-/

set_option autoImplicit false

namespace Secp256k1

open Curve

namespace Recovery

variable {id : RecoveryId} {signature : Signature} {digest : Octets} {compressed : Bool}
  {key : PublicKey}

theorem compressed_of_candidate (success : candidate id signature digest compressed = .ok key) :
    key.compressed = compressed := by
  unfold candidate at success
  split at success
  · cases success
  · split at success
    · rename_i constructed
      cases success
      obtain ⟨_, _, rfl⟩ := PublicKey.ofPoint_eq_ok_iff.mp constructed
      rfl
    · cases success

theorem findId_of_verify (valid : key.point.IsAffineOnCurve)
    (accepted : key.verify digest signature = true) :
    ∃ id, findId signature digest key = .ok id := by
  obtain ⟨B, proper, stands⟩ := valid.represents
  obtain ⟨A, related, abscissa⟩ := (PublicKey.verify_iff stands digest signature).mp accepted
  obtain ⟨id, names⟩ := (RecoveryId.residue_eq_some_iff signature.r_valid.2).mp abscissa
  exact ⟨id, (findId_eq_ok_iff stands proper).mpr ⟨A, names, related⟩⟩

/-- The id that is found for a key recovers this key. -/
theorem candidate_of_findId (valid : key.point.IsAffineOnCurve)
    (chosen : findId signature digest key = .ok id) :
    candidate id signature digest key.compressed = .ok key := by
  obtain ⟨B, proper, stands⟩ := valid.represents
  obtain ⟨found, success, same⟩ := (recovers_iff stands proper key.compressed).mpr
    ((findId_eq_ok_iff stands proper).mp chosen)
  rw [success, PublicKey.eq_of_sameAs (PublicKey.isAffineOnCurve_of_candidate success) valid same
    (compressed_of_candidate success)]

end Recovery

namespace PrivateKey

variable {mac : Mac} {attempts : Nat} {key : PrivateKey} {digest : Octets} {compressed : Bool}
  {signature : Signature}

/-- The signer that a private key makes for one signature. -/
def signer (mac : Mac) (attempts : Nat) (key : PrivateKey) : Signer (DerivedNonces mac) :=
  ⟨DerivedNonces.new mac attempts, Multiplier.standard, attempts, .signing key⟩

theorem sign_eq (mac : Mac) (attempts : Nat) (key : PrivateKey) (digest : Octets) :
    key.sign mac attempts digest =
      ((key.signer mac attempts).sign digest).1.map Signature.canonicalize :=
  rfl

theorem low_and_verifies_of_sign (signed : key.sign mac attempts digest = .ok signature) :
    signature.isLow = true ∧ key.publicKey.verify digest signature = true := by
  have bound : (key.signer mac attempts).binding = .signing key := rfl
  rw [sign_eq] at signed
  rcases Signer.sign_of_binding bound digest with ⟨raw, success, verifies⟩ | ⟨cause, failed, _⟩
  · rw [success, Except.map] at signed
    cases signed
    exact ⟨raw.isLow_canonicalize, PublicKey.verify_low key.represents_publicKey verifies⟩
  · rw [failed, Except.map] at signed
    cases signed

/-- After signing, the search for the id cannot fail. -/
theorem signCompact_of_sign (compressed : Bool)
    (signed : key.sign mac attempts digest = .ok signature) :
    ∃ id, Recovery.candidate id signature digest compressed =
        .ok (key.publicKey.withCompression compressed) ∧
      key.signCompact mac attempts digest compressed = .ok ⟨id, compressed, signature⟩ := by
  have valid : (key.publicKey.withCompression compressed).point.IsAffineOnCurve :=
    PublicKey.isAffineOnCurve_publicKey key
  obtain ⟨id, chosen⟩ := Recovery.findId_of_verify valid (low_and_verifies_of_sign signed).2
  have recovered := Recovery.candidate_of_findId valid chosen
  simp only [PublicKey.withCompression] at chosen recovered ⊢
  refine ⟨id, recovered, ?_⟩
  simp only [signCompact, signed, bind, Except.bind, PublicKey.withCompression, chosen, pure,
    Except.pure]

theorem signCompact_eq_error_iff {cause : Error} :
    key.signCompact mac attempts digest compressed = .error cause ↔
      key.sign mac attempts digest = .error cause := by
  cases signed : key.sign mac attempts digest with
  | error failure =>
    simp only [signCompact, signed, bind, Except.bind, Except.error.injEq]
  | ok signature =>
    obtain ⟨id, _, success⟩ := signCompact_of_sign compressed signed
    rw [success]
    exact iff_of_false (fun failed => by cases failed) (fun failed => by cases failed)

/-- Compact signing fails only where plain signing does, with the same error.  Otherwise it has the
same low signature, and from its 65 octets and the digest the signer's public key is recovered in
the chosen format. -/
theorem signCompact_round_trip (mac : Mac) (attempts : Nat) (key : PrivateKey) (digest : Octets)
    (compressed : Bool) :
    (∀ cause, key.signCompact mac attempts digest compressed = .error cause ↔
      key.sign mac attempts digest = .error cause) ∧
    ∀ signature, key.sign mac attempts digest = .ok signature →
      ∃ compact, key.signCompact mac attempts digest compressed = .ok compact ∧
        compact.signature = signature ∧ signature.isLow = true ∧
        compact.compressed = compressed ∧
        CompactSignature.recoverFromOctets compact.toOctets digest =
          .ok (key.publicKey.withCompression compressed) := by
  refine ⟨fun cause => signCompact_eq_error_iff, fun signature signed => ?_⟩
  obtain ⟨id, recovered, success⟩ := signCompact_of_sign compressed signed
  refine ⟨⟨id, compressed, signature⟩, success, rfl, (low_and_verifies_of_sign signed).1, rfl, ?_⟩
  simp only [CompactSignature.recoverFromOctets, CompactSignature.ofOctets_toOctets, bind,
    Except.bind, CompactSignature.recover, recovered]

/-- Tags that write the number one. -/
def unitMac : Mac :=
  ⟨fun _ _ => Octets.fixed 32 1, fun _ _ => Octets.length_fixed 32 1⟩

/-- The key with the scalar two signs the empty digest with the nonce one: the second half is twice
the abscissa of the generator, which is high, and so it is flipped. -/
theorem signCompact_of_flipped_signature :
    ∃ signature, (PrivateKey.mk 2 (by decide)).sign unitMac 1 [] = .ok signature ∧
      signature.s = Scalar.order - 2 * Point.generator.x.val ∧
      ∃ compact, (PrivateKey.mk 2 (by decide)).signCompact unitMac 1 [] false = .ok compact ∧
        compact.signature = signature ∧
        CompactSignature.recoverFromOctets compact.toOctets [] =
          .ok ((PrivateKey.mk 2 (by decide)).publicKey.withCompression false) := by
  have signed : (PrivateKey.mk 2 (by decide)).sign unitMac 1 [] =
      .ok ⟨Point.generator.x.val, Scalar.order - 2 * Point.generator.x.val, by decide +kernel,
        by decide +kernel⟩ := by decide +kernel
  obtain ⟨compact, success, same, _, _, recovered⟩ :=
    (signCompact_round_trip unitMac 1 _ [] false).2 _ signed
  exact ⟨_, signed, rfl, compact, success, same, recovered⟩

end PrivateKey
end Secp256k1
