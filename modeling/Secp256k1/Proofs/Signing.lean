import Mathlib
import Secp256k1.Signer
import Secp256k1.Nonce.Prescribed
import Secp256k1.Proofs.Retries
import Secp256k1.Proofs.SignatureEquation

/-!
# Signing

A search for the halves of a signature ends in one of three ways: some nonce gives both halves after
the ones before it gave none, the source has no further nonce, or the allowed number of nonces gave
none.  In the first case the halves satisfy the signature equation for the signer's own key, so the
signature verifies, and the other two are no fault of the scalars.
-/

set_option autoImplicit false

namespace Secp256k1

open Curve

/-- The source hands out these nonces one after the other and is left in the last state. -/
inductive NonceSource.Draws {σ : Type} [NonceSource σ] : σ → List Nat → σ → Prop where
  | nothing (source : σ) : Draws source [] source
  | next {source following last : σ} {k : Nat} {ks : List Nat}
      (drawn : NonceSource.next source = (.ok k, following)) (later : Draws following ks last) :
      Draws source (k :: ks) last

namespace Signer

variable {σ : Type} [NonceSource σ] {multiplier : Multiplier} {d e : Nat}

/-- How a search with a number of attempts ends from a source. -/
inductive SearchEnds (multiplier : Multiplier) (d e attempts : Nat) (source : σ) :
    Except Error (Nat × Nat) × σ → Prop where
  | found {ks : List Nat} {middle last : σ} {k r s : Nat}
      (drawn : NonceSource.Draws source ks middle)
      (rejected : ∀ j ∈ ks, Ecdsa.halves? multiplier d e j = none) (allowed : ks.length < attempts)
      (accepted : NonceSource.next middle = (.ok k, last))
      (halves : Ecdsa.halves? multiplier d e k = some (r, s)) :
      SearchEnds multiplier d e attempts source (.ok (r, s), last)
  | refused {ks : List Nat} {middle last : σ} {cause : Error}
      (drawn : NonceSource.Draws source ks middle)
      (rejected : ∀ j ∈ ks, Ecdsa.halves? multiplier d e j = none) (allowed : ks.length < attempts)
      (refusal : NonceSource.next middle = (.error cause, last)) :
      SearchEnds multiplier d e attempts source (.error cause, last)
  | exhausted {ks : List Nat} {last : σ} (drawn : NonceSource.Draws source ks last)
      (rejected : ∀ j ∈ ks, Ecdsa.halves? multiplier d e j = none) (all : ks.length = attempts) :
      SearchEnds multiplier d e attempts source (.error .attemptsExhausted, last)

/-! ## One attempt -/

theorem attempt_eq_ok_iff {source following : σ} {pair : Option (Nat × Nat)} :
    attempt multiplier d e source = (.ok pair, following) ↔
      ∃ k, NonceSource.next source = (.ok k, following) ∧
        Ecdsa.halves? multiplier d e k = pair := by
  rw [attempt]
  rcases NonceSource.next source with ⟨cause | k, next⟩
  · constructor
    · intro success
      cases success
    · rintro ⟨k, drawn, _⟩
      cases drawn
  · constructor
    · intro success
      cases success
      exact ⟨k, rfl, rfl⟩
    · rintro ⟨k, drawn, rfl⟩
      cases drawn
      rfl

theorem attempt_eq_error_iff {source following : σ} {cause : Error} :
    attempt multiplier d e source = (.error cause, following) ↔
      NonceSource.next source = (.error cause, following) := by
  rw [attempt]
  rcases NonceSource.next source with ⟨refusal | k, next⟩
  · simp only [Prod.mk.injEq, Except.error.injEq]
  · simp only [Prod.mk.injEq, reduceCtorEq, false_and]

/-! ## The search -/

/-- Attempts without halves draw one nonce each. -/
theorem exists_draws_of_rejects {count : Nat} : ∀ source : σ,
    (∀ i < count, (attempt multiplier d e
      (stateAfter (attempt multiplier d e) i source)).1 = .ok none) →
    ∃ ks, NonceSource.Draws source ks (stateAfter (attempt multiplier d e) count source) ∧
      (∀ k ∈ ks, Ecdsa.halves? multiplier d e k = none) ∧ ks.length = count := by
  induction count with
  | zero =>
    intro source _
    exact ⟨[], .nothing source, fun _ listed => absurd listed List.not_mem_nil, rfl⟩
  | succ count ih =>
    intro source rejects
    obtain ⟨first, others⟩ := rejects_succ rejects
    obtain ⟨k, drawn, rejected⟩ := attempt_eq_ok_iff.mp (Prod.ext first rfl)
    obtain ⟨ks, later, rejected', counted⟩ := ih (attempt multiplier d e source).2 others
    rw [stateAfter_succ]
    exact ⟨k :: ks, .next drawn later, List.forall_mem_cons.mpr ⟨rejected, rejected'⟩,
      congrArg Nat.succ counted⟩

theorem searchEnds_retry (multiplier : Multiplier) (d e attempts : Nat) (source : σ) :
    SearchEnds multiplier d e attempts source
      (retry (attempt multiplier d e) attempts source) := by
  rcases retry_cases (attempt multiplier d e) attempts source with
    ⟨j, allowed, rejects, outcome, ends, equal⟩ | ⟨rejects, equal⟩
  · obtain ⟨ks, drawn, rejected, rfl⟩ := exists_draws_of_rejects source rejects
    rw [equal, stateAfter_succ_eq_step]
    cases outcome with
    | error cause =>
      exact .refused drawn rejected allowed (attempt_eq_error_iff.mp (Prod.ext ends rfl))
    | ok pair =>
      obtain ⟨k, accepted, halves⟩ := attempt_eq_ok_iff.mp (Prod.ext ends rfl)
      exact .found drawn rejected allowed accepted halves
  · obtain ⟨ks, drawn, rejected, all⟩ := exists_draws_of_rejects source rejects
    rw [equal]
    exact .exhausted drawn rejected all

/-- The source itself fails, at its start or after nonces that gave no halves. -/
inductive SourceFails (signer : Signer σ) (key : PrivateKey) (digest : Octets) (cause : Error) :
    Prop where
  | start {started : σ}
      (refusal : NonceSource.start Scalar.order key.scalar digest signer.source =
        (.error cause, started))
  | next {started middle last : σ} {ks : List Nat}
      (start : NonceSource.start Scalar.order key.scalar digest signer.source = (.ok (), started))
      (drawn : NonceSource.Draws started ks middle)
      (rejected : ∀ k ∈ ks,
        Ecdsa.halves? signer.multiplier key.scalar (Scalar.ofDigest digest) k = none)
      (refusal : NonceSource.next middle = (.error cause, last))

/-- None of the allowed nonces gave halves; without a limit the search would go on. -/
inductive Exhausts (signer : Signer σ) (key : PrivateKey) (digest : Octets) : Prop where
  | intro {started last : σ} {ks : List Nat}
      (start : NonceSource.start Scalar.order key.scalar digest signer.source = (.ok (), started))
      (drawn : NonceSource.Draws started ks last)
      (rejected : ∀ k ∈ ks,
        Ecdsa.halves? signer.multiplier key.scalar (Scalar.ofDigest digest) k = none)
      (all : ks.length = signer.attempts)

theorem searchHalves_cases (signer : Signer σ) (key : PrivateKey) (digest : Octets) :
    (∃ k r s, (signer.searchHalves key digest).1 = .ok (r, s) ∧
      Ecdsa.halves? signer.multiplier key.scalar (Scalar.ofDigest digest) k = some (r, s)) ∨
    ∃ cause, (signer.searchHalves key digest).1 = .error cause ∧
      (signer.SourceFails key digest cause ∨
        cause = .attemptsExhausted ∧ signer.Exhausts key digest) := by
  unfold searchHalves
  cases start : NonceSource.start Scalar.order key.scalar digest signer.source with
  | mk result started =>
    cases result with
    | error cause => exact Or.inr ⟨cause, rfl, Or.inl (.start start)⟩
    | ok _ =>
      have ends := searchEnds_retry signer.multiplier key.scalar (Scalar.ofDigest digest)
        signer.attempts started
      cases outcome : retry (attempt signer.multiplier key.scalar (Scalar.ofDigest digest))
          signer.attempts started with
      | mk result last =>
        rw [outcome] at ends
        simp only [outcome]
        cases ends with
        | found drawn rejected allowed accepted halves => exact Or.inl ⟨_, _, _, rfl, halves⟩
        | refused drawn rejected allowed refusal =>
          exact Or.inr ⟨_, rfl, Or.inl (.next start drawn rejected refusal)⟩
        | exhausted drawn rejected all =>
          exact Or.inr ⟨_, rfl, Or.inr ⟨rfl, .intro start drawn rejected all⟩⟩

/-- The halves of a nonce always make a signature, and it verifies. -/
theorem ofScalars_halves {multiplier : Multiplier} {key : PrivateKey} {digest : Octets}
    {k r s : Nat}
    (halves : Ecdsa.halves? multiplier key.scalar (Scalar.ofDigest digest) k = some (r, s)) :
    ∃ signature, Signature.ofScalars r s = .ok signature ∧
      key.publicKey.verify digest signature = true := by
  obtain ⟨validR, validS, related, abscissa⟩ := Ecdsa.halves_relate halves
  refine ⟨⟨r, s, validR, validS⟩, dif_pos ⟨validR, validS⟩, ?_⟩
  exact (PublicKey.verify_iff key.represents_publicKey digest _).mpr ⟨_, related, abscissa⟩

theorem sign_of_binding {signer : Signer σ} {key : PrivateKey}
    (bound : signer.binding = .signing key) (digest : Octets) :
    (∃ signature, (signer.sign digest).1 = .ok signature ∧
      key.publicKey.verify digest signature = true) ∨
    ∃ cause, (signer.sign digest).1 = .error cause ∧
      (signer.SourceFails key digest cause ∨
        cause = .attemptsExhausted ∧ signer.Exhausts key digest) := by
  unfold sign
  rw [bound]
  cases outcome : signer.searchHalves key digest with
  | mk result source =>
    have search := signer.searchHalves_cases key digest
    rw [outcome] at search
    simp only [outcome]
    rcases search with ⟨k, r, s, found, halves⟩ | ⟨cause, failed, reason⟩
    · cases found
      exact Or.inl (ofScalars_halves halves)
    · cases failed
      exact Or.inr ⟨cause, rfl, reason⟩

theorem sign_of_no_key {signer : Signer σ} (others : ∀ key, signer.binding ≠ .signing key)
    (digest : Octets) : signer.sign digest = (.error (.notInitialized .signing), signer) := by
  unfold sign
  split
  · rename_i key bound
    exact absurd bound (others key)
  · rfl

/-- A signature has valid halves and verifies, also in its low form, under the public key of the
bound private key.  An error says that no private key is bound, is one of the source, or says that
all allowed nonces were unusable. -/
theorem sign_then_verify (signer : Signer σ) (digest : Octets) :
    (∀ signature, (signer.sign digest).1 = .ok signature →
      ∃ key, signer.binding = .signing key ∧
        Scalar.IsValid signature.r ∧ Scalar.IsValid signature.s ∧
        key.publicKey.verify digest signature = true ∧
        key.publicKey.verify digest signature.canonicalize = true) ∧
    (∀ cause, (signer.sign digest).1 = .error cause →
      (cause = .notInitialized .signing ∧ ∀ key, signer.binding ≠ .signing key) ∨
      ∃ key, signer.binding = .signing key ∧
        (signer.SourceFails key digest cause ∨
          cause = .attemptsExhausted ∧ signer.Exhausts key digest)) ∧
    ((signer.sign digest).1 = .error .scalarOutOfRange →
      ∃ key, signer.binding = .signing key ∧ signer.SourceFails key digest .scalarOutOfRange) := by
  by_cases binding : ∃ key, signer.binding = .signing key
  · obtain ⟨key, bound⟩ := binding
    rcases sign_of_binding bound digest with ⟨signed, success, verifies⟩ | ⟨failure, failed, reason⟩
    · refine ⟨fun signature result => ?_, fun cause result => ?_, fun result => ?_⟩
      · cases success.symm.trans result
        exact ⟨key, bound, signed.r_valid, signed.s_valid, verifies,
          PublicKey.verify_low key.represents_publicKey verifies⟩
      · cases success.symm.trans result
      · cases success.symm.trans result
    · refine ⟨fun signature result => ?_, fun cause result => ?_, fun result => ?_⟩
      · cases failed.symm.trans result
      · cases failed.symm.trans result
        exact Or.inr ⟨key, bound, reason⟩
      · cases failed.symm.trans result
        rcases reason with fails | ⟨other, _⟩
        · exact ⟨key, bound, fails⟩
        · cases other
  · have others : ∀ key, signer.binding ≠ .signing key :=
      fun key bound => binding ⟨key, bound⟩
    have failed := congrArg Prod.fst (sign_of_no_key others digest)
    refine ⟨fun signature result => ?_, fun cause result => ?_, fun result => ?_⟩
    · cases failed.symm.trans result
    · cases failed.symm.trans result
      exact Or.inl ⟨rfl, others⟩
    · cases failed.symm.trans result

/-- The key with the scalar one signs with the nonce one, after the order itself was refused as a
nonce. -/
theorem sign_then_verify_after_refusal :
    ∃ signature,
      ((Signer.mk (PrescribedNonces.ofList [Scalar.order, 1]) .ladder 2
        (.signing ⟨1, by decide⟩)).sign []).1 = .ok signature ∧
      (PrivateKey.mk 1 (by decide)).publicKey.verify [] signature = true := by
  have success : ((Signer.mk (PrescribedNonces.ofList [Scalar.order, 1]) .ladder 2
      (.signing ⟨1, by decide⟩)).sign []).1 =
        .ok ⟨Point.generator.x.val, Point.generator.x.val, by decide +kernel, by decide +kernel⟩ := by
    decide +kernel
  obtain ⟨key, bound, _, _, verifies, _⟩ := (sign_then_verify _ _).1 _ success
  cases bound
  exact ⟨_, success, verifies⟩

end Signer
end Secp256k1
