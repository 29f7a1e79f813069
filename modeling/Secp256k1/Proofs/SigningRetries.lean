import Mathlib
import Secp256k1.Proofs.CheckedNonces
import Secp256k1.Proofs.PointOrders
import Secp256k1.Proofs.Retries
import Secp256k1.Proofs.Signing

/-!
# The nonce that signs

The halves of a signature belong to one nonce each.  A signer takes the nonces of its source in their
order and signs with the first one whose halves exist and are not zero; what the nonces before it
would have given leaves no trace.
-/

set_option autoImplicit false

namespace Secp256k1

open Curve

/-! ## Halves in the group -/

namespace Ecdsa

/-- The abscissa of the nonce's multiple of the generator, modulo the order. -/
noncomputable def firstHalf (k : Nat) : Option Nat :=
  Curve.residue (k • base)

/-- The residue `(e + d * r) / k`. -/
def secondHalf (d e k r : Nat) : Nat :=
  ((k : ZMod Scalar.order)⁻¹ * (e + d * r)).val

/-- The nonce gives both halves, and neither of them is zero. -/
structure Gives (d e k r s : Nat) : Prop where
  proper : ¬ Scalar.order ∣ k
  first : firstHalf k = some r
  first_ne_zero : r ≠ 0
  second : secondHalf d e k r = s
  second_ne_zero : s ≠ 0

variable {d e k r s : Nat}

theorem firstHalf_eq_none_iff : firstHalf k = none ↔ Scalar.order ∣ k := by
  rw [← nsmul_eq_zero_iff base_ne_zero, firstHalf, Curve.residue, Option.map_eq_none_iff]
  cases k • base with
  | zero => exact ⟨fun _ => rfl, fun _ => rfl⟩
  | some x y point =>
    refine ⟨fun none => ?_, fun neutral => ?_⟩
    · cases none
    · exact absurd neutral (WeierstrassCurve.Affine.Point.some_ne_zero point)

theorem product_eq_secondHalf (d e k r : Nat) :
    Scalar.product (Scalar.invert k) (Scalar.reduce (e + d * r)) = secondHalf d e k r := by
  have reduced : Scalar.product (Scalar.invert k) (Scalar.reduce (e + d * r)) < Scalar.order :=
    Scalar.reduce_lt _
  rw [secondHalf, ← ZMod.val_natCast_of_lt reduced, Scalar.cast_product, Scalar.cast_invert,
    Scalar.cast_reduce, Nat.cast_add, Nat.cast_mul]

/-- One attempt at the halves is an attempt at those of the group, with any multiplier. -/
theorem halves_eq_some_iff (multiplier : Multiplier) :
    halves? multiplier d e k = some (r, s) ↔ Gives d e k r s := by
  have stands := (reading b).multiply represents_generator multiplier k
  have first : residue (multiplier.multiply Point.generator k) = firstHalf k :=
    residue_of_represents stands
  unfold halves?
  rw [first]
  constructor
  · intro found
    split at found
    · cases found
    · rename_i r' abscissa
      split at found
      · cases found
      · rename_i nonzeroR
        dsimp only at found
        split at found
        · cases found
        · rename_i nonzeroS
          cases found
          have proper : ¬ Scalar.order ∣ k := fun divides => by
            rw [firstHalf_eq_none_iff.mpr divides] at abscissa
            cases abscissa
          exact ⟨proper, abscissa, nonzeroR, (product_eq_secondHalf d e k r).symm, nonzeroS⟩
  · rintro ⟨_, abscissa, nonzeroR, rfl, nonzeroS⟩
    rw [abscissa]
    simp only [product_eq_secondHalf, if_neg nonzeroR, if_neg nonzeroS]

theorem halves_eq_none_iff (multiplier : Multiplier) :
    halves? multiplier d e k = none ↔ ¬ ∃ r s, Gives d e k r s := by
  simp only [← halves_eq_some_iff multiplier]
  rw [Option.eq_none_iff_forall_not_mem, Prod.forall, not_exists]
  simp only [not_exists, Option.mem_def]

end Ecdsa

/-! ## Nonces in their order -/

namespace NonceSource

variable {σ : Type} [NonceSource σ]

/-- What the source answers to the request after `count` other ones. -/
def nonce (source : σ) (count : Nat) : Except Error Nat :=
  (NonceSource.next (run source (List.replicate count .next))).1

/-- The nonce after `count` other ones is handed out and makes no signature. -/
def Unusable (d e : Nat) (source : σ) (count : Nat) : Prop :=
  ∃ k, nonce source count = .ok k ∧ ¬ ∃ r s, Ecdsa.Gives d e k r s

end NonceSource

namespace Signer

variable {σ : Type} [NonceSource σ] {multiplier : Multiplier} {d e : Nat}

/-- An attempt makes one request, whatever comes of it. -/
theorem stateAfter_attempt (count : Nat) : ∀ source : σ,
    stateAfter (attempt multiplier d e) count source =
      NonceSource.run source (List.replicate count .next) := by
  have request : ∀ source : σ,
      (attempt multiplier d e source).2 = NonceSource.after source .next := by
    intro source
    unfold attempt NonceSource.after
    split <;> rename_i asked <;> rw [asked]
  induction count with
  | zero => exact fun source => rfl
  | succ count ih =>
    intro source
    rw [stateAfter_succ, request, ih]
    rfl

theorem attempt_after (source : σ) (count : Nat) :
    (attempt multiplier d e (stateAfter (attempt multiplier d e) count source)).1 =
      (NonceSource.nonce source count).map (Ecdsa.halves? multiplier d e) := by
  rw [stateAfter_attempt, NonceSource.nonce, attempt]
  split <;> rename_i asked <;> rw [asked] <;> rfl

theorem attempt_of_unusable {source : σ} {count : Nat}
    (unusable : NonceSource.Unusable d e source count) :
    (attempt multiplier d e (stateAfter (attempt multiplier d e) count source)).1 = .ok none := by
  obtain ⟨k, handed, gives⟩ := unusable
  rw [attempt_after, handed, ← (Ecdsa.halves_eq_none_iff multiplier).mpr gives]
  rfl

/-! ## The signature -/

variable {signer : Signer σ} {key : PrivateKey} {digest : Octets} {source : σ}

theorem searchHalves_of_start {cause : Error}
    (refused : NonceSource.start Scalar.order key.scalar digest signer.source =
      (.error cause, source)) :
    signer.searchHalves key digest = (.error cause, source) := by
  rw [searchHalves, refused]

theorem searchHalves_eq_retry
    (started : NonceSource.start Scalar.order key.scalar digest signer.source = (.ok (), source)) :
    signer.searchHalves key digest =
      retry (attempt signer.multiplier key.scalar (Scalar.ofDigest digest)) signer.attempts
        source := by
  rw [searchHalves, started]

/-- The search ends with the first nonce that gives halves or is refused. -/
theorem searchHalves_eq {j : Nat} {outcome : Except Error (Nat × Nat)}
    (started : NonceSource.start Scalar.order key.scalar digest signer.source = (.ok (), source))
    (allowed : j < signer.attempts)
    (earlier : ∀ i < j, NonceSource.Unusable key.scalar (Scalar.ofDigest digest) source i)
    (ends : (NonceSource.nonce source j).map
      (Ecdsa.halves? signer.multiplier key.scalar (Scalar.ofDigest digest)) = outcome.map some) :
    signer.searchHalves key digest =
      (outcome, NonceSource.run source (List.replicate (j + 1) .next)) := by
  rw [searchHalves_eq_retry started,
    retry_eq allowed (fun i before => attempt_of_unusable (earlier i before))
      ((attempt_after source j).trans ends),
    stateAfter_attempt]

theorem sign_of_failed_search {cause : Error} (bound : signer.binding = .signing key)
    (failed : signer.searchHalves key digest = (.error cause, source)) :
    signer.sign digest = (.error cause, { signer with source }) := by
  rw [sign, bound]
  simp only [failed]

theorem sign_of_search {k r s : Nat} (bound : signer.binding = .signing key)
    (found : signer.searchHalves key digest = (.ok (r, s), source))
    (gives : Ecdsa.Gives key.scalar (Scalar.ofDigest digest) k r s) :
    ∃ signature, signer.sign digest = (.ok signature, { signer with source }) ∧
      signature.r = r ∧ signature.s = s := by
  obtain ⟨validR, validS, _⟩ := Ecdsa.halves_relate
    ((Ecdsa.halves_eq_some_iff signer.multiplier).mpr gives)
  have made : Signature.ofScalars r s = .ok ⟨r, s, validR, validS⟩ :=
    Signature.ofScalars_eq_ok_iff.mpr ⟨rfl, rfl⟩
  refine ⟨⟨r, s, validR, validS⟩, ?_, rfl, rfl⟩
  rw [sign, bound]
  simp only [found, made]

/-- A bound signer starts its source once.  A refusal there is its answer.  Otherwise it signs with
the first nonce that is no multiple of the order and whose halves are not zero, and the source is
left as after the requests up to that nonce and no other ones; a failure of the source that comes
earlier is the answer, and no signature is made.  A limit on the nonces is felt only if none of them
is usable. -/
theorem first_usable_nonce_signs (signer : Signer σ) {key : PrivateKey}
    (bound : signer.binding = .signing key) (digest : Octets) :
    let d := key.scalar
    let e := Scalar.ofDigest digest
    let start := NonceSource.Call.start Scalar.order d digest
    let source := NonceSource.run signer.source [start]
    let left := fun count : Nat =>
      { signer with
        source := NonceSource.run signer.source (start :: List.replicate count .next) }
    (∀ k, Ecdsa.firstHalf k = none ↔ Scalar.order ∣ k) ∧
    (∀ cause, (NonceSource.start Scalar.order d digest signer.source).1 = .error cause →
      signer.sign digest = (.error cause, left 0)) ∧
    ((NonceSource.start Scalar.order d digest signer.source).1 = .ok () →
      (∀ j k r s, j < signer.attempts → (∀ i < j, NonceSource.Unusable d e source i) →
        NonceSource.nonce source j = .ok k → Ecdsa.Gives d e k r s →
          ∃ signature, signer.sign digest = (.ok signature, left (j + 1)) ∧
            signature.r = r ∧ signature.s = s) ∧
      (∀ j cause, j < signer.attempts → (∀ i < j, NonceSource.Unusable d e source i) →
        NonceSource.nonce source j = .error cause →
          signer.sign digest = (.error cause, left (j + 1))) ∧
      ((∀ i < signer.attempts, NonceSource.Unusable d e source i) →
        signer.sign digest = (.error .attemptsExhausted, left signer.attempts))) := by
  intro d e start source left
  refine ⟨fun k => Ecdsa.firstHalf_eq_none_iff, fun cause refused => ?_, fun started => ?_⟩
  · exact sign_of_failed_search bound (searchHalves_of_start (Prod.ext refused rfl))
  have began : NonceSource.start Scalar.order key.scalar digest signer.source = (.ok (), source) :=
    Prod.ext started rfl
  refine ⟨fun j k r s allowed earlier handed gives => ?_,
    fun j cause allowed earlier failed => ?_, fun unusable => ?_⟩
  · have ends : (NonceSource.nonce source j).map (Ecdsa.halves? signer.multiplier d e) =
        Except.map some (.ok (r, s)) := by
      rw [handed]
      exact congrArg Except.ok ((Ecdsa.halves_eq_some_iff signer.multiplier).mpr gives)
    exact sign_of_search bound (searchHalves_eq began allowed earlier ends) gives
  · have ends : (NonceSource.nonce source j).map (Ecdsa.halves? signer.multiplier d e) =
        Except.map some (.error cause) := by
      rw [failed]
      rfl
    exact sign_of_failed_search bound (searchHalves_eq began allowed earlier ends)
  · refine sign_of_failed_search bound ?_
    rw [searchHalves_eq_retry began,
      retry_eq_exhausted fun i before => attempt_of_unusable (unusable i before),
      stateAfter_attempt]
    rfl

/-- The order itself is refused as a nonce, and the digest is chosen so that the nonce one gives a
second half of zero under the key with the scalar one.  The nonce two signs. -/
theorem third_nonce_signs :
    let key : PrivateKey := ⟨1, by decide⟩
    let source := PrescribedNonces.ofList [Scalar.order, 1, 2]
    let signer : Signer PrescribedNonces := ⟨source, .ladder, 3, .signing key⟩
    let digest := Scalar.encode (Scalar.order - Point.generator.x.val)
    signer.binding = .signing key ∧
      NonceSource.Unusable 1 (Scalar.ofDigest digest) source 0 ∧
      NonceSource.Unusable 1 (Scalar.ofDigest digest) source 1 ∧
      ∃ r s signature, Ecdsa.Gives 1 (Scalar.ofDigest digest) 2 r s ∧
        signer.sign digest = (.ok signature, { signer with source := ⟨source.nonces, []⟩ }) ∧
        signature.r = r ∧ signature.s = s := by
  intro key source signer digest
  have refused : NonceSource.Unusable 1 (Scalar.ofDigest digest) source 0 :=
    ⟨Scalar.order, rfl, fun ⟨_, _, gives⟩ => gives.proper (dvd_refl _)⟩
  have vanishes : NonceSource.Unusable 1 (Scalar.ofDigest digest) source 1 := by
    refine ⟨1, rfl, (Ecdsa.halves_eq_none_iff .standard).mp ?_⟩
    decide +kernel
  obtain ⟨⟨r, s⟩, found⟩ : ∃ pair,
      Ecdsa.halves? .standard 1 (Scalar.ofDigest digest) 2 = some pair :=
    Option.isSome_iff_exists.mp (by decide +kernel)
  have gives := (Ecdsa.halves_eq_some_iff .standard).mp found
  have bound : signer.binding = .signing key := rfl
  obtain ⟨_, _, signs⟩ := first_usable_nonce_signs signer bound digest
  obtain ⟨signature, signed, halves⟩ := (signs rfl).1 2 2 r s (by decide)
    (fun i before => by
      interval_cases i
      · exact refused
      · exact vanishes)
    rfl gives
  exact ⟨rfl, refused, vanishes, r, s, signature, gives, signed, halves⟩

end Signer
end Secp256k1
