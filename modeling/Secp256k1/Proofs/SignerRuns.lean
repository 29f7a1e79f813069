import Mathlib
import Secp256k1.Nonce.Random
import Secp256k1.Proofs.CompactSigning
import Secp256k1.Proofs.NonceDerivation
import Secp256k1.Proofs.Retries

/-!
# Runs of a signer

Binding is all that a run leaves behind for its answers.  The last call that binds decides what the
signer may do, whether it succeeded or not, and no other call changes the binding.  Derived nonces
are started anew for every signature, and all multipliers give the same halves, so a signature does
not depend on the ones before it.
-/

set_option autoImplicit false

namespace Secp256k1

/-! ## Failures of the sources -/

/-- The failures of the source are its own: none of them is about the binding of a signer. -/
structure NonceSource.KeepsToItself (σ : Type) [NonceSource σ] : Prop where
  start (order d : Nat) (digest : Octets) (source : σ) (usage : Usage) :
    (NonceSource.start order d digest source).1 ≠ .error (.notInitialized usage)
  next (source : σ) (usage : Usage) :
    (NonceSource.next source).1 ≠ .error (.notInitialized usage)

theorem Nonce.eq_of_checkOrder_eq_error {order : Nat} {cause : Error}
    (refused : checkOrder order = .error cause) : cause = .invalidOrder := by
  unfold checkOrder at refused
  split at refused
  · cases refused
    rfl
  · cases refused

theorem RandomNonces.eq_of_attempt_eq_error {order : Nat} {entropy : Entropy} {cause : Error}
    (refused : (attempt order entropy).1 = .error cause) : cause = .entropyExhausted := by
  unfold attempt Entropy.draw at refused
  split at refused
  · rename_i drawn
    split at drawn
    · cases drawn
      cases refused
      rfl
    · cases drawn
  · cases refused

theorem DerivedNonces.keepsToItself (mac : Mac) :
    NonceSource.KeepsToItself (DerivedNonces mac) where
  start order d digest source usage := by
    intro failed
    change (source.start order d digest).1 = _ at failed
    unfold DerivedNonces.start at failed
    split at failed
    · rename_i refused
      cases failed
      cases Nonce.eq_of_checkOrder_eq_error refused
    · cases failed
  next source usage := by
    intro failed
    change source.next.1 = _ at failed
    unfold DerivedNonces.next at failed
    split at failed
    · cases failed
    · cases (Generator.retry_attempt_eq_error_iff.mp failed).1

theorem RandomNonces.keepsToItself : NonceSource.KeepsToItself RandomNonces where
  start order d digest source usage := by
    intro failed
    change (source.start order).1 = _ at failed
    unfold RandomNonces.start at failed
    split at failed
    · rename_i refused
      cases failed
      cases Nonce.eq_of_checkOrder_eq_error refused
    · cases failed
  next source usage := by
    intro failed
    change source.next.1 = _ at failed
    unfold RandomNonces.next at failed
    split at failed
    · cases failed
    · rcases exists_of_retry_eq_error _ _ failed with exhausted | ⟨reached, refused⟩
      · cases exhausted
      · cases RandomNonces.eq_of_attempt_eq_error refused

/-! ## Multipliers -/

/-- The halves use the affine abscissa of the nonce point only, on which the multipliers agree. -/
theorem Ecdsa.halves_of_multiplier (first second : Multiplier) (d e k : Nat) :
    halves? first d e k = halves? second d e k := by
  have abscissas : residue (first.multiply Point.generator k) =
      residue (second.multiply Point.generator k) := by
    rw [Curve.residue_of_represents (Curve.represents_nsmul Curve.represents_generator first k),
      Curve.residue_of_represents (Curve.represents_nsmul Curve.represents_generator second k)]
  unfold halves?
  rw [abscissas]

namespace Signer

/-! ## Calls -/

inductive Call where
  | bind (usage : Usage) (key : Key)
  | sign (digest : Octets)
  | verifyHalves (digest : Octets) (r s : Nat)
  | verify (digest : Octets) (signature : Signature)

/-- The most recent call that binds, successful or not. -/
def lastBind (calls : List Call) : Option (Usage × Key) :=
  (calls.filterMap fun call =>
    match call with
    | .bind usage key => some (usage, key)
    | _ => none).getLast?

/-- What such a call leaves: a key of the wrong kind leaves nothing. -/
def bindingOf : Option (Usage × Key) → Binding
  | some (.signing, .ofPrivate key) => .signing key
  | some (.verification, .ofPublic key) => .verifying key
  | _ => .unbound

theorem bindingOf_eq_signing_iff {last : Option (Usage × Key)} {key : PrivateKey} :
    bindingOf last = .signing key ↔ last = some (.signing, .ofPrivate key) := by
  rcases last with _ | ⟨_ | _, _ | _⟩ <;> simp [bindingOf]

theorem bindingOf_eq_verifying_iff {last : Option (Usage × Key)} {key : PublicKey} :
    bindingOf last = .verifying key ↔ last = some (.verification, .ofPublic key) := by
  rcases last with _ | ⟨_ | _, _ | _⟩ <;> simp [bindingOf]

variable {σ : Type} {signer : Signer σ} {digest : Octets}

theorem binding_bind (usage : Usage) (key : Key) (signer : Signer σ) :
    (signer.bind usage key).2.binding = bindingOf (some (usage, key)) := by
  cases usage <;> cases key <;> rfl

theorem unbound_of_bind_eq_error {usage : Usage} {key : Key} {cause : Error}
    (failed : (signer.bind usage key).1 = .error cause) :
    (signer.bind usage key).2.binding = .unbound := by
  unfold bind at failed ⊢
  split at failed
  · cases failed
  · rfl

/-- Verification is refused for want of a key only, whatever is to be verified. -/
theorem verifyHalves_ne_iff {last : Option (Usage × Key)}
    (bound : signer.binding = bindingOf last) (digest : Octets) (r s : Nat) :
    signer.verifyHalves digest r s ≠ .error (.notInitialized .verification) ↔
      ∃ key, last = some (.verification, .ofPublic key) := by
  constructor
  · intro answered
    unfold verifyHalves at answered
    split at answered
    · rename_i key verifying
      exact ⟨key, bindingOf_eq_verifying_iff.mp (bound.symm.trans verifying)⟩
    · exact absurd rfl answered
  · rintro ⟨key, rfl⟩ refused
    unfold verifyHalves at refused
    rw [bound, bindingOf] at refused
    cases refused

variable [NonceSource σ]

/-- The state that a call leaves; verification leaves the signer as it is. -/
def after (signer : Signer σ) : Call → Signer σ
  | .bind usage key => (signer.bind usage key).2
  | .sign digest => (signer.sign digest).2
  | .verifyHalves _ _ _ => signer
  | .verify _ _ => signer

def run (signer : Signer σ) (calls : List Call) : Signer σ :=
  calls.foldl after signer

theorem run_concat (signer : Signer σ) (calls : List Call) (call : Call) :
    signer.run (calls ++ [call]) = (signer.run calls).after call := by
  rw [run, List.foldl_append]
  rfl

/-- Signing leaves all but the source, in success and in failure. -/
theorem sign_eq_source (signer : Signer σ) (digest : Octets) :
    ∃ source, (signer.sign digest).2 = { signer with source } := by
  unfold sign
  split
  · split
    · exact ⟨_, rfl⟩
    · exact ⟨_, rfl⟩
  · exact ⟨signer.source, rfl⟩

theorem binding_sign (signer : Signer σ) (digest : Octets) :
    (signer.sign digest).2.binding = signer.binding := by
  obtain ⟨source, left⟩ := signer.sign_eq_source digest
  rw [left]

/-- After any run the binding is that of the last call that binds. -/
theorem binding_run (fresh : signer.binding = .unbound) (calls : List Call) :
    (signer.run calls).binding = bindingOf (lastBind calls) := by
  -- From the end of the run, since the last call that binds decides.
  induction calls using List.reverseRecOn with
  | nil => exact fresh
  | append_singleton calls call ih =>
    rw [run_concat, lastBind, List.filterMap_append]
    cases call with
    | bind usage key =>
      rw [after, binding_bind]
      simp
    | sign digest =>
      rw [after, binding_sign, ih, lastBind]
      simp
    | verifyHalves digest r s =>
      rw [after, ih, lastBind]
      simp
    | verify digest signature =>
      rw [after, ih, lastBind]
      simp

/-- A bound signer reports a missing binding only if its source does. -/
theorem sourceFails_of_sign_eq_error {key : PrivateKey} (bound : signer.binding = .signing key)
    (failed : (signer.sign digest).1 = .error (.notInitialized .signing)) :
    signer.SourceFails key digest (.notInitialized .signing) := by
  rcases sign_of_binding bound digest with ⟨signature, success, _⟩ | ⟨cause, failure, reason⟩
  · cases success.symm.trans failed
  · cases failure.symm.trans failed
    rcases reason with fails | ⟨other, _⟩
    · exact fails
    · cases other

theorem not_sourceFails (separate : NonceSource.KeepsToItself σ) {key : PrivateKey} {usage : Usage} :
    ¬ signer.SourceFails key digest (.notInitialized usage) := by
  intro fails
  cases fails with
  | start refusal => exact separate.start _ _ _ _ usage (congrArg Prod.fst refusal)
  | next _ _ _ refusal => exact separate.next _ usage (congrArg Prod.fst refusal)

theorem sign_ne_iff (separate : NonceSource.KeepsToItself σ) {last : Option (Usage × Key)}
    (bound : signer.binding = bindingOf last) (digest : Octets) :
    (signer.sign digest).1 ≠ .error (.notInitialized .signing) ↔
      ∃ key, last = some (.signing, .ofPrivate key) := by
  constructor
  · intro answered
    by_contra none
    refine answered (congrArg Prod.fst (sign_of_no_key (fun key signing => none ⟨key, ?_⟩) digest))
    exact bindingOf_eq_signing_iff.mp (bound.symm.trans signing)
  · rintro ⟨key, rfl⟩ failed
    exact not_sourceFails separate (sourceFails_of_sign_eq_error bound failed)

theorem attempt_of_multiplier (first second : Multiplier) (d e : Nat) :
    (attempt first d e : σ → _) = attempt second d e := by
  funext source
  unfold attempt
  simp only [Ecdsa.halves_of_multiplier first second]

theorem binding_after {call : Call} (signer : Signer σ)
    (noBind : ∀ usage key, call ≠ .bind usage key) :
    (signer.after call).binding = signer.binding := by
  cases call with
  | bind usage key => exact absurd rfl (noBind usage key)
  | sign digest => exact signer.binding_sign digest
  | verifyHalves digest r s => rfl
  | verify digest signature => rfl

end Signer

/-! ## Signatures with derived nonces -/

section Derived

variable {mac : Mac}

theorem DerivedNonces.attempts_start (order d : Nat) (digest : Octets)
    (source : DerivedNonces mac) :
    (NonceSource.start order d digest source).2.attempts = source.attempts := by
  change (source.start order d digest).2.attempts = _
  unfold DerivedNonces.start
  split <;> rfl

theorem DerivedNonces.attempts_next (source : DerivedNonces mac) :
    (NonceSource.next source).2.attempts = source.attempts := by
  change source.next.2.attempts = _
  unfold DerivedNonces.next
  split <;> rfl

namespace Signer

/-- The limits of a signer, which no call changes. -/
def Limits (attempts : Nat) (signer : Signer (DerivedNonces mac)) : Prop :=
  signer.attempts = attempts ∧ signer.source.attempts = attempts

variable {attempts : Nat} {signer : Signer (DerivedNonces mac)}

theorem attempts_attempt (multiplier : Multiplier) (d e : Nat) (source : DerivedNonces mac) :
    (attempt multiplier d e source).2.attempts = source.attempts := by
  have next := source.attempts_next
  unfold attempt
  split <;> rwa [‹NonceSource.next source = _›] at next

theorem attempts_searchHalves (signer : Signer (DerivedNonces mac)) (key : PrivateKey)
    (digest : Octets) : (signer.searchHalves key digest).2.attempts = signer.source.attempts := by
  have started := DerivedNonces.attempts_start Scalar.order key.scalar digest signer.source
  unfold searchHalves
  split
  · rename_i refused
    rwa [refused] at started
  · rename_i source success
    rw [success] at started
    have kept : ∀ source : DerivedNonces mac, source.attempts = signer.source.attempts →
        (attempt signer.multiplier key.scalar (Scalar.ofDigest digest) source).2.attempts =
          signer.source.attempts :=
      fun source held => (attempts_attempt _ _ _ source).trans held
    exact retry_preserves kept signer.attempts source started

theorem Limits.sign (limits : signer.Limits attempts) (digest : Octets) :
    (signer.sign digest).2.Limits attempts := by
  unfold Signer.sign
  split
  · rename_i key _
    have kept := (signer.attempts_searchHalves key digest).trans limits.2
    split
    · rename_i cause source searched
      rw [searched] at kept
      exact ⟨limits.1, kept⟩
    · rename_i r s source searched
      rw [searched] at kept
      exact ⟨limits.1, kept⟩
  · exact limits

theorem Limits.bind (limits : signer.Limits attempts) (usage : Usage) (key : Key) :
    (signer.bind usage key).2.Limits attempts := by
  unfold Signer.bind
  split <;> exact limits

theorem Limits.run (limits : signer.Limits attempts) (calls : List Call) :
    (signer.run calls).Limits attempts := by
  induction calls using List.reverseRecOn with
  | nil => exact limits
  | append_singleton calls call ih =>
    rw [run_concat]
    cases call with
    | bind usage key => exact ih.bind usage key
    | sign digest => exact ih.sign digest
    | verifyHalves digest r s => exact ih
    | verify digest signature => exact ih

/-- The start forgets what the source did before, so nothing but the key and the limits counts. -/
theorem sign_eq_of_limits {first second : Signer (DerivedNonces mac)}
    (limits : first.Limits attempts) (limits' : second.Limits attempts)
    (bindings : first.binding = second.binding) (digest : Octets) :
    (first.sign digest).1 = (second.sign digest).1 := by
  have large : 2 ≤ Scalar.order := by decide
  have searches : ∀ key, first.searchHalves key digest = second.searchHalves key digest := by
    intro key
    have starts : NonceSource.start Scalar.order key.scalar digest first.source =
        NonceSource.start Scalar.order key.scalar digest second.source := by
      have started := first.source.start_eq large key.scalar digest
      have started' := second.source.start_eq large key.scalar digest
      rw [limits.2] at started
      rw [limits'.2] at started'
      exact started.trans started'.symm
    unfold searchHalves
    rw [starts, limits.1, limits'.1, attempt_of_multiplier first.multiplier second.multiplier]
  unfold Signer.sign
  rw [bindings]
  split
  · rename_i key _
    rw [searches key]
    split <;> rfl
  · rfl

/-- After any calls on a new signer, signing answers for want of a private key exactly when the last
call that bound was not one for signing with a private key, and likewise for verification; only a
source that reports a missing binding itself makes a difference.  A failed bind leaves no key, and
no other call changes the key.  With derived nonces a signature is the one of a new signer with the
same key, whatever its multiplier and whatever was signed before. -/
theorem runs_are_history_independent (multiplier : Multiplier) (attempts : Nat)
    (calls : List Call) :
    (∀ (σ : Type) [NonceSource σ] (source : σ),
      let signer := ((ofSource source attempts).withMultiplier multiplier).run calls
      (NonceSource.KeepsToItself σ → ∀ digest,
        (signer.sign digest).1 ≠ .error (.notInitialized .signing) ↔
          ∃ key, lastBind calls = some (.signing, .ofPrivate key)) ∧
      (∀ digest, (∀ key, lastBind calls ≠ some (.signing, .ofPrivate key)) →
        signer.sign digest = (.error (.notInitialized .signing), signer)) ∧
      (∀ key digest, lastBind calls = some (.signing, .ofPrivate key) →
        (signer.sign digest).1 = .error (.notInitialized .signing) →
          signer.SourceFails key digest (.notInitialized .signing)) ∧
      (∀ digest r s,
        signer.verifyHalves digest r s ≠ .error (.notInitialized .verification) ↔
          ∃ key, lastBind calls = some (.verification, .ofPublic key)) ∧
      (∀ digest signature,
        signer.verify digest signature ≠ .error (.notInitialized .verification) ↔
          ∃ key, lastBind calls = some (.verification, .ofPublic key)) ∧
      (∀ usage key cause, (signer.bind usage key).1 = .error cause →
        (signer.bind usage key).2.binding = .unbound) ∧
      ∀ call : Call, (∀ usage key, call ≠ .bind usage key) →
        (signer.after call).binding = signer.binding) ∧
    (∀ mac, NonceSource.KeepsToItself (DerivedNonces mac)) ∧
    NonceSource.KeepsToItself RandomNonces ∧
    ∀ (mac : Mac) (key : PrivateKey), lastBind calls = some (.signing, .ofPrivate key) →
      ∀ (other : Multiplier) (digest : Octets),
        ((((deterministic mac attempts).withMultiplier multiplier).run calls).sign digest).1 =
          ((((deterministic mac attempts).withMultiplier other).bind .signing
            (.ofPrivate key)).2.sign digest).1 := by
  refine ⟨fun σ _ source => ?_, DerivedNonces.keepsToItself, RandomNonces.keepsToItself,
    fun mac key last other digest => ?_⟩
  · intro signer
    have fresh : ((ofSource source attempts).withMultiplier multiplier).binding = .unbound := rfl
    have bound : signer.binding = bindingOf (lastBind calls) := binding_run fresh calls
    refine ⟨fun separate => sign_ne_iff separate bound, fun digest others => ?_,
      fun key digest last failed => ?_, verifyHalves_ne_iff bound, fun digest signature => ?_,
      fun usage key cause => unbound_of_bind_eq_error, fun call => signer.binding_after⟩
    · refine sign_of_no_key (fun key signing => others key ?_) digest
      exact bindingOf_eq_signing_iff.mp (bound.symm.trans signing)
    · refine sourceFails_of_sign_eq_error ?_ failed
      rw [bound, last]
      rfl
    · exact verifyHalves_ne_iff bound digest signature.r signature.s
  · have fresh : ∀ chosen,
        ((deterministic mac attempts).withMultiplier chosen).Limits attempts :=
      fun _ => ⟨rfl, rfl⟩
    refine sign_eq_of_limits ((fresh multiplier).run calls) ((fresh other).bind _ _) ?_ digest
    rw [binding_run rfl, binding_bind, last]

/-- The key with the scalar two signs, is replaced by a public key, which fails, and is bound again:
the next signature is the one of a new signer. -/
theorem signature_after_a_failed_bind :
    let two := PrivateKey.mk 2 (by decide)
    let calls := [.bind .signing (.ofPrivate two), .sign [],
      .bind .signing (.ofPublic two.publicKey), .sign [], .bind .signing (.ofPrivate two)]
    let signer :=
      ((deterministic PrivateKey.unitMac 1).withMultiplier .doubleAndAdd).run calls
    lastBind calls = some (.signing, .ofPrivate two) ∧
      (signer.sign []).1 ≠ .error (.notInitialized .signing) ∧
      (signer.sign []).1 =
        ((((deterministic PrivateKey.unitMac 1).withMultiplier .ladder).bind .signing
          (.ofPrivate two)).2.sign []).1 := by
  intro two calls signer
  have last : lastBind calls = some (.signing, .ofPrivate two) := rfl
  obtain ⟨answers, separate, _, fresh⟩ := runs_are_history_independent .doubleAndAdd 1 calls
  have signs := (answers _ (DerivedNonces.new PrivateKey.unitMac 1)).1 (separate _)
  exact ⟨last, (signs []).mpr ⟨two, last⟩, fresh PrivateKey.unitMac two last .ladder []⟩

end Signer

end Derived
end Secp256k1
