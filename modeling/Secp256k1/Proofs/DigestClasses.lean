import Mathlib
import Secp256k1.Proofs.CompactSigning
import Secp256k1.Proofs.NonceDerivation

/-!
# What a deterministic signature depends on

Nonce derivation reduces a digest by one subtraction, and the signature equation works modulo the
order.  Both see the same class of the digest: digests of one class share the generator, the
signature and everything that is derived from it, and the first input of the generator tells any two
keys and any two classes apart.
-/

set_option autoImplicit false

namespace Secp256k1

/-- The two integers of digests are in one class modulo the order. -/
abbrev Scalar.SameClass (first second : Octets) : Prop :=
  ofDigest first ≡ ofDigest second [MOD order]

open Scalar (SameClass)

/-! ## The first input of the generator -/

namespace Generator

/-- The secret and the digest can be read back from the seed material, both modulo the order. -/
theorem seedMaterial_eq_iff {order d₁ d₂ : Nat} {first second : Octets} (positive : 0 < order) :
    seedMaterial order d₁ first = seedMaterial order d₂ second ↔
      d₁ ≡ d₂ [MOD order] ∧
        Octets.leftmost (Binary.bitLength order) first ≡
          Octets.leftmost (Binary.bitLength order) second [MOD order] := by
  have whole : ∀ v, v < order →
      (Octets.fixed (Nonce.width order) v).toNat = v :=
    fun v below => Octets.toNat_fixed_of_lt (Nonce.lt_pow_width below)
  unfold seedMaterial
  rw [digestResidue_eq_mod positive, digestResidue_eq_mod positive]
  constructor
  · intro same
    -- Both halves have the width of the order, so the place of the cut depends on neither.
    obtain ⟨secrets, digests⟩ := List.append_inj same (by simp)
    have secretNumbers := congrArg Octets.toNat secrets
    have digestNumbers := congrArg Octets.toNat digests
    rw [whole _ (Nat.mod_lt _ positive), whole _ (Nat.mod_lt _ positive)] at secretNumbers
    rw [whole _ (Nat.mod_lt _ positive), whole _ (Nat.mod_lt _ positive)] at digestNumbers
    exact ⟨secretNumbers, digestNumbers⟩
  · rintro ⟨secrets, digests⟩
    rw [secrets, digests]

/-- The chaining value and the separator in front of the material are always the same. -/
theorem reseedInput_eq_iff {separator : UInt8} {first second : Octets} (state : Generator) :
    state.reseedInput separator first = state.reseedInput separator second ↔ first = second := by
  unfold reseedInput
  rw [List.append_cancel_left_eq, List.cons.injEq, and_iff_right rfl]

/-- The first tag is taken of the chaining value, a zero octet and the material, under the key of
zeros; nothing else of the secret and the digest is used later on than the material. -/
theorem seeded_eq (mac : Mac) (order scalar : Nat) (digest : Octets) :
    seeded mac order scalar digest =
      reseed mac 1 (seedMaterial order scalar digest) (advance mac
        ⟨mac.tag initial.key (initial.reseedInput 0 (seedMaterial order scalar digest)),
          initial.value⟩) := rfl

/-- Valid scalars take 32 octets, and so do residues. -/
theorem reseedInput_seedMaterial (key : PrivateKey) (digest : Octets) :
    initial.reseedInput 0 (seedMaterial Scalar.order key.scalar digest) =
      List.replicate 32 1 ++ 0 ::
        (Scalar.encode key.scalar ++ Scalar.encode (Scalar.reduce (Scalar.ofDigest digest))) := by
  have width : Nonce.width Scalar.order = 32 := by
    rw [Nonce.width, Scalar.bitLength_order]
    rfl
  rw [reseedInput, seedMaterial, width, Nat.mod_eq_of_lt key.valid.2,
    digestResidue_eq_mod Scalar.order_pos]
  rfl

theorem seedMaterial_of_sameClass {first second : Octets} (same : SameClass first second)
    (d : Nat) :
    seedMaterial Scalar.order d first = seedMaterial Scalar.order d second :=
  (seedMaterial_eq_iff Scalar.order_pos).mpr ⟨Nat.ModEq.refl d, same⟩

/-- A valid scalar is its own residue, so different keys have different material. -/
theorem seedMaterial_of_keys_eq_iff {key₁ key₂ : PrivateKey} {first second : Octets} :
    seedMaterial Scalar.order key₁.scalar first = seedMaterial Scalar.order key₂.scalar second ↔
      key₁ = key₂ ∧ SameClass first second := by
  rw [seedMaterial_eq_iff Scalar.order_pos]
  refine and_congr_left fun _ => ⟨fun scalars => PrivateKey.ext ?_, fun keys => ?_⟩
  · rwa [Nat.ModEq, Nat.mod_eq_of_lt key₁.valid.2, Nat.mod_eq_of_lt key₂.valid.2] at scalars
  · rw [keys]

end Generator

/-! ## Digests of one class -/

section SameClass

variable {first second : Octets}

theorem Scalar.reduce_ofDigest (same : SameClass first second) :
    reduce (ofDigest first) = reduce (ofDigest second) :=
  same

theorem Ecdsa.halves_of_modEq {e₁ e₂ : Nat} (same : e₁ ≡ e₂ [MOD Scalar.order])
    (multiplier : Multiplier) (d k : Nat) :
    halves? multiplier d e₁ k = halves? multiplier d e₂ k := by
  have sums : ∀ r, Scalar.reduce (e₁ + d * r) = Scalar.reduce (e₂ + d * r) :=
    fun r => same.add_right (d * r)
  unfold halves?
  simp only [sums]

theorem Ecdsa.accepts_of_sameClass (same : SameClass first second) (Q : Point) (r s : Nat) :
    accepts Q first r s = accepts Q second r s := by
  unfold accepts
  rw [Scalar.reduce_ofDigest same]

theorem Recovery.candidate_of_sameClass (same : SameClass first second) (id : RecoveryId)
    (signature : Signature) (compressed : Bool) :
    candidate id signature first compressed = candidate id signature second compressed := by
  unfold candidate keyPoint
  rw [Scalar.reduce_ofDigest same]

theorem Recovery.recover_of_sameClass (same : SameClass first second) (id : Nat)
    (signature : Signature) (compressed : Bool) :
    recover id signature first compressed = recover id signature second compressed := by
  unfold recover
  simp only [candidate_of_sameClass same]

variable {mac : Mac}

/-- The source is started in the same state, so that all later states agree as well. -/
theorem DerivedNonces.start_of_sameClass (same : SameClass first second) (d : Nat)
    (source : DerivedNonces mac) :
    source.start Scalar.order d first = source.start Scalar.order d second := by
  unfold DerivedNonces.start Generator.seeded
  rw [Generator.seedMaterial_of_sameClass same]

theorem Signer.attempt_of_sameClass {σ : Type} [NonceSource σ] (same : SameClass first second)
    (multiplier : Multiplier) (d : Nat) :
    (attempt multiplier d (Scalar.ofDigest first) : σ → _) =
      attempt multiplier d (Scalar.ofDigest second) := by
  funext source
  unfold attempt
  simp only [Ecdsa.halves_of_modEq same]

theorem Signer.sign_of_sameClass (same : SameClass first second)
    (signer : Signer (DerivedNonces mac)) : signer.sign first = signer.sign second := by
  have searches : ∀ key, signer.searchHalves key first = signer.searchHalves key second := by
    intro key
    have starts : NonceSource.start Scalar.order key.scalar first signer.source =
        NonceSource.start Scalar.order key.scalar second signer.source :=
      DerivedNonces.start_of_sameClass same key.scalar signer.source
    unfold searchHalves
    rw [starts, attempt_of_sameClass same]
  unfold sign
  simp only [searches]

theorem PrivateKey.sign_of_sameClass (same : SameClass first second) (attempts : Nat)
    (key : PrivateKey) : key.sign mac attempts first = key.sign mac attempts second := by
  rw [sign_eq, sign_eq, Signer.sign_of_sameClass same]

end SameClass

namespace PrivateKey

/-- A key signs the digests of one class in the same way: the generator takes the same inputs and
states, the signature is the same, and it verifies and recovers alike.  The first input of the
generator holds the key and the residue of the digest, and it is the same for no other key and no
other class. -/
theorem signature_depends_on_key_and_class (mac : Mac) (attempts : Nat) (key₁ key₂ : PrivateKey)
    (m₁ m₂ : Octets) :
    (key₁ = key₂ → SameClass m₁ m₂ →
      Generator.seedMaterial Scalar.order key₁.scalar m₁ =
        Generator.seedMaterial Scalar.order key₂.scalar m₂ ∧
      (∀ source : DerivedNonces mac,
        source.start Scalar.order key₁.scalar m₁ = source.start Scalar.order key₂.scalar m₂) ∧
      (∀ signer : Signer (DerivedNonces mac), signer.sign m₁ = signer.sign m₂) ∧
      key₁.sign mac attempts m₁ = key₂.sign mac attempts m₂ ∧
      (∀ (Q : Point) (r s : Nat), Ecdsa.accepts Q m₁ r s = Ecdsa.accepts Q m₂ r s) ∧
      ∀ (id : Nat) (signature : Signature) (compressed : Bool),
        Recovery.recover id signature m₁ compressed =
          Recovery.recover id signature m₂ compressed) ∧
    Generator.seeded mac Scalar.order key₁.scalar m₁ =
      Generator.reseed mac 1 (Generator.seedMaterial Scalar.order key₁.scalar m₁)
        (Generator.advance mac ⟨mac.tag Generator.initial.key
          (Generator.initial.reseedInput 0 (Generator.seedMaterial Scalar.order key₁.scalar m₁)),
          Generator.initial.value⟩) ∧
    Generator.initial.reseedInput 0 (Generator.seedMaterial Scalar.order key₁.scalar m₁) =
      List.replicate 32 1 ++ 0 ::
        (Scalar.encode key₁.scalar ++ Scalar.encode (Scalar.reduce (Scalar.ofDigest m₁))) ∧
    (Generator.initial.reseedInput 0 (Generator.seedMaterial Scalar.order key₁.scalar m₁) =
      Generator.initial.reseedInput 0 (Generator.seedMaterial Scalar.order key₂.scalar m₂) ↔
        key₁ = key₂ ∧ SameClass m₁ m₂) := by
  refine ⟨?_, Generator.seeded_eq mac _ _ m₁, Generator.reseedInput_seedMaterial key₁ m₁, ?_⟩
  · rintro rfl same
    exact ⟨Generator.seedMaterial_of_sameClass same _, DerivedNonces.start_of_sameClass same _,
      Signer.sign_of_sameClass same, sign_of_sameClass same attempts key₁,
      Ecdsa.accepts_of_sameClass same, Recovery.recover_of_sameClass same⟩
  · rw [Generator.reseedInput_eq_iff]
    exact Generator.seedMaterial_of_keys_eq_iff

/-- The octets of the order itself are a digest of the class of the empty one: the key with the
scalar two signs both alike, and its generator tells them from the digest that writes one. -/
theorem signature_of_a_digest_that_writes_the_order :
    SameClass [] (Octets.fixed 32 Scalar.order) ∧
      (∃ signature, (PrivateKey.mk 2 (by decide)).sign unitMac 1 [] = .ok signature ∧
        (PrivateKey.mk 2 (by decide)).sign unitMac 1 (Octets.fixed 32 Scalar.order) =
          .ok signature) ∧
      Generator.initial.reseedInput 0 (Generator.seedMaterial Scalar.order 2 []) ≠
        Generator.initial.reseedInput 0 (Generator.seedMaterial Scalar.order 2 [1]) := by
  have same : SameClass [] (Octets.fixed 32 Scalar.order) := by decide +kernel
  have signed : (PrivateKey.mk 2 (by decide)).sign unitMac 1 [] =
      .ok ⟨Point.generator.x.val, Scalar.order - 2 * Point.generator.x.val, by decide +kernel,
        by decide +kernel⟩ := by decide +kernel
  obtain ⟨_, _, _, signatures, _⟩ := (signature_depends_on_key_and_class unitMac 1
    (.mk 2 (by decide)) (.mk 2 (by decide)) [] (Octets.fixed 32 Scalar.order)).1 rfl same
  obtain ⟨_, _, _, inputs⟩ := signature_depends_on_key_and_class unitMac 1
    (.mk 2 (by decide)) (.mk 2 (by decide)) [] [1]
  refine ⟨same, ⟨_, signed, signatures.symm.trans signed⟩, fun equal => ?_⟩
  have other : ¬ SameClass [] [1] := by decide +kernel
  exact other (inputs.mp equal).2

end PrivateKey
end Secp256k1
