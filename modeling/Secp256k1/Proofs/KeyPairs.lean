import Mathlib
import Secp256k1.Key.Pair
import Secp256k1.Proofs.LowForm
import Secp256k1.Proofs.PointOrders
import Secp256k1.Proofs.PublicKeyOctets

/-!
# Pairs of keys

The generator has the prime order `n` and there are `n` points, so the scalars from one to `n - 1`
and the finite points of the curve correspond one to one.  A pair is accepted exactly when its two
keys correspond.
-/

set_option autoImplicit false

namespace Secp256k1

open Curve

namespace Curve

variable {j k : Nat}

theorem nsmul_base_inj (validJ : Scalar.IsValid j) (validK : Scalar.IsValid k) :
    j • base = k • base ↔ j = k := by
  constructor
  · intro same
    rw [← Nat.cast_smul_eq_nsmul (ZMod Scalar.order), ← Nat.cast_smul_eq_nsmul (ZMod Scalar.order)]
      at same
    exact Scalar.eq_of_cast_eq validJ validK
      (smul_left_injective (ZMod Scalar.order) base_ne_zero same)
  · intro same
    rw [same]

/-- A group of prime order is generated by each of its elements but the neutral one. -/
theorem exists_valid_nsmul_base {A : Group b} (proper : A ≠ 0) :
    ∃ k, Scalar.IsValid k ∧ k • base = A := by
  have generated : A ∈ AddSubmonoid.multiples base :=
    mem_multiples_of_prime_card card_group base_ne_zero
  obtain ⟨k, multiple⟩ := generated
  have reduced : Scalar.reduce k • base = A := (reduce_nsmul base k).trans multiple
  refine ⟨Scalar.reduce k, ⟨Nat.pos_of_ne_zero fun null => proper ?_, Scalar.reduce_lt k⟩, reduced⟩
  rw [← reduced, null, zero_nsmul]

end Curve

namespace Point

variable {P P' : Point} {A : Group b}

theorem Represents.of_sameAs (stands : Represents b P A) (same : P.sameAs P' = true) :
    Represents b P' A := by
  obtain ⟨A', stands'⟩ := (liesOn_congr ((sameAs_iff P P').mp same) stands.liesOn).represents
  rwa [(sameAs_iff_of_represents stands stands').mp same]

end Point

namespace PrivateKey

theorem represents_multiple (key : PrivateKey) :
    Point.Represents b key.publicKey.point (key.scalar • base) := by
  rw [← Nat.cast_smul_eq_nsmul (ZMod Scalar.order)]
  exact key.represents_publicKey

end PrivateKey

namespace KeyPair

variable {privateKey : PrivateKey} {publicKey : PublicKey}

theorem sameAs_publicKey_iff : privateKey.publicKey.point.sameAs publicKey.point = true ↔
    Point.Represents b publicKey.point (privateKey.scalar • base) := by
  constructor
  · intro same
    exact privateKey.represents_multiple.of_sameAs same
  · intro stands
    exact (sameAs_iff_of_represents privateKey.represents_multiple stands).mpr rfl

theorem ofKeys_of_represents
    (stands : Point.Represents b publicKey.point (privateKey.scalar • base)) :
    ofKeys privateKey publicKey = .ok ⟨privateKey, publicKey⟩ :=
  if_pos (sameAs_publicKey_iff.mpr stands)

theorem ofKeys_of_not_represents
    (other : ¬ Point.Represents b publicKey.point (privateKey.scalar • base)) :
    ofKeys privateKey publicKey = .error .keyMismatch :=
  if_neg (mt sameAs_publicKey_iff.mp other)

theorem represents_of_ofKeys {pair : KeyPair} (success : ofKeys privateKey publicKey = .ok pair) :
    Point.Represents b publicKey.point (privateKey.scalar • base) := by
  by_contra other
  rw [ofKeys_of_not_represents other] at success
  cases success

/-- Different scalars have different points.  A pair is made exactly when the public key is the
multiple of the generator by the scalar, which any multiplier can tell, and then both keys stay as
they are; every other pair is refused as a mismatch.  So a public key pairs with at most one
scalar, and each key that can be obtained pairs with one. -/
theorem keys_correspond_one_to_one :
    (∀ first second : PrivateKey,
      first.publicKey.point.sameAs second.publicKey.point = true ↔
        first.scalar = second.scalar) ∧
    (∀ (privateKey : PrivateKey) (publicKey : PublicKey),
      (Point.Represents b publicKey.point (privateKey.scalar • base) →
        ofKeys privateKey publicKey = .ok ⟨privateKey, publicKey⟩) ∧
      (¬ Point.Represents b publicKey.point (privateKey.scalar • base) →
        ofKeys privateKey publicKey = .error .keyMismatch) ∧
      ∀ multiplier : Multiplier,
        (multiplier.multiply Point.generator privateKey.scalar).sameAs publicKey.point = true ↔
          Point.Represents b publicKey.point (privateKey.scalar • base)) ∧
    (∀ (publicKey : PublicKey) (first second : PrivateKey) (pair pair' : KeyPair),
      ofKeys first publicKey = .ok pair → ofKeys second publicKey = .ok pair' →
        first.scalar = second.scalar) ∧
    ∀ publicKey : PublicKey, publicKey.Obtainable →
      ∃ privateKey : PrivateKey, ofKeys privateKey publicKey = .ok ⟨privateKey, publicKey⟩ := by
  refine ⟨fun first second => ?_, fun privateKey publicKey => ⟨ofKeys_of_represents,
    ofKeys_of_not_represents, fun multiplier => ?_⟩, fun publicKey first second pair pair' success
    success' => ?_, fun publicKey obtainable => ?_⟩
  · rw [sameAs_iff_of_represents first.represents_multiple second.represents_multiple]
    exact nsmul_base_inj first.valid second.valid
  · have multiple := (reading b).multiply represents_generator multiplier privateKey.scalar
    exact ⟨fun same => Point.Represents.of_sameAs multiple same,
      fun stands => (sameAs_iff_of_represents multiple stands).mpr rfl⟩
  · apply (nsmul_base_inj first.valid second.valid).mp
    exact (represents_of_ofKeys success).unique (represents_of_ofKeys success')
  · obtain ⟨A, proper, stands⟩ := obtainable.isAffineOnCurve.represents
    obtain ⟨k, valid, multiple⟩ := exists_valid_nsmul_base proper
    rw [← multiple] at stands
    exact ⟨⟨k, valid⟩, ofKeys_of_represents stands⟩

/-- The scalar two belongs to the doubled generator, here by a triple that is not affine, and the
scalar one does not.  Some scalar belongs to the key of the scalar two, and it can be no other. -/
theorem pairs_with_the_doubled_generator :
    ∃ one two : PrivateKey, one.scalar = 1 ∧ two.scalar = 2 ∧
      Point.Represents b Point.generator.twice (2 • base) ∧
      ofKeys two ⟨Point.generator.twice, false⟩ = .ok ⟨two, ⟨Point.generator.twice, false⟩⟩ ∧
      ofKeys one ⟨Point.generator.twice, false⟩ = .error .keyMismatch ∧
      ∃ privateKey : PrivateKey, privateKey.scalar = 2 ∧
        ofKeys privateKey two.publicKey = .ok ⟨privateKey, two.publicKey⟩ := by
  obtain ⟨_, decided, atMostOne, atLeastOne⟩ := keys_correspond_one_to_one
  let one : PrivateKey := ⟨1, by decide⟩
  let two : PrivateKey := ⟨2, by decide⟩
  have stands : Point.Represents b Point.generator.twice (2 • base) := by
    rw [two_nsmul]
    exact represents_generator.twice
  have other : ¬ Point.Represents b Point.generator.twice (1 • base) := by
    intro stands'
    obtain ⟨_, _, told⟩ := decided one ⟨Point.generator.twice, false⟩
    exact absurd ((told .doubleAndAdd).mpr stands') (by decide +kernel)
  obtain ⟨privateKey, success⟩ := atLeastOne two.publicKey (.ofPrivate two)
  have own : ofKeys two two.publicKey = .ok ⟨two, two.publicKey⟩ :=
    (decided two two.publicKey).1 two.represents_multiple
  exact ⟨one, two, rfl, rfl, stands, (decided two _).1 stands, (decided one _).2.1 other,
    privateKey, atMostOne two.publicKey privateKey two _ _ success own, success⟩

end KeyPair
end Secp256k1
