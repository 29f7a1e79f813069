import Mathlib
import Secp256k1.Proofs.PublicKeys
import Secp256k1.Proofs.SignatureEquation

/-!
# The low form of a signature

The two signatures `(r, s)` and `(r, -s)` verify together and have one low form.  If no abscissa but
`r` itself reduces to `r`, the nonce element of a signature is known up to its sign, and the
signature equation then leaves these two second halves only.
-/

set_option autoImplicit false

namespace Secp256k1

open Curve

/-! ## Low and high -/

theorem Scalar.order_eq : order = 2 * halfOrder + 1 := by decide

namespace Signature

variable {signature : Signature}

@[ext] theorem ext {first second : Signature} (r : first.r = second.r) (s : first.s = second.s) :
    first = second := by
  cases first; cases second; cases r; cases s; rfl

@[simp] theorem flip_s : signature.flip.s = Scalar.order - signature.s := rfl

@[simp] theorem flip_flip : signature.flip.flip = signature := by
  have below := signature.s_valid.2
  refine ext rfl ?_
  rw [flip_s, flip_s]
  omega

theorem isLow_iff : signature.isLow = true ↔ signature.s ≤ Scalar.halfOrder :=
  decide_eq_true_iff

/-- The order is odd, so exactly one of the two forms is low. -/
theorem isLow_flip_iff : signature.flip.isLow = true ↔ ¬ signature.isLow = true := by
  have valid := signature.s_valid
  have odd := Scalar.order_eq
  rw [isLow_iff, isLow_iff, flip_s]
  unfold Scalar.IsValid at valid
  omega

theorem canonicalize_of_isLow (low : signature.isLow = true) :
    signature.canonicalize = signature :=
  if_pos low

theorem canonicalize_of_high (high : ¬ signature.isLow = true) :
    signature.canonicalize = signature.flip :=
  if_neg high

theorem canonicalize_eq_or_eq_flip (signature : Signature) :
    signature.canonicalize = signature ∨ signature.canonicalize = signature.flip := by
  by_cases low : signature.isLow = true
  · exact Or.inl (canonicalize_of_isLow low)
  · exact Or.inr (canonicalize_of_high low)

theorem isLow_canonicalize (signature : Signature) : signature.canonicalize.isLow = true := by
  by_cases low : signature.isLow = true
  · rwa [canonicalize_of_isLow low]
  · rw [canonicalize_of_high low]
    exact isLow_flip_iff.mpr low

theorem canonicalize_flip (signature : Signature) :
    signature.flip.canonicalize = signature.canonicalize := by
  by_cases low : signature.isLow = true
  · have high : ¬ signature.flip.isLow = true := fun alsoLow => isLow_flip_iff.mp alsoLow low
    rw [canonicalize_of_high high, flip_flip, canonicalize_of_isLow low]
  · rw [canonicalize_of_isLow (isLow_flip_iff.mpr low), canonicalize_of_high low]

end Signature

/-! ## One nonce element up to its sign -/

namespace Curve

variable {A A' : Group b} {r : Nat}

theorem abscissa_eq_of_residue {x y : FieldElement} {nonsingular : (weierstrass b).Nonsingular x y}
    (unwrapped : fieldModulus ≤ r + Scalar.order)
    (abscissa : residue (.some x y nonsingular) = some r) : x.val = r := by
  have reduced : x.val % Scalar.order = r := Option.some.inj abscissa
  have bound := x.isLt
  by_cases below : x.val < Scalar.order
  · rwa [Nat.mod_eq_of_lt below] at reduced
  · have twice : fieldModulus < 2 * Scalar.order := by decide
    rw [Nat.mod_eq_sub_mod (Nat.le_of_not_lt below), Nat.mod_eq_of_lt (by omega)] at reduced
    omega

theorem eq_or_eq_neg_of_residue (unwrapped : fieldModulus ≤ r + Scalar.order)
    (first : residue A = some r) (second : residue A' = some r) : A' = A ∨ A' = -A := by
  cases A with
  | zero => cases first
  | some x y nonsingular =>
    cases A' with
    | zero => cases second
    | some x' y' nonsingular' =>
      have same : x' = x := FieldElement.ext
        ((abscissa_eq_of_residue unwrapped second).trans
          (abscissa_eq_of_residue unwrapped first).symm)
      subst same
      rcases ordinates_of_same_abscissa nonsingular' nonsingular with equal | opposite
      · subst equal
        exact Or.inl rfl
      · subst opposite
        exact Or.inr (neg_eq nonsingular nonsingular').symm

theorem residue_ne_zero (abscissa : residue A = some r) : A ≠ 0 := by
  rintro rfl
  cases abscissa

end Curve

namespace Scalar

variable {j k : Nat}

theorem eq_of_cast_eq (validJ : IsValid j) (validK : IsValid k)
    (classes : (j : ZMod order) = k) : j = k := by
  rw [ZMod.natCast_eq_natCast_iff', Nat.mod_eq_of_lt validJ.2, Nat.mod_eq_of_lt validK.2] at classes
  exact classes

theorem isValid_order_sub (valid : IsValid k) : IsValid (order - k) := by
  unfold IsValid at valid ⊢
  omega

end Scalar

namespace Ecdsa

variable {Q : Point} {B : Group b} {digest : Octets} {r s s' : Nat}

/-- Both second halves carry their nonce elements to one and the same element. -/
theorem second_half_eq_or_opposite (stands : Point.Represents b Q B)
    (unwrapped : fieldModulus ≤ r + Scalar.order) (accepted : accepts Q digest r s = true)
    (accepted' : accepts Q digest r s' = true) : s' = s ∨ s' = Scalar.order - s := by
  obtain ⟨_, valid, A, related, abscissa⟩ := (accepts_iff stands digest r s).mp accepted
  obtain ⟨_, valid', A', related', abscissa'⟩ := (accepts_iff stands digest r s').mp accepted'
  have proper : A ≠ 0 := residue_ne_zero abscissa
  have target : (s' : ZMod Scalar.order) • A' = (s : ZMod Scalar.order) • A :=
    related'.trans related.symm
  rcases eq_or_eq_neg_of_residue unwrapped abscissa abscissa' with equal | opposite
  · rw [equal] at target
    exact Or.inl (Scalar.eq_of_cast_eq valid' valid
      (smul_left_injective (ZMod Scalar.order) proper target))
  · rw [opposite, smul_neg, ← neg_smul] at target
    have negated : -(s' : ZMod Scalar.order) = s :=
      smul_left_injective (ZMod Scalar.order) proper target
    rw [neg_eq_iff_eq_neg, ← Scalar.cast_order_sub valid] at negated
    exact Or.inr (Scalar.eq_of_cast_eq valid' (Scalar.isValid_order_sub valid) negated)

theorem accepts_order_sub (stands : Point.Represents b Q B)
    (accepted : accepts Q digest r s = true) :
    accepts Q digest r (Scalar.order - s) = true := by
  obtain ⟨validR, validS, _⟩ := (accepts_iff stands digest r s).mp accepted
  exact @PublicKey.verify_flip ⟨Q, true⟩ B stands digest ⟨r, s, validR, validS⟩ accepted

/-- The second halves that verify are none, or one and its opposite. -/
theorem accepted_second_halves (stands : Point.Represents b Q B)
    (unwrapped : fieldModulus ≤ r + Scalar.order) (digest : Octets) :
    {s | accepts Q digest r s = true} = ∅ ∨
      ∃ s, Scalar.IsValid s ∧ {s | accepts Q digest r s = true} = {s, Scalar.order - s} := by
  rcases Set.eq_empty_or_nonempty {s | accepts Q digest r s = true} with none | ⟨s, accepted⟩
  · exact Or.inl none
  · refine Or.inr ⟨s, ((accepts_iff stands digest r s).mp accepted).2.1, Set.ext fun s' => ?_⟩
    constructor
    · intro accepted'
      exact second_half_eq_or_opposite stands unwrapped accepted accepted'
    · rintro (rfl | rfl)
      · exact accepted
      · exact accepts_order_sub stands accepted

end Ecdsa

/-! ## Keys and signatures -/

namespace PublicKey

variable {key : PublicKey}

theorem verify_flip_eq {B : Group b} (stands : Point.Represents b key.point B) (digest : Octets)
    (signature : Signature) : key.verify digest signature.flip = key.verify digest signature := by
  rw [Bool.eq_iff_iff]
  constructor
  · intro accepted
    have again := verify_flip stands accepted
    rwa [Signature.flip_flip] at again
  · exact verify_flip stands

theorem low_eq_of_verify {B : Group b} (stands : Point.Represents b key.point B) {digest : Octets}
    {first second : Signature} (unwrapped : fieldModulus ≤ first.r + Scalar.order)
    (sameR : second.r = first.r) (lowFirst : first.isLow = true) (lowSecond : second.isLow = true)
    (accepted : key.verify digest first = true) (accepted' : key.verify digest second = true) :
    first = second := by
  rw [verify, sameR] at accepted'
  have odd := Scalar.order_eq
  rw [Signature.isLow_iff] at lowFirst lowSecond
  rcases Ecdsa.second_half_eq_or_opposite stands unwrapped accepted accepted' with equal | opposite
  · exact Signature.ext sameR.symm equal.symm
  · omega

/-- A signature and its opposite verify together and have the same low form, which is one of the two
and its own low form.  If no abscissa wraps around to `r`, the second halves that verify with `r` are
none or one and its opposite, and at most one low signature with `r` verifies. -/
theorem low_form_removes_malleability {key : PublicKey} (obtainable : key.Obtainable)
    (digest : Octets) :
    (∀ signature : Signature,
      key.verify digest signature.flip = key.verify digest signature ∧
      signature.flip.canonicalize = signature.canonicalize ∧
      (signature.canonicalize = signature ∨ signature.canonicalize = signature.flip) ∧
      signature.canonicalize.isLow = true ∧
      signature.canonicalize.canonicalize = signature.canonicalize) ∧
    ∀ r, fieldModulus ≤ r + Scalar.order →
      ({s | Ecdsa.accepts key.point digest r s = true} = ∅ ∨
        ∃ s, Scalar.IsValid s ∧
          {s | Ecdsa.accepts key.point digest r s = true} = {s, Scalar.order - s}) ∧
      ∀ first second : Signature, first.r = r → second.r = r →
        first.isLow = true → second.isLow = true →
        key.verify digest first = true → key.verify digest second = true → first = second := by
  obtain ⟨B, _, stands⟩ := obtainable.isAffineOnCurve.represents
  refine ⟨fun signature => ⟨verify_flip_eq stands digest signature,
    signature.canonicalize_flip, signature.canonicalize_eq_or_eq_flip,
    signature.isLow_canonicalize,
    Signature.canonicalize_of_isLow signature.isLow_canonicalize⟩, fun r unwrapped => ⟨?_, ?_⟩⟩
  · exact Ecdsa.accepted_second_halves stands unwrapped digest
  · intro first second rFirst rSecond lowFirst lowSecond accepted accepted'
    rw [← rFirst] at unwrapped rSecond
    exact low_eq_of_verify stands unwrapped rSecond lowFirst lowSecond accepted accepted'

/-- The key with the scalar one verifies the empty digest with the abscissa of the generator as the
first half, and only for that number and its opposite as the second half. -/
theorem second_halves_over_the_generator :
    (PrivateKey.mk 1 (by decide)).publicKey.Obtainable ∧
      fieldModulus ≤ Point.generator.x.val + Scalar.order ∧
      ∃ s, Scalar.IsValid s ∧
        {s | Ecdsa.accepts (PrivateKey.mk 1 (by decide)).publicKey.point [] Point.generator.x.val s
          = true} = {s, Scalar.order - s} := by
  have obtainable : (PrivateKey.mk 1 (by decide)).publicKey.Obtainable := .ofPrivate _
  have unwrapped : fieldModulus ≤ Point.generator.x.val + Scalar.order := by decide +kernel
  obtain ⟨halves, _⟩ := (low_form_removes_malleability obtainable []).2 _ unwrapped
  refine ⟨obtainable, unwrapped, halves.resolve_left fun none => ?_⟩
  have accepted : Ecdsa.accepts (PrivateKey.mk 1 (by decide)).publicKey.point []
      Point.generator.x.val Point.generator.x.val = true := by decide +kernel
  exact Set.notMem_empty Point.generator.x.val (none ▸ accepted)

end PublicKey
end Secp256k1
