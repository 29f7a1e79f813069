import Mathlib
import Secp256k1.Field
import Secp256k1.Proofs.ModularPower
import Secp256k1.Proofs.OctetStrings

/-!
# Powers and octets of field elements
-/

set_option autoImplicit false

namespace Secp256k1

namespace FieldElement

theorem val_power (a : FieldElement) (exponent : Nat) :
    (a.power exponent).val = a.val ^ exponent % fieldModulus := by
  rw [power, val_ofNat, Modular.power_eq, Nat.mod_mod]

theorem ofCanonical_eq_some_iff {v : Nat} {a : FieldElement} :
    ofCanonical? v = some a ↔ a.val = v := by
  unfold ofCanonical?
  constructor
  · intro canonical
    split at canonical
    · cases canonical
      rfl
    · cases canonical
  · rintro rfl
    rw [dif_pos a.isLt]

theorem decode_encode (a : FieldElement) : decode a.encode = .ok a := by
  have bounded : a.val < 256 ^ 32 := Nat.lt_trans a.isLt (by decide)
  have value : Octets.toNat a.encode = a.val := Octets.toNat_fixed_of_lt bounded
  rw [decode, if_pos a.length_encode, value, ofCanonical_eq_some_iff.mpr rfl]

end FieldElement
end Secp256k1
