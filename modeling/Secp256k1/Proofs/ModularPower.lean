import Mathlib
import Secp256k1.Modular
import Secp256k1.Proofs.BinaryDigits

/-!
# Powers

Square and multiply is exponentiation followed by reduction, for every modulus.
-/

set_option autoImplicit false

namespace Secp256k1.Modular

theorem powerStep_pow (modulus base exponent : Nat) (bit : Bool) :
    powerStep modulus base (base ^ exponent % modulus) bit =
      base ^ (2 * exponent + bit.toNat) % modulus := by
  have square : base ^ exponent % modulus * (base ^ exponent % modulus) % modulus =
      base ^ (2 * exponent) % modulus := by
    rw [← Nat.mul_mod, ← Nat.pow_add, Nat.two_mul]
  cases bit with
  | false => simp [powerStep, square]
  | true =>
    simp only [powerStep, if_true, square, Bool.toNat_true, Nat.pow_succ, Nat.mod_mul_mod]

theorem foldl_powerStep (modulus base : Nat) (bits : List Bool) :
    ∀ exponent, bits.foldl (powerStep modulus base) (base ^ exponent % modulus) =
      base ^ bits.foldl (fun value bit => 2 * value + bit.toNat) exponent % modulus := by
  induction bits with
  | nil => intro exponent; rfl
  | cons bit rest ih => intro exponent; rw [List.foldl_cons, List.foldl_cons, powerStep_pow, ih]

theorem power_eq (modulus base exponent : Nat) :
    power modulus base exponent = base ^ exponent % modulus := by
  have run := foldl_powerStep modulus base (Binary.msbFirst exponent) 0
  rw [Nat.pow_zero] at run
  rw [power, run]
  exact congrArg (fun e => base ^ e % modulus) (Binary.ofMsbFirst_msbFirst exponent)

end Secp256k1.Modular
