import Secp256k1.Binary

/-!
# Modular exponentiation

Left-to-right square and multiply, reduced after every product.
-/

set_option autoImplicit false

namespace Secp256k1.Modular

def powerStep (modulus base value : Nat) (bit : Bool) : Nat :=
  if bit then value * value % modulus * base % modulus else value * value % modulus

def power (modulus base exponent : Nat) : Nat :=
  (Binary.msbFirst exponent).foldl (powerStep modulus base) (1 % modulus)

end Secp256k1.Modular
