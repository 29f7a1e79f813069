import Secp256k1.Error
import Secp256k1.Octets

/-!
# Sources of nonces

A signature consumes a secret number that is used once.  A source is started for one signature
and then asked for as many candidates as the signer needs.  Every action returns the next state
of the source, also when it fails.
-/

set_option autoImplicit false

namespace Secp256k1

class NonceSource (σ : Type) where
  isDeterministic : σ → Bool
  start : (order scalar : Nat) → (digest : Octets) → σ → Except Error Unit × σ
  next : σ → Except Error Nat × σ

namespace Nonce

/-- A group of order zero or one has no nonce. -/
def checkOrder (order : Nat) : Except Error Unit :=
  if Binary.bitLength order < 2 then .error .invalidOrder else .ok ()

def accept? (order candidate : Nat) : Option Nat :=
  if 0 < candidate ∧ candidate < order then some candidate else none

def width (order : Nat) : Nat :=
  Octets.widthOfBits (Binary.bitLength order)

end Nonce
end Secp256k1
