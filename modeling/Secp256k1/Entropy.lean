import Secp256k1.Error
import Secp256k1.Octets

/-!
# Entropy

A finite supply of unpredictable octets, drawn from the front.
-/

set_option autoImplicit false

namespace Secp256k1

structure Entropy where
  unread : Octets
deriving DecidableEq

namespace Entropy

/-- Draws `count` octets; a supply with fewer stays as it is. -/
def draw (count : Nat) (supply : Entropy) : Except Error Octets × Entropy :=
  if supply.unread.length < count then (.error .entropyExhausted, supply)
  else (.ok (supply.unread.take count), ⟨supply.unread.drop count⟩)

end Entropy
end Secp256k1
