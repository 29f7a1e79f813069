import Secp256k1.Entropy
import Secp256k1.Nonce.Source
import Secp256k1.Retry

/-!
# Random nonces

Candidates are drawn from a supply of entropy in blocks of whole octets; the excess leading bits
of a block are dropped and a candidate outside the range is rejected.  Nothing of a rejected
block is used again.
-/

set_option autoImplicit false

namespace Secp256k1

structure RandomNonces where
  entropy : Entropy
  order : Option Nat
deriving DecidableEq

namespace RandomNonces

def ofEntropy (entropy : Entropy) : RandomNonces :=
  ⟨entropy, none⟩

/-- The number that a block of octets stands for: its lowest bits, as many as the order has. -/
def candidate (order : Nat) (block : Octets) : Nat :=
  Octets.toNat block % (1 <<< Binary.bitLength order)

def attempt (order : Nat) (entropy : Entropy) : Except Error (Option Nat) × Entropy :=
  match entropy.draw (Nonce.width order) with
  | (.error cause, rest) => (.error cause, rest)
  | (.ok block, rest) => (.ok (Nonce.accept? order (candidate order block)), rest)

def start (order : Nat) (source : RandomNonces) : Except Error Unit × RandomNonces :=
  match Nonce.checkOrder order with
  | .error cause => (.error cause, ⟨source.entropy, none⟩)
  | .ok () => (.ok (), ⟨source.entropy, some order⟩)

/-- The first acceptable candidate.  Each attempt draws at least one octet, so the supply bounds
their number. -/
def next (source : RandomNonces) : Except Error Nat × RandomNonces :=
  match source.order with
  | none => (.error .nonceNotInitialized, source)
  | some order =>
    let (result, entropy) :=
      retry (attempt order) (source.entropy.unread.length + 1) source.entropy
    (result, ⟨entropy, some order⟩)

instance : NonceSource RandomNonces where
  isDeterministic _ := false
  start order _ _ source := source.start order
  next source := source.next

end RandomNonces
end Secp256k1
