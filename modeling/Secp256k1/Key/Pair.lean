import Secp256k1.Key.Private

/-!
# Keys as a whole

A pair of keys that belong together, and the key of either kind that a signer is bound to.
-/

set_option autoImplicit false

namespace Secp256k1

structure KeyPair where
  privateKey : PrivateKey
  publicKey : PublicKey
deriving DecidableEq

namespace KeyPair

/-- Pairs two keys of the same point; the format of the public key stays. -/
def ofKeys (privateKey : PrivateKey) (publicKey : PublicKey) : Except Error KeyPair :=
  if privateKey.publicKey.point.sameAs publicKey.point then .ok ⟨privateKey, publicKey⟩
  else .error .keyMismatch

def ofPrivate (privateKey : PrivateKey) : KeyPair :=
  ⟨privateKey, privateKey.publicKey⟩

end KeyPair

inductive Key where
  | ofPrivate (key : PrivateKey)
  | ofPublic (key : PublicKey)
deriving DecidableEq

end Secp256k1
