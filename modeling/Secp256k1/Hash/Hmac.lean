import Secp256k1.Hash.Sha2

/-!
# Message authentication

A `Mac` is any function from a key and data to tags of 32 octets; what is derived from one
depends on nothing else.  `hmacSha256` is the member that is used in practice.
-/

set_option autoImplicit false

namespace Secp256k1

/-- A keyed function with tags of 32 octets. -/
structure Mac where
  tag : (key data : Octets) → Octets
  length_tag : ∀ key data, (tag key data).length = 32

namespace Hmac

/-- The key filled up with zeros to a block; a longer key is replaced by its digest first. -/
def blockKey (hash : Octets → Octets) (blockSize : Nat) (key : Octets) : Octets :=
  let short := if blockSize < key.length then hash key else key
  short ++ List.replicate (blockSize - short.length) 0

/-- The nested hash `hash (key ⊕ outer ‖ hash (key ⊕ inner ‖ data))`. -/
def tag (hash : Octets → Octets) (blockSize : Nat) (key data : Octets) : Octets :=
  let block := blockKey hash blockSize key
  hash (block.map (· ^^^ 0x5c) ++ hash (block.map (· ^^^ 0x36) ++ data))

end Hmac

def hmacSha256 : Mac :=
  ⟨Hmac.tag sha256 64, fun _ _ => length_sha256 _⟩

end Secp256k1
