import Secp256k1.Recovery
import Secp256k1.Signer

/-!
# Compact signatures

A signature from which the public key and its format can be rebuilt: 65 octets, of which the
first is 27 plus the recovery id, plus four if the key is compressed.
-/

set_option autoImplicit false

namespace Secp256k1

structure CompactSignature where
  id : RecoveryId
  compressed : Bool
  signature : Signature
deriving DecidableEq

namespace CompactSignature

def ofParts (id : Nat) (compressed : Bool) (signature : Signature) :
    Except Error CompactSignature := do
  return ⟨← RecoveryId.ofNat id, compressed, signature⟩

/-- The lowest header; the eight values from it on are headers. -/
def headerBase : Nat := 27

def header (compact : CompactSignature) : UInt8 :=
  UInt8.ofNat (headerBase + compact.id.toNat + 4 * compact.compressed.toNat)

def toOctets (compact : CompactSignature) : Octets :=
  compact.header :: compact.signature.toOctets

def ofOctets (octets : Octets) : Except Error CompactSignature :=
  match octets with
  | [] => .error (.invalidLength 65 0)
  | header :: body =>
    if body.length ≠ 64 then .error (.invalidLength 65 octets.length)
    else if headerBase ≤ header.toNat ∧ header.toNat < headerBase + 8 then do
      let flags := header.toNat - headerBase
      let signature ← Signature.ofOctets body
      ofParts (flags % 4) (4 ≤ flags) signature
    else .error (.invalidCompactHeader header)

def recover (compact : CompactSignature) (digest : Octets) : Except Error PublicKey :=
  Recovery.candidate compact.id compact.signature digest compact.compressed

def recoverFromOctets (octets digest : Octets) : Except Error PublicKey := do
  (← ofOctets octets).recover digest

end CompactSignature

/-- The low signature with derived nonces, with the recovery id of the signer's key. -/
def PrivateKey.signCompact (mac : Mac) (attempts : Nat) (key : PrivateKey) (digest : Octets)
    (compressed : Bool) : Except Error CompactSignature := do
  let signature ← key.sign mac attempts digest
  let id ← Recovery.findId signature digest (key.publicKey.withCompression compressed)
  return ⟨id, compressed, signature⟩

end Secp256k1
