import Secp256k1.Ecdsa
import Secp256k1.Point.Encoding
import Secp256k1.Signature.Basic

/-!
# Public keys

A finite point of the curve with `z = 1`, and the format in which it is written.
-/

set_option autoImplicit false

namespace Secp256k1

structure PublicKey where
  point : Point
  compressed : Bool
deriving DecidableEq

namespace PublicKey

/-- The key of a point; infinity and points off the curve have none. -/
def ofPoint (P : Point) (compressed : Bool) : Except Error PublicKey :=
  if P.isInfinity then .error .infinityPublicKey
  else if !P.isOnCurve then .error .pointNotOnCurve
  else .ok ⟨P.normalize, compressed⟩

/-- Reads a point in one of the two formats of a finite point and keeps the format. -/
def decode (octets : Octets) : Except Error PublicKey := do
  let P ← Point.decode octets
  if P.isInfinity then .error .infinityPublicKey
  else return ⟨P, octets.length == 33⟩

def encodeCompressed (key : PublicKey) : Octets :=
  key.point.encodeCompressed

def encodeUncompressed (key : PublicKey) : Octets :=
  key.point.encodeUncompressed

def encode (key : PublicKey) : Octets :=
  if key.compressed then key.encodeCompressed else key.encodeUncompressed

def withCompression (key : PublicKey) (compressed : Bool) : PublicKey :=
  ⟨key.point, compressed⟩

def sameAs (first second : PublicKey) : Bool :=
  first.point.sameAs second.point && first.compressed == second.compressed

/-- Whether a signature fits a digest and this key; high signatures are accepted too. -/
def verify (key : PublicKey) (digest : Octets) (signature : Signature) : Bool :=
  Ecdsa.accepts key.point digest signature.r signature.s

end PublicKey
end Secp256k1
