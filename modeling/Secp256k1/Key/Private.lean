import Secp256k1.Entropy
import Secp256k1.Key.Public

/-!
# Private keys

A valid scalar.  Its public key is the multiple of the generator by it.
-/

set_option autoImplicit false

namespace Secp256k1

structure PrivateKey where
  scalar : Nat
  valid : Scalar.IsValid scalar

namespace PrivateKey

@[ext] theorem ext {first second : PrivateKey} (scalars : first.scalar = second.scalar) :
    first = second := by
  cases first; cases second; cases scalars; rfl

instance : DecidableEq PrivateKey := fun first second =>
  if scalars : first.scalar = second.scalar then .isTrue (ext scalars)
  else .isFalse fun same => scalars (congrArg scalar same)

def ofScalar (d : Nat) : Except Error PrivateKey :=
  if valid : Scalar.IsValid d then .ok ⟨d, valid⟩ else .error .scalarOutOfRange

def decode (octets : Octets) : Except Error PrivateKey :=
  if octets.length = 32 then ofScalar (Octets.toNat octets)
  else .error (.invalidLength 32 octets.length)

def encode (key : PrivateKey) : Octets :=
  Scalar.encode key.scalar

/-! ## Keys from seeds -/

/-- The ASCII label in front of a seed, which keeps this use of the hash apart from others. -/
def seedLabel : Octets :=
  Octets.fixed 22 0x7365637073696720736563703235366b312073656564

def seedResidue (hash : Octets → Octets) (seed : Octets) : Nat :=
  Scalar.reduce (Octets.toNat (hash (seedLabel ++ seed)))

/-- The key of a seed; a digest that is a multiple of the order gives the scalar one. -/
def ofSeed (hash : Octets → Octets) (seed : Octets) : PrivateKey :=
  if isNull : seedResidue hash seed = 0 then ⟨1, by decide⟩
  else ⟨seedResidue hash seed, Nat.pos_of_ne_zero isNull, Scalar.reduce_lt _⟩

def generate (hash : Octets → Octets) (entropy : Entropy) : Except Error PrivateKey × Entropy :=
  match entropy.draw 32 with
  | (.error cause, rest) => (.error cause, rest)
  | (.ok seed, rest) => (.ok (ofSeed hash seed), rest)

def publicKey (key : PrivateKey) : PublicKey :=
  ⟨(Multiplier.standard.multiply Point.generator key.scalar).normalize, true⟩

end PrivateKey
end Secp256k1
