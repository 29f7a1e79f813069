import Secp256k1.Hash.Hmac
import Secp256k1.Nonce.Source
import Secp256k1.Retry

/-!
# Derived nonces

The deterministic nonces of RFC 6979 over any keyed function with tags of 32 octets.  A
generator of a key and a chaining value is seeded with the secret scalar and the digest; each
candidate is cut from the chaining values that follow, and a candidate outside the range makes
the generator reseed before the next one.
-/

set_option autoImplicit false

namespace Secp256k1

structure Generator where
  key : Octets
  value : Octets
deriving DecidableEq

namespace Generator

def initial : Generator :=
  ⟨List.replicate 32 0, List.replicate 32 1⟩

def advance (mac : Mac) (generator : Generator) : Generator :=
  ⟨generator.key, mac.tag generator.key generator.value⟩

def reseedInput (separator : UInt8) (material : Octets) (generator : Generator) : Octets :=
  generator.value ++ separator :: material

/-- A new key from the chaining value, a separator and further material, and then the next
chaining value. -/
def reseed (mac : Mac) (separator : UInt8) (material : Octets) (generator : Generator) :
    Generator :=
  advance mac ⟨mac.tag generator.key (generator.reseedInput separator material), generator.value⟩

def chain (mac : Mac) : (count : Nat) → Generator → Octets × Generator
  | 0, generator => ([], generator)
  | count + 1, generator =>
    let advanced := generator.advance mac
    let (rest, last) := chain mac count advanced
    (advanced.value ++ rest, last)

/-- As many octets of output as asked for; what is left of the last chaining value is not used. -/
def output (mac : Mac) (width : Nat) (generator : Generator) : Octets × Generator :=
  let (octets, last) := chain mac ((width + 31) / 32) generator
  (octets.take width, last)

/-- The number that stands for a digest, brought below the order.  It has no more bits than the
order, so one subtraction is enough. -/
def digestResidue (order : Nat) (digest : Octets) : Nat :=
  let integer := Octets.leftmost (Binary.bitLength order) digest
  if order ≤ integer then integer - order else integer

def seedMaterial (order scalar : Nat) (digest : Octets) : Octets :=
  Octets.fixed (Nonce.width order) (scalar % order) ++
    Octets.fixed (Nonce.width order) (digestResidue order digest)

def seeded (mac : Mac) (order scalar : Nat) (digest : Octets) : Generator :=
  let material := seedMaterial order scalar digest
  (initial.reseed mac 0 material).reseed mac 1 material

/-- Cuts one candidate; the generator reseeds if it is rejected. -/
def attempt (mac : Mac) (order : Nat) (generator : Generator) :
    Except Error (Option Nat) × Generator :=
  let (octets, last) := generator.output mac (Nonce.width order)
  match Nonce.accept? order (Octets.leftmost (Binary.bitLength order) octets) with
  | some nonce => (.ok (some nonce), last)
  | none => (.ok none, last.reseed mac 0 [])

end Generator

structure Derivation where
  order : Nat
  generator : Generator
deriving DecidableEq

/-- Nonces derived with `mac`; `attempts` bounds the candidates for one nonce. -/
structure DerivedNonces (mac : Mac) where
  attempts : Nat
  derivation : Option Derivation
deriving DecidableEq

namespace DerivedNonces

variable {mac : Mac}

def new (mac : Mac) (attempts : Nat) : DerivedNonces mac :=
  ⟨attempts, none⟩

def start (order scalar : Nat) (digest : Octets) (source : DerivedNonces mac) :
    Except Error Unit × DerivedNonces mac :=
  match Nonce.checkOrder order with
  | .error cause => (.error cause, ⟨source.attempts, none⟩)
  | .ok () =>
    (.ok (), ⟨source.attempts, some ⟨order, Generator.seeded mac order scalar digest⟩⟩)

def next (source : DerivedNonces mac) : Except Error Nat × DerivedNonces mac :=
  match source.derivation with
  | none => (.error .nonceNotInitialized, source)
  | some ⟨order, generator⟩ =>
    let (result, last) := retry (Generator.attempt mac order) source.attempts generator
    (result, ⟨source.attempts, some ⟨order, last⟩⟩)

instance : NonceSource (DerivedNonces mac) where
  isDeterministic _ := true
  start order scalar digest source := source.start order scalar digest
  next source := source.next

end DerivedNonces
end Secp256k1
