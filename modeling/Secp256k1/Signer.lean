import Secp256k1.Key.Pair
import Secp256k1.Nonce.Derived

/-!
# Signers

A signer is bound to a private key for signing or to a public key for verification, and owns the
source of its nonces.  Binding forgets the old key even when it fails.  Signing starts the source
anew for every digest and repeats with fresh nonces until neither half of the signature is zero.
-/

set_option autoImplicit false

namespace Secp256k1

inductive Binding where
  | unbound
  | signing (key : PrivateKey)
  | verifying (key : PublicKey)
deriving DecidableEq

namespace Binding

/-- The binding of a key for a usage; each usage takes one kind of key. -/
def ofKey : Usage → Key → Except Error Binding
  | .signing, .ofPrivate key => .ok (signing key)
  | .verification, .ofPublic key => .ok (verifying key)
  | usage, _ => .error (.wrongKeyType usage)

end Binding

/-- A source of nonces, the multiplier for nonce points, the greatest number of nonces for one
signature, and the binding. -/
structure Signer (σ : Type) where
  source : σ
  multiplier : Multiplier
  attempts : Nat
  binding : Binding

namespace Signer

variable {σ : Type}

def ofSource (source : σ) (attempts : Nat) : Signer σ :=
  ⟨source, Multiplier.standard, attempts, .unbound⟩

def deterministic (mac : Mac) (attempts : Nat) : Signer (DerivedNonces mac) :=
  ofSource (DerivedNonces.new mac attempts) attempts

def withMultiplier (signer : Signer σ) (multiplier : Multiplier) : Signer σ :=
  { signer with multiplier }

/-- Binds the signer to a key, or leaves it unbound. -/
def bind (usage : Usage) (key : Key) (signer : Signer σ) : Except Error Unit × Signer σ :=
  match Binding.ofKey usage key with
  | .ok binding => (.ok (), { signer with binding })
  | .error cause => (.error cause, { signer with binding := .unbound })

def verifyHalves (signer : Signer σ) (digest : Octets) (r s : Nat) : Except Error Bool :=
  match signer.binding with
  | .verifying key => .ok (Ecdsa.accepts key.point digest r s)
  | _ => .error (.notInitialized .verification)

def verify (signer : Signer σ) (digest : Octets) (signature : Signature) : Except Error Bool :=
  signer.verifyHalves digest signature.r signature.s

variable [NonceSource σ]

def isDeterministic (signer : Signer σ) : Bool :=
  NonceSource.isDeterministic signer.source

def attempt (multiplier : Multiplier) (d e : Nat) (source : σ) :
    Except Error (Option (Nat × Nat)) × σ :=
  match NonceSource.next source with
  | (.error cause, next) => (.error cause, next)
  | (.ok k, next) => (.ok (Ecdsa.halves? multiplier d e k), next)

def searchHalves (signer : Signer σ) (key : PrivateKey) (digest : Octets) :
    Except Error (Nat × Nat) × σ :=
  match NonceSource.start Scalar.order key.scalar digest signer.source with
  | (.error cause, source) => (.error cause, source)
  | (.ok (), source) =>
    retry (attempt signer.multiplier key.scalar (Scalar.ofDigest digest)) signer.attempts source

/-- Signs a digest; the signature may be high or low. -/
def sign (digest : Octets) (signer : Signer σ) : Except Error Signature × Signer σ :=
  match signer.binding with
  | .signing key =>
    match signer.searchHalves key digest with
    | (.error cause, source) => (.error cause, { signer with source })
    | (.ok (r, s), source) => (Signature.ofScalars r s, { signer with source })
  | _ => (.error (.notInitialized .signing), signer)

end Signer

/-- The low signature with derived nonces. -/
def PrivateKey.sign (mac : Mac) (attempts : Nat) (key : PrivateKey) (digest : Octets) :
    Except Error Signature :=
  match (Signer.deterministic mac attempts).bind .signing (.ofPrivate key) with
  | (.error cause, _) => .error cause
  | (.ok (), signer) => (signer.sign digest).1.map Signature.canonicalize

end Secp256k1
