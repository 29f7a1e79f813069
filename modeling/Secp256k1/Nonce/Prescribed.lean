import Secp256k1.Nonce.Source

/-!
# Prescribed nonces

A list of numbers handed out one after the other, as they are, from its beginning at every
start.  Known-answer runs and the study of the signer's retries use it.
-/

set_option autoImplicit false

namespace Secp256k1

structure PrescribedNonces where
  nonces : List Nat
  rest : List Nat
deriving DecidableEq

namespace PrescribedNonces

def ofList (nonces : List Nat) : PrescribedNonces :=
  ⟨nonces, nonces⟩

def next (source : PrescribedNonces) : Except Error Nat × PrescribedNonces :=
  match source.rest with
  | [] => (.error .nonceNotInitialized, source)
  | nonce :: rest => (.ok nonce, ⟨source.nonces, rest⟩)

instance : NonceSource PrescribedNonces where
  isDeterministic _ := true
  start _ _ _ source := (.ok (), ofList source.nonces)
  next source := source.next

end PrescribedNonces
end Secp256k1
