import Mathlib
import Secp256k1.Proofs.CheckedNonces
import Secp256k1.Proofs.CheckedPoints
import Secp256k1.Proofs.CheckedSignatures

/-!
# Checked runs of keys and signers

Verification, recovery and signing are put together from the checked parts.  Their scalars are below
the order, the order itself and nonces, so no multiplier counts past its word, whatever the digest
and the octets are.
-/

set_option autoImplicit false

namespace Secp256k1

/-! ## Keys -/

namespace PrivateKey

def checkedEncode (key : PrivateKey) : Option Octets :=
  Scalar.checkedEncode key.scalar

def checkedPublicKey (key : PrivateKey) : Option PublicKey := do
  return ⟨(← Multiplier.standard.checkedMultiply Point.generator key.scalar).normalize, true⟩

theorem checkedEncode_eq (key : PrivateKey) : key.checkedEncode = some key.encode :=
  Scalar.checkedEncode_eq key.scalar

theorem checkedPublicKey_eq (key : PrivateKey) : key.checkedPublicKey = some key.publicKey := by
  rw [checkedPublicKey,
    Multiplier.checkedMultiply_eq _ _ (Scalar.bitLength_lt_of_lt key.valid.2)]
  rfl

end PrivateKey

namespace PublicKey

def checkedOfPoint (P : Point) (compressed : Bool) : Option (Except Error PublicKey) := do
  if P.isInfinity then return .error .infinityPublicKey
  else
    if !(← P.checkedIsOnCurve) then return .error .pointNotOnCurve
    else return .ok ⟨P.normalize, compressed⟩

def checkedDecode (octets : Octets) : Option (Except Error PublicKey) := do
  match ← Point.checkedDecode octets with
  | .error cause => return .error cause
  | .ok P =>
    if P.isInfinity then return .error .infinityPublicKey
    else return .ok ⟨P, octets.length == 33⟩

def checkedEncode (key : PublicKey) : Option Octets :=
  if key.compressed then key.point.checkedEncodeCompressed
  else key.point.checkedEncodeUncompressed

theorem checkedOfPoint_eq (P : Point) (compressed : Bool) :
    checkedOfPoint P compressed = some (ofPoint P compressed) := by
  simp only [checkedOfPoint, Point.checkedIsOnCurve_eq, Option.bind_eq_bind, Option.bind_some,
    ofPoint]
  split
  · rfl
  · split <;> rfl

theorem checkedDecode_eq (octets : Octets) : checkedDecode octets = some (decode octets) := by
  rw [checkedDecode, Point.checkedDecode_eq, Option.bind_eq_bind, Option.bind_some, decode]
  cases Point.decode octets with
  | error cause => rfl
  | ok P =>
    dsimp only [bind, Except.bind]
    split <;> rfl

theorem checkedEncode_eq (key : PublicKey) : key.checkedEncode = some key.encode := by
  unfold checkedEncode encode
  split
  · exact key.point.checkedEncodeCompressed_eq
  · exact key.point.checkedEncodeUncompressed_eq

end PublicKey

/-! ## The signature equations -/

namespace Ecdsa

def checkedHalves (multiplier : Multiplier) (d e k : Nat) : Option (Option (Nat × Nat)) := do
  match residue (← multiplier.checkedMultiply Point.generator k) with
  | none => return none
  | some r =>
    if r = 0 then return none
    else
      let s := Scalar.product (Scalar.invert k) (Scalar.reduce (e + d * r))
      if s = 0 then return none else return some (r, s)

def checkedAccepts (Q : Point) (digest : Octets) (r s : Nat) : Option Bool := do
  if Scalar.IsValid r ∧ Scalar.IsValid s then
    let e := Scalar.reduce (← Scalar.checkedOfDigest digest)
    let w := Scalar.invert s
    let sum ← Point.checkedSumOfMultiples Point.generator (Scalar.product e w) Q
      (Scalar.product r w)
    return residue sum == some r
  else return false

theorem checkedHalves_eq (multiplier : Multiplier) (d e : Nat) {k : Nat}
    (bounded : Binary.bitLength k < 2 ^ 32) :
    checkedHalves multiplier d e k = some (halves? multiplier d e k) := by
  rw [checkedHalves, Multiplier.checkedMultiply_eq _ _ bounded, Option.bind_eq_bind,
    Option.bind_some, halves?]
  cases residue (multiplier.multiply Point.generator k) with
  | none => rfl
  | some r =>
    dsimp only
    split
    · rfl
    · split <;> rfl

theorem checkedAccepts_eq (Q : Point) (digest : Octets) (r s : Nat) :
    checkedAccepts Q digest r s = some (accepts Q digest r s) := by
  simp only [checkedAccepts, Scalar.checkedOfDigest_eq, Point.checkedSumOfMultiples_eq,
    Option.bind_eq_bind, Option.bind_some, accepts]
  split <;> rfl

end Ecdsa

/-! ## Recovery -/

def RecoveryId.checkedNoncePoint (id : RecoveryId) (r : Nat) : Option (Option Point) := do
  match FieldElement.ofCanonical? (if id.overflow then r + Scalar.order else r) with
  | none => return none
  | some x =>
    match ← Point.checkedDecompress x id.odd with
    | none => return none
    | some R =>
      if (← Multiplier.standard.checkedMultiply R Scalar.order).isInfinity then return some R
      else return none

theorem RecoveryId.checkedNoncePoint_eq (id : RecoveryId) (r : Nat) :
    id.checkedNoncePoint r = some (id.noncePoint? r) := by
  have bounded : Binary.bitLength Scalar.order < 2 ^ 32 := by
    rw [Scalar.bitLength_order]
    decide
  simp only [checkedNoncePoint, Point.checkedDecompress_eq,
    Multiplier.checkedMultiply_eq _ _ bounded, Option.bind_eq_bind, Option.bind_some, noncePoint?]
  cases FieldElement.ofCanonical? (if id.overflow then r + Scalar.order else r) with
  | none => rfl
  | some x =>
    dsimp only
    cases Point.decompress x id.odd with
    | none => rfl
    | some R =>
      dsimp only
      split <;> rfl

namespace Recovery

def checkedKeyPoint (R : Point) (signature : Signature) (digest : Octets) : Option Point := do
  let e := Scalar.reduce (← Scalar.checkedOfDigest digest)
  let inverse := Scalar.invert signature.r
  Point.checkedSumOfMultiples Point.generator
    (Scalar.product (← Scalar.checkedNegate e) inverse) R (Scalar.product signature.s inverse)

def checkedCandidate (id : RecoveryId) (signature : Signature) (digest : Octets)
    (compressed : Bool) : Option (Except Error PublicKey) := do
  match ← id.checkedNoncePoint signature.r with
  | none => return .error .recoveryFailed
  | some R =>
    match ← PublicKey.checkedOfPoint (← checkedKeyPoint R signature digest) compressed with
    | .ok key => return .ok key
    | .error _ => return .error .recoveryFailed

def checkedRecover (id : Nat) (signature : Signature) (digest : Octets) (compressed : Bool) :
    Option (Except Error PublicKey) := do
  match RecoveryId.ofNat id with
  | .error cause => return .error cause
  | .ok id => checkedCandidate id signature digest compressed

def checkedLeadsTo (signature : Signature) (digest : Octets) (key : PublicKey)
    (id : RecoveryId) : Option Bool := do
  match ← checkedCandidate id signature digest key.compressed with
  | .ok found => return found.point.sameAs key.point
  | .error _ => return false

def checkedFindId (signature : Signature) (digest : Octets) (key : PublicKey) :
    Option (Except Error RecoveryId) := do
  match ← RecoveryId.all.findM? (checkedLeadsTo signature digest key) with
  | some id => return .ok id
  | none => return .error .recoveryFailed

theorem checkedKeyPoint_eq (R : Point) (signature : Signature) (digest : Octets) :
    checkedKeyPoint R signature digest = some (keyPoint R signature digest) := by
  simp only [checkedKeyPoint, Scalar.checkedOfDigest_eq, Scalar.checkedNegate_eq,
    Point.checkedSumOfMultiples_eq, Option.bind_eq_bind, Option.bind_some, keyPoint]

theorem checkedCandidate_eq (id : RecoveryId) (signature : Signature) (digest : Octets)
    (compressed : Bool) :
    checkedCandidate id signature digest compressed =
      some (candidate id signature digest compressed) := by
  simp only [checkedCandidate, RecoveryId.checkedNoncePoint_eq, checkedKeyPoint_eq,
    PublicKey.checkedOfPoint_eq, Option.bind_eq_bind, Option.bind_some, candidate]
  cases id.noncePoint? signature.r with
  | none => rfl
  | some R =>
    dsimp only
    cases PublicKey.ofPoint (keyPoint R signature digest) compressed <;> rfl

theorem checkedRecover_eq (id : Nat) (signature : Signature) (digest : Octets)
    (compressed : Bool) :
    checkedRecover id signature digest compressed =
      some (recover id signature digest compressed) := by
  unfold checkedRecover recover
  cases RecoveryId.ofNat id with
  | error cause => rfl
  | ok id => exact checkedCandidate_eq id signature digest compressed

theorem checkedFindId_eq (signature : Signature) (digest : Octets) (key : PublicKey) :
    checkedFindId signature digest key = some (findId signature digest key) := by
  have pureStep : checkedLeadsTo signature digest key =
      fun id => pure (leadsTo signature digest key id) := by
    funext id
    rw [checkedLeadsTo, checkedCandidate_eq, Option.bind_eq_bind, Option.bind_some, leadsTo]
    cases candidate id signature digest key.compressed <;> rfl
  rw [checkedFindId, pureStep, List.findM?_pure, findId]
  cases RecoveryId.all.find? (leadsTo signature digest key) <;> rfl

end Recovery

namespace CompactSignature

def checkedRecover (compact : CompactSignature) (digest : Octets) :
    Option (Except Error PublicKey) :=
  Recovery.checkedCandidate compact.id compact.signature digest compact.compressed

def checkedRecoverFromOctets (octets digest : Octets) : Option (Except Error PublicKey) := do
  match ← checkedOfOctets octets with
  | .error cause => return .error cause
  | .ok compact => compact.checkedRecover digest

theorem checkedRecoverFromOctets_eq (octets digest : Octets) :
    checkedRecoverFromOctets octets digest = some (recoverFromOctets octets digest) := by
  rw [checkedRecoverFromOctets, checkedOfOctets_eq, Option.bind_eq_bind, Option.bind_some,
    recoverFromOctets]
  cases ofOctets octets with
  | error cause => rfl
  | ok compact => exact Recovery.checkedCandidate_eq _ _ _ _

end CompactSignature

/-! ## Signers -/

namespace Signer

variable {σ : Type}

def checkedVerifyHalves (signer : Signer σ) (digest : Octets) (r s : Nat) :
    Option (Except Error Bool) := do
  match signer.binding with
  | .verifying key => return .ok (← Ecdsa.checkedAccepts key.point digest r s)
  | _ => return .error (.notInitialized .verification)

theorem checkedVerifyHalves_eq (signer : Signer σ) (digest : Octets) (r s : Nat) :
    signer.checkedVerifyHalves digest r s = some (signer.verifyHalves digest r s) := by
  simp only [checkedVerifyHalves, Ecdsa.checkedAccepts_eq, Option.bind_eq_bind, Option.bind_some,
    verifyHalves]
  cases signer.binding <;> rfl

variable [NonceSource σ] [CheckedSource σ]

def checkedAttempt (multiplier : Multiplier) (d e : Nat) (source : σ) :
    Option (Except Error (Option (Nat × Nat)) × σ) := do
  match ← CheckedSource.next source with
  | (.error cause, next) => return (.error cause, next)
  | (.ok k, next) => return (.ok (← Ecdsa.checkedHalves multiplier d e k), next)

def checkedSearchHalves (signer : Signer σ) (key : PrivateKey) (digest : Octets) :
    Option (Except Error (Nat × Nat) × σ) := do
  match ← CheckedSource.start Scalar.order key.scalar digest signer.source with
  | (.error cause, source) => return (.error cause, source)
  | (.ok (), source) =>
    let e ← Scalar.checkedOfDigest digest
    checkedRetry (checkedAttempt signer.multiplier key.scalar e) signer.attempts source

def checkedSign (digest : Octets) (signer : Signer σ) :
    Option (Except Error Signature × Signer σ) := do
  match signer.binding with
  | .signing key =>
    match ← signer.checkedSearchHalves key digest with
    | (.error cause, source) => return (.error cause, { signer with source })
    | (.ok (r, s), source) => return (Signature.ofScalars r s, { signer with source })
  | _ => return (.error (.notInitialized .signing), signer)

theorem checkedAttempt_eq (multiplier : Multiplier) (d e : Nat) {source : σ}
    (started : CheckedSource.Started source) :
    checkedAttempt multiplier d e source = some (attempt multiplier d e source) := by
  rw [checkedAttempt, CheckedSource.next_eq source started, Option.bind_eq_bind,
    Option.bind_some, attempt]
  rcases drawn : NonceSource.next source with ⟨cause | k, next⟩
  · rfl
  · have bounded := CheckedSource.bitLength_next source k started (by rw [drawn])
    dsimp only
    rw [Ecdsa.checkedHalves_eq multiplier d e bounded]
    rfl

theorem started_attempt (multiplier : Multiplier) (d e : Nat) {source : σ}
    (started : CheckedSource.Started source) :
    CheckedSource.Started (attempt multiplier d e source).2 := by
  have next := CheckedSource.started_next source started
  unfold attempt
  split
  · rename_i drawn
    rwa [drawn] at next
  · rename_i drawn
    rwa [drawn] at next

/-- The start comes first, so nothing depends on what the source was used for before. -/
theorem checkedSearchHalves_eq (signer : Signer σ) (key : PrivateKey) (digest : Octets) :
    signer.checkedSearchHalves key digest = some (signer.searchHalves key digest) := by
  have started := CheckedSource.started key.scalar digest signer.source
  rw [checkedSearchHalves, CheckedSource.start_eq, Option.bind_eq_bind, Option.bind_some,
    searchHalves]
  rcases outcome : NonceSource.start Scalar.order key.scalar digest signer.source with
    ⟨cause | ⟨⟩, source⟩
  · rfl
  · rw [outcome] at started
    dsimp only
    rw [Scalar.checkedOfDigest_eq, Option.bind_eq_bind, Option.bind_some]
    exact checkedRetry_eq CheckedSource.Started
      (fun _ started => checkedAttempt_eq signer.multiplier key.scalar _ started)
      (fun _ started => started_attempt signer.multiplier key.scalar _ started) signer.attempts
      source (started rfl)

theorem checkedSign_eq (signer : Signer σ) (digest : Octets) :
    signer.checkedSign digest = some (signer.sign digest) := by
  unfold checkedSign sign
  cases signer.binding with
  | unbound => rfl
  | signing key =>
    dsimp only
    rw [checkedSearchHalves_eq, Option.bind_eq_bind, Option.bind_some]
    rcases signer.searchHalves key digest with ⟨cause | ⟨r, s⟩, source⟩ <;> rfl
  | verifying key => rfl

end Signer

namespace PrivateKey

def checkedSign (mac : Mac) (attempts : Nat) (key : PrivateKey) (digest : Octets) :
    Option (Except Error Signature) := do
  match (Signer.deterministic mac attempts).bind .signing (.ofPrivate key) with
  | (.error cause, _) => return .error cause
  | (.ok (), signer) =>
    match (← signer.checkedSign digest).1 with
    | .error cause => return .error cause
    | .ok signature => return .ok (← signature.checkedCanonicalize)

def checkedSignCompact (mac : Mac) (attempts : Nat) (key : PrivateKey) (digest : Octets)
    (compressed : Bool) : Option (Except Error CompactSignature) := do
  match ← key.checkedSign mac attempts digest with
  | .error cause => return .error cause
  | .ok signature =>
    let own := (← key.checkedPublicKey).withCompression compressed
    match ← Recovery.checkedFindId signature digest own with
    | .error cause => return .error cause
    | .ok id => return .ok ⟨id, compressed, signature⟩

theorem checkedSign_eq (mac : Mac) (attempts : Nat) (key : PrivateKey) (digest : Octets) :
    key.checkedSign mac attempts digest = some (key.sign mac attempts digest) := by
  unfold checkedSign sign
  rcases (Signer.deterministic mac attempts).bind .signing (.ofPrivate key) with
    ⟨cause | ⟨⟩, signer⟩
  · rfl
  · simp only [Signer.checkedSign_eq, Signature.checkedCanonicalize_eq, Option.bind_eq_bind,
      Option.bind_some]
    cases (signer.sign digest).1 <;> rfl

theorem checkedSignCompact_eq (mac : Mac) (attempts : Nat) (key : PrivateKey) (digest : Octets)
    (compressed : Bool) :
    key.checkedSignCompact mac attempts digest compressed =
      some (key.signCompact mac attempts digest compressed) := by
  simp only [checkedSignCompact, checkedSign_eq, checkedPublicKey_eq, Recovery.checkedFindId_eq,
    Option.bind_eq_bind, Option.bind_some, signCompact]
  cases key.sign mac attempts digest with
  | error cause => rfl
  | ok signature =>
    dsimp only [bind, Except.bind]
    cases Recovery.findId signature digest (key.publicKey.withCompression compressed) <;> rfl

end PrivateKey

namespace Checked

/-- Runs of keys, of verification and recovery, and of signers in any state. -/
structure Calls (mac : Mac) : Prop where
  encodePrivate (key : PrivateKey) : key.checkedEncode = some key.encode
  publicKey (key : PrivateKey) : key.checkedPublicKey = some key.publicKey
  ofPoint (P : Point) (compressed : Bool) :
    PublicKey.checkedOfPoint P compressed = some (PublicKey.ofPoint P compressed)
  encodePublic (key : PublicKey) : key.checkedEncode = some key.encode
  decodePublic (octets : Octets) :
    PublicKey.checkedDecode octets = some (PublicKey.decode octets)
  accepts (Q : Point) (digest : Octets) (r s : Nat) :
    Ecdsa.checkedAccepts Q digest r s = some (Ecdsa.accepts Q digest r s)
  recover (id : Nat) (signature : Signature) (digest : Octets) (compressed : Bool) :
    Recovery.checkedRecover id signature digest compressed =
      some (Recovery.recover id signature digest compressed)
  findId (signature : Signature) (digest : Octets) (key : PublicKey) :
    Recovery.checkedFindId signature digest key = some (Recovery.findId signature digest key)
  recoverFromOctets (octets digest : Octets) :
    CompactSignature.checkedRecoverFromOctets octets digest =
      some (CompactSignature.recoverFromOctets octets digest)
  signDerived (signer : Signer (DerivedNonces mac)) (digest : Octets) :
    signer.checkedSign digest = some (signer.sign digest)
  signRandom (signer : Signer RandomNonces) (digest : Octets) :
    signer.checkedSign digest = some (signer.sign digest)
  signOther (σ : Type) [NonceSource σ] [CheckedSource σ] (signer : Signer σ) (digest : Octets) :
    signer.checkedSign digest = some (signer.sign digest)
  verifyHalves (σ : Type) (signer : Signer σ) (digest : Octets) (r s : Nat) :
    signer.checkedVerifyHalves digest r s = some (signer.verifyHalves digest r s)
  signLow (attempts : Nat) (key : PrivateKey) (digest : Octets) :
    key.checkedSign mac attempts digest = some (key.sign mac attempts digest)
  signCompact (attempts : Nat) (key : PrivateKey) (digest : Octets) (compressed : Bool) :
    key.checkedSignCompact mac attempts digest compressed =
      some (key.signCompact mac attempts digest compressed)

theorem calls (mac : Mac) : Calls mac where
  encodePrivate := PrivateKey.checkedEncode_eq
  publicKey := PrivateKey.checkedPublicKey_eq
  ofPoint := PublicKey.checkedOfPoint_eq
  encodePublic := PublicKey.checkedEncode_eq
  decodePublic := PublicKey.checkedDecode_eq
  accepts := Ecdsa.checkedAccepts_eq
  recover := Recovery.checkedRecover_eq
  findId := Recovery.checkedFindId_eq
  recoverFromOctets := CompactSignature.checkedRecoverFromOctets_eq
  signDerived := Signer.checkedSign_eq
  signRandom := Signer.checkedSign_eq
  signOther _ := Signer.checkedSign_eq
  verifyHalves _ := Signer.checkedVerifyHalves_eq
  signLow := PrivateKey.checkedSign_eq mac
  signCompact := PrivateKey.checkedSignCompact_eq mac

/-- No run takes a difference below zero, reads or writes outside of a string, lets a sum leave its
word or keeps an element that is not reduced: each checked run ends, with the value of the plain
one. -/
theorem every_run_stays_inside (mac : Mac) :
    Elements ∧ Points ∧ Multipliers ∧ Nonces mac ∧ Signatures ∧ Calls mac :=
  ⟨elements, points, multipliers, nonces mac, signatures, calls mac⟩

/-- A scalar of five bits, and a source that first refuses the order one, then draws from two octets
for the order six: the first octet is cut to six and refused, the second one to five. -/
theorem runs_of_short_inputs :
    Binary.bitLength 29 < 2 ^ 32 ∧
      NonAdjacentForm.checkedOfNat 29 = some [⟨false, 0⟩, ⟨true, 1⟩, ⟨false, 2⟩] ∧
      (NonceSource.run (RandomNonces.ofEntropy ⟨[0x0E, 0xFD]⟩)
        [.start 1 0 [], .next, .start 6 0 []]).checkedNext = some (.ok 5, ⟨⟨[]⟩, some 6⟩) := by
  have short : Binary.bitLength 29 < 2 ^ 32 := by decide
  obtain ⟨_, _, multipliers, nonces, _⟩ := every_run_stays_inside hmacSha256
  refine ⟨short, ?_, ?_⟩
  · rw [multipliers.nonAdjacentForm 29 (by decide) short]
    decide
  · rw [nonces.nextRandom]
    decide

end Checked
end Secp256k1
