import Mathlib
import Secp256k1.CompactSignature
import Secp256k1.Proofs.CheckedArithmetic
import Secp256k1.Proofs.DerPositions
import Secp256k1.Proofs.FixedSignatures

/-!
# Checked signatures

The halves of a signature are below the order, so the order has a difference to each of them and 32
octets hold each of them.  The writer of DER looks at the first octet of a half, which has one, and
writes every length into one octet.  The header of a compact signature is a sum in one octet, and
its reader takes the flags from it only after it has found the header in the range.
-/

set_option autoImplicit false

namespace Secp256k1

open Checked (block difference narrow overwrite store)

namespace Signature

/-! ## The low form and the fixed form -/

/-- The halves of the result have to be valid again. -/
def checkedCanonicalize (signature : Signature) : Option Signature := do
  if signature.isLow then return signature
  else (ofScalars signature.r (← difference Scalar.order signature.s)).toOption

def checkedToOctets (signature : Signature) : Option Octets := do
  let octets ← overwrite (List.replicate 64 0) 0 32 (← Scalar.checkedEncode signature.r)
  overwrite octets 32 64 (← Scalar.checkedEncode signature.s)

def checkedOfOctets (octets : Octets) : Option (Except Error Signature) := do
  if octets.length = 64 then
    let first ← block octets 0 32
    let second ← block octets 32 octets.length
    return ofScalars (Octets.toNat first) (Octets.toNat second)
  else return .error (.invalidLength 64 octets.length)

theorem checkedCanonicalize_eq (signature : Signature) :
    signature.checkedCanonicalize = some signature.canonicalize := by
  have ordered : signature.s ≤ Scalar.order := signature.s_valid.2.le
  have flipped : ofScalars signature.r (Scalar.order - signature.s) = .ok signature.flip :=
    ofScalars_eq_ok_iff.mpr ⟨rfl, rfl⟩
  unfold checkedCanonicalize canonicalize
  split
  · rfl
  · rw [Checked.difference_bind ordered, flipped]
    rfl

theorem checkedToOctets_eq (signature : Signature) :
    signature.checkedToOctets = some signature.toOctets := by
  have length (k : Nat) : (Scalar.encode k).length = 32 := Octets.length_fixed 32 k
  have first : overwrite (List.replicate 64 0) 0 32 (Scalar.encode signature.r) =
      some (Scalar.encode signature.r ++ List.replicate 32 0) :=
    Checked.overwrite_blanks [] (List.replicate 32 0) 0 rfl (length signature.r) rfl
  simp only [checkedToOctets, Scalar.checkedEncode_eq, first, Option.bind_eq_bind, Option.bind_some]
  exact Checked.overwrite_last (Scalar.encode signature.r) 0 (length _) (length signature.s) rfl

theorem checkedOfOctets_eq (octets : Octets) : checkedOfOctets octets = some (ofOctets octets) := by
  unfold checkedOfOctets ofOctets
  split
  · rename_i whole
    rw [Checked.block_front (by omega), Option.bind_eq_bind, Option.bind_some,
      Checked.block_back (by omega) rfl]
    rfl
  · rfl

end Signature

/-! ## DER -/

namespace Der

def checkedIntegerOctets (v : Nat) : Option Octets := do
  let octets := Octets.minimal v
  let leading ← octets[0]?
  return if 0x80 ≤ leading then 0 :: octets else octets

/-- A length has to fit into its octet, in the long form too. -/
def checkedWriteLength (length : Nat) : Option Octets := do
  let octet ← narrow 256 length
  return if length < 0x80 then [UInt8.ofNat octet] else [longMark, UInt8.ofNat octet]

def checkedWriteInteger (v : Nat) : Option Octets := do
  let content ← checkedIntegerOctets v
  return integerTag :: ((← checkedWriteLength content.length) ++ content)

def checkedWritePair (first second : Nat) : Option Octets := do
  let content := (← checkedWriteInteger first) ++ (← checkedWriteInteger second)
  return sequenceTag :: ((← checkedWriteLength content.length) ++ content)

theorem checkedIntegerOctets_eq (v : Nat) : checkedIntegerOctets v = some (integerOctets v) := by
  obtain ⟨leading, rest, octets, _, _⟩ := Octets.exists_minimal v
  simp only [checkedIntegerOctets, integerOctets, octets, List.getElem?_cons_zero]
  rfl

theorem checkedWriteLength_eq {length : Nat} (short : length < 0x80) :
    checkedWriteLength length = some (writeLength .short length) := by
  have fits : length < 256 := by omega
  simp only [checkedWriteLength, Checked.narrow_of_lt fits, if_pos short]
  rfl

theorem checkedWriteInteger_eq {v : Nat} (bounded : v < 256 ^ 32) :
    checkedWriteInteger v = some (writeInteger .short v) := by
  have length := length_integerOctets_le bounded
  rw [checkedWriteInteger, checkedIntegerOctets_eq, Option.bind_eq_bind, Option.bind_some,
    checkedWriteLength_eq (by omega)]
  rfl

/-- Two halves of 256 bits take fewer than 128 octets, so every length is a short one. -/
theorem checkedWritePair_eq {first second : Nat} (boundedFirst : first < 256 ^ 32)
    (boundedSecond : second < 256 ^ 32) :
    checkedWritePair first second = some (writePair .shortest first second) := by
  have lengthFirst := length_integerOctets_le boundedFirst
  have lengthSecond := length_integerOctets_le boundedSecond
  have short : (writeInteger .short first ++ writeInteger .short second).length < 0x80 := by
    simp only [writeInteger, writeLength, List.length_append, List.length_cons, List.length_nil]
    omega
  simp only [checkedWritePair, checkedWriteInteger_eq boundedFirst,
    checkedWriteInteger_eq boundedSecond, checkedWriteLength_eq short, Option.bind_eq_bind,
    Option.bind_some]
  rfl

end Der

namespace Signature

def checkedToDer (signature : Signature) : Option Octets :=
  Der.checkedWritePair signature.r signature.s

def checkedOfDer (octets : Octets) : Option (Except Error Signature) := do
  match ← (Der.readPairAt octets).run with
  | .error fault => return .error (.invalidDer fault)
  | .ok (r, s) => return ofScalars r s

theorem checkedToDer_eq (signature : Signature) : signature.checkedToDer = some signature.toDer :=
  have capacity : Scalar.order < 256 ^ 32 := by decide
  Der.checkedWritePair_eq (signature.r_valid.2.trans capacity)
    (signature.s_valid.2.trans capacity)

theorem checkedOfDer_eq (octets : Octets) : checkedOfDer octets = some (ofDer octets) := by
  rw [checkedOfDer, Der.run_readPairAt, Option.bind_eq_bind, Option.bind_some, ofDer]
  rcases Der.readPair octets with fault | ⟨r, s⟩ <;> rfl

end Signature

/-! ## Compact signatures -/

namespace CompactSignature

/-- Both sums are taken in one octet. -/
def checkedHeader (compact : CompactSignature) : Option UInt8 := do
  let sum ← narrow 256 (headerBase + compact.id.toNat)
  let sum ← narrow 256 (sum + if compact.compressed then 4 else 0)
  return UInt8.ofNat sum

def checkedToOctets (compact : CompactSignature) : Option Octets := do
  let octets ← store (List.replicate 65 0) 0 (← compact.checkedHeader)
  overwrite octets 1 65 (← compact.signature.checkedToOctets)

def checkedOfOctets (octets : Octets) : Option (Except Error CompactSignature) := do
  if octets.length ≠ 65 then return .error (.invalidLength 65 octets.length)
  else
    let header ← octets[0]?
    let limit ← narrow 256 (headerBase + 8)
    if headerBase ≤ header.toNat ∧ header.toNat < limit then
      let flags ← difference header.toNat headerBase
      match ← Signature.checkedOfOctets (← block octets 1 octets.length) with
      | .error cause => return .error cause
      | .ok signature => return ofParts (flags % 4) (4 ≤ flags) signature
    else return .error (.invalidCompactHeader header)

theorem checkedHeader_eq (compact : CompactSignature) :
    compact.checkedHeader = some compact.header := by
  have small := compact.id.toNat_lt
  have base : headerBase = 27 := rfl
  cases compressed : compact.compressed <;>
  · rw [checkedHeader, Checked.narrow_of_lt (by omega), Option.bind_eq_bind, Option.bind_some,
      compressed, Checked.narrow_of_lt (by rw [base]; dsimp; omega), header, compressed]
    rfl

theorem checkedToOctets_eq (compact : CompactSignature) :
    compact.checkedToOctets = some compact.toOctets := by
  simp only [checkedToOctets, checkedHeader_eq, Signature.checkedToOctets_eq]
  exact Checked.overwrite_last [compact.header] 0 rfl compact.signature.length_toOctets rfl

theorem checkedOfOctets_eq (octets : Octets) : checkedOfOctets octets = some (ofOctets octets) := by
  cases octets with
  | nil => rfl
  | cons header body =>
    have length : body.length + 1 ≠ 65 ↔ body.length ≠ 64 := by omega
    have limit : narrow 256 (headerBase + 8) = some (headerBase + 8) := rfl
    simp only [checkedOfOctets, ofOctets, List.length_cons, length, List.getElem?_cons_zero, limit,
      Option.bind_eq_bind, Option.bind_some]
    split
    · rfl
    · split
      · rename_i inRange
        have back : block (header :: body) 1 (body.length + 1) = some body :=
          Checked.block_back (Nat.le_add_left 1 _) rfl
        rw [Checked.difference_of_le inRange.1, Option.bind_some, back, Option.bind_some,
          Signature.checkedOfOctets_eq, Option.bind_some]
        cases Signature.ofOctets body <;> rfl
      · rfl

end CompactSignature

namespace Checked

/-- Runs of the low form and of the codecs of signatures, on any octets. -/
structure Signatures : Prop where
  canonicalize (signature : Signature) :
    signature.checkedCanonicalize = some signature.canonicalize
  toOctets (signature : Signature) : signature.checkedToOctets = some signature.toOctets
  ofOctets (octets : Octets) : Signature.checkedOfOctets octets = some (Signature.ofOctets octets)
  integerOctets (v : Nat) : Der.checkedIntegerOctets v = some (Der.integerOctets v)
  toDer (signature : Signature) : signature.checkedToDer = some signature.toDer
  ofDer (octets : Octets) : Signature.checkedOfDer octets = some (Signature.ofDer octets)
  compactToOctets (compact : CompactSignature) : compact.checkedToOctets = some compact.toOctets
  compactOfOctets (octets : Octets) :
    CompactSignature.checkedOfOctets octets = some (CompactSignature.ofOctets octets)

theorem signatures : Signatures where
  canonicalize := Signature.checkedCanonicalize_eq
  toOctets := Signature.checkedToOctets_eq
  ofOctets := Signature.checkedOfOctets_eq
  integerOctets := Der.checkedIntegerOctets_eq
  toDer := Signature.checkedToDer_eq
  ofDer := Signature.checkedOfDer_eq
  compactToOctets := CompactSignature.checkedToOctets_eq
  compactOfOctets := CompactSignature.checkedOfOctets_eq

end Checked
end Secp256k1
