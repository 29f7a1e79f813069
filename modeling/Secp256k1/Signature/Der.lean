import Secp256k1.Signature.Basic

/-!
# Signatures in DER

A sequence of two integers, each written with the fewest octets that keep it from looking
negative.  Lengths are written in the short form.  A reader also takes the long form of one
length octet, at each of the three places where a length stands; `Layout` names the form at each
place, so `writePair` covers all that is read.
-/

set_option autoImplicit false

namespace Secp256k1
namespace Der

/-- How a length is written: as one octet, or as the octet `0x81` and one octet. -/
inductive LengthForm where
  | short
  | long
deriving DecidableEq, Repr

/-- The forms of the three lengths in a sequence of two integers. -/
structure Layout where
  sequence : LengthForm
  first : LengthForm
  second : LengthForm
deriving DecidableEq, Repr

def Layout.shortest : Layout :=
  ⟨.short, .short, .short⟩

def sequenceTag : UInt8 := 0x30

def integerTag : UInt8 := 0x02

def longMark : UInt8 := 0x81

/-! ## Writing -/

def writeLength : LengthForm → (length : Nat) → Octets
  | .short, length => [UInt8.ofNat length]
  | .long, length => [longMark, UInt8.ofNat length]

/-- The shortest octets of an integer; a zero in front keeps the leading bit clear. -/
def integerOctets (v : Nat) : Octets :=
  match Octets.minimal v with
  | [] => []
  | leading :: rest => if 0x80 ≤ leading then 0 :: leading :: rest else leading :: rest

def writeInteger (form : LengthForm) (v : Nat) : Octets :=
  let content := integerOctets v
  integerTag :: (writeLength form content.length ++ content)

def writePair (layout : Layout) (first second : Nat) : Octets :=
  let content := writeInteger layout.first first ++ writeInteger layout.second second
  sequenceTag :: (writeLength layout.sequence content.length ++ content)

/-! ## Reading

A reader returns what it read and the octets after it. -/

def readOctet : Octets → Except DerFault (UInt8 × Octets)
  | [] => .error .truncatedInput
  | octet :: rest => .ok (octet, rest)

def readLength (octets : Octets) : Except DerFault (Nat × Octets) := do
  let (leading, rest) ← readOctet octets
  if leading < 0x80 then return (leading.toNat, rest)
  else if leading = longMark then
    let (length, rest) ← readOctet rest
    return (length.toNat, rest)
  else .error .unsupportedLength

def readExactly (length : Nat) (octets : Octets) : Except DerFault (Octets × Octets) :=
  if octets.length < length then .error .lengthExceedsInput
  else .ok (octets.take length, octets.drop length)

def integerOfOctets : Octets → Except DerFault Nat
  | [] => .error .emptyInteger
  | leading :: rest =>
    if 0x80 ≤ leading then .error .negativeInteger
    else
      match rest with
      | [] => .ok leading.toNat
      | second :: _ =>
        if leading = 0 ∧ second < 0x80 then .error .nonMinimalInteger
        else .ok (Octets.toNat (leading :: rest))

def readInteger (octets : Octets) : Except DerFault (Nat × Octets) := do
  let (tag, rest) ← readOctet octets
  if tag ≠ integerTag then .error .expectedInteger
  else
    let (length, rest) ← readLength rest
    let (content, rest) ← readExactly length rest
    let v ← integerOfOctets content
    return (v, rest)

/-- Reads a sequence of two integers that takes up all octets. -/
def readPair (octets : Octets) : Except DerFault (Nat × Nat) := do
  let (tag, rest) ← readOctet octets
  if tag ≠ sequenceTag then .error .expectedSequence
  else
    let (length, rest) ← readLength rest
    if length ≠ rest.length then .error .sequenceLengthMismatch
    else
      let (first, rest) ← readInteger rest
      let (second, rest) ← readInteger rest
      if rest.length ≠ 0 then .error .trailingData
      else return (first, second)

end Der

namespace Signature

def toDer (signature : Signature) : Octets :=
  Der.writePair Der.Layout.shortest signature.r signature.s

def ofDer (octets : Octets) : Except Error Signature :=
  match Der.readPair octets with
  | .error fault => .error (.invalidDer fault)
  | .ok (r, s) => ofScalars r s

def isValidDer (octets : Octets) : Bool :=
  match ofDer octets with
  | .ok _ => true
  | .error _ => false

end Signature
end Secp256k1
