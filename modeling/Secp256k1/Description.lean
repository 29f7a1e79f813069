import Secp256k1.CompactSignature

/-!
# Descriptions for diagnosis

One line of text for a value: the name of its type and its fields, with numbers in decimal.
Private scalars are never written.
-/

set_option autoImplicit false

namespace Secp256k1

namespace Description

def record (name : String) (fields : List (String × String)) : String :=
  name ++ " \x7b " ++ ", ".intercalate (fields.map fun field => field.1 ++ ": " ++ field.2) ++
    " \x7d"

def application (name argument : String) : String :=
  name ++ "(" ++ argument ++ ")"

def truth (value : Bool) : String :=
  if value then "true" else "false"

end Description

open Description

def FieldElement.describe (a : FieldElement) : String :=
  application "FieldElement" (toString a.val)

def Point.describe (P : Point) : String :=
  record "Point" [("X", P.x.describe), ("Y", P.y.describe), ("Z", P.z.describe)]

/-- Says that there is a scalar but not which one. -/
def PrivateKey.describe (_key : PrivateKey) : String :=
  record "PrivateKey" [("d", "\"<redacted>\"")]

def PublicKey.describe (key : PublicKey) : String :=
  record "PublicKey" [("point", key.point.describe), ("compressed", truth key.compressed)]

def KeyPair.describe (pair : KeyPair) : String :=
  record "KeyPair" [("private", pair.privateKey.describe), ("public", pair.publicKey.describe)]

def Key.describe : Key → String
  | .ofPrivate key => application "Private" key.describe
  | .ofPublic key => application "Public" key.describe

def Signature.describe (signature : Signature) : String :=
  record "Signature" [("r", toString signature.r), ("s", toString signature.s)]

def CompactSignature.describe (compact : CompactSignature) : String :=
  record "CompactSignature" [("rec_id", toString compact.id.toNat),
    ("compressed", truth compact.compressed), ("sig", compact.signature.describe)]

end Secp256k1
