import Secp256k1.Error
import Secp256k1.Modular
import Secp256k1.Octets

/-!
# The base field

Integers modulo the prime `2 ^ 256 - 2 ^ 32 - 977`.  An element carries its representative
below the modulus, so equality of elements is equality of representatives.  Inversion and square
roots are powers: `a ^ (p - 2)` is the inverse of a non-zero `a`, and because the modulus is
three modulo four, `a ^ ((p + 1) / 4)` is a root of every square.
-/

set_option autoImplicit false

namespace Secp256k1

def fieldModulus : Nat :=
  0xFFFFFFFFFFFFFFFFFFFFFFFFFFFFFFFFFFFFFFFFFFFFFFFFFFFFFFFEFFFFFC2F

theorem fieldModulus_pos : 0 < fieldModulus := by decide

/-- An integer modulo `fieldModulus`, by its least non-negative representative. -/
structure FieldElement where
  val : Nat
  isLt : val < fieldModulus
deriving DecidableEq

namespace FieldElement

def ofNat (v : Nat) : FieldElement :=
  ⟨v % fieldModulus, Nat.mod_lt v fieldModulus_pos⟩

/-- The number of a word, which is below the modulus as it is. -/
def ofWord (v : UInt64) : FieldElement :=
  ⟨v.toNat, Nat.lt_trans v.toNat_lt (by decide)⟩

def ofCanonical? (v : Nat) : Option FieldElement :=
  if inRange : v < fieldModulus then some ⟨v, inRange⟩ else none

instance : Zero FieldElement := ⟨⟨0, fieldModulus_pos⟩⟩

instance : One FieldElement := ⟨⟨1, by decide⟩⟩

instance : Inhabited FieldElement := ⟨0⟩

protected def add (a b : FieldElement) : FieldElement :=
  if inRange : a.val + b.val < fieldModulus then ⟨a.val + b.val, inRange⟩
  else ⟨a.val + b.val - fieldModulus, by have := a.isLt; have := b.isLt; omega⟩

protected def sub (a b : FieldElement) : FieldElement :=
  if ordered : b.val ≤ a.val then ⟨a.val - b.val, by have := a.isLt; omega⟩
  else ⟨fieldModulus - (b.val - a.val), by have := b.isLt; omega⟩

protected def neg (a : FieldElement) : FieldElement :=
  if isNull : a.val = 0 then 0 else ⟨fieldModulus - a.val, by have := a.isLt; omega⟩

protected def mul (a b : FieldElement) : FieldElement :=
  ofNat (a.val * b.val)

instance : Add FieldElement := ⟨FieldElement.add⟩

instance : Sub FieldElement := ⟨FieldElement.sub⟩

instance : Neg FieldElement := ⟨FieldElement.neg⟩

instance : Mul FieldElement := ⟨FieldElement.mul⟩

def isZero (a : FieldElement) : Bool :=
  a.val == 0

def isOne (a : FieldElement) : Bool :=
  a.val == 1

/-- Whether the representative is odd: the sign by which a compressed point names its
ordinate. -/
def isOdd (a : FieldElement) : Bool :=
  a.val % 2 == 1

def square (a : FieldElement) : FieldElement :=
  a * a

def scale (a : FieldElement) (factor : Nat) : FieldElement :=
  ofNat (a.val * factor)

def power (a : FieldElement) (exponent : Nat) : FieldElement :=
  ofNat (Modular.power fieldModulus a.val exponent)

/-- The inverse; zero is its own. -/
def invert (a : FieldElement) : FieldElement :=
  a.power (fieldModulus - 2)

/-- The root of `a` that is a square itself, if `a` is a square. -/
def sqrt (a : FieldElement) : Option FieldElement :=
  let root := a.power ((fieldModulus + 1) / 4)
  if root.square = a then some root else none

/-! ## Octets -/

def encode (a : FieldElement) : Octets :=
  Octets.fixed 32 a.val

/-- Reads exactly 32 octets that write a representative. -/
def decode (octets : Octets) : Except Error FieldElement :=
  if octets.length = 32 then
    match ofCanonical? (Octets.toNat octets) with
    | some a => .ok a
    | none => .error .nonCanonicalFieldElement
  else .error (.invalidLength 32 octets.length)

/-! ## Representatives of results -/

@[ext] theorem ext {a b : FieldElement} (representatives : a.val = b.val) : a = b := by
  cases a; cases b; cases representatives; rfl

@[simp] theorem val_zero : (0 : FieldElement).val = 0 := rfl

@[simp] theorem val_one : (1 : FieldElement).val = 1 := rfl

@[simp] theorem val_ofNat (v : Nat) : (ofNat v).val = v % fieldModulus := rfl

theorem val_add (a b : FieldElement) : (a + b).val = (a.val + b.val) % fieldModulus := by
  show (FieldElement.add a b).val = _
  unfold FieldElement.add
  split
  · rename_i inRange; exact (Nat.mod_eq_of_lt inRange).symm
  · have := a.isLt
    have := b.isLt
    rw [Nat.mod_eq_sub_mod (by omega), Nat.mod_eq_of_lt (by omega)]

theorem val_mul (a b : FieldElement) : (a * b).val = a.val * b.val % fieldModulus := rfl

theorem val_neg (a : FieldElement) : (-a).val = (fieldModulus - a.val) % fieldModulus := by
  show (FieldElement.neg a).val = _
  unfold FieldElement.neg
  split
  · rename_i isNull; rw [isNull, Nat.sub_zero, Nat.mod_self]; rfl
  · have := a.isLt
    rw [Nat.mod_eq_of_lt (by omega)]

theorem val_sub (a b : FieldElement) :
    (a - b).val = (a.val + (fieldModulus - b.val)) % fieldModulus := by
  show (FieldElement.sub a b).val = _
  have := a.isLt
  have := b.isLt
  unfold FieldElement.sub
  split
  · rw [Nat.mod_eq_sub_mod (by omega), Nat.mod_eq_of_lt (by omega)]
    simp only
    omega
  · rw [Nat.mod_eq_of_lt (by omega)]
    simp only
    omega

@[simp] theorem length_encode (a : FieldElement) : a.encode.length = 32 :=
  Octets.length_fixed 32 a.val

end FieldElement
end Secp256k1
