import Mathlib
import Secp256k1.Signature.Basic
import Secp256k1.Proofs.BitStrings
import Secp256k1.Proofs.DerIntegers
import Secp256k1.Proofs.FieldPowers

/-!
# Checked arithmetic

A difference of natural numbers stops at zero and a slice of a list stops at its end, so no run of
the library shows that it asked for more than there was.  Checked runs take nothing for granted: a
difference below zero, an access outside of a string, a value that does not fit its word or an
element that is not reduced ends them with `none`.  Each checked operation is shown to end with the
value of the plain one.  Readers that take a string as a whole have nothing to check, and positions
in a string and sums of lengths are taken to fit the memory that holds the string.  Here are the
accesses themselves, integers over a fixed number of octets, and the arithmetic of elements and
scalars.
-/

set_option autoImplicit false

namespace Secp256k1

/-! ## Accesses -/

namespace Checked

variable {α β : Type}

def difference (minuend subtrahend : Nat) : Option Nat :=
  if subtrahend ≤ minuend then some (minuend - subtrahend) else none

def remainder (k modulus : Nat) : Option Nat :=
  if modulus = 0 then none else some (k % modulus)

/-- A value for a word that holds the numbers below `limit`. -/
def narrow (limit v : Nat) : Option Nat :=
  if v < limit then some v else none

/-- The members from position `start` on, up to the one before position `stop`. -/
def block (members : List α) (start stop : Nat) : Option (List α) :=
  if start ≤ stop ∧ stop ≤ members.length then some ((members.take stop).drop start) else none

def store (members : List α) (position : Nat) (value : α) : Option (List α) :=
  if position < members.length then some (members.set position value) else none

/-- Copies `values` over the members from `start` to `stop`, which must be as many. -/
def overwrite (members : List α) (start stop : Nat) (values : List α) : Option (List α) :=
  if start ≤ stop ∧ stop ≤ members.length ∧ values.length = stop - start then
    some (members.take start ++ values ++ members.drop stop)
  else none

theorem difference_of_le {minuend subtrahend : Nat} (ordered : subtrahend ≤ minuend) :
    difference minuend subtrahend = some (minuend - subtrahend) :=
  if_pos ordered

theorem difference_bind {minuend subtrahend : Nat} (ordered : subtrahend ≤ minuend)
    (rest : Nat → Option α) :
    (do rest (← difference minuend subtrahend)) = rest (minuend - subtrahend) := by
  rw [difference_of_le ordered]
  rfl

theorem remainder_of_pos {k modulus : Nat} (positive : 0 < modulus) :
    remainder k modulus = some (k % modulus) :=
  if_neg (Nat.ne_of_gt positive)

theorem narrow_of_lt {limit v : Nat} (fits : v < limit) : narrow limit v = some v :=
  if_pos fits

theorem block_of_le {members : List α} {start stop : Nat} (ordered : start ≤ stop)
    (inside : stop ≤ members.length) :
    block members start stop = some ((members.take stop).drop start) :=
  if_pos ⟨ordered, inside⟩

theorem block_front {members : List α} {stop : Nat} (inside : stop ≤ members.length) :
    block members 0 stop = some (members.take stop) :=
  block_of_le (Nat.zero_le stop) inside

theorem block_back {members : List α} {start stop : Nat} (inside : start ≤ stop)
    (whole : members.length = stop) : block members start stop = some (members.drop start) := by
  rw [block_of_le inside whole.ge, List.take_of_length_le whole.le]

/-- Blanks make room for as many values, wherever they stand. -/
theorem overwrite_blanks (front behind : List α) (blank : α) {values : List α}
    {start count stop : Nat} (starts : front.length = start) (length : values.length = count)
    (ends : start + count = stop) :
    overwrite (front ++ List.replicate count blank ++ behind) start stop values =
      some (front ++ values ++ behind) := by
  subst starts length ends
  have inside : front.length ≤ front.length + values.length ∧
      front.length + values.length ≤
        (front ++ List.replicate values.length blank ++ behind).length ∧
      values.length = front.length + values.length - front.length := by
    rw [List.length_append, List.length_append, List.length_replicate]
    omega
  have taken : (front ++ List.replicate values.length blank ++ behind).take front.length =
      front := by
    rw [List.append_assoc, List.take_left]
  have dropped : (front ++ List.replicate values.length blank ++ behind).drop
      (front.length + values.length) = behind :=
    List.drop_left' (by rw [List.length_append, List.length_replicate])
  rw [overwrite, if_pos inside, taken, dropped]

theorem overwrite_last (front : List α) (blank : α) {values : List α} {start count stop : Nat}
    (starts : front.length = start) (length : values.length = count)
    (ends : start + count = stop) :
    overwrite (front ++ List.replicate count blank) start stop values = some (front ++ values) := by
  have written := overwrite_blanks front [] blank starts length ends
  rwa [List.append_nil, List.append_nil] at written

/-- Writing to the end of a string of blanks. -/
theorem overwrite_replicate {blank : α} {width start : Nat} {values : List α}
    (fits : start + values.length = width) :
    overwrite (List.replicate width blank) start width values =
      some (List.replicate start blank ++ values) := by
  have written := overwrite_last (List.replicate start blank) blank List.length_replicate rfl fits
  rwa [List.replicate_append_replicate, fits] at written

theorem foldlM_eq {step : β → α → Option β} {plain : β → α → β}
    (agrees : ∀ state member, step state member = some (plain state member)) (members : List α)
    (state : β) : members.foldlM step state = some (members.foldl plain state) := by
  have pureStep : step = fun state member => pure (plain state member) :=
    funext fun state => funext (agrees state)
  rw [pureStep]
  exact List.foldlM_pure

end Checked

/-! ## Integers over octets -/

namespace Octets

variable {v width : Nat}

/-- `v` over `width` octets, which have to be enough: its shortest octets behind zeros. -/
def checkedFixed (width v : Nat) : Option Octets :=
  if v = 0 then some (List.replicate width 0)
  else do
    let start ← Checked.difference width (minimal v).length
    Checked.overwrite (List.replicate width 0) start width (minimal v)

/-- The last 32 of the shortest octets of `v`, or all of them behind zeros. -/
def checkedEncode (v : Nat) : Option Octets := do
  let count := min (minimal v).length 32
  let start ← Checked.difference 32 count
  let skipped ← Checked.difference (minimal v).length count
  let values ← Checked.block (minimal v) skipped (minimal v).length
  Checked.overwrite (List.replicate 32 0) start 32 values

def checkedLeftmost (bits : Nat) (octets : Octets) : Option Nat :=
  if bits < 8 * octets.length then do
    let excess ← Checked.difference (8 * octets.length) bits
    return toNat octets >>> excess
  else return toNat octets

theorem toNat_replicate_append (count : Nat) (octets : Octets) :
    toNat (List.replicate count 0 ++ octets) = toNat octets := by
  induction count with
  | zero => rfl
  | succ count ih => rw [List.replicate_succ, List.cons_append, toNat_zero_cons, ih]

theorem toNat_drop (count : Nat) (octets : Octets) :
    toNat (octets.drop count) = toNat octets % 256 ^ (octets.length - count) := by
  have split := toNat_append (octets.take count) (octets.drop count)
  have low := toNat_lt (octets.drop count)
  rw [List.take_append_drop] at split
  rw [List.length_drop] at split low
  rw [split, Nat.mul_comm, Nat.mul_add_mod, Nat.mod_eq_of_lt low]

theorem toNat_minimal (v : Nat) : toNat (minimal v) = v := by
  obtain ⟨leading, rest, octets, _, value⟩ := exists_minimal v
  rw [octets, value]

/-- The low octets of a number, from its shortest octets: the last ones behind zeros. -/
theorem fixed_eq_replicate_append (width v : Nat) :
    fixed width v = List.replicate (width - min (minimal v).length width) 0 ++
      (minimal v).drop ((minimal v).length - min (minimal v).length width) := by
  apply eq_of_toNat_eq
  · rw [length_fixed, List.length_append, List.length_replicate, List.length_drop]
    omega
  · rw [toNat_replicate_append, toNat_drop, toNat_fixed, toNat_minimal]
    have bounded := toNat_lt (minimal v)
    rw [toNat_minimal] at bounded
    rcases Nat.le_total (minimal v).length width with short | long
    · have wide : v < 256 ^ width :=
        bounded.trans_le (Nat.pow_le_pow_right (by decide) short)
      rw [Nat.min_eq_left short, Nat.sub_self, Nat.sub_zero, Nat.mod_eq_of_lt wide,
        Nat.mod_eq_of_lt bounded]
    · rw [Nat.min_eq_right long, Nat.sub_sub_self long]

theorem checkedFixed_eq (bounded : v < 256 ^ width) :
    checkedFixed width v = some (fixed width v) := by
  unfold checkedFixed
  split
  · rename_i null
    refine congrArg some (eq_of_toNat_eq ?_ ?_)
    · rw [List.length_replicate, length_fixed]
    · have zeros := toNat_replicate_append width []
      rw [List.append_nil] at zeros
      rw [toNat_fixed, null, Nat.zero_mod, zeros]
      rfl
  · rename_i nonzero
    have positive : 0 < width := by
      by_contra none
      rw [Nat.eq_zero_of_not_pos none, pow_zero] at bounded
      omega
    have short := length_minimal_le positive bounded
    rw [Checked.difference_bind short, Checked.overwrite_replicate (Nat.sub_add_cancel short),
      fixed_eq_replicate_append, Nat.min_eq_left short, Nat.sub_self, List.drop_zero]

/-- Whatever the number is, nothing is copied to or from a place outside. -/
theorem checkedEncode_eq (v : Nat) : checkedEncode v = some (fixed 32 v) := by
  have fits : min (minimal v).length 32 ≤ 32 := Nat.min_le_right _ _
  have covered : min (minimal v).length 32 ≤ (minimal v).length := Nat.min_le_left _ _
  have copied : 32 - min (minimal v).length 32 +
      ((minimal v).drop ((minimal v).length - min (minimal v).length 32)).length = 32 := by
    rw [List.length_drop]
    omega
  simp only [checkedEncode, Checked.difference_of_le fits, Checked.difference_of_le covered,
    Checked.block_back (Nat.sub_le _ _) rfl, Option.bind_eq_bind, Option.bind_some]
  rw [Checked.overwrite_replicate copied, ← fixed_eq_replicate_append]

/-- A number that is too long would be copied to a place before the first octet. -/
example : checkedFixed 1 256 = none := by decide

theorem checkedLeftmost_eq (bits : Nat) (octets : Octets) :
    checkedLeftmost bits octets = some (leftmost bits octets) := by
  unfold checkedLeftmost leftmost
  split
  · rename_i long
    exact Checked.difference_bind long.le _
  · rfl

end Octets

/-! ## Elements of the base field -/

namespace FieldElement

/-- The result of an operation has to be reduced as it is. -/
def checkedAdd (a c : FieldElement) : Option FieldElement := do
  let sum := a.val + c.val
  if fieldModulus ≤ sum then ofCanonical? (← Checked.difference sum fieldModulus)
  else ofCanonical? sum

def checkedSub (a c : FieldElement) : Option FieldElement := do
  if c.val ≤ a.val then ofCanonical? (← Checked.difference a.val c.val)
  else
    let deficit ← Checked.difference c.val a.val
    ofCanonical? (← Checked.difference fieldModulus deficit)

def checkedNeg (a : FieldElement) : Option FieldElement := do
  if a.val = 0 then return 0
  else ofCanonical? (← Checked.difference fieldModulus a.val)

def checkedEncode (a : FieldElement) : Option Octets :=
  Octets.checkedEncode a.val

theorem checkedAdd_eq (a c : FieldElement) : a.checkedAdd c = some (a + c) := by
  show _ = some (FieldElement.add a c)
  unfold checkedAdd FieldElement.add
  by_cases wraps : fieldModulus ≤ a.val + c.val
  · rw [if_pos wraps, Checked.difference_bind wraps, dif_neg (Nat.not_lt.mpr wraps)]
    exact ofCanonical_eq_some_iff.mpr rfl
  · rw [if_neg wraps, dif_pos (Nat.lt_of_not_le wraps)]
    exact ofCanonical_eq_some_iff.mpr rfl

theorem checkedSub_eq (a c : FieldElement) : a.checkedSub c = some (a - c) := by
  show _ = some (FieldElement.sub a c)
  have bound := c.isLt
  unfold checkedSub FieldElement.sub
  by_cases ordered : c.val ≤ a.val
  · rw [if_pos ordered, Checked.difference_bind ordered, dif_pos ordered]
    exact ofCanonical_eq_some_iff.mpr rfl
  · have deficit : c.val - a.val ≤ fieldModulus := by omega
    rw [if_neg ordered, Checked.difference_bind (Nat.le_of_not_le ordered),
      Checked.difference_bind deficit, dif_neg ordered]
    exact ofCanonical_eq_some_iff.mpr rfl

theorem checkedNeg_eq (a : FieldElement) : a.checkedNeg = some (-a) := by
  show _ = some (FieldElement.neg a)
  unfold checkedNeg FieldElement.neg
  by_cases null : a.val = 0
  · rw [if_pos null, dif_pos null]
    rfl
  · rw [if_neg null, Checked.difference_bind a.isLt.le, dif_neg null]
    exact ofCanonical_eq_some_iff.mpr rfl

theorem checkedEncode_eq (a : FieldElement) : a.checkedEncode = some a.encode :=
  Octets.checkedEncode_eq a.val

end FieldElement

/-! ## Scalars -/

namespace Scalar

def checkedNegate (k : Nat) : Option Nat :=
  if reduce k = 0 then some 0 else Checked.difference order (reduce k)

def checkedOfDigest (digest : Octets) : Option Nat :=
  Octets.checkedLeftmost (Binary.bitLength order) digest

def checkedEncode (k : Nat) : Option Octets :=
  Octets.checkedEncode k

theorem checkedNegate_eq (k : Nat) : checkedNegate k = some (negate k) := by
  unfold checkedNegate negate
  split
  · rfl
  · exact Checked.difference_of_le (reduce_lt k).le

theorem checkedOfDigest_eq (digest : Octets) : checkedOfDigest digest = some (ofDigest digest) :=
  Octets.checkedLeftmost_eq _ digest

theorem checkedEncode_eq (k : Nat) : checkedEncode k = some (encode k) :=
  Octets.checkedEncode_eq k

end Scalar

/-- Runs of the arithmetic of elements and scalars, with the exponents of their inverses. -/
structure Checked.Elements : Prop where
  exponents : difference fieldModulus 2 = some (fieldModulus - 2) ∧
    difference Scalar.order 2 = some (Scalar.order - 2)
  add (a c : FieldElement) : a.checkedAdd c = some (a + c)
  sub (a c : FieldElement) : a.checkedSub c = some (a - c)
  neg (a : FieldElement) : a.checkedNeg = some (-a)
  encode (a : FieldElement) : a.checkedEncode = some a.encode
  negateScalar (k : Nat) : Scalar.checkedNegate k = some (Scalar.negate k)
  ofDigest (digest : Octets) : Scalar.checkedOfDigest digest = some (Scalar.ofDigest digest)
  encodeScalar (k : Nat) : Scalar.checkedEncode k = some (Scalar.encode k)

theorem Checked.elements : Checked.Elements where
  exponents := ⟨difference_of_le (by decide), difference_of_le (by decide)⟩
  add := FieldElement.checkedAdd_eq
  sub := FieldElement.checkedSub_eq
  neg := FieldElement.checkedNeg_eq
  encode := FieldElement.checkedEncode_eq
  negateScalar := Scalar.checkedNegate_eq
  ofDigest := Scalar.checkedOfDigest_eq
  encodeScalar := Scalar.checkedEncode_eq

end Secp256k1
