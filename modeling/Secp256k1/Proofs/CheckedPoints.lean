import Mathlib
import Secp256k1.Proofs.CheckedArithmetic
import Secp256k1.Proofs.Multiples

/-!
# Checked points and multipliers

The operations on points subtract elements, which are reduced by their type.  The multipliers also
count: the non-adjacent form counts zeros in a word and walks along the digits by an index, the
ladder picks one of two points by a digit, and the signed digits walk down to the lowest set digit.
For scalars of fewer than `2 ^ 32` bits every counter fits its word.  The codecs of points cut and
fill strings at fixed places.
-/

set_option autoImplicit false

namespace Secp256k1

open Checked (block difference narrow overwrite store)

/-! ## The group law -/

namespace Point

def checkedNegate (P : Point) : Option Point := do
  return ⟨P.x, ← P.y.checkedNeg, P.z⟩

def checkedTwice (P : Point) : Option Point := do
  if P.isInfinity then return infinity
  else if P.y.isZero then return infinity
  else
    let a := P.x.square
    let b := P.y.square
    let c := b.square
    let sum ← P.x.checkedAdd b
    let d := (← (← sum.square.checkedSub a).checkedSub c).scale 2
    let e := a.scale 3
    let x ← e.square.checkedSub (d.scale 2)
    let y ← (e * (← d.checkedSub x)).checkedSub (c.scale 8)
    return ⟨x, y, (P.y * P.z).scale 2⟩

def checkedChord (u s z h r : FieldElement) : Option Point := do
  let hh := h.square
  let hhh := hh * h
  let v := u * hh
  let x ← (← r.square.checkedSub hhh).checkedSub (v.scale 2)
  let y ← (r * (← v.checkedSub x)).checkedSub (s * hhh)
  return ⟨x, y, z * h⟩

def checkedAdd (P Q : Point) : Option Point := do
  if P.isInfinity then return Q
  else if Q.isInfinity then return P
  else
    let (u₁, s₁) := P.scaledBy Q.z
    let (u₂, s₂) := Q.scaledBy P.z
    let h ← u₂.checkedSub u₁
    let r ← s₂.checkedSub s₁
    if h.isZero then (if r.isZero then P.checkedTwice else return infinity)
    else checkedChord u₁ s₁ (P.z * Q.z) h r

def checkedSubtract (P Q : Point) : Option Point := do
  P.checkedAdd (← Q.checkedNegate)

def checkedTwicePlus (P Q : Point) : Option Point := do
  if P.isInfinity then return Q
  else if Q.isInfinity then P.checkedTwice
  else if P.y.isZero then return Q
  else (← P.checkedTwice).checkedAdd Q

def checkedThreeTimes (P : Point) : Option Point :=
  P.checkedTwicePlus P

def checkedTimesPowTwo (P : Point) : (e : Nat) → Option Point
  | 0 => some P
  | e + 1 => if P.isInfinity then some P else do (← P.checkedTwice).checkedTimesPowTwo e

theorem checkedNegate_eq (P : Point) : P.checkedNegate = some P.negate := by
  rw [checkedNegate, FieldElement.checkedNeg_eq]
  rfl

theorem checkedTwice_eq (P : Point) : P.checkedTwice = some P.twice := by
  simp only [checkedTwice, FieldElement.checkedAdd_eq, FieldElement.checkedSub_eq, twice]
  split
  · rfl
  · split <;> rfl

theorem checkedChord_eq (u s z h r : FieldElement) :
    checkedChord u s z h r = some (chord u s z h r) := by
  simp only [checkedChord, FieldElement.checkedSub_eq]
  rfl

theorem checkedAdd_eq (P Q : Point) : P.checkedAdd Q = some (P.add Q) := by
  simp only [checkedAdd, FieldElement.checkedSub_eq, checkedTwice_eq, checkedChord_eq,
    Option.bind_eq_bind, Option.bind_some, add]
  split
  · rfl
  · split
    · rfl
    · split
      · split <;> rfl
      · rfl

theorem checkedSubtract_eq (P Q : Point) : P.checkedSubtract Q = some (P.subtract Q) := by
  simp only [checkedSubtract, checkedNegate_eq, Option.bind_eq_bind, Option.bind_some,
    checkedAdd_eq, subtract]

theorem checkedTwicePlus_eq (P Q : Point) : P.checkedTwicePlus Q = some (P.twicePlus Q) := by
  simp only [checkedTwicePlus, checkedTwice_eq, Option.bind_eq_bind, Option.bind_some,
    checkedAdd_eq, twicePlus]
  split
  · rfl
  · split
    · rfl
    · split <;> rfl

theorem checkedThreeTimes_eq (P : Point) : P.checkedThreeTimes = some P.threeTimes :=
  P.checkedTwicePlus_eq P

theorem checkedTimesPowTwo_eq (e : Nat) :
    ∀ P : Point, P.checkedTimesPowTwo e = some (P.timesPowTwo e) := by
  induction e with
  | zero => intro P; rfl
  | succ e ih =>
    intro P
    simp only [checkedTimesPowTwo, checkedTwice_eq, Option.bind_eq_bind, Option.bind_some, ih,
      timesPowTwo]
    split <;> rfl

end Point

/-! ## The non-adjacent form -/

namespace NonAdjacentForm

/-- The digits from the position `i` on, below the position `high`, with a word for the zeros. -/
def checkedScan (k high i zeros : Nat) : Option (List SignedDigit) := do
  if i < high then
    if (3 * k ^^^ k).testBit i then
      let higher ← checkedScan k high (i + 2) 1
      return ⟨k.testBit i, zeros⟩ :: higher
    else checkedScan k high (i + 1) (← narrow (2 ^ 32) (zeros + 1))
  else return [⟨false, zeros⟩]
termination_by high - i

def checkedOfNat (k : Nat) : Option (List SignedDigit) := do
  let high ← difference (Binary.bitLength (3 * k)) 1
  checkedScan k high 1 0

theorem scan_digit (zeros : Nat) (negative : Bool) (rest : List (Bool × Bool)) :
    scan zeros ((true, negative) :: rest) = ⟨negative, zeros⟩ :: scan 1 rest.tail := by
  cases rest with
  | nil => rfl
  | cons skipped rest => rfl

/-- The zeros counted so far and the positions still to come fit the word together. -/
theorem checkedScan_eq (k high count : Nat) : ∀ i zeros : Nat, high - i = count →
    zeros + count < 2 ^ 32 → checkedScan k high i zeros =
      some (scan zeros ((List.range' i count).map
        fun j => ((3 * k ^^^ k).testBit j, k.testBit j))) := by
  induction count using Nat.strong_induction_on with
  | _ count ih =>
    intro i zeros left fits
    rw [checkedScan]
    cases count with
    | zero =>
      rw [if_neg (by omega), List.range'_zero]
      rfl
    | succ count =>
      rw [if_pos (by omega), List.range'_succ, List.map_cons]
      cases digit : (3 * k ^^^ k).testBit i with
      | false =>
        have counted : zeros + 1 < 2 ^ 32 := by omega
        rw [if_neg Bool.false_ne_true, narrow, if_pos counted]
        exact ih count (Nat.lt_succ_self count) (i + 1) (zeros + 1) (by omega) (by omega)
      | true =>
        have tail : (List.range' (i + 1) count).tail = List.range' (i + 2) (count - 1) := by
          rw [List.tail_range']
        rw [if_pos rfl, scan_digit, ← List.map_tail, tail,
          ih (count - 1) (by omega) (i + 2) 1 (by omega) (by omega)]
        rfl

theorem bitLength_three_mul_le (k : Nat) :
    Binary.bitLength (3 * k) ≤ Binary.bitLength k + 2 := by
  have upper := Binary.lt_two_pow_bitLength k
  rw [Binary.bitLength_le_iff, pow_add]
  omega

theorem checkedOfNat_eq {k : Nat} (nonzero : k ≠ 0) (bounded : Binary.bitLength k < 2 ^ 32) :
    checkedOfNat k = some (ofNat k) := by
  have digits := bitLength_three_mul_le k
  have positive : 1 ≤ Binary.bitLength (3 * k) := Binary.bitLength_pos (by omega)
  have listed : positions k = (List.range' 1 (Binary.bitLength (3 * k) - 2)).map
      fun j => ((3 * k ^^^ k).testBit j, k.testBit j) := by
    rw [positions, List.range'_eq_map_range, List.map_map]
    refine List.map_congr_left fun i _ => ?_
    rw [Function.comp_apply, Nat.add_comm 1 i]
  rw [checkedOfNat, Checked.difference_bind positive, ofNat, if_neg nonzero, listed]
  exact checkedScan_eq k _ _ 1 0 (by omega) (by omega)

/-- The number zero has no digits, so none of them is the highest. -/
example : checkedOfNat 0 = none := rfl

end NonAdjacentForm

/-! ## Multipliers -/

namespace Point

def checkedTimesByDoubleAndAdd (P : Point) (k : Nat) : Option Point :=
  (Binary.msbFirst k).foldlM (fun R bit => do
    let R ← R.checkedTwice
    if bit then R.checkedAdd P else return R) infinity

def checkedTimesByNonAdjacentForm (P : Point) (k : Nat) : Option Point := do
  let digits ← NonAdjacentForm.checkedOfNat k
  let plus := P.normalize
  let minus ← plus.checkedNegate
  digits.reverse.foldlM (fun R digit => do
    (← R.checkedTwicePlus (if digit.negative then minus else plus)).checkedTimesPowTwo
      digit.zeros) infinity

/-- The digit is the index of the point that is doubled; the other one receives the sum. -/
def checkedLadderStep (pair : List Point) (bit : Bool) : Option (List Point) := do
  let selected := bit.toNat
  let other ← difference 1 selected
  let pair ← store pair other (← (← pair[other]?).checkedAdd (← pair[selected]?))
  store pair selected (← (← pair[selected]?).checkedTwice)

def checkedTimesByLadder (P : Point) (k : Nat) : Option Point := do
  let pair ← (Binary.msbFirst k).foldlM checkedLadderStep [infinity, P]
  pair[0]?

/-- The digits from the position `i` down to the one above the position `lowest`. -/
def checkedSignedDigits (plus minus : Point) (k lowest i : Nat) (R : Point) : Option Point :=
  if lowest < i then
    match _lower : difference i 1 with
    | some next => do
      checkedSignedDigits plus minus k lowest next
        (← R.checkedTwicePlus (if k.testBit i then plus else minus))
    | none => none
  else some R
termination_by i
decreasing_by
  unfold difference at _lower
  split at _lower <;> cases _lower
  omega

def checkedTimesBySignedDigits (P : Point) (k : Nat) : Option Point := do
  let plus := P.normalize
  let minus ← plus.checkedNegate
  let zeros := Binary.trailingZeros k
  let top ← difference (Binary.bitLength k) 1
  let R ← checkedSignedDigits plus minus k zeros top plus
  R.checkedTimesPowTwo (← narrow (2 ^ 32) zeros)

def checkedSumOfMultiples (P : Point) (j : Nat) (Q : Point) (k : Nat) : Option Point := do
  let P := P.normalize
  let Q := Q.normalize
  let both := (← P.checkedAdd Q).normalize
  (Binary.pairsMsbFirst j k).foldlM (fun R bits => do
    let R ← R.checkedTwice
    match bits with
    | (true, true) => R.checkedAdd both
    | (true, false) => R.checkedAdd P
    | (false, true) => R.checkedAdd Q
    | (false, false) => return R) infinity

theorem checkedTimesByDoubleAndAdd_eq (P : Point) (k : Nat) :
    P.checkedTimesByDoubleAndAdd k = some (P.timesByDoubleAndAdd k) := by
  refine Checked.foldlM_eq (fun R bit => ?_) _ _
  simp only [checkedTwice_eq, Option.bind_eq_bind, Option.bind_some, checkedAdd_eq]
  split <;> rfl

theorem checkedTimesByNonAdjacentForm_eq (P : Point) {k : Nat} (nonzero : k ≠ 0)
    (bounded : Binary.bitLength k < 2 ^ 32) :
    P.checkedTimesByNonAdjacentForm k = some (P.timesByNonAdjacentForm k) := by
  simp only [checkedTimesByNonAdjacentForm, NonAdjacentForm.checkedOfNat_eq nonzero bounded,
    checkedNegate_eq, checkedTwicePlus_eq, checkedTimesPowTwo_eq, Option.bind_eq_bind,
    Option.bind_some]
  exact Checked.foldlM_eq (fun R digit => rfl) _ _

theorem checkedLadderStep_eq (pair : Point × Point) (bit : Bool) :
    checkedLadderStep [pair.1, pair.2] bit =
      some [(ladderStep pair bit).1, (ladderStep pair bit).2] := by
  cases bit <;> simp [checkedLadderStep, ladderStep, difference, store, checkedAdd_eq,
    checkedTwice_eq]

theorem foldlM_checkedLadderStep (bits : List Bool) : ∀ pair : Point × Point,
    bits.foldlM checkedLadderStep [pair.1, pair.2] =
      some [(bits.foldl ladderStep pair).1, (bits.foldl ladderStep pair).2] := by
  induction bits with
  | nil => intro pair; rfl
  | cons bit rest ih =>
    intro pair
    rw [List.foldlM_cons, checkedLadderStep_eq, Option.bind_eq_bind, Option.bind_some, ih,
      List.foldl_cons]

theorem checkedTimesByLadder_eq (P : Point) (k : Nat) :
    P.checkedTimesByLadder k = some (P.timesByLadder k) := by
  rw [checkedTimesByLadder, foldlM_checkedLadderStep (Binary.msbFirst k) (infinity, P)]
  rfl

/-- The walk down from `lowest + count` reads the digits above `lowest`, the highest first. -/
theorem checkedSignedDigits_eq (plus minus : Point) (k lowest count : Nat) : ∀ R : Point,
    checkedSignedDigits plus minus k lowest (lowest + count) R =
      some (((List.range count).map (k >>> (lowest + 1)).testBit).reverse.foldl
        (fun R bit => R.twicePlus (if bit then plus else minus)) R) := by
  induction count with
  | zero =>
    intro R
    rw [checkedSignedDigits, Nat.add_zero, if_neg (Nat.lt_irrefl _)]
    rfl
  | succ count ih =>
    intro R
    have digit : k.testBit (lowest + (count + 1)) = (k >>> (lowest + 1)).testBit count := by
      rw [Nat.testBit_shiftRight]
      congr 1
      omega
    have step : difference (lowest + (count + 1)) 1 = some (lowest + count) :=
      Checked.difference_of_le (Nat.le_add_left 1 (lowest + count))
    rw [checkedSignedDigits, if_pos (by omega), List.range_succ, List.map_append,
      List.reverse_append, digit]
    split
    · rename_i next lower
      rw [step] at lower
      cases lower
      rw [checkedTwicePlus_eq, Option.bind_eq_bind, Option.bind_some, ih]
      rfl
    · rename_i stuck
      rw [step] at stuck
      cases stuck

/-- Above the lowest set digit `k` has `bitLength k - 1 - trailingZeros k` digits. -/
theorem checkedTimesBySignedDigits_eq (P : Point) {k : Nat} (nonzero : k ≠ 0)
    (bounded : Binary.bitLength k < 2 ^ 32) :
    P.checkedTimesBySignedDigits k = some (P.timesBySignedDigits k) := by
  have zeros := Binary.trailingZeros_lt_bitLength nonzero
  have top : Binary.bitLength k - 1 =
      Binary.trailingZeros k + (Binary.bitLength k - (Binary.trailingZeros k + 1)) := by
    omega
  rw [checkedTimesBySignedDigits]
  simp only [checkedNegate_eq, Checked.difference_of_le (Binary.bitLength_pos nonzero),
    Checked.narrow_of_lt (zeros.trans bounded), Option.bind_eq_bind, Option.bind_some,
    checkedTimesPowTwo_eq, top, checkedSignedDigits_eq]
  rw [← Binary.bitLength_shiftRight]
  rfl

theorem checkedSumOfMultiples_eq (P : Point) (j : Nat) (Q : Point) (k : Nat) :
    P.checkedSumOfMultiples j Q k = some (P.sumOfMultiples j Q k) := by
  simp only [checkedSumOfMultiples, checkedAdd_eq, checkedTwice_eq, Option.bind_eq_bind,
    Option.bind_some]
  refine Checked.foldlM_eq (fun R bits => ?_) _ _
  rcases bits with ⟨_ | _, _ | _⟩ <;> rfl

end Point

namespace Multiplier

def checkedMultiply (multiplier : Multiplier) (P : Point) (k : Nat) : Option Point :=
  if k = 0 ∨ P.isInfinity then some Point.infinity
  else
    match multiplier with
    | doubleAndAdd => P.checkedTimesByDoubleAndAdd k
    | nonAdjacentForm => P.checkedTimesByNonAdjacentForm k
    | ladder => P.checkedTimesByLadder k
    | signedDigits => P.checkedTimesBySignedDigits k

/-- Zero has no digit to start from, and no multiplier is asked for zero times a point. -/
theorem checkedMultiply_eq (multiplier : Multiplier) (P : Point) {k : Nat}
    (bounded : Binary.bitLength k < 2 ^ 32) :
    multiplier.checkedMultiply P k = some (multiplier.multiply P k) := by
  unfold checkedMultiply multiply
  split
  · rfl
  · rename_i proper
    have nonzero : k ≠ 0 := fun null => proper (Or.inl null)
    cases multiplier with
    | doubleAndAdd => exact P.checkedTimesByDoubleAndAdd_eq k
    | nonAdjacentForm => exact P.checkedTimesByNonAdjacentForm_eq nonzero bounded
    | ladder => exact P.checkedTimesByLadder_eq k
    | signedDigits => exact P.checkedTimesBySignedDigits_eq nonzero bounded

end Multiplier

/-! ## Points of the curve and their octets -/

namespace Point

def checkedIsOnCurve (P : Point) : Option Bool := do
  if P.isInfinity then return true
  else
    let zz := P.z.square
    return P.y.square == (← (P.x.square * P.x).checkedAdd (Curve.b * (zz * zz * zz)))

def checkedOfAffineOnCurve (x y : FieldElement) : Option (Except Error Point) := do
  if ← (ofAffine x y).checkedIsOnCurve then return .ok (ofAffine x y)
  else return .error .pointNotOnCurve

def checkedDecompress (x : FieldElement) (odd : Bool) : Option (Option Point) := do
  match (← (x.square * x).checkedAdd Curve.b).sqrt with
  | none => return none
  | some y =>
    if y.isOdd = odd then return some (ofAffine x y)
    else return some (ofAffine x (← y.checkedNeg))

def checkedEncodeCompressed (P : Point) : Option Octets := do
  match P.toAffine with
  | none => return List.replicate 33 0
  | some (x, y) =>
    let octets ← store (List.replicate 33 0) 0 (if y.isOdd then 3 else 2)
    overwrite octets 1 33 (← x.checkedEncode)

def checkedEncodeUncompressed (P : Point) : Option Octets := do
  match P.toAffine with
  | none => return List.replicate 65 0
  | some (x, y) =>
    let octets ← store (List.replicate 65 0) 0 4
    let octets ← overwrite octets 1 33 (← x.checkedEncode)
    overwrite octets 33 65 (← y.checkedEncode)

/-- The length and the first octet choose the format, before anything is cut off. -/
def checkedDecode (octets : Octets) : Option (Except Error Point) := do
  if octets.length = 1 ∧ octets.head? = some 0 then return .ok infinity
  else if octets.length = 33 ∧ (octets.head? = some 2 ∨ octets.head? = some 3) then
    match FieldElement.decode (← block octets 1 33) with
    | .error cause => return .error cause
    | .ok x =>
      match ← checkedDecompress x (octets.head? == some 3) with
      | none => return .error .pointNotOnCurve
      | some P => return .ok P
  else if octets.length = 65 ∧ octets.head? = some 4 then
    match FieldElement.decode (← block octets 1 33) with
    | .error cause => return .error cause
    | .ok x =>
      match FieldElement.decode (← block octets 33 65) with
      | .error cause => return .error cause
      | .ok y => checkedOfAffineOnCurve x y
  else return .error .invalidPointEncoding

theorem checkedIsOnCurve_eq (P : Point) : P.checkedIsOnCurve = some P.isOnCurve := by
  simp only [checkedIsOnCurve, FieldElement.checkedAdd_eq, isOnCurve]
  split <;> rfl

theorem checkedOfAffineOnCurve_eq (x y : FieldElement) :
    checkedOfAffineOnCurve x y = some (ofAffineOnCurve x y) := by
  simp only [checkedOfAffineOnCurve, checkedIsOnCurve_eq, Option.bind_eq_bind, Option.bind_some,
    ofAffineOnCurve]
  split <;> rfl

theorem checkedDecompress_eq (x : FieldElement) (odd : Bool) :
    checkedDecompress x odd = some (decompress x odd) := by
  simp only [checkedDecompress, FieldElement.checkedAdd_eq, FieldElement.checkedNeg_eq,
    Option.bind_eq_bind, Option.bind_some, decompress, Curve.rhs]
  cases (x.square * x + Curve.b).sqrt with
  | none => rfl
  | some y =>
    rw [Option.map_some]
    by_cases parity : y.isOdd = odd
    · rw [if_pos parity]
      simp only [if_pos parity]
      rfl
    · rw [if_neg parity]
      simp only [if_neg parity]
      rfl

theorem checkedEncodeCompressed_eq (P : Point) :
    P.checkedEncodeCompressed = some P.encodeCompressed := by
  unfold checkedEncodeCompressed encodeCompressed
  cases P.toAffine with
  | none => rfl
  | some affine =>
    obtain ⟨x, y⟩ := affine
    simp only [FieldElement.checkedEncode_eq]
    exact Checked.overwrite_last [if y.isOdd then 3 else 2] 0 rfl x.length_encode rfl

/-- The abscissa is written in front of the blanks for the ordinate. -/
theorem checkedEncodeUncompressed_eq (P : Point) :
    P.checkedEncodeUncompressed = some P.encodeUncompressed := by
  unfold checkedEncodeUncompressed encodeUncompressed
  cases P.toAffine with
  | none => rfl
  | some affine =>
    obtain ⟨x, y⟩ := affine
    have blank : store (List.replicate 65 0) 0 4 =
        some ([4] ++ List.replicate 32 0 ++ List.replicate 32 (0 : UInt8)) := rfl
    have abscissa : overwrite ([4] ++ List.replicate 32 0 ++ List.replicate 32 0) 1 33 x.encode =
        some ([4] ++ x.encode ++ List.replicate 32 0) :=
      Checked.overwrite_blanks [4] (List.replicate 32 0) 0 rfl x.length_encode rfl
    have front : ([4] ++ x.encode).length = 33 := by
      rw [List.length_append, FieldElement.length_encode]
      rfl
    simp only [FieldElement.checkedEncode_eq, blank, abscissa, Option.bind_eq_bind,
      Option.bind_some]
    exact Checked.overwrite_last ([4] ++ x.encode) 0 front y.length_encode rfl

/-- A string of the right length for a format is cut inside, and into the same pieces. -/
theorem checkedDecode_eq (octets : Octets) : checkedDecode octets = some (decode octets) := by
  cases octets with
  | nil => rfl
  | cons tag body =>
    have octet (other : UInt8) : some tag = some other ↔ tag = other := Option.some_inj
    have one : body.length + 1 = 1 ∧ tag = 0 ↔ tag = 0 ∧ body.length = 0 :=
      and_comm.trans (and_congr_right fun _ => by omega)
    have short : body.length + 1 = 33 ∧ (tag = 2 ∨ tag = 3) ↔
        (tag = 2 ∨ tag = 3) ∧ body.length = 32 :=
      and_comm.trans (and_congr_right fun _ => by omega)
    have long : body.length + 1 = 65 ∧ tag = 4 ↔ tag = 4 ∧ body.length = 64 :=
      and_comm.trans (and_congr_right fun _ => by omega)
    unfold checkedDecode decode
    simp only [List.length_cons, List.head?_cons, octet, one, short, long]
    split
    · rfl
    · split
      · rename_i compressed
        have whole : block (tag :: body) 1 33 = some body :=
          Checked.block_back (by decide) (by rw [List.length_cons, compressed.2])
        have parity : (some tag == some 3) = (tag == 3) := rfl
        simp only [whole, parity, checkedDecompress_eq, Option.bind_eq_bind, Option.bind_some,
          decodeCompressed]
        cases FieldElement.decode body with
        | error cause => rfl
        | ok x =>
          dsimp only [bind, Except.bind]
          cases decompress x (tag == 3) <;> rfl
      · split
        · rename_i uncompressed
          have abscissa : block (tag :: body) 1 33 = some (body.take 32) :=
            Checked.block_of_le (by decide) (by rw [List.length_cons, uncompressed.2]; decide)
          have ordinate : block (tag :: body) 33 65 = some (body.drop 32) :=
            Checked.block_back (by decide) (by rw [List.length_cons, uncompressed.2])
          simp only [abscissa, ordinate, checkedOfAffineOnCurve_eq, Option.bind_eq_bind,
            Option.bind_some, decodeUncompressed]
          cases FieldElement.decode (body.take 32) with
          | error cause => rfl
          | ok x => cases FieldElement.decode (body.drop 32) <;> rfl
        · rfl

end Point

namespace Checked

/-- Runs of the operations on points, on the curve or not, and of their codecs. -/
structure Points : Prop where
  negate (P : Point) : P.checkedNegate = some P.negate
  twice (P : Point) : P.checkedTwice = some P.twice
  add (P Q : Point) : P.checkedAdd Q = some (P.add Q)
  subtract (P Q : Point) : P.checkedSubtract Q = some (P.subtract Q)
  twicePlus (P Q : Point) : P.checkedTwicePlus Q = some (P.twicePlus Q)
  threeTimes (P : Point) : P.checkedThreeTimes = some P.threeTimes
  timesPowTwo (P : Point) (e : Nat) : P.checkedTimesPowTwo e = some (P.timesPowTwo e)
  isOnCurve (P : Point) : P.checkedIsOnCurve = some P.isOnCurve
  ofAffineOnCurve (x y : FieldElement) :
    Point.checkedOfAffineOnCurve x y = some (Point.ofAffineOnCurve x y)
  decompress (x : FieldElement) (odd : Bool) :
    Point.checkedDecompress x odd = some (Point.decompress x odd)
  encodeCompressed (P : Point) : P.checkedEncodeCompressed = some P.encodeCompressed
  encodeUncompressed (P : Point) : P.checkedEncodeUncompressed = some P.encodeUncompressed
  decode (octets : Octets) : Point.checkedDecode octets = some (Point.decode octets)

/-- Runs of the multipliers, on any point. -/
structure Multipliers : Prop where
  nonAdjacentForm (k : Nat) : k ≠ 0 → Binary.bitLength k < 2 ^ 32 →
    NonAdjacentForm.checkedOfNat k = some (NonAdjacentForm.ofNat k)
  multiply (multiplier : Multiplier) (P : Point) (k : Nat) : Binary.bitLength k < 2 ^ 32 →
    multiplier.checkedMultiply P k = some (multiplier.multiply P k)
  sumOfMultiples (P : Point) (j : Nat) (Q : Point) (k : Nat) :
    P.checkedSumOfMultiples j Q k = some (P.sumOfMultiples j Q k)

theorem points : Points where
  negate := Point.checkedNegate_eq
  twice := Point.checkedTwice_eq
  add := Point.checkedAdd_eq
  subtract := Point.checkedSubtract_eq
  twicePlus := Point.checkedTwicePlus_eq
  threeTimes := Point.checkedThreeTimes_eq
  timesPowTwo P e := Point.checkedTimesPowTwo_eq e P
  isOnCurve := Point.checkedIsOnCurve_eq
  ofAffineOnCurve := Point.checkedOfAffineOnCurve_eq
  decompress := Point.checkedDecompress_eq
  encodeCompressed := Point.checkedEncodeCompressed_eq
  encodeUncompressed := Point.checkedEncodeUncompressed_eq
  decode := Point.checkedDecode_eq

theorem multipliers : Multipliers where
  nonAdjacentForm _ := NonAdjacentForm.checkedOfNat_eq
  multiply multiplier P _ := multiplier.checkedMultiply_eq P
  sumOfMultiples := Point.checkedSumOfMultiples_eq

end Checked
end Secp256k1
