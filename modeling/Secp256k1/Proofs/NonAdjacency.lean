import Mathlib
import Secp256k1.Proofs.CheckedPoints
import Secp256k1.Proofs.SignedDigits

/-!
# Non-adjacency

A number has one non-adjacent form.  With a zero below every digit but the lowest one, what stands
above a digit is a multiple of four of the digit's place, so the lowest digit and the zeros below it
can be read off the number, and then the digits above them.  The scan leaves such a zero because it
skips the position behind a digit.
-/

set_option autoImplicit false

namespace Secp256k1

namespace SignedDigit

theorem sign_eq (digit : SignedDigit) : digit.sign = 1 ∨ digit.sign = -1 := by
  cases negative : digit.negative <;> simp [sign, negative]

theorem negative_eq_decide (digit : SignedDigit) : digit.negative = decide (digit.sign < 0) := by
  cases negative : digit.negative <;> simp [sign, negative]

theorem eq_of_sign_eq {digit other : SignedDigit} (signs : digit.sign = other.sign)
    (zeros : digit.zeros = other.zeros) : digit = other := by
  have negatives : digit.negative = other.negative := by
    rw [negative_eq_decide, signs, ← negative_eq_decide]
  cases digit
  cases other
  cases negatives
  cases zeros
  rfl

end SignedDigit

namespace NonAdjacentForm

/-- Compact signed digits without neighbours, the top one positive. -/
structure IsNonAdjacent (digits : List SignedDigit) : Prop where
  nonempty : digits ≠ []
  top : digits.getLast?.map SignedDigit.sign = some 1
  gaps : ∀ digit ∈ digits.tail, 1 ≤ digit.zeros

/-- The sum of the digits, each of them at the place behind the zeros and the digits below it; the
zeros of the lowest one start at `place`. -/
def sumFrom (place : Nat) : List SignedDigit → Int
  | [] => 0
  | digit :: higher =>
    digit.sign * 2 ^ (place + digit.zeros) + sumFrom (place + digit.zeros + 1) higher

theorem sumFrom_eq (digits : List SignedDigit) :
    ∀ place, sumFrom place digits = 2 ^ place * value digits := by
  induction digits with
  | nil => intro place; rw [sumFrom, value, mul_zero]
  | cons digit higher ih =>
    intro place
    rw [sumFrom, value, ih, pow_succ, pow_add]
    ring

/-! ## One form only -/

theorem sign_add_two_mul_odd (digit : SignedDigit) (v : Int) : (digit.sign + 2 * v) % 2 = 1 := by
  have sign := digit.sign_eq
  omega

theorem eq_of_two_pow_mul_eq {a c : Int} (oddA : a % 2 = 1) (oddC : c % 2 = 1) (i : Nat) :
    ∀ j, 2 ^ i * a = 2 ^ j * c → i = j ∧ a = c := by
  induction i with
  | zero =>
    intro j same
    cases j with
    | zero => exact ⟨rfl, by simpa using same⟩
    | succ j =>
      rw [pow_zero, one_mul, pow_succ', mul_assoc] at same
      omega
  | succ i ih =>
    intro j same
    cases j with
    | zero =>
      rw [pow_zero, one_mul, pow_succ', mul_assoc] at same
      omega
    | succ j =>
      rw [pow_succ', pow_succ', mul_assoc, mul_assoc] at same
      obtain ⟨places, odds⟩ := ih j (by omega)
      exact ⟨congrArg Nat.succ places, odds⟩

theorem value_cons_ne_zero (digit : SignedDigit) (higher : List SignedDigit) :
    value (digit :: higher) ≠ 0 := by
  intro vanishes
  have odd := sign_add_two_mul_odd digit (value higher)
  rcases mul_eq_zero.mp vanishes with power | rest
  · exact pow_ne_zero digit.zeros two_ne_zero power
  · omega

theorem even_value_of_gaps {digits : List SignedDigit} (gaps : ∀ digit ∈ digits, 1 ≤ digit.zeros) :
    value digits % 2 = 0 := by
  cases digits with
  | nil => rfl
  | cons digit higher =>
    obtain ⟨zeros, positive⟩ := Nat.exists_eq_add_of_le' (gaps digit List.mem_cons_self)
    rw [value, positive, pow_succ', mul_assoc]
    exact Int.mul_emod_right 2 _

theorem eq_of_value_eq (digits : List SignedDigit) : ∀ {others : List SignedDigit},
    (∀ digit ∈ digits.tail, 1 ≤ digit.zeros) → (∀ digit ∈ others.tail, 1 ≤ digit.zeros) →
      value digits = value others → digits = others := by
  induction digits with
  | nil =>
    intro others _ _ same
    cases others with
    | nil => rfl
    | cons other higher => exact absurd same.symm (value_cons_ne_zero other higher)
  | cons digit higher ih =>
    intro others gaps gaps' same
    cases others with
    | nil => exact absurd same (value_cons_ne_zero digit higher)
    | cons other higher' =>
      obtain ⟨zeros, rest⟩ := eq_of_two_pow_mul_eq (sign_add_two_mul_odd digit _)
        (sign_add_two_mul_odd other _) digit.zeros other.zeros same
      -- Both numbers above are even, so the sums agree modulo four only if the signs agree.
      have even : value higher % 2 = 0 := even_value_of_gaps gaps
      have even' : value higher' % 2 = 0 := even_value_of_gaps gaps'
      have sign := digit.sign_eq
      have sign' := other.sign_eq
      have above : value higher = value higher' := by omega
      have tails : higher = higher' :=
        ih (fun digit listed => gaps digit (List.mem_of_mem_tail listed))
          (fun digit listed => gaps' digit (List.mem_of_mem_tail listed)) above
      rw [SignedDigit.eq_of_sign_eq (by omega) zeros, tails]

/-! ## The form that is scanned -/

theorem exists_top_scan (zeros : Nat) (positions : List (Bool × Bool)) :
    ∃ lower last, scan zeros positions = lower ++ [⟨false, last⟩] := by
  induction zeros, positions using scan.induct with
  | case1 zeros => exact ⟨[], zeros, rfl⟩
  | case2 zeros bit rest ih => exact ih
  | case3 zeros negative => exact ⟨[⟨negative, zeros⟩], 1, rfl⟩
  | case4 zeros negative skipped rest ih =>
    obtain ⟨lower, last, ends⟩ := ih
    exact ⟨⟨negative, zeros⟩ :: lower, last, by rw [scan, ends, List.cons_append]⟩

theorem zeros_of_mem_scan {zeros : Nat} {positions : List (Bool × Bool)} :
    ∀ digit ∈ scan zeros positions,
      min 1 zeros ≤ digit.zeros ∧ digit.zeros ≤ zeros + positions.length := by
  induction zeros, positions using scan.induct with
  | case1 zeros => simp [scan]
  | case2 zeros bit rest ih =>
    intro digit listed
    have bounds := ih digit listed
    rw [List.length_cons]
    omega
  | case3 zeros negative => simp [scan]
  | case4 zeros negative skipped rest ih =>
    intro digit listed
    rw [List.length_cons, List.length_cons]
    rcases List.mem_cons.mp listed with rfl | higher
    · simp
    · have bounds := ih digit higher
      omega

theorem gaps_scan (zeros : Nat) (positions : List (Bool × Bool)) :
    ∀ digit ∈ (scan zeros positions).tail, 1 ≤ digit.zeros := by
  induction zeros, positions using scan.induct with
  | case1 zeros => simp [scan]
  | case2 zeros bit rest ih => exact ih
  | case3 zeros negative => simp [scan]
  | case4 zeros negative skipped rest _ =>
    exact fun digit listed => (zeros_of_mem_scan digit listed).1

theorem isNonAdjacent_ofNat {k : Nat} (positive : k ≠ 0) : IsNonAdjacent (ofNat k) := by
  rw [ofNat, if_neg positive]
  obtain ⟨lower, last, ends⟩ := exists_top_scan 0 (positions k)
  refine ⟨?_, ?_, gaps_scan 0 (positions k)⟩
  · rw [ends]
    exact List.concat_ne_nil _ lower
  · rw [ends, List.getLast?_concat]
    rfl

theorem zeros_le_of_mem_ofNat {k : Nat} {digit : SignedDigit} (listed : digit ∈ ofNat k) :
    digit.zeros ≤ Binary.bitLength k := by
  have digits := bitLength_three_mul_le k
  unfold ofNat at listed
  split at listed
  · cases listed
  · have bound := (zeros_of_mem_scan digit listed).2
    simp only [positions, List.length_map, List.length_range] at bound
    omega

/-- The digits of a positive number are one and minus one, without neighbours and with a one at the
top.  They add up to the number and no other such digits do.  Counted in words of 32 bits, the zeros
do not overflow. -/
theorem ofNat_is_only_non_adjacent_form {k : Nat} (positive : 1 ≤ k) (bounded : k.size < 2 ^ 32) :
    IsNonAdjacent (ofNat k) ∧ sumFrom 0 (ofNat k) = k ∧
      (∀ digits, IsNonAdjacent digits → sumFrom 0 digits = k → digits = ofNat k) ∧
      checkedOfNat k = some (ofNat k) ∧ ∀ digit ∈ ofNat k, digit.zeros < 2 ^ 32 := by
  have nonzero : k ≠ 0 := Nat.ne_of_gt positive
  have proper := isNonAdjacent_ofNat nonzero
  have sum : sumFrom 0 (ofNat k) = k := by
    rw [sumFrom_eq, pow_zero, one_mul, value_ofNat]
  rw [← Binary.bitLength_eq_size] at bounded
  refine ⟨proper, sum, fun digits proper' sum' => ?_, checkedOfNat_eq nonzero bounded,
    fun digit listed => (zeros_le_of_mem_ofNat listed).trans_lt bounded⟩
  have values : value digits = value (ofNat k) := by
    rw [sumFrom_eq, pow_zero, one_mul] at sum sum'
    rw [sum, sum']
  exact eq_of_value_eq digits proper'.gaps proper.gaps values

/-- The number 23 is 32 less eight and less one. -/
theorem digits_of_twenty_three :
    1 ≤ 23 ∧ Nat.size 23 < 2 ^ 32 ∧
      ∀ digits, IsNonAdjacent digits → sumFrom 0 digits = 23 →
        digits = [⟨true, 0⟩, ⟨true, 2⟩, ⟨false, 1⟩] := by
  have short : Nat.size 23 < 2 ^ 32 := by decide
  obtain ⟨_, _, unique, _⟩ := ofNat_is_only_non_adjacent_form (k := 23) (by decide) short
  exact ⟨by decide, short, unique⟩

end NonAdjacentForm
end Secp256k1
