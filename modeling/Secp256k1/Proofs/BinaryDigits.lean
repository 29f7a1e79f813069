import Mathlib
import Secp256k1.Binary

/-!
# The digits determine the number

Reading the digits of a number gives the number back, and a number is below the power of two
that its length names.
-/

set_option autoImplicit false

namespace Secp256k1.Binary

theorem lt_two_pow_bitLength (k : Nat) : k < 2 ^ bitLength k := by
  unfold bitLength
  split
  · simp [*]
  · exact Nat.lt_log2_self

theorem bitLength_eq_size (k : Nat) : bitLength k = Nat.size k := by
  apply Nat.le_antisymm
  · unfold bitLength
    split
    · exact Nat.zero_le _
    · rename_i nonzero
      exact (Nat.log2_lt nonzero).mpr (Nat.lt_size_self k)
  · exact Nat.size_le.mpr (lt_two_pow_bitLength k)

theorem bitLength_le_iff {k bits : Nat} : bitLength k ≤ bits ↔ k < 2 ^ bits := by
  rw [bitLength_eq_size, Nat.size_le]

theorem bitLength_pos {k : Nat} (positive : k ≠ 0) : 1 ≤ bitLength k := by
  rw [bitLength_eq_size]
  exact Nat.size_pos.mpr (Nat.pos_of_ne_zero positive)

theorem bitLength_shiftRight (k count : Nat) : bitLength (k >>> count) = bitLength k - count := by
  refine eq_of_forall_ge_iff fun bits => ?_
  rw [bitLength_le_iff, Nat.sub_le_iff_le_add, bitLength_le_iff, Nat.shiftRight_eq_div_pow,
    Nat.div_lt_iff_lt_mul (Nat.two_pow_pos count), pow_add]

/-- Only the top digit is left when all others are shifted out. -/
theorem div_two_pow_bitLength {k : Nat} (positive : k ≠ 0) : k / 2 ^ (bitLength k - 1) = 1 := by
  rw [bitLength, if_neg positive, Nat.add_sub_cancel]
  have lower := Nat.log2_self_le positive
  have upper : k < 2 ^ (k.log2 + 1) := Nat.lt_log2_self
  rw [pow_succ] at upper
  exact Nat.div_eq_of_lt_le (by omega) (by omega)

/-- The digits of `k` from position `n` upwards give `k / 2 ^ n`. -/
private theorem foldl_range_reverse (k : Nat) :
    ∀ n value, ((List.range n).map k.testBit).reverse.foldl
        (fun value bit => 2 * value + bit.toNat) value =
      value * 2 ^ n + k % 2 ^ n := by
  intro n
  induction n with
  | zero => intro value; simp [Nat.mod_one]
  | succ n ih =>
    intro value
    rw [List.range_succ, List.map_append, List.reverse_append]
    simp only [List.map_cons, List.map_nil, List.reverse_cons, List.reverse_nil, List.nil_append,
      List.cons_append, List.foldl_cons]
    rw [ih, Nat.mod_pow_succ, Nat.toNat_testBit, Nat.pow_succ, Nat.add_mul, Nat.mul_comm 2 value,
      Nat.mul_assoc, Nat.mul_comm 2 (2 ^ n), Nat.mul_comm (2 ^ n) (k / 2 ^ n % 2)]
    omega

/-- Any number of leading zeros may stand in front of the digits. -/
theorem ofMsbFirst_testBits {k n : Nat} (fits : k < 2 ^ n) :
    ofMsbFirst ((List.range n).map k.testBit).reverse = k := by
  rw [ofMsbFirst, foldl_range_reverse, Nat.zero_mul, Nat.zero_add, Nat.mod_eq_of_lt fits]

theorem ofMsbFirst_msbFirst (k : Nat) : ofMsbFirst (msbFirst k) = k :=
  ofMsbFirst_testBits (lt_two_pow_bitLength k)

theorem foldl_msbFirst (k : Nat) :
    (msbFirst k).foldl (fun value bit => 2 * value + bit.toNat) 0 = k :=
  ofMsbFirst_msbFirst k

theorem ofMsbFirst_fst_pairsMsbFirst (j k : Nat) :
    ofMsbFirst ((pairsMsbFirst j k).map Prod.fst) = j := by
  have fits : j < 2 ^ max (bitLength j) (bitLength k) :=
    (lt_two_pow_bitLength j).trans_le (Nat.pow_le_pow_right (by decide) (Nat.le_max_left _ _))
  simpa [pairsMsbFirst, Function.comp_def] using ofMsbFirst_testBits fits

theorem ofMsbFirst_snd_pairsMsbFirst (j k : Nat) :
    ofMsbFirst ((pairsMsbFirst j k).map Prod.snd) = k := by
  have fits : k < 2 ^ max (bitLength j) (bitLength k) :=
    (lt_two_pow_bitLength k).trans_le (Nat.pow_le_pow_right (by decide) (Nat.le_max_right _ _))
  simpa [pairsMsbFirst, Function.comp_def] using ofMsbFirst_testBits fits

/-! ## Trailing zeros -/

theorem trailingZeros_eq_findIdx (k : Nat) :
    trailingZeros k = (lsbFirst k).findIdx fun bit => bit := by
  rw [trailingZeros, List.takeWhile_eq_take_findIdx_not, List.length_take]
  simp [List.findIdx_le_length]

theorem testBit_trailingZeros {k : Nat} (positive : k ≠ 0) :
    k.testBit (trailingZeros k) = true := by
  have top : k.testBit k.log2 = true := Nat.testBit_log2 positive
  have member : true ∈ lsbFirst k := by
    refine List.mem_map.mpr ⟨k.log2, ?_, top⟩
    simp [bitLength, positive]
  have found : ((lsbFirst k).findIdx fun bit => bit) < (lsbFirst k).length :=
    List.findIdx_lt_length_of_exists ⟨true, member, rfl⟩
  have read := List.findIdx_getElem (w := found)
  rw [trailingZeros_eq_findIdx]
  simpa [lsbFirst] using read

theorem trailingZeros_lt_bitLength {k : Nat} (positive : k ≠ 0) :
    trailingZeros k < bitLength k := by
  rw [← not_le, bitLength_le_iff]
  intro short
  have set := Nat.testBit_lt_two_pow short
  rw [testBit_trailingZeros positive] at set
  cases set

theorem testBit_of_lt_trailingZeros {k i : Nat} (below : i < trailingZeros k) :
    k.testBit i = false := by
  rw [trailingZeros_eq_findIdx] at below
  have read := List.not_of_lt_findIdx below
  simpa [lsbFirst] using read

theorem two_pow_trailingZeros_mul (k : Nat) :
    2 ^ trailingZeros k * (k >>> trailingZeros k) = k := by
  have low : k % 2 ^ trailingZeros k = 0 := by
    apply Nat.eq_of_testBit_eq
    intro i
    rw [Nat.testBit_mod_two_pow, Nat.zero_testBit]
    by_cases below : i < trailingZeros k
    · rw [testBit_of_lt_trailingZeros below, Bool.and_false]
    · rw [decide_eq_false below, Bool.false_and]
  rw [Nat.shiftRight_eq_div_pow, Nat.mul_div_cancel' (Nat.dvd_of_mod_eq_zero low)]

theorem shiftRight_trailingZeros {k : Nat} (positive : k ≠ 0) :
    k >>> trailingZeros k = 2 * (k >>> (trailingZeros k + 1)) + 1 := by
  have odd := testBit_trailingZeros positive
  rw [Nat.testBit_eq_decide_div_mod_eq, decide_eq_true_eq] at odd
  rw [Nat.shiftRight_succ, Nat.shiftRight_eq_div_pow]
  omega

end Secp256k1.Binary
