import Mathlib
import Secp256k1.NonAdjacentForm
import Secp256k1.Proofs.BinaryDigits

/-!
# The value of the non-adjacent form

The scan looks at `3 * k` and `k` from the same position upwards.  Their difference is twice the
number that the digits still to be read must write, and one pass of the scan keeps that.
-/

set_option autoImplicit false

namespace Secp256k1.NonAdjacentForm

/-- The number that compact signed digits write. -/
def value : List SignedDigit → Int
  | [] => 0
  | digit :: higher => 2 ^ digit.zeros * (digit.sign + 2 * value higher)

/-- What is scanned of the numbers `triple` and `single` over `count` positions. -/
def view (triple single count : Nat) : List (Bool × Bool) :=
  (List.range count).map fun i => ((triple ^^^ single).testBit i, single.testBit i)

theorem positions_eq_view (k : Nat) :
    positions k = view (3 * k / 2) (k / 2) (Binary.bitLength (3 * k) - 2) := by
  simp only [positions, view, ← Nat.testBit_div_two, Nat.xor_div_two]

theorem view_succ (triple single count : Nat) :
    view triple single (count + 1) =
      (decide (triple % 2 ≠ single % 2), decide (single % 2 = 1)) ::
        view (triple / 2) (single / 2) count := by
  have differ : (triple ^^^ single).testBit 0 = decide (triple % 2 ≠ single % 2) := by
    rw [Nat.testBit_xor, Nat.testBit_zero, Nat.testBit_zero]
    rcases Nat.mod_two_eq_zero_or_one triple with t | t <;>
      rcases Nat.mod_two_eq_zero_or_one single with s | s <;> simp [t, s]
  simp only [view, List.range_succ_eq_map, List.map_cons, List.map_map, Function.comp_def,
    Nat.succ_eq_add_one, ← Nat.testBit_div_two, Nat.xor_div_two, differ, Nat.testBit_zero]

private theorem div_two_pow_succ {n count : Nat} (top : n / 2 ^ (count + 1) = 1) :
    n / 2 / 2 ^ count = 1 := by
  rwa [Nat.div_div_eq_div_mul, ← Nat.pow_succ']

theorem value_scan (count : Nat) : ∀ zeros triple single : Nat,
    3 * single ≤ triple → triple ≤ 3 * single + 2 → triple / 2 ^ count = 1 →
      value (scan zeros (view triple single count)) = 2 ^ zeros * ((triple : Int) - single) := by
  induction count using Nat.strong_induction_on with
  | _ count ih =>
    intro zeros triple single lower upper top
    cases count with
    | zero =>
      have last : triple = 1 ∧ single = 0 := by
        rw [pow_zero, Nat.div_one] at top
        omega
      rw [last.1, last.2]
      rfl
    | succ count =>
      rw [view_succ]
      by_cases same : triple % 2 = single % 2
      · -- No digit here: one more zero is pending.
        have tail := ih count (Nat.lt_succ_self count) (zeros + 1) (triple / 2) (single / 2)
          (by omega) (by omega) (div_two_pow_succ top)
        simp only [same, ne_eq, not_true_eq_false, decide_false, scan]
        rw [tail, pow_succ, mul_assoc]
        congr 1
        omega
      · cases count with
        | zero => omega
        | succ count =>
          have tail := ih count (by omega) 1 (triple / 2 / 2) (single / 2 / 2)
            (by omega) (by omega) (div_two_pow_succ (div_two_pow_succ top))
          simp only [same, ne_eq, not_false_eq_true, decide_true, view_succ, scan, value]
          rw [tail]
          congr 1
          by_cases odd : single % 2 = 1
          · simp only [SignedDigit.sign, odd, decide_true, if_true]
            omega
          · simp only [SignedDigit.sign, odd, decide_false, Bool.false_eq_true, if_false]
            omega

/-- The non-adjacent form of a number writes the number. -/
theorem value_ofNat (k : Nat) : value (ofNat k) = k := by
  by_cases null : k = 0
  · rw [ofNat, if_pos null, null]
    rfl
  · have fits := Binary.lt_two_pow_bitLength (3 * k)
    have digits : 2 ≤ Binary.bitLength (3 * k) := by
      by_contra short
      have atMostOne : 2 ^ Binary.bitLength (3 * k) ≤ 2 ^ 1 :=
        Nat.pow_le_pow_right (by decide) (by omega)
      omega
    have top : 3 * k / 2 / 2 ^ (Binary.bitLength (3 * k) - 2) = 1 := by
      rw [Nat.div_div_eq_div_mul, ← Nat.pow_succ',
        show (Binary.bitLength (3 * k) - 2).succ = Binary.bitLength (3 * k) - 1 by omega]
      exact Binary.div_two_pow_bitLength (by omega)
    rw [ofNat, if_neg null, positions_eq_view, value_scan _ 0 _ _ (by omega) (by omega) top,
      pow_zero, one_mul]
    omega

end Secp256k1.NonAdjacentForm
