import Mathlib
import Secp256k1.Proofs.BinaryDigits
import Secp256k1.Proofs.OctetStrings

/-!
# Octets as bits

An octet string is also a bit string, in which every octet gives its most significant bit first.
Both write the same number, and the leftmost bits of the number are the first bits of the string.
-/

set_option autoImplicit false

namespace Secp256k1

namespace Binary

theorem foldl_start (bits : List Bool) : ∀ start,
    bits.foldl (fun value bit => 2 * value + bit.toNat) start =
      start * 2 ^ bits.length + ofMsbFirst bits := by
  induction bits with
  | nil => intro start; simp [ofMsbFirst]
  | cons bit rest ih =>
    intro start
    simp only [ofMsbFirst, List.foldl_cons, List.length_cons]
    rw [ih, ih (2 * 0 + bit.toNat), pow_succ]
    ring

theorem ofMsbFirst_append (first second : List Bool) :
    ofMsbFirst (first ++ second) = ofMsbFirst first * 2 ^ second.length + ofMsbFirst second := by
  rw [ofMsbFirst, List.foldl_append, foldl_start]
  rfl

theorem ofMsbFirst_lt (bits : List Bool) : ofMsbFirst bits < 2 ^ bits.length := by
  induction bits with
  | nil => simp [ofMsbFirst]
  | cons bit rest ih =>
    have split := ofMsbFirst_append [bit] rest
    have leading : ofMsbFirst [bit] ≤ 1 := by cases bit <;> decide
    have scaled := Nat.mul_le_mul_right (2 ^ rest.length) leading
    rw [List.singleton_append] at split
    rw [split, List.length_cons, pow_succ]
    omega

/-- A string without `n` bits is shifted by nothing. -/
theorem ofMsbFirst_take (n : Nat) (bits : List Bool) :
    ofMsbFirst (bits.take n) = ofMsbFirst bits >>> (bits.length - n) := by
  have split := ofMsbFirst_append (bits.take n) (bits.drop n)
  have low := ofMsbFirst_lt (bits.drop n)
  rw [List.take_append_drop] at split
  rw [List.length_drop] at split low
  rw [Nat.shiftRight_eq_div_pow, split, Nat.mul_comm, Nat.mul_add_div (Nat.two_pow_pos _),
    Nat.div_eq_of_lt low, Nat.add_zero]

/-- Leading zeros do not count. -/
theorem ofMsbFirst_replicate_append (count : Nat) (bits : List Bool) :
    ofMsbFirst (List.replicate count false ++ bits) = ofMsbFirst bits := by
  induction count with
  | zero => rfl
  | succ count ih =>
    rw [List.replicate_succ, List.cons_append]
    exact ih

end Binary

namespace Octets

def bits (octets : Octets) : List Bool :=
  octets.flatMap fun octet => ((List.range 8).map octet.toNat.testBit).reverse

theorem bits_cons (octet : UInt8) (rest : Octets) :
    bits (octet :: rest) = ((List.range 8).map octet.toNat.testBit).reverse ++ bits rest :=
  List.flatMap_cons

@[simp] theorem length_bits (octets : Octets) : octets.bits.length = 8 * octets.length := by
  induction octets with
  | nil => rfl
  | cons octet rest ih =>
    rw [bits_cons, List.length_append, ih, List.length_cons]
    simp
    omega

theorem bits_take (octets : Octets) : ∀ n, bits (octets.take n) = octets.bits.take (8 * n) := by
  induction octets with
  | nil => intro n; simp
  | cons octet rest ih =>
    intro n
    cases n with
    | zero => rfl
    | succ n =>
      have width : ((List.range 8).map octet.toNat.testBit).reverse.length = 8 := rfl
      have leading : ((List.range 8).map octet.toNat.testBit).reverse.take (8 * (n + 1)) =
          ((List.range 8).map octet.toNat.testBit).reverse :=
        List.take_of_length_le (by omega)
      have behind : 8 * (n + 1) - 8 = 8 * n := by omega
      rw [List.take_succ_cons, bits_cons, bits_cons, ih, List.take_append, width, leading, behind]

theorem ofMsbFirst_bits (octets : Octets) : Binary.ofMsbFirst octets.bits = octets.toNat := by
  induction octets with
  | nil => rfl
  | cons octet rest ih =>
    have bounded : octet.toNat < 2 ^ 8 := octet.toNat_lt
    rw [bits_cons, Binary.ofMsbFirst_append, Binary.ofMsbFirst_testBits bounded, ih, toNat_cons,
      length_bits, pow_mul, show (2 : Nat) ^ 8 = 256 from rfl]

theorem leftmost_eq (n : Nat) (octets : Octets) :
    leftmost n octets = Binary.ofMsbFirst (octets.bits.take n) := by
  rw [Binary.ofMsbFirst_take, length_bits, ofMsbFirst_bits, leftmost]
  split
  · rfl
  · rename_i short
    rw [Nat.sub_eq_zero_of_le (Nat.le_of_not_lt short), Nat.shiftRight_zero]

theorem leftmost_lt (n : Nat) (octets : Octets) : leftmost n octets < 2 ^ n := by
  rw [leftmost_eq]
  refine (Binary.ofMsbFirst_lt _).trans_le (Nat.pow_le_pow_right (by decide) ?_)
  exact List.length_take_le n octets.bits

/-- Octets behind the wanted bits make no difference. -/
theorem leftmost_take {n width : Nat} (enough : n ≤ 8 * width) (octets : Octets) :
    leftmost n (octets.take width) = leftmost n octets := by
  rw [leftmost_eq, leftmost_eq, bits_take, List.take_take, Nat.min_eq_left enough]

/-- Two strings of one length that write one number are equal. -/
theorem eq_of_toNat_eq {first second : Octets} (lengths : first.length = second.length)
    (numbers : first.toNat = second.toNat) : first = second := by
  rw [← fixed_toNat first, ← fixed_toNat second, lengths, numbers]

end Octets
end Secp256k1
