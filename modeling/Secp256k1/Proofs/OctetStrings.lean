import Mathlib
import Secp256k1.Octets

/-!
# Octets and numbers

`fixed` and `toNat` are inverse to each other on numbers that fit the width and on strings of
that length.
-/

set_option autoImplicit false

namespace Secp256k1.Octets

private theorem foldl_start (octets : Octets) :
    ∀ start, octets.foldl (fun value octet => value * 256 + octet.toNat) start =
      start * 256 ^ octets.length + toNat octets := by
  induction octets with
  | nil => intro start; simp [toNat]
  | cons octet rest ih =>
    intro start
    simp only [toNat, List.foldl_cons, List.length_cons]
    rw [ih, ih (0 * 256 + octet.toNat), Nat.pow_succ, Nat.add_mul, Nat.zero_mul, Nat.zero_add,
      Nat.mul_assoc, Nat.mul_comm 256, Nat.add_assoc]

theorem toNat_cons (octet : UInt8) (rest : Octets) :
    toNat (octet :: rest) = octet.toNat * 256 ^ rest.length + toNat rest := by
  rw [toNat, List.foldl_cons, foldl_start, Nat.zero_mul, Nat.zero_add]

theorem toNat_append (first second : Octets) :
    toNat (first ++ second) = toNat first * 256 ^ second.length + toNat second := by
  rw [toNat, List.foldl_append, foldl_start]
  rfl

theorem toNat_lt (octets : Octets) : toNat octets < 256 ^ octets.length := by
  induction octets with
  | nil => simp [toNat]
  | cons octet rest ih =>
    rw [toNat_cons, List.length_cons, Nat.pow_succ]
    have octetBound : octet.toNat ≤ 255 := Nat.le_of_lt_succ octet.toNat_lt
    have scaled : octet.toNat * 256 ^ rest.length ≤ 255 * 256 ^ rest.length :=
      Nat.mul_le_mul_right _ octetBound
    omega

theorem toNat_fixed (width v : Nat) : toNat (fixed width v) = v % 256 ^ width := by
  induction width with
  | zero => simp [fixed, toNat, Nat.mod_one]
  | succ width ih =>
    rw [fixed, toNat_cons, ih, length_fixed, UInt8.toNat_ofNat', Nat.shiftRight_eq_div_pow,
      Nat.pow_mul, show (2 : Nat) ^ 8 = 256 from rfl, Nat.pow_succ, Nat.mul_comm (256 ^ width),
      Nat.mul_comm (v / 256 ^ width % 256), Nat.add_comm, Nat.mul_comm 256,
      Nat.mod_mul]

theorem toNat_fixed_of_lt {width v : Nat} (fits : v < 256 ^ width) : toNat (fixed width v) = v := by
  rw [toNat_fixed, Nat.mod_eq_of_lt fits]

theorem fixed_toNat (octets : Octets) : fixed octets.length (toNat octets) = octets := by
  suffices general : ∀ high, fixed octets.length (high * 256 ^ octets.length + toNat octets) =
      octets by simpa using general 0
  induction octets with
  | nil => intro high; rfl
  | cons octet rest ih =>
    intro high
    have restBound := toNat_lt rest
    rw [List.length_cons, fixed, toNat_cons]
    congr 1
    · apply UInt8.toNat_inj.mp
      rw [UInt8.toNat_ofNat', Nat.shiftRight_eq_div_pow, Nat.pow_mul,
        show (2 : Nat) ^ 8 = 256 from rfl, Nat.pow_succ,
        show high * (256 ^ rest.length * 256) + (octet.toNat * 256 ^ rest.length + toNat rest) =
          toNat rest + (high * 256 + octet.toNat) * 256 ^ rest.length by
            rw [Nat.add_mul, Nat.mul_assoc, Nat.mul_comm 256]; omega,
        Nat.add_mul_div_right _ _ (Nat.pow_pos (by decide)), Nat.div_eq_of_lt restBound,
        Nat.zero_add, Nat.mul_comm high, Nat.mul_add_mod,
        Nat.mod_eq_of_lt octet.toNat_lt]
    · have regroup : high * 256 ^ (rest.length + 1) +
          (octet.toNat * 256 ^ rest.length + toNat rest) =
          (high * 256 + octet.toNat) * 256 ^ rest.length + toNat rest := by
        rw [Nat.pow_succ, Nat.add_mul, Nat.mul_assoc, Nat.mul_comm 256]; omega
      rw [regroup]
      exact ih _

end Secp256k1.Octets
