import Mathlib
import Secp256k1.Signature.Der
import Secp256k1.Proofs.OctetStrings

/-!
# Integers in DER

The contents that are read as a number are exactly the ones that are written for it: the shortest
octets, with a zero in front where the leading bit would otherwise be set.
-/

set_option autoImplicit false

namespace Secp256k1

/-! ## Shortest octets -/

namespace Octets

variable {v width : Nat} {leading : UInt8} {rest : Octets}

theorem toNat_zero_cons (octets : Octets) : toNat (0 :: octets) = toNat octets := by
  rw [toNat_cons, UInt8.toNat_zero, Nat.zero_mul, Nat.zero_add]

theorem toNat_single (octet : UInt8) : toNat [octet] = octet.toNat := by
  rw [toNat_cons, List.length_nil, pow_zero, Nat.mul_one]
  rfl

theorem minimal_of_bounds (lower : 256 ^ width ≤ v) (upper : v < 256 ^ (width + 1)) :
    minimal v = fixed (width + 1) v := by
  have positive : v ≠ 0 := Nat.ne_of_gt (Nat.lt_of_lt_of_le (Nat.pow_pos (by decide)) lower)
  rw [show 256 = 2 ^ 8 from rfl, ← Nat.pow_mul] at lower upper
  have low := (Nat.le_log2 positive).mpr lower
  have high := (Nat.log2_lt positive).mpr upper
  rw [minimal, Binary.bitLength, if_neg positive, widthOfBits]
  congr 1
  omega

theorem minimal_of_lt (small : v < 256) : minimal v = fixed 1 v := by
  by_cases null : v = 0
  · rw [null]
    rfl
  · exact minimal_of_bounds (Nat.pos_of_ne_zero null) small

/-- A string without a superfluous zero in front is the shortest one of its number. -/
theorem minimal_toNat (shortest : leading ≠ 0 ∨ rest = []) :
    minimal (toNat (leading :: rest)) = leading :: rest := by
  have whole := fixed_toNat (leading :: rest)
  have upper := toNat_lt (leading :: rest)
  rw [List.length_cons] at whole upper
  by_cases single : rest = []
  · rw [single] at whole upper ⊢
    rw [minimal_of_lt upper]
    exact whole
  · have positive : 1 ≤ leading.toNat := Nat.one_le_iff_ne_zero.mpr fun null =>
      (shortest.resolve_right single) (UInt8.toNat_inj.mp null)
    have lower : 256 ^ rest.length ≤ toNat (leading :: rest) := by
      rw [toNat_cons]
      exact Nat.le_add_right_of_le (Nat.le_mul_of_pos_left _ positive)
    rw [minimal_of_bounds lower upper, whole]

theorem exists_minimal (v : Nat) :
    ∃ leading rest, minimal v = leading :: rest ∧ (leading ≠ 0 ∨ rest = []) ∧
      toNat (leading :: rest) = v := by
  by_cases small : v < 256
  · refine ⟨UInt8.ofNat v, [], minimal_of_lt small, Or.inr rfl, ?_⟩
    have value := toNat_fixed 1 v
    rwa [pow_one, Nat.mod_eq_of_lt small] at value
  · have positive : v ≠ 0 := by omega
    have lower : 256 ^ (v.log2 / 8) ≤ v := by
      rw [show 256 = 2 ^ 8 from rfl, ← Nat.pow_mul]
      exact (Nat.le_log2 positive).mp (by omega)
    have upper : v < 256 ^ (v.log2 / 8 + 1) := by
      rw [show 256 = 2 ^ 8 from rfl, ← Nat.pow_mul]
      exact (Nat.log2_lt positive).mp (by omega)
    have value := toNat_fixed (v.log2 / 8 + 1) v
    rw [Nat.mod_eq_of_lt upper] at value
    refine ⟨_, _, minimal_of_bounds lower upper, Or.inl fun null => ?_, value⟩
    -- A zero in front would leave the number below its own leading power.
    have tail := toNat_lt (fixed (v.log2 / 8) v)
    rw [fixed, null, toNat_zero_cons] at value
    rw [value, length_fixed] at tail
    omega

theorem length_minimal_le {width : Nat} (positive : 0 < width) (bounded : v < 256 ^ width) :
    (minimal v).length ≤ width := by
  rw [minimal, length_fixed, widthOfBits, Binary.bitLength]
  split
  · omega
  · rename_i nonzero
    rw [show 256 = 2 ^ 8 from rfl, ← Nat.pow_mul] at bounded
    have high := (Nat.log2_lt nonzero).mpr bounded
    omega

end Octets

/-! ## Contents of integers -/

namespace Der

variable {content : Octets} {v : Nat}

theorem integerOctets_of_minimal {leading : UInt8} {rest : Octets}
    (octets : Octets.minimal v = leading :: rest) :
    integerOctets v = if 0x80 ≤ leading then 0 :: leading :: rest else leading :: rest := by
  rw [integerOctets, octets]

theorem integerOfOctets_single (octet : UInt8) :
    integerOfOctets [octet] =
      if 0x80 ≤ octet then .error .negativeInteger else .ok octet.toNat :=
  rfl

theorem integerOfOctets_cons_cons (leading second : UInt8) (tail : Octets) :
    integerOfOctets (leading :: second :: tail) =
      if 0x80 ≤ leading then .error .negativeInteger
      else if leading = 0 ∧ second < 0x80 then .error .nonMinimalInteger
      else .ok (Octets.toNat (leading :: second :: tail)) :=
  rfl

theorem integerOfOctets_integerOctets (v : Nat) : integerOfOctets (integerOctets v) = .ok v := by
  obtain ⟨leading, rest, octets, shortest, value⟩ := Octets.exists_minimal v
  rw [integerOctets_of_minimal octets]
  split
  · rename_i high
    have needed : ¬ ((0 : UInt8) = 0 ∧ leading < 0x80) := fun small =>
      UInt8.not_lt.mpr high small.2
    rw [integerOfOctets_cons_cons, if_neg (by decide), if_neg needed, Octets.toNat_zero_cons, value]
  · rename_i low
    cases rest with
    | nil => rw [integerOfOctets_single, if_neg low, ← Octets.toNat_single, value]
    | cons second tail =>
      have nonzero : leading ≠ 0 := shortest.resolve_right (List.cons_ne_nil second tail)
      rw [integerOfOctets_cons_cons, if_neg low, if_neg fun small => nonzero small.1, value]

theorem eq_integerOctets_of_read (success : integerOfOctets content = .ok v) :
    content = integerOctets v := by
  match content with
  | [] => cases success
  | [octet] =>
    rw [integerOfOctets_single] at success
    split at success
    · cases success
    · rename_i low
      have octets : Octets.minimal (Octets.toNat [octet]) = [octet] :=
        Octets.minimal_toNat (Or.inr rfl)
      rw [Octets.toNat_single, Except.ok.inj success] at octets
      rw [integerOctets_of_minimal octets, if_neg low]
  | leading :: second :: tail =>
    rw [integerOfOctets_cons_cons] at success
    split at success
    · cases success
    · rename_i low
      split at success
      · cases success
      · rename_i needed
        have value : Octets.toNat (leading :: second :: tail) = v := Except.ok.inj success
        by_cases null : leading = 0
        · -- The zero is there for the sign of the second octet.
          have high : ¬ second < 0x80 := fun small => needed ⟨null, small⟩
          have nonzero : second ≠ 0 := fun zero => high (zero ▸ by decide)
          have octets : Octets.minimal (Octets.toNat (second :: tail)) = second :: tail :=
            Octets.minimal_toNat (Or.inl nonzero)
          rw [null, Octets.toNat_zero_cons] at value
          rw [value] at octets
          rw [integerOctets_of_minimal octets, if_pos (UInt8.not_lt.mp high), null]
        · have octets : Octets.minimal (Octets.toNat (leading :: second :: tail)) =
              leading :: second :: tail := Octets.minimal_toNat (Or.inl null)
          rw [value] at octets
          rw [integerOctets_of_minimal octets, if_neg low]

theorem integerOfOctets_eq_ok_iff :
    integerOfOctets content = .ok v ↔ content = integerOctets v :=
  ⟨eq_integerOctets_of_read, fun written => written ▸ integerOfOctets_integerOctets v⟩

/-- A number of at most 256 bits takes at most 33 octets, the sign included. -/
theorem length_integerOctets_le (bounded : v < 256 ^ 32) : (integerOctets v).length ≤ 33 := by
  have short := Octets.length_minimal_le (by decide) bounded
  obtain ⟨leading, rest, octets, _, _⟩ := Octets.exists_minimal v
  rw [octets, List.length_cons] at short
  rw [integerOctets_of_minimal octets]
  split
  · rw [List.length_cons, List.length_cons]
    omega
  · rw [List.length_cons]
    omega

end Der
end Secp256k1
