import Mathlib
import Secp256k1.Field
import Secp256k1.Scalar
import Secp256k1.Proofs.ModularPower

/-!
# Both moduli are prime

Lucas's test certifies a number by a witness that has full order modulo the number.  It needs the
prime factors of the number less one, so the certificates form a chain in which every factor is
either settled by trial division or certified before.  The kernel evaluates the whole chain.
-/

set_option autoImplicit false

namespace Secp256k1
namespace Primality

/-- Trial division, for numbers below `320 * 320`. -/
def trial (n : Nat) : Bool :=
  decide (2 ≤ n) && decide (n < 320 * 320) &&
    (List.range 320).all fun d => n % d != 0 || decide (d < 2) || decide (n ≤ d)

structure Certificate where
  number : Nat
  witness : Nat
  /-- The prime factors of the number less one, each as often as it divides it. -/
  factors : List Nat

/-- Lucas's test, given the numbers that are known to be prime. -/
def Certificate.passes (known : List Nat) (certificate : Certificate) : Bool :=
  (certificate.factors.all fun q => trial q || known.contains q) &&
    certificate.factors.prod + 1 == certificate.number &&
    Modular.power certificate.number certificate.witness (certificate.number - 1) == 1 &&
    certificate.factors.all fun q =>
      Modular.power certificate.number certificate.witness ((certificate.number - 1) / q) != 1

def chain (known : List Nat) : List Certificate → Bool
  | [] => true
  | certificate :: rest => certificate.passes known && chain (certificate.number :: known) rest

theorem prime_of_trial {n : Nat} (passed : trial n = true) : n.Prime := by
  simp only [trial, Bool.and_eq_true, decide_eq_true_eq, List.all_eq_true, List.mem_range,
    Bool.or_eq_true, bne_iff_ne] at passed
  obtain ⟨⟨large, small⟩, undivided⟩ := passed
  by_contra composite
  have factorSquare : n.minFac ^ 2 ≤ n := Nat.minFac_sq_le_self (by omega) composite
  have factorLarge : 2 ≤ n.minFac := (Nat.minFac_prime (by omega)).two_le
  have factorSmall : n.minFac < 320 := by nlinarith
  have proper : n.minFac < n := by nlinarith
  have divides := Nat.mod_eq_zero_of_dvd (Nat.minFac_dvd n)
  rcases undivided n.minFac factorSmall with (remainder | tiny) | whole
  · exact remainder divides
  · omega
  · omega

theorem pow_eq_one_iff {modulus : Nat} (large : 1 < modulus) (base exponent : Nat) :
    (base : ZMod modulus) ^ exponent = 1 ↔ Modular.power modulus base exponent = 1 := by
  rw [Modular.power_eq, ← Nat.cast_pow, ← Nat.cast_one, ZMod.natCast_eq_natCast_iff',
    Nat.mod_eq_of_lt large]

theorem prime_of_passes {known : List Nat} {certificate : Certificate}
    (knownPrime : ∀ q ∈ known, q.Prime) (passed : certificate.passes known = true) :
    certificate.number.Prime := by
  obtain ⟨number, witness, factors⟩ := certificate
  simp only [Certificate.passes, Bool.and_eq_true, List.all_eq_true, Bool.or_eq_true,
    List.contains_iff_mem, beq_iff_eq, bne_iff_ne] at passed
  obtain ⟨⟨⟨settled, product⟩, full⟩, proper⟩ := passed
  have factorPrime : ∀ q ∈ factors, q.Prime := by
    intro q member
    rcases settled q member with divided | listed
    · exact prime_of_trial divided
    · exact knownPrime q listed
  have large : 1 < number := by
    have positive : factors.prod ≠ 0 := by
      intro vanishes
      exact Nat.not_prime_zero (factorPrime 0 (List.prod_eq_zero_iff.mp vanishes))
    omega
  refine lucas_primality number (witness : ZMod number) ?_ ?_
  · exact (pow_eq_one_iff large witness (number - 1)).mpr full
  · intro q prime divides reachesOne
    have dividesProduct : q ∣ factors.prod := by
      rwa [show factors.prod = number - 1 by omega]
    obtain ⟨factor, member, dividesFactor⟩ := (Prime.dvd_prod_iff prime.prime).mp dividesProduct
    have same : q = factor := (Nat.prime_dvd_prime_iff_eq prime (factorPrime factor member)).mp
      dividesFactor
    subst same
    exact proper q member ((pow_eq_one_iff large witness _).mp reachesOne)

theorem prime_of_chain {certificates : List Certificate} : ∀ {known : List Nat},
    (∀ q ∈ known, q.Prime) → chain known certificates = true →
      ∀ number ∈ certificates.map Certificate.number, number.Prime := by
  induction certificates with
  | nil => intro known _ _ number member; cases member
  | cons head rest ih =>
    intro known knownPrime passed number member
    obtain ⟨headPassed, restPassed⟩ := Bool.and_eq_true_iff.mp passed
    have headPrime : head.number.Prime := prime_of_passes knownPrime headPassed
    rcases List.mem_cons.mp member with rfl | member
    · exact headPrime
    · refine ih (fun q listed => ?_) restPassed number member
      rcases List.mem_cons.mp listed with rfl | listed
      · exact headPrime
      · exact knownPrime q listed

/-! ## The chain for the two moduli -/

def certificates : List Certificate := [
  ⟨120233, 3, [2, 2, 2, 7, 19, 113]⟩,
  ⟨305873, 3, [2, 2, 2, 2, 7, 2731]⟩,
  ⟨1206781, 10, [2, 2, 3, 5, 20113]⟩,
  ⟨1627771, 3, [2, 3, 5, 29, 1871]⟩,
  ⟨4681609, 23, [2, 2, 2, 3, 97, 2011]⟩,
  ⟨7240687, 3, [2, 3, 1206781]⟩,
  ⟨13331831, 13, [2, 5, 971, 1373]⟩,
  ⟨44706919, 6, [2, 3, 797, 9349]⟩,
  ⟨107590001, 3, [2, 2, 2, 2, 5, 5, 5, 5, 7, 29, 53]⟩,
  ⟨545358713, 5, [2, 2, 2, 41, 59, 28181]⟩,
  ⟨297159362677, 2, [2, 2, 3, 3, 11, 461, 1627771]⟩,
  ⟨107361793816595537, 3, [2, 2, 2, 2, 16699, 85831, 4681609]⟩,
  ⟨173378833005251801, 6, [2, 2, 2, 5, 5, 2621, 24809, 13331831]⟩,
  ⟨174723607534414371449, 3, [2, 2, 2, 17, 59, 4051, 120233, 44706919]⟩,
  ⟨22149492674086928081353, 5, [2, 2, 2, 3, 5323, 173378833005251801]⟩,
  ⟨132896956044521568488119, 6, [2, 3, 22149492674086928081353]⟩,
  ⟨29047611873442575647497758179, 2, [2, 293, 305873, 545358713, 297159362677]⟩,
  ⟨341948486974166000522343609283189, 2,
    [2, 2, 3, 3, 3, 109, 29047611873442575647497758179]⟩,
  ⟨255515944373312847190720520512484175977, 3,
    [2, 2, 2, 7, 7, 11, 1627, 2657, 4423, 41201, 96557, 7240687, 107590001]⟩,
  ⟨205115282021455665897114700593932402728804164701536103180137503955397371, 10,
    [2, 3, 5, 29, 29, 31, 7723, 132896956044521568488119,
      255515944373312847190720520512484175977]⟩,
  ⟨Scalar.order, 7,
    [2, 2, 2, 2, 2, 2, 3, 149, 631, 107361793816595537, 174723607534414371449,
      341948486974166000522343609283189]⟩,
  ⟨fieldModulus, 3,
    [2, 3, 7, 13441,
      205115282021455665897114700593932402728804164701536103180137503955397371]⟩]

theorem chain_certificates : chain [] certificates = true := by
  decide +kernel

theorem prime_of_certified {number : Nat}
    (certified : number ∈ certificates.map Certificate.number) : number.Prime :=
  prime_of_chain (fun _ listed => absurd listed List.not_mem_nil) chain_certificates number
    certified

end Primality

theorem Scalar.order_prime : Nat.Prime Scalar.order :=
  Primality.prime_of_certified (by simp [Primality.certificates])

theorem fieldModulus_prime : Nat.Prime fieldModulus :=
  Primality.prime_of_certified (by simp [Primality.certificates])

instance : Fact (Nat.Prime Scalar.order) := ⟨Scalar.order_prime⟩

instance : Fact (Nat.Prime fieldModulus) := ⟨fieldModulus_prime⟩

end Secp256k1
