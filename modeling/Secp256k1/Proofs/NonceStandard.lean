import Mathlib
import Secp256k1.Nonce.Derived
import Secp256k1.Proofs.BitStrings

/-!
# The standard derivation of nonces

RFC 6979 in its own terms, beside the generator that computes it: the conversions of section 2.3 on
bit strings and base-256 digits, and the steps of section 3.2 with a loop that lengthens `T` until
it has enough bits.  `q` is the order, `x` the secret scalar, `h1` the digest, and a state holds the
key `K` and the value `V`.
-/

set_option autoImplicit false

namespace Secp256k1.NonceStandard

/-! ## Conversions -/

/-- Section 2.3.2: the leftmost `qlen` bits, or all of them behind the missing zeros. -/
def bitsToInt (qlen : Nat) (bits : List Bool) : Nat :=
  Binary.ofMsbFirst
    (if qlen < bits.length then bits.take qlen
    else List.replicate (qlen - bits.length) false ++ bits)

/-- The number of octets that `qlen` bits take, rounded up. -/
def octetLength (q : Nat) : Nat :=
  Nat.size q ⌈/⌉ 8

/-- Section 2.3.3: the digits to the base 256, as many as the order takes, most significant
first. -/
def intToOctets (q v : Nat) : Octets :=
  ((Nat.digitsAppend 256 (octetLength q) v).map UInt8.ofNat).reverse

/-- Section 2.3.4. -/
def bitsToOctets (q : Nat) (bits : List Bool) : Octets :=
  intToOctets q (bitsToInt (Nat.size q) bits % q)

/-! ## Generation -/

/-- Section 3.2, steps b to g. -/
def seed (mac : Mac) (q x : Nat) (h1 : Octets) : Generator :=
  let V := List.replicate 32 0x01
  let K := List.replicate 32 0x00
  let K := mac.tag K (V ++ [0x00] ++ intToOctets q x ++ bitsToOctets q h1.bits)
  let V := mac.tag K V
  let K := mac.tag K (V ++ [0x01] ++ intToOctets q x ++ bitsToOctets q h1.bits)
  let V := mac.tag K V
  ⟨K, V⟩

/-- Step h, parts 1 and 2: values are appended to `T` until it has `qlen` bits. -/
def gather (mac : Mac) (qlen : Nat) (K V T : Octets) : Octets × Octets :=
  if 8 * T.length < qlen then gather mac qlen K (mac.tag K V) (T ++ mac.tag K V) else (T, V)
termination_by qlen - 8 * T.length
decreasing_by
  rw [List.length_append, mac.length_tag]
  omega

/-- Step h as a whole: the candidate, and the state for another one. -/
def step (mac : Mac) (q : Nat) (state : Generator) : Nat × Generator :=
  let (T, V) := gather mac (Nat.size q) state.key state.value []
  let K := mac.tag state.key (V ++ [0x00])
  (bitsToInt (Nat.size q) T.bits, ⟨K, mac.tag K V⟩)

/-- The state when a candidate is read from `T`. -/
def gathered (mac : Mac) (q : Nat) (state : Generator) : Generator :=
  ⟨state.key, (gather mac (Nat.size q) state.key state.value []).2⟩

/-- The candidate after `i` other ones. -/
def candidate (mac : Mac) (q : Nat) : (i : Nat) → Generator → Nat
  | 0, state => (step mac q state).1
  | i + 1, state => candidate mac q i (step mac q state).2

/-- The state after a number of candidates, none of which was suitable. -/
def afterCandidates (mac : Mac) (q : Nat) : (count : Nat) → Generator → Generator
  | 0, state => state
  | count + 1, state => afterCandidates mac q count (step mac q state).2

def InRange (q k : Nat) : Prop :=
  1 ≤ k ∧ k ≤ q - 1

instance (q k : Nat) : Decidable (InRange q k) :=
  inferInstanceAs (Decidable (1 ≤ k ∧ k ≤ q - 1))

/-- The first candidate in the range comes after `i` other ones and is `k`. -/
structure Chooses (mac : Mac) (q : Nat) (state : Generator) (i k : Nat) : Prop where
  reached : candidate mac q i state = k
  inRange : InRange q k
  earlier : ∀ j < i, ¬ InRange q (candidate mac q j state)

variable {mac : Mac} {q i k : Nat} {state : Generator}

theorem candidate_eq (count : Nat) : ∀ state : Generator,
    candidate mac q count state = (step mac q (afterCandidates mac q count state)).1 := by
  induction count with
  | zero => exact fun state => rfl
  | succ count ih => exact fun state => ih (step mac q state).2

theorem Chooses.unique {j l : Nat} (first : Chooses mac q state i k)
    (second : Chooses mac q state j l) : i = j ∧ k = l := by
  have rounds : i = j := by
    rcases Nat.lt_trichotomy i j with before | same | behind
    · exact absurd (first.reached ▸ first.inRange) (second.earlier i before)
    · exact same
    · exact absurd (second.reached ▸ second.inRange) (first.earlier j behind)
  subst rounds
  exact ⟨rfl, first.reached.symm.trans second.reached⟩

theorem chooses_zero (inRange : InRange q (step mac q state).1) :
    Chooses mac q state 0 (step mac q state).1 :=
  ⟨rfl, inRange, fun _ none => absurd none (Nat.not_lt_zero _)⟩

end Secp256k1.NonceStandard
