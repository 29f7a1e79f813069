import Mathlib
import Secp256k1.Proofs.DerIntegers
import Secp256k1.Proofs.NonceStandard
import Secp256k1.Proofs.Retries

/-!
# Derived nonces follow the standard

The generator agrees with RFC 6979 for orders of any size.  It cuts `T` to whole octets before it
reads the candidate, and it reduces the digest by at most one subtraction; neither makes a
difference, because a candidate needs the leftmost bits of `T` only and a digest integer has no more
bits than the order.
-/

set_option autoImplicit false

namespace Secp256k1

open NonceStandard

/-! ## Conversions -/

theorem Nonce.width_eq (order : Nat) : Nonce.width order = octetLength order := by
  rw [Nonce.width, Octets.widthOfBits, Binary.bitLength_eq_size, octetLength,
    Nat.ceilDiv_eq_add_pred_div]
  rfl

theorem Nonce.bitLength_le_width (order : Nat) :
    Binary.bitLength order ≤ 8 * Nonce.width order := by
  rw [Nonce.width, Octets.widthOfBits]
  omega

/-- What is below the order fits into the octets that the order takes. -/
theorem Nonce.lt_pow_width {order v : Nat} (below : v < order) : v < 256 ^ Nonce.width order := by
  have bits := Binary.lt_two_pow_bitLength order
  have powers : 2 ^ Binary.bitLength order ≤ 2 ^ (8 * Nonce.width order) :=
    Nat.pow_le_pow_right (by decide) (bitLength_le_width order)
  rw [pow_mul, show (2 : Nat) ^ 8 = 256 from rfl] at powers
  omega

theorem Nonce.checkOrder_eq_ok_iff {order : Nat} : checkOrder order = .ok () ↔ 2 ≤ order := by
  have bits : 1 < Nat.size order ↔ 2 ≤ order := Nat.lt_size
  rw [← bits, ← Binary.bitLength_eq_size, checkOrder]
  split
  · rename_i few
    refine iff_of_false (fun passed => ?_) (by omega)
    cases passed
  · rename_i enough
    exact iff_of_true rfl (by omega)

namespace Octets

theorem leftmost_eq_bitsToInt (n : Nat) (octets : Octets) :
    leftmost n octets = bitsToInt n octets.bits := by
  rw [leftmost_eq, bitsToInt]
  split
  · rfl
  · rename_i short
    rw [List.take_of_length_le (Nat.le_of_not_lt short), Binary.ofMsbFirst_replicate_append]

theorem toNat_digits {digits : List Nat} (small : ∀ digit ∈ digits, digit < 256) :
    toNat (digits.map UInt8.ofNat).reverse = Nat.ofDigits 256 digits := by
  induction digits with
  | nil => rfl
  | cons digit higher ih =>
    obtain ⟨lowest, others⟩ := List.forall_mem_cons.mp small
    rw [List.map_cons, List.reverse_cons, toNat_append, ih others, toNat_single,
      UInt8.toNat_ofNat', Nat.mod_eq_of_lt lowest, Nat.ofDigits_cons, List.length_singleton]
    omega

theorem fixed_eq_intToOctets {order v : Nat} (below : v < order) :
    fixed (Nonce.width order) v = intToOctets order v := by
  have bounded := Nonce.lt_pow_width below
  have length := Nat.length_digitsAppend (by decide) (Nonce.width order) bounded
  apply eq_of_toNat_eq
  · rw [length_fixed, intToOctets, List.length_reverse, List.length_map, ← Nonce.width_eq, length]
  · have small : ∀ digit ∈ Nat.digitsAppend 256 (Nonce.width order) v, digit < 256 :=
      fun digit listed => Nat.lt_of_mem_digitsAppend (by decide) _ digit listed
    rw [toNat_fixed_of_lt bounded, intToOctets, ← Nonce.width_eq, toNat_digits small,
      Nat.digitsAppend, Nat.ofDigits_append_replicate_zero, Nat.ofDigits_digits]

end Octets

namespace Generator

variable {mac : Mac} {order : Nat}

/-! ## The digest -/

/-- The digest integer has as many bits as the order, so it is below twice the order. -/
theorem leftmost_lt_twice {order : Nat} (positive : 0 < order) (digest : Octets) :
    Octets.leftmost (Binary.bitLength order) digest < 2 * order := by
  have bound := Octets.leftmost_lt (Binary.bitLength order) digest
  have nonzero : order ≠ 0 := Nat.ne_of_gt positive
  have top : 2 ^ (Binary.bitLength order - 1) ≤ order := by
    rw [Binary.bitLength, if_neg nonzero]
    exact Nat.log2_self_le nonzero
  have step : 2 ^ Binary.bitLength order = 2 ^ (Binary.bitLength order - 1) * 2 := by
    rw [Binary.bitLength, if_neg nonzero, ← pow_succ, Nat.add_sub_cancel]
  omega

theorem digestResidue_eq_mod (positive : 0 < order) (digest : Octets) :
    digestResidue order digest = Octets.leftmost (Binary.bitLength order) digest % order := by
  have twofold := leftmost_lt_twice positive digest
  unfold digestResidue
  dsimp only
  split
  · rename_i above
    rw [Nat.mod_eq_sub_mod above, Nat.mod_eq_of_lt (by omega)]
  · rename_i below
    rw [Nat.mod_eq_of_lt (Nat.lt_of_not_le below)]

theorem digestResidue_lt (positive : 0 < order) (digest : Octets) :
    digestResidue order digest < order := by
  rw [digestResidue_eq_mod positive]
  exact Nat.mod_lt _ positive

/-- Nothing is lost in the subtraction. -/
theorem digestResidue_add (order : Nat) (digest : Octets) :
    ∃ borrow ≤ 1, Octets.leftmost (Binary.bitLength order) digest =
      digestResidue order digest + borrow * order := by
  unfold digestResidue
  dsimp only
  split
  · exact ⟨1, Nat.le_refl 1, by omega⟩
  · exact ⟨0, Nat.zero_le 1, by omega⟩

theorem seedMaterial_eq (positive : 0 < order) (scalar : Nat) (digest : Octets) :
    seedMaterial order scalar digest =
      intToOctets order (scalar % order) ++ bitsToOctets order digest.bits := by
  rw [seedMaterial, Octets.fixed_eq_intToOctets (Nat.mod_lt _ positive),
    Octets.fixed_eq_intToOctets (digestResidue_lt positive digest), bitsToOctets,
    digestResidue_eq_mod positive, Octets.leftmost_eq_bitsToInt, Binary.bitLength_eq_size]

theorem seeded_eq_seed (mac : Mac) (positive : 0 < order) (scalar : Nat) (digest : Octets) :
    seeded mac order scalar digest = seed mac order (scalar % order) digest := by
  simp only [seeded, seed, seedMaterial_eq positive, reseed, advance, reseedInput, initial,
    List.append_assoc, List.cons_append, List.nil_append]

/-! ## One candidate -/

theorem key_chain (mac : Mac) (count : Nat) :
    ∀ state : Generator, (chain mac count state).2.key = state.key := by
  induction count with
  | zero => intro state; rfl
  | succ count ih => intro state; exact ih (state.advance mac)

/-- A loop that stops at enough bits appends as many values as cover the missing bits. -/
theorem gather_eq_chain (mac : Mac) (qlen count : Nat) : ∀ (state : Generator) (T : Octets),
    (qlen - 8 * T.length + 255) / 256 = count →
      gather mac qlen state.key state.value T =
        (T ++ (chain mac count state).1, (chain mac count state).2.value) := by
  induction count with
  | zero =>
    intro state T covered
    have enough : ¬ 8 * T.length < qlen := by omega
    rw [gather, if_neg enough, chain, List.append_nil]
  | succ count ih =>
    intro state T covered
    have missing : 8 * T.length < qlen := by omega
    -- One more value covers 256 bits, so it leaves one value less to append.
    have fewer : (qlen - 8 * (T ++ mac.tag state.key state.value).length + 255) / 256 = count := by
      rw [List.length_append, mac.length_tag]
      omega
    rw [gather, if_pos missing]
    have rest := ih (state.advance mac) _ fewer
    simp only [advance] at rest
    rw [rest, chain, List.append_assoc]
    rfl

/-- The bits of the order take as many values as its octets do. -/
theorem gather_nil_eq_chain (mac : Mac) (order : Nat) (state : Generator) :
    gather mac (Nat.size order) state.key state.value [] =
      ((chain mac ((Nonce.width order + 31) / 32) state).1,
        (chain mac ((Nonce.width order + 31) / 32) state).2.value) := by
  refine gather_eq_chain mac _ _ state [] ?_
  rw [Nonce.width, Octets.widthOfBits, Binary.bitLength_eq_size, List.length_nil]
  omega

theorem step_eq (mac : Mac) (order : Nat) (state : Generator) :
    step mac order state =
      (Octets.leftmost (Binary.bitLength order) (state.output mac (Nonce.width order)).1,
        (state.output mac (Nonce.width order)).2.reseed mac 0 []) := by
  have sameKey := key_chain mac ((Nonce.width order + 31) / 32) state
  simp only [step, gather_nil_eq_chain, output, reseed, advance, reseedInput, sameKey]
  rw [Octets.leftmost_take (Nonce.bitLength_le_width order), Octets.leftmost_eq_bitsToInt,
    Binary.bitLength_eq_size]

theorem accept_eq (order k : Nat) :
    Nonce.accept? order k = if InRange order k then some k else none := by
  unfold Nonce.accept?
  congr 1
  rw [InRange, eq_iff_iff]
  omega

theorem output_eq_gathered (mac : Mac) (order : Nat) (state : Generator) :
    (state.output mac (Nonce.width order)).2 = gathered mac order state := by
  rw [gathered, gather_nil_eq_chain]
  have sameKey := key_chain mac ((Nonce.width order + 31) / 32) state
  rw [← sameKey]
  rfl

theorem attempt_eq (mac : Mac) (order : Nat) (state : Generator) :
    attempt mac order state =
      if InRange order (step mac order state).1 then
        (.ok (some (step mac order state).1), gathered mac order state)
      else (.ok none, (step mac order state).2) := by
  rw [step_eq, ← output_eq_gathered]
  by_cases inRange : InRange order (Octets.leftmost (Binary.bitLength order)
      (state.output mac (Nonce.width order)).1)
  · simp only [attempt, accept_eq, if_pos inRange]
  · simp only [attempt, accept_eq, if_neg inRange]

/-! ## The search for a nonce -/

/-- Candidates outside the range are passed over as in the standard. -/
theorem stateAfter_of_outside (count : Nat) : ∀ state : Generator,
    (∀ j < count, ¬ InRange order (candidate mac order j state)) →
      stateAfter (attempt mac order) count state = afterCandidates mac order count state := by
  induction count with
  | zero => exact fun state _ => rfl
  | succ count ih =>
    intro state outside
    have first : ¬ InRange order (step mac order state).1 := outside 0 (Nat.succ_pos count)
    rw [stateAfter_succ, attempt_eq, if_neg first]
    exact ih _ fun j before => outside (j + 1) (Nat.succ_lt_succ before)

variable {attempts i k : Nat} {state : Generator}

theorem attempt_stateAfter (outside : ∀ j < i, ¬ InRange order (candidate mac order j state)) :
    attempt mac order (stateAfter (attempt mac order) i state) =
      if InRange order (candidate mac order i state) then
        (.ok (some (candidate mac order i state)),
          gathered mac order (afterCandidates mac order i state))
      else (.ok none, (step mac order (afterCandidates mac order i state)).2) := by
  rw [stateAfter_of_outside i state outside, attempt_eq, candidate_eq]

theorem attempt_rejects (outside : ∀ j < i, ¬ InRange order (candidate mac order j state)) :
    ∀ j < i, (attempt mac order (stateAfter (attempt mac order) j state)).1 = .ok none := by
  intro j before
  rw [attempt_stateAfter fun earlier least => outside earlier (least.trans before),
    if_neg (outside j before)]

theorem retry_of_chooses (allowed : i < attempts) (chosen : Chooses mac order state i k) :
    retry (attempt mac order) attempts state =
      (.ok k, gathered mac order (afterCandidates mac order i state)) := by
  have accepts := attempt_stateAfter chosen.earlier
  rw [chosen.reached, if_pos chosen.inRange] at accepts
  have ends : (attempt mac order (stateAfter (attempt mac order) i state)).1 =
      Except.map some (.ok k) := congrArg Prod.fst accepts
  rw [retry_eq allowed (attempt_rejects chosen.earlier) ends, stateAfter_succ_eq_step, accepts]

/-- Within its attempts the search ends at the first candidate in the range, or there is none. -/
theorem retry_attempt_cases (mac : Mac) (order attempts : Nat) (state : Generator) :
    (∃ i k, i < attempts ∧ Chooses mac order state i k ∧
      (retry (attempt mac order) attempts state).1 = .ok k) ∨
    (∀ i < attempts, ¬ InRange order (candidate mac order i state)) ∧
      (retry (attempt mac order) attempts state).1 = .error .attemptsExhausted := by
  rcases exists_first_or_none (fun i => InRange order (candidate mac order i state)) attempts with
    ⟨i, allowed, inRange, earlier⟩ | outside
  · have chosen : Chooses mac order state i (candidate mac order i state) :=
      ⟨rfl, inRange, earlier⟩
    exact Or.inl ⟨i, _, allowed, chosen, congrArg Prod.fst (retry_of_chooses allowed chosen)⟩
  · have exhausted := retry_eq_exhausted (attempt_rejects outside)
    exact Or.inr ⟨outside, congrArg Prod.fst exhausted⟩

theorem retry_attempt_eq_ok_iff :
    (retry (attempt mac order) attempts state).1 = .ok k ↔
      ∃ i < attempts, Chooses mac order state i k := by
  constructor
  · intro success
    rcases retry_attempt_cases mac order attempts state with
      ⟨i, l, allowed, chosen, found⟩ | ⟨_, failed⟩
    · cases found.symm.trans success
      exact ⟨i, allowed, chosen⟩
    · cases failed.symm.trans success
  · rintro ⟨i, allowed, chosen⟩
    exact congrArg Prod.fst (retry_of_chooses allowed chosen)

theorem retry_attempt_eq_error_iff {cause : Error} :
    (retry (attempt mac order) attempts state).1 = .error cause ↔
      cause = .attemptsExhausted ∧
        ∀ i < attempts, ¬ InRange order (candidate mac order i state) := by
  rcases retry_attempt_cases mac order attempts state with
    ⟨i, k, allowed, chosen, found⟩ | ⟨outside, failed⟩
  · rw [found]
    refine iff_of_false (fun failed => by cases failed) fun failed => ?_
    exact failed.2 i allowed (chosen.reached ▸ chosen.inRange)
  · rw [failed]
    exact ⟨fun same => by cases same; exact ⟨rfl, outside⟩, fun same => by rw [same.1]⟩

end Generator

namespace DerivedNonces

variable {mac : Mac}

theorem start_eq (source : DerivedNonces mac) {order : Nat} (large : 2 ≤ order) (scalar : Nat)
    (digest : Octets) :
    source.start order scalar digest = (.ok (),
      ⟨source.attempts, some ⟨order, Generator.seeded mac order scalar digest⟩⟩) := by
  rw [start, Nonce.checkOrder_eq_ok_iff.mpr large]

/-- After a start for an order of any size, the next nonce is the one that the standard chooses, if
the choice takes no more candidates than are allowed, and otherwise the attempts are used up.  The
secret and the digest enter the seed whole: reduced, and in as many octets as the order takes. -/
theorem first_nonce_follows_standard (mac : Mac) (source : DerivedNonces mac) {order : Nat}
    (large : 2 ≤ order) (d : Nat) (message : Octets) :
    (∃ started, source.start order d message = (.ok (), started) ∧
      (∀ k, started.next.1 = .ok k ↔
        ∃ i < source.attempts, Chooses mac order (seed mac order (d % order) message) i k) ∧
      ∀ cause, started.next.1 = .error cause ↔
        cause = .attemptsExhausted ∧ ∀ i < source.attempts,
          ¬ InRange order (candidate mac order i (seed mac order (d % order) message))) ∧
    (Generator.digestResidue order message = bitsToInt (Nat.size order) message.bits % order ∧
      ∃ borrow ≤ 1, Octets.leftmost (Binary.bitLength order) message =
        Generator.digestResidue order message + borrow * order) ∧
    (Octets.minimal (d % order)).length ≤ Nonce.width order ∧
    (Octets.minimal (Generator.digestResidue order message)).length ≤ Nonce.width order := by
  have positive : 0 < order := Nat.lt_of_lt_of_le (by decide) large
  have wide : 0 < Nonce.width order := by
    rw [Nonce.width, Octets.widthOfBits, Binary.bitLength, if_neg (Nat.ne_of_gt positive)]
    omega
  refine ⟨⟨_, source.start_eq large d message, fun k => ?_, fun cause => ?_⟩, ⟨?_, ?_⟩, ?_, ?_⟩
  · rw [← Generator.seeded_eq_seed mac positive]
    exact Generator.retry_attempt_eq_ok_iff
  · rw [← Generator.seeded_eq_seed mac positive]
    exact Generator.retry_attempt_eq_error_iff
  · rw [Generator.digestResidue_eq_mod positive, Octets.leftmost_eq_bitsToInt,
      Binary.bitLength_eq_size]
  · exact Generator.digestResidue_add order message
  · exact Octets.length_minimal_le wide (Nonce.lt_pow_width (Nat.mod_lt d positive))
  · exact Octets.length_minimal_le wide
      (Nonce.lt_pow_width (Generator.digestResidue_lt positive message))

/-- Tags that write the key again, except that 33 octets of data, a chaining value and a separator
without material, give the number one. -/
def keptKeyMac : Mac :=
  ⟨fun key data => Octets.fixed 32 (if data.length = 33 then 1 else key.toNat),
    fun _ _ => Octets.length_fixed 32 _⟩

/-- An order of 257 bits takes two values for each candidate.  Here the first candidate is zero and
is refused, and the second one is read from the leading 257 bits of two values that write one. -/
theorem second_candidate_of_a_wide_order :
    2 ≤ 2 ^ 256 + 1 ∧
      ∃ started, (DerivedNonces.new keptKeyMac 2).start (2 ^ 256 + 1) 5 [7] = (.ok (), started) ∧
        started.next.1 = .ok 2 ∧
        ∃ i < 2, Chooses keptKeyMac (2 ^ 256 + 1)
          (seed keptKeyMac (2 ^ 256 + 1) (5 % (2 ^ 256 + 1)) [7]) i 2 := by
  have large : 2 ≤ 2 ^ 256 + 1 := by decide
  obtain ⟨⟨started, success, chooses, _⟩, _⟩ :=
    first_nonce_follows_standard keptKeyMac (DerivedNonces.new keptKeyMac 2) large 5 [7]
  have found : ((DerivedNonces.new keptKeyMac 2).start (2 ^ 256 + 1) 5 [7]).2.next.1 = .ok 2 := by
    decide +kernel
  rw [success] at found
  exact ⟨large, started, success, found, (chooses 2).mp found⟩

end DerivedNonces
end Secp256k1
