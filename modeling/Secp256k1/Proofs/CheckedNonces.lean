import Mathlib
import Secp256k1.Proofs.CheckedArithmetic
import Secp256k1.Proofs.NonceDerivation
import Secp256k1.Proofs.Retries
import Secp256k1.Nonce.Random

/-!
# Checked nonces

A source cuts the secret, the digest and its candidates to the octets of the order, whatever the
order is.  Derived nonces fill a string with chaining values, the last of them cut to what is still
missing.  Random nonces clear the excess bits in the first octet of a block, so there has to be
one: a source never holds an order that takes none.
-/

set_option autoImplicit false

namespace Secp256k1

open Checked (block difference narrow overwrite remainder store)

/-! ## Repeated attempts -/

section Retry

variable {σ α : Type}

def checkedRetry (step : σ → Option (Except Error (Option α) × σ)) :
    (attempts : Nat) → σ → Option (Except Error α × σ)
  | 0, state => some (.error .attemptsExhausted, state)
  | attempts + 1, state => do
    match ← step state with
    | (.error cause, next) => return (.error cause, next)
    | (.ok (some result), next) => return (.ok result, next)
    | (.ok none, next) => checkedRetry step attempts next

/-- It is enough that the steps agree on the states that a run comes through. -/
theorem checkedRetry_eq (ready : σ → Prop)
    {checked : σ → Option (Except Error (Option α) × σ)} {step : σ → Except Error (Option α) × σ}
    (agrees : ∀ state, ready state → checked state = some (step state))
    (preserved : ∀ state, ready state → ready (step state).2) (attempts : Nat) :
    ∀ state, ready state →
      checkedRetry checked attempts state = some (retry step attempts state) := by
  induction attempts with
  | zero => exact fun _ _ => rfl
  | succ attempts ih =>
    intro state holds
    have next := preserved state holds
    rw [checkedRetry, agrees state holds, retry, Option.bind_eq_bind, Option.bind_some]
    rcases outcome : step state with ⟨cause | (none | result), after⟩
    · rfl
    · rw [outcome] at next
      exact ih after next
    · rfl

end Retry

theorem Nonce.lt_of_accept {order candidate nonce : Nat}
    (accepted : accept? order candidate = some nonce) : nonce < order := by
  unfold accept? at accepted
  split at accepted
  · rename_i inRange
    cases accepted
    exact inRange.2
  · cases accepted

/-! ## Derived nonces -/

namespace Generator

def checkedDigestResidue (order : Nat) (digest : Octets) : Option Nat := do
  let integer ← Octets.checkedLeftmost (Binary.bitLength order) digest
  if order ≤ integer then difference integer order else return integer

def checkedSeeded (mac : Mac) (order scalar : Nat) (digest : Octets) : Option Generator := do
  let secret ← Octets.checkedFixed (Nonce.width order) (← remainder scalar order)
  let residue ← Octets.checkedFixed (Nonce.width order) (← checkedDigestResidue order digest)
  let material := secret ++ residue
  return (initial.reseed mac 0 material).reseed mac 1 material

/-- The next chaining value, or as much of it as there is room for, over the octets from `start`
on; with the position after it. -/
def checkedFillStep (mac : Mac) (start : Nat) (octets : Octets) (generator : Generator) :
    Option (Nat × Octets × Generator) := do
  let advanced := generator.advance mac
  let count := min (← difference octets.length start) advanced.value.length
  let values ← block advanced.value 0 count
  return (start + count, ← overwrite octets start (start + count) values, advanced)

theorem checkedFillStep_eq (mac : Mac) {start : Nat} {octets : Octets}
    (inside : start ≤ octets.length) (generator : Generator) :
    let count := min (octets.length - start) 32
    checkedFillStep mac start octets generator = some (start + count,
      octets.take start ++ (generator.advance mac).value.take count ++ octets.drop (start + count),
      generator.advance mac) := by
  have width : (generator.advance mac).value.length = 32 := mac.length_tag _ _
  have taken : min (octets.length - start) 32 ≤ (generator.advance mac).value.length :=
    width ▸ Nat.min_le_right _ _
  have room : min (octets.length - start) 32 ≤ octets.length - start := Nat.min_le_left _ _
  dsimp only
  simp only [checkedFillStep, Checked.difference_of_le inside, Option.bind_eq_bind,
    Option.bind_some, width, Checked.block_front taken, overwrite]
  rw [if_pos ⟨Nat.le_add_right _ _, by omega, by rw [List.length_take]; omega⟩]
  rfl

/-- A chaining value is not empty, so each turn leaves less to fill. -/
theorem missing_of_checkedFillStep {mac : Mac} {start position : Nat} {octets filled : Octets}
    {generator advanced : Generator} (proper : start < octets.length)
    (step : checkedFillStep mac start octets generator = some (position, filled, advanced)) :
    filled.length - position < octets.length - start := by
  have value : (generator.advance mac).value.length = 32 := mac.length_tag _ _
  rw [checkedFillStep_eq mac proper.le] at step
  cases step
  simp only [List.length_append, List.length_take, List.length_drop, value]
  omega

def checkedFill (mac : Mac) (start : Nat) (octets : Octets) (generator : Generator) :
    Option (Octets × Generator) :=
  if _proper : start < octets.length then
    match _step : checkedFillStep mac start octets generator with
    | some (position, filled, advanced) => checkedFill mac position filled advanced
    | none => none
  else some (octets, generator)
termination_by octets.length - start
decreasing_by exact missing_of_checkedFillStep _proper _step

/-- Whatever stood in the octets, the output of the generator replaces it from `start` on. -/
theorem checkedFill_eq (mac : Mac) (count : Nat) :
    ∀ (start : Nat) (octets : Octets) (generator : Generator), start ≤ octets.length →
      (octets.length - start + 31) / 32 = count →
      checkedFill mac start octets generator =
        some (octets.take start ++ (chain mac count generator).1.take (octets.length - start),
          (chain mac count generator).2) := by
  induction count with
  | zero =>
    intro start octets generator inside turns
    have full : octets.length = start := by omega
    rw [checkedFill, dif_neg (by omega), full, Nat.sub_self, List.take_zero, List.append_nil,
      ← full, List.take_length]
    rfl
  | succ count ih =>
    intro start octets generator inside turns
    obtain ⟨taken, takenIs⟩ : ∃ taken, taken = min (octets.length - start) 32 := ⟨_, rfl⟩
    have value : (generator.advance mac).value.length = 32 := mac.length_tag _ _
    have step := checkedFillStep_eq mac inside generator
    rw [← takenIs] at step
    have front : (octets.take start ++ (generator.advance mac).value.take taken).length =
        start + taken := by
      rw [List.length_append, List.length_take, List.length_take, value]
      omega
    have whole : (octets.take start ++ (generator.advance mac).value.take taken ++
        octets.drop (start + taken)).length = octets.length := by
      rw [List.length_append, front, List.length_drop]
      omega
    -- The last value may be longer than the room for it; then nothing of the chain follows.
    have cut : (generator.advance mac).value.take taken =
        (generator.advance mac).value.take (octets.length - start) := by
      rw [takenIs, List.take_eq_take_min (i := octets.length - start), value]
    have missing : octets.length - (start + taken) = octets.length - start - 32 := by omega
    rw [checkedFill, dif_pos (by omega)]
    split
    · rename_i position filled advanced stepped
      rw [step] at stepped
      cases stepped
      rw [ih _ _ _ (by omega) (by omega), whole, List.take_left' front, missing, cut,
        List.append_assoc, chain, List.take_append, value]
    · rename_i stuck
      rw [step] at stuck
      cases stuck

def checkedAttempt (mac : Mac) (order : Nat) (generator : Generator) :
    Option (Except Error (Option Nat) × Generator) := do
  let blank := List.replicate (Nonce.width order) 0
  let (octets, last) ← checkedFill mac 0 blank generator
  match Nonce.accept? order (← Octets.checkedLeftmost (Binary.bitLength order) octets) with
  | some nonce => return (.ok (some nonce), last)
  | none => return (.ok none, last.reseed mac 0 [])

theorem checkedDigestResidue_eq (order : Nat) (digest : Octets) :
    checkedDigestResidue order digest = some (digestResidue order digest) := by
  rw [checkedDigestResidue, Octets.checkedLeftmost_eq, Option.bind_eq_bind, Option.bind_some,
    digestResidue]
  split
  · rename_i large
    exact Checked.difference_of_le large
  · rfl

theorem checkedSeeded_eq (mac : Mac) {order : Nat} (positive : 0 < order) (scalar : Nat)
    (digest : Octets) :
    checkedSeeded mac order scalar digest = some (seeded mac order scalar digest) := by
  have secret := Nonce.lt_pow_width (Nat.mod_lt scalar positive)
  have residue := Nonce.lt_pow_width (digestResidue_lt positive digest)
  simp only [checkedSeeded, Checked.remainder_of_pos positive, checkedDigestResidue_eq,
    Octets.checkedFixed_eq secret, Octets.checkedFixed_eq residue, Option.bind_eq_bind,
    Option.bind_some]
  rfl

theorem checkedAttempt_eq (mac : Mac) (order : Nat) (generator : Generator) :
    checkedAttempt mac order generator = some (attempt mac order generator) := by
  have filled := checkedFill_eq mac ((Nonce.width order + 31) / 32) 0
    (List.replicate (Nonce.width order) 0) generator (Nat.zero_le _)
    (by rw [List.length_replicate, Nat.sub_zero])
  rw [List.take_zero, List.nil_append, List.length_replicate, Nat.sub_zero] at filled
  simp only [checkedAttempt, filled, Octets.checkedLeftmost_eq, Option.bind_eq_bind,
    Option.bind_some, attempt, output]
  cases Nonce.accept? order (Octets.leftmost (Binary.bitLength order)
    ((chain mac ((Nonce.width order + 31) / 32) generator).1.take (Nonce.width order))) <;> rfl

end Generator

namespace DerivedNonces

variable {mac : Mac}

def checkedStart (order scalar : Nat) (digest : Octets) (source : DerivedNonces mac) :
    Option (Except Error Unit × DerivedNonces mac) := do
  match Nonce.checkOrder order with
  | .error cause => return (.error cause, ⟨source.attempts, none⟩)
  | .ok () =>
    let generator ← Generator.checkedSeeded mac order scalar digest
    return (.ok (), ⟨source.attempts, some ⟨order, generator⟩⟩)

def checkedNext (source : DerivedNonces mac) :
    Option (Except Error Nat × DerivedNonces mac) := do
  match source.derivation with
  | none => return (.error .nonceNotInitialized, source)
  | some ⟨order, generator⟩ =>
    let (result, last) ←
      checkedRetry (Generator.checkedAttempt mac order) source.attempts generator
    return (result, ⟨source.attempts, some ⟨order, last⟩⟩)

/-- An order that passes is not zero, so it has remainders, and they fit its octets. -/
theorem checkedStart_eq (order scalar : Nat) (digest : Octets) (source : DerivedNonces mac) :
    source.checkedStart order scalar digest = some (source.start order scalar digest) := by
  unfold checkedStart start
  cases passed : Nonce.checkOrder order with
  | error cause => rfl
  | ok done =>
    have positive : 0 < order :=
      Nat.lt_of_lt_of_le Nat.zero_lt_two (Nonce.checkOrder_eq_ok_iff.mp passed)
    dsimp only
    rw [Generator.checkedSeeded_eq mac positive]
    rfl

theorem checkedNext_eq (source : DerivedNonces mac) : source.checkedNext = some source.next := by
  unfold checkedNext next
  rcases source with ⟨attempts, _ | ⟨order, generator⟩⟩
  · rfl
  · have searched := checkedRetry_eq (fun _ => True)
      (fun state _ => Generator.checkedAttempt_eq mac order state) (fun _ _ => trivial) attempts
      generator trivial
    dsimp only
    rw [searched]
    rfl

end DerivedNonces

/-! ## Random nonces -/

theorem Entropy.length_of_draw {count : Nat} {supply rest : Entropy} {octets : Octets}
    (drawn : supply.draw count = (.ok octets, rest)) : octets.length = count := by
  unfold draw at drawn
  split at drawn
  · cases drawn
  · cases drawn
    rw [List.length_take]
    omega

namespace RandomNonces

def checkedAttempt (order : Nat) (entropy : Entropy) :
    Option (Except Error (Option Nat) × Entropy) := do
  let excess ← difference (8 * Nonce.width order) (Binary.bitLength order)
  match entropy.draw (Nonce.width order) with
  | (.error cause, rest) => return (.error cause, rest)
  | (.ok octets, rest) =>
    let shift ← narrow 8 excess
    let leading ← octets[0]?
    let octets ← store octets 0 (leading &&& 0xFF >>> UInt8.ofNat shift)
    return (.ok (Nonce.accept? order (Octets.toNat octets)), rest)

def checkedNext (source : RandomNonces) : Option (Except Error Nat × RandomNonces) := do
  match source.order with
  | none => return (.error .nonceNotInitialized, source)
  | some order =>
    let (result, entropy) ←
      checkedRetry (checkedAttempt order) (source.entropy.unread.length + 1) source.entropy
    return (result, ⟨entropy, some order⟩)

theorem toNat_mask (octet : UInt8) {shift : Nat} (inByte : shift < 8) :
    (octet &&& 0xFF >>> UInt8.ofNat shift).toNat = octet.toNat % 2 ^ (8 - shift) := by
  have ones : ∀ shift < 8, ((0xFF : UInt8) >>> UInt8.ofNat shift).toNat = 2 ^ (8 - shift) - 1 := by
    decide
  rw [UInt8.toNat_and, ones shift inByte, Nat.and_two_pow_sub_one_eq_mod]

/-- The excess bits of a block are bits of its first octet. -/
theorem toNat_mask_cons (octet : UInt8) (rest : Octets) {shift : Nat} (inByte : shift < 8) :
    Octets.toNat ((octet &&& 0xFF >>> UInt8.ofNat shift) :: rest) =
      Octets.toNat (octet :: rest) % 2 ^ (8 * (rest.length + 1) - shift) := by
  have low := Octets.toNat_lt rest
  have bits : 2 ^ (8 * (rest.length + 1) - shift) = 256 ^ rest.length * 2 ^ (8 - shift) := by
    rw [show (256 : Nat) = 2 ^ 8 from rfl, ← pow_mul, ← pow_add]
    congr 1
    omega
  have quotient : (octet.toNat * 256 ^ rest.length + rest.toNat) / 256 ^ rest.length =
      octet.toNat := by
    rw [Nat.mul_comm, Nat.mul_add_div (Nat.pow_pos (by decide)), Nat.div_eq_of_lt low,
      Nat.add_zero]
  rw [Octets.toNat_cons, Octets.toNat_cons, toNat_mask octet inByte, bits, Nat.mod_mul, quotient,
    Nat.mul_add_mod_self_right, Nat.mod_eq_of_lt low, Nat.mul_comm, Nat.add_comm]

theorem lt_of_attempt {order k : Nat} {entropy : Entropy}
    (accepted : (attempt order entropy).1 = .ok (some k)) : k < order := by
  unfold attempt at accepted
  split at accepted
  · cases accepted
  · exact Nonce.lt_of_accept (Except.ok.inj accepted)

/-- The order of a source has been checked. -/
def OrderPassed (source : RandomNonces) : Prop :=
  ∀ order, source.order = some order → 2 ≤ order

theorem checkedAttempt_eq {order : Nat} (large : 2 ≤ order) (entropy : Entropy) :
    checkedAttempt order entropy = some (attempt order entropy) := by
  have positive := Binary.bitLength_pos (Nat.ne_of_gt (Nat.lt_of_lt_of_le Nat.zero_lt_two large))
  obtain ⟨excess, excessIs⟩ : ∃ excess,
      excess = 8 * Nonce.width order - Binary.bitLength order := ⟨_, rfl⟩
  have inByte : excess < 8 := by
    rw [excessIs, Nonce.width, Octets.widthOfBits]
    omega
  rw [checkedAttempt, Checked.difference_bind (Nonce.bitLength_le_width order), ← excessIs,
    attempt]
  rcases drawn : entropy.draw (Nonce.width order) with ⟨cause | octets, rest⟩
  · rfl
  · have length := Entropy.length_of_draw drawn
    cases octets with
    | nil =>
      rw [List.length_nil, Nonce.width, Octets.widthOfBits] at length
      omega
    | cons leading others =>
      rw [List.length_cons] at length
      have enough := Nonce.bitLength_le_width order
      have kept : 8 * (others.length + 1) - excess = Binary.bitLength order := by omega
      have masked := toNat_mask_cons leading others inByte
      rw [kept] at masked
      dsimp only
      rw [Checked.narrow_of_lt inByte, candidate, Nat.one_shiftLeft, ← masked]
      rfl

theorem checkedNext_eq {source : RandomNonces} (passed : source.OrderPassed) :
    source.checkedNext = some source.next := by
  unfold checkedNext next
  rcases source with ⟨entropy, _ | order⟩
  · rfl
  · have searched := checkedRetry_eq (fun _ => True)
      (fun state _ => checkedAttempt_eq (passed order rfl) state) (fun _ _ => trivial)
      (entropy.unread.length + 1) entropy trivial
    dsimp only
    rw [searched]
    rfl

/-- An order that takes no octets would leave no first octet to clear bits in. -/
example : checkedNext ⟨⟨[1]⟩, some 0⟩ = none := by decide

theorem orderPassed_start (order : Nat) (source : RandomNonces) :
    (source.start order).2.OrderPassed := by
  unfold start
  cases passed : Nonce.checkOrder order with
  | error cause =>
    rintro _ ⟨⟩
  | ok done =>
    rintro _ ⟨⟩
    exact Nonce.checkOrder_eq_ok_iff.mp passed

theorem orderPassed_next {source : RandomNonces} (passed : source.OrderPassed) :
    source.next.2.OrderPassed := by
  unfold next
  rcases source with ⟨entropy, _ | order⟩
  · exact passed
  · rintro _ ⟨⟩
    exact passed order rfl

end RandomNonces

/-! ## Runs of a source -/

namespace NonceSource

inductive Call where
  | start (order scalar : Nat) (digest : Octets)
  | next

variable {σ : Type} [NonceSource σ]

/-- The state that a call leaves, also when it fails. -/
def after (source : σ) : Call → σ
  | .start order scalar digest => (NonceSource.start order scalar digest source).2
  | .next => (NonceSource.next source).2

def run (source : σ) (calls : List Call) : σ :=
  calls.foldl after source

end NonceSource

theorem RandomNonces.orderPassed_run (calls : List NonceSource.Call) :
    ∀ source : RandomNonces, source.OrderPassed → (NonceSource.run source calls).OrderPassed := by
  induction calls with
  | nil => exact fun _ passed => passed
  | cons call rest ih =>
    intro source passed
    cases call with
    | start order scalar digest => exact ih _ (source.orderPassed_start order)
    | next => exact ih _ (orderPassed_next passed)

/-- Runs of the sources, for orders of any size and after any calls. -/
structure Checked.Nonces (mac : Mac) : Prop where
  fixed (order v : Nat) : v < order →
    Octets.checkedFixed (Nonce.width order) v = some (Octets.fixed (Nonce.width order) v)
  digestResidue (order : Nat) (digest : Octets) :
    Generator.checkedDigestResidue order digest = some (Generator.digestResidue order digest)
  startDerived (order scalar : Nat) (digest : Octets) (source : DerivedNonces mac) :
    source.checkedStart order scalar digest = some (source.start order scalar digest)
  nextDerived (source : DerivedNonces mac) : source.checkedNext = some source.next
  nextRandom (entropy : Entropy) (calls : List NonceSource.Call) :
    let source := NonceSource.run (RandomNonces.ofEntropy entropy) calls
    source.checkedNext = some source.next

theorem Checked.nonces (mac : Mac) : Checked.Nonces mac where
  fixed _ _ below := Octets.checkedFixed_eq (Nonce.lt_pow_width below)
  digestResidue := Generator.checkedDigestResidue_eq
  startDerived := DerivedNonces.checkedStart_eq
  nextDerived := DerivedNonces.checkedNext_eq
  nextRandom entropy calls := by
    have fresh : (RandomNonces.ofEntropy entropy).OrderPassed := by
      rintro _ ⟨⟩
    exact RandomNonces.checkedNext_eq (RandomNonces.orderPassed_run calls _ fresh)

/-! ## Sources for a signer -/

/-- What a signer relies on: from a start for the order of the group on, the checked operations of
the source end like the plain ones, and a nonce has fewer than `2 ^ 32` bits. -/
class CheckedSource (σ : Type) [NonceSource σ] where
  start : (order scalar : Nat) → (digest : Octets) → σ → Option (Except Error Unit × σ)
  next : σ → Option (Except Error Nat × σ)
  Started : σ → Prop
  start_eq (d : Nat) (digest : Octets) (source : σ) :
    start Scalar.order d digest source = some (NonceSource.start Scalar.order d digest source)
  started (d : Nat) (digest : Octets) (source : σ) :
    (NonceSource.start Scalar.order d digest source).1 = .ok () →
      Started (NonceSource.start Scalar.order d digest source).2
  next_eq (source : σ) : Started source → next source = some (NonceSource.next source)
  started_next (source : σ) : Started source → Started (NonceSource.next source).2
  bitLength_next (source : σ) (k : Nat) : Started source → (NonceSource.next source).1 = .ok k →
    Binary.bitLength k < 2 ^ 32

theorem Scalar.bitLength_lt_of_lt {k : Nat} (below : k < order) : Binary.bitLength k < 2 ^ 32 := by
  have bits : Binary.bitLength k ≤ 256 :=
    Binary.bitLength_le_iff.mpr (below.trans (by decide))
  exact bits.trans_lt (by decide)

instance (mac : Mac) : CheckedSource (DerivedNonces mac) where
  start := DerivedNonces.checkedStart
  next := DerivedNonces.checkedNext
  Started source := ∃ generator, source.derivation = some ⟨Scalar.order, generator⟩
  start_eq d digest source := source.checkedStart_eq Scalar.order d digest
  started d digest source _ := ⟨Generator.seeded mac Scalar.order d digest, by
    change (source.start Scalar.order d digest).2.derivation = _
    rw [source.start_eq (by decide)]⟩
  next_eq source _ := source.checkedNext_eq
  started_next := by
    rintro ⟨attempts, _⟩ ⟨generator, rfl⟩
    exact ⟨_, rfl⟩
  bitLength_next := by
    rintro ⟨attempts, _⟩ k ⟨generator, rfl⟩ found
    obtain ⟨i, _, chosen⟩ := Generator.retry_attempt_eq_ok_iff.mp found
    exact Scalar.bitLength_lt_of_lt (Nat.lt_of_le_pred Scalar.order_pos chosen.inRange.2)

instance : CheckedSource RandomNonces where
  start order _ _ source := some (source.start order)
  next := RandomNonces.checkedNext
  Started source := source.order = some Scalar.order
  start_eq _ _ _ := rfl
  started _ _ _ _ := rfl
  next_eq source started := RandomNonces.checkedNext_eq fun order held => by
    cases started.symm.trans held
    decide
  started_next := by
    rintro ⟨entropy, _⟩ rfl
    rfl
  bitLength_next := by
    rintro ⟨entropy, _⟩ k rfl found
    change (retry (RandomNonces.attempt Scalar.order) (entropy.unread.length + 1) entropy).1 = _
      at found
    obtain ⟨reached, accepted⟩ := exists_of_retry_eq_ok _ _ found
    exact Scalar.bitLength_lt_of_lt (RandomNonces.lt_of_attempt accepted)

end Secp256k1
