import Mathlib
import Secp256k1.Proofs.CheckedNonces

/-!
# Blocks of random octets

An attempt reads a block of as many octets as the order takes.  The excess bits of a block are free,
so each nonce has as many blocks as these bits have values.  A stream is cut into blocks from its
front, and a request is answered by the first of them that is accepted; the next request goes on
behind it.
-/

set_option autoImplicit false

namespace Secp256k1

open NonceStandard (InRange)

namespace NonceSource

/-- What the requests of a run are answered. -/
def answers {σ : Type} [NonceSource σ] (source : σ) : List Call → List (Except Error Nat)
  | [] => []
  | .start order scalar digest :: calls =>
    answers (after source (.start order scalar digest)) calls
  | .next :: calls => (NonceSource.next source).1 :: answers (after source .next) calls

/-- If the call starts the source, then for this order. -/
def Call.Keeps (order : Nat) : Call → Prop
  | .start other _ _ => other = order
  | .next => True

end NonceSource

namespace RandomNonces

variable {order k : Nat} {unread block rest : Octets}

/-- A source that is started for the order and has these octets left to read. -/
def holding (order : Nat) (unread : Octets) : RandomNonces :=
  ⟨⟨unread⟩, some order⟩

/-- A request that finds this block hands out the nonce. -/
def Accepts (order : Nat) (block : Octets) (k : Nat) : Prop :=
  block.length = Nonce.width order ∧ (holding order block).next.1 = .ok k

def Refuses (order : Nat) (block : Octets) : Prop :=
  block.length = Nonce.width order ∧ ∀ k, ¬ Accepts order block k

/-- How a request comes to its answer, and what it leaves of the stream.  Refused blocks are spent,
as is the block that is accepted.  A remainder that is too short for a block stays. -/
inductive Reads (order : Nat) : Octets → Except Error Nat → Octets → Prop where
  | accepted {block : Octets} {k : Nat} (accepts : Accepts order block k) (rest : Octets) :
      Reads order (block ++ rest) (.ok k) rest
  | refused {block unread rest : Octets} {answer : Except Error Nat}
      (refuses : Refuses order block) (later : Reads order unread answer rest) :
      Reads order (block ++ unread) answer rest
  | exhausted {rest : Octets} (short : rest.length < Nonce.width order) :
      Reads order rest (.error .entropyExhausted) rest

/-- Requests in a row, each on what the one before it left. -/
inductive ReadsAll (order : Nat) : Octets → List (Except Error Nat) → Octets → Prop where
  | nil (unread : Octets) : ReadsAll order unread [] unread
  | cons {unread between rest : Octets} {answer : Except Error Nat}
      {answers : List (Except Error Nat)} (first : Reads order unread answer between)
      (later : ReadsAll order between answers rest) :
      ReadsAll order unread (answer :: answers) rest

/-! ## One block -/

theorem width_pos (large : 2 ≤ order) : 0 < Nonce.width order := by
  have positive := Binary.bitLength_pos (Nat.ne_of_gt (Nat.lt_of_lt_of_le Nat.zero_lt_two large))
  have enough := Nonce.bitLength_le_width order
  omega

theorem attempt_append (whole : block.length = Nonce.width order) (rest : Octets) :
    attempt order ⟨block ++ rest⟩ =
      (.ok (Nonce.accept? order (candidate order block)), ⟨rest⟩) := by
  have enough : ¬ (block ++ rest).length < Nonce.width order := by
    rw [List.length_append]
    omega
  simp only [attempt, Entropy.draw, if_neg enough, List.take_left' whole, List.drop_left' whole]

theorem attempt_short (short : rest.length < Nonce.width order) :
    attempt order ⟨rest⟩ = (.error .entropyExhausted, ⟨rest⟩) := by
  simp only [attempt, Entropy.draw, if_pos short]

theorem next_holding (order : Nat) (unread : Octets) :
    (holding order unread).next =
      let outcome := retry (attempt order) (unread.length + 1) ⟨unread⟩
      (outcome.1, ⟨outcome.2, some order⟩) := rfl

theorem accepts_iff_accept (large : 2 ≤ order) : Accepts order block k ↔
    block.length = Nonce.width order ∧ Nonce.accept? order (candidate order block) = some k := by
  refine and_congr_right fun whole => ?_
  have read := attempt_append whole []
  rw [List.append_nil] at read
  rw [next_holding, retry, read]
  cases Nonce.accept? order (candidate order block) with
  | some j => simp only [Except.ok.injEq, Option.some.injEq]
  | none =>
    have short : ([] : Octets).length < Nonce.width order := width_pos large
    obtain ⟨left, counted⟩ := Nat.exists_eq_succ_of_ne_zero (whole.trans_ne (width_pos large).ne')
    rw [counted]
    simp only [retry, attempt_short short, reduceCtorEq]

theorem refuses_iff (large : 2 ≤ order) : Refuses order block ↔
    block.length = Nonce.width order ∧ Nonce.accept? order (candidate order block) = none := by
  refine and_congr_right fun whole => ?_
  simp only [accepts_iff_accept large, whole, true_and, Option.eq_none_iff_forall_ne_some]

theorem accepts_iff (large : 2 ≤ order) : Accepts order block k ↔
    block.length = Nonce.width order ∧ block.toNat % 2 ^ order.size = k ∧ InRange order k := by
  rw [accepts_iff_accept large, Generator.accept_eq, candidate, Nat.one_shiftLeft,
    Binary.bitLength_eq_size]
  refine and_congr_right fun whole => ?_
  split
  · rename_i inRange
    rw [Option.some.injEq]
    exact ⟨fun same => ⟨same, same ▸ inRange⟩, And.left⟩
  · rename_i outside
    constructor
    · intro none
      cases none
    · rintro ⟨rfl, inRange⟩
      exact absurd inRange outside

/-! ## The blocks of a nonce -/

theorem setOf_length_eq (width : Nat) :
    {block : Octets | block.length = width} =
      Octets.fixed width '' ↑(Finset.range (256 ^ width)) := by
  ext block
  rw [Finset.coe_range]
  constructor
  · rintro rfl
    exact ⟨block.toNat, Octets.toNat_lt block, Octets.fixed_toNat block⟩
  · rintro ⟨v, _, rfl⟩
    exact Octets.length_fixed width v

theorem ncard_setOf_length (width : Nat) :
    {block : Octets | block.length = width}.ncard = 256 ^ width := by
  rw [setOf_length_eq, Set.InjOn.ncard_image, Set.ncard_coe_finset, Finset.card_range]
  intro v fits w fits' same
  rw [Finset.coe_range] at fits fits'
  rw [← Octets.toNat_fixed_of_lt fits, ← Octets.toNat_fixed_of_lt fits', same]

theorem pow_width_eq (order : Nat) :
    256 ^ Nonce.width order = 2 ^ order.size * 2 ^ (8 * Nonce.width order - order.size) := by
  have enough := Nonce.bitLength_le_width order
  rw [Binary.bitLength_eq_size] at enough
  rw [← pow_add, Nat.add_sub_of_le enough, pow_mul]
  rfl

theorem lt_two_pow_of_inRange (inRange : InRange order k) : k < 2 ^ order.size :=
  calc k ≤ order - 1 := inRange.2
    _ ≤ order := Nat.sub_le order 1
    _ < 2 ^ order.size := Nat.lt_size_self order

/-- The block with the bits of the nonce behind the excess ones. -/
def blockOf (order k excess : Nat) : Octets :=
  Octets.fixed (Nonce.width order) (k + 2 ^ order.size * excess)

theorem toNat_blockOf {excess : Nat} (inRange : InRange order k)
    (free : excess < 2 ^ (8 * Nonce.width order - order.size)) :
    (blockOf order k excess).toNat = k + 2 ^ order.size * excess := by
  refine Octets.toNat_fixed_of_lt ?_
  rw [pow_width_eq]
  calc k + 2 ^ order.size * excess < 2 ^ order.size + 2 ^ order.size * excess :=
        Nat.add_lt_add_right (lt_two_pow_of_inRange inRange) _
    _ = 2 ^ order.size * (excess + 1) := by ring
    _ ≤ 2 ^ order.size * 2 ^ (8 * Nonce.width order - order.size) :=
        Nat.mul_le_mul_left _ free

theorem setOf_accepts_eq (large : 2 ≤ order) (inRange : InRange order k) :
    {block | Accepts order block k} =
      blockOf order k '' ↑(Finset.range (2 ^ (8 * Nonce.width order - order.size))) := by
  ext block
  rw [Finset.coe_range, Set.mem_ofPred_eq, accepts_iff large]
  constructor
  · rintro ⟨whole, rfl, _⟩
    refine ⟨block.toNat / 2 ^ order.size, Nat.div_lt_of_lt_mul ?_, ?_⟩
    · rw [← pow_width_eq, ← whole]
      exact Octets.toNat_lt block
    · rw [blockOf, Nat.mod_add_div, ← whole]
      exact Octets.fixed_toNat block
  · rintro ⟨excess, free, rfl⟩
    refine ⟨Octets.length_fixed _ _, ?_, inRange⟩
    rw [toNat_blockOf inRange free, Nat.add_mul_mod_self_left,
      Nat.mod_eq_of_lt (lt_two_pow_of_inRange inRange)]

theorem ncard_setOf_accepts (large : 2 ≤ order) (inRange : InRange order k) :
    {block | Accepts order block k}.ncard = 2 ^ (8 * Nonce.width order - order.size) := by
  rw [setOf_accepts_eq large inRange, Set.InjOn.ncard_image, Set.ncard_coe_finset,
    Finset.card_range]
  intro excess free excess' free' same
  rw [Finset.coe_range] at free free'
  have numbers := congrArg Octets.toNat same
  rw [toNat_blockOf inRange free, toNat_blockOf inRange free', Nat.add_left_cancel_iff] at numbers
  exact Nat.eq_of_mul_eq_mul_left (Nat.two_pow_pos _) numbers

/-! ## Streams -/

/-- Each attempt spends an octet, so there are enough of them. -/
theorem retry_of_reads (large : 2 ≤ order) {answer : Except Error Nat}
    (reads : Reads order unread answer rest) : ∀ attempts, unread.length < attempts →
      retry (attempt order) attempts ⟨unread⟩ = (answer, ⟨rest⟩) := by
  have positive := width_pos large
  induction reads with
  | accepted accepts rest =>
    intro attempts enough
    obtain ⟨left, rfl⟩ := Nat.exists_eq_add_of_lt enough
    obtain ⟨whole, chosen⟩ := (accepts_iff_accept large).mp accepts
    rw [retry, attempt_append whole, chosen]
  | @refused block unread _ _ refuses later ih =>
    intro attempts enough
    obtain ⟨left, rfl⟩ := Nat.exists_eq_add_of_lt enough
    obtain ⟨whole, passed⟩ := (refuses_iff large).mp refuses
    rw [retry, attempt_append whole, passed]
    refine ih _ ?_
    rw [List.length_append]
    omega
  | exhausted short =>
    intro attempts enough
    obtain ⟨left, rfl⟩ := Nat.exists_eq_add_of_lt enough
    rw [retry, attempt_short short]

theorem next_of_reads (large : 2 ≤ order) {answer : Except Error Nat}
    (reads : Reads order unread answer rest) :
    (holding order unread).next = (answer, holding order rest) := by
  rw [next_holding, retry_of_reads large reads _ (Nat.lt_succ_self _)]
  rfl

theorem exists_reads (large : 2 ≤ order) (unread : Octets) :
    ∃ answer rest, Reads order unread answer rest := by
  have positive := width_pos large
  induction counted : unread.length using Nat.strong_induction_on generalizing unread with
  | _ length ih =>
    rcases Nat.lt_or_ge unread.length (Nonce.width order) with short | enough
    · exact ⟨_, unread, .exhausted short⟩
    -- One block is cut off, and if it is refused, the rest is shorter.
    have whole : (unread.take (Nonce.width order)).length = Nonce.width order := by
      rw [List.length_take, Nat.min_eq_left enough]
    rw [← List.take_append_drop (Nonce.width order) unread]
    cases read : Nonce.accept? order (candidate order (unread.take (Nonce.width order))) with
    | some k => exact ⟨_, _, .accepted ((accepts_iff_accept large).mpr ⟨whole, read⟩) _⟩
    | none =>
      obtain ⟨answer, rest, later⟩ := ih _ (by rw [List.length_drop]; omega)
        (unread.drop (Nonce.width order)) rfl
      exact ⟨answer, rest, .refused ((refuses_iff large).mpr ⟨whole, read⟩) later⟩

theorem next_holding_iff (large : 2 ≤ order) {answer : Except Error Nat} {last : RandomNonces} :
    (holding order unread).next = (answer, last) ↔
      ∃ rest, Reads order unread answer rest ∧ last = holding order rest := by
  constructor
  · intro asked
    obtain ⟨found, rest, reads⟩ := exists_reads large unread
    rw [next_of_reads large reads] at asked
    cases asked
    exact ⟨rest, reads, rfl⟩
  · rintro ⟨rest, reads, rfl⟩
    exact next_of_reads large reads

/-! ## Runs -/

/-- A start reads nothing. -/
theorem start_eq_holding (large : 2 ≤ order) (source : RandomNonces) :
    source.start order = (.ok (), holding order source.entropy.unread) := by
  rw [start, Nonce.checkOrder_eq_ok_iff.mpr large]
  rfl

theorem readsAll_run (large : 2 ≤ order) (calls : List NonceSource.Call) : ∀ unread,
    (∀ call ∈ calls, call.Keeps order) → ∃ rest,
      NonceSource.run (holding order unread) calls = holding order rest ∧
        ReadsAll order unread (NonceSource.answers (holding order unread) calls) rest := by
  induction calls with
  | nil => exact fun unread _ => ⟨unread, rfl, .nil unread⟩
  | cons call later ih =>
    intro unread keep
    obtain ⟨keeps, others⟩ := List.forall_mem_cons.mp keep
    cases call with
    | start other scalar digest =>
      cases keeps
      have same : NonceSource.after (holding order unread) (.start order scalar digest) =
          holding order unread := congrArg Prod.snd (start_eq_holding large (holding order unread))
      rw [NonceSource.run, List.foldl_cons, NonceSource.answers, same]
      exact ih unread others
    | next =>
      obtain ⟨answer, between, reads⟩ := exists_reads large unread
      have asked := next_of_reads large reads
      have reached : NonceSource.after (holding order unread) .next = holding order between :=
        congrArg Prod.snd asked
      have answered : (NonceSource.next (holding order unread)).1 = answer :=
        congrArg Prod.fst asked
      obtain ⟨rest, ends, readsLater⟩ := ih between others
      rw [NonceSource.run, List.foldl_cons, NonceSource.answers, reached, answered]
      exact ⟨rest, ends, .cons reads readsLater⟩

/-- An attempt reads as many octets as it takes to hold the bits of the order.  Every nonce in the
range has the same number of blocks, one for each value of the excess bits, and nothing else is
accepted.  On any stream a request is answered by the first block that is accepted and spends the
blocks up to it.  Whatever is requested then goes on behind it, also after another start. -/
theorem random_nonces_are_uniform {order : Nat} (large : 2 ≤ order) :
    let width := order.size ⌈/⌉ 8
    {block : Octets | block.length = width}.ncard = 256 ^ width ∧
    (∀ k, 1 ≤ k → k ≤ order - 1 →
      {block | Accepts order block k}.ncard = 2 ^ (8 * width - order.size)) ∧
    (∀ block k, Accepts order block k ↔
      block.length = width ∧ block.toNat % 2 ^ order.size = k ∧ 1 ≤ k ∧ k ≤ order - 1) ∧
    (∀ unread answer last, (holding order unread).next = (answer, last) ↔
      ∃ rest, Reads order unread answer rest ∧ last = holding order rest) ∧
    (∀ (source : RandomNonces) d message, NonceSource.start order d message source =
      (.ok (), holding order source.entropy.unread)) ∧
    ∀ unread calls, (∀ call ∈ calls, NonceSource.Call.Keeps order call) → ∃ rest,
      NonceSource.run (holding order unread) calls = holding order rest ∧
        ReadsAll order unread (NonceSource.answers (holding order unread) calls) rest := by
  intro width
  have octets : Nonce.width order = width := Nonce.width_eq order
  rw [← octets]
  exact ⟨ncard_setOf_length _, fun k least most => ncard_setOf_accepts large ⟨least, most⟩,
    fun block k => accepts_iff large, fun unread answer last => next_holding_iff large,
    fun source d message => start_eq_holding large source,
    fun unread calls keep => readsAll_run large calls unread keep⟩

/-- The order 257 takes nine bits of two octets, so that seven are free.  The blocks that write zero
and the order are refused, and a second start changes nothing. -/
theorem blocks_for_nine_bits :
    let stream : Octets := [0xFE, 0x00, 0x01, 0x01, 0xFF, 0x00, 0x00, 0x05, 0x09]
    2 ≤ 257 ∧ 1 ≤ 256 ∧ 256 ≤ 257 - 1 ∧ {block | Accepts 257 block 256}.ncard = 2 ^ 7 ∧
      ReadsAll 257 stream [.ok 256, .ok 5, .error .entropyExhausted] [0x09] := by
  intro stream
  let calls : List NonceSource.Call :=
    [.start 257 3 [], .next, .start 257 1 [0x09], .next, .next]
  have large : 2 ≤ 257 := by decide
  obtain ⟨_, counts, _, _, _, runs⟩ := random_nonces_are_uniform large
  have keep : ∀ call ∈ calls, NonceSource.Call.Keeps 257 call := by
    simp [calls, NonceSource.Call.Keeps]
  have ends : NonceSource.run (holding 257 stream) calls = holding 257 [0x09] := by decide +kernel
  have answered : NonceSource.answers (holding 257 stream) calls =
      [.ok 256, .ok 5, .error .entropyExhausted] := by decide +kernel
  obtain ⟨rest, reached, reads⟩ := runs stream calls keep
  obtain rfl : [0x09] = rest := by
    rw [ends] at reached
    cases reached
    rfl
  rw [answered] at reads
  refine ⟨large, by decide, by decide, ?_, reads⟩
  rw [counts 256 (by decide) (by decide)]
  rfl

end RandomNonces
end Secp256k1
