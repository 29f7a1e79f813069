import Mathlib
import Secp256k1.Proofs.NonceDerivation
import Secp256k1.Proofs.Signing

/-!
# The nonces after the first

A nonce may turn out unsuitable after it was handed out, because it gives a half of zero.  The
standard updates the state before it goes on, as for any unsuitable candidate.  The generator does so
for candidates outside the range only: from a nonce that it handed out it goes on with the state as
it is.  From the second nonce on the two agree for every tag function only if the order leaves no
choice.
-/

set_option autoImplicit false

namespace Secp256k1

/-! ## Series of nonces -/

namespace NonceStandard

/-- Step h, part 3, after an unsuitable candidate. -/
def update (mac : Mac) (state : Generator) : Generator :=
  let K := mac.tag state.key (state.value ++ [0x00])
  ⟨K, mac.tag K state.value⟩

/-- Each nonce is the first candidate in the range, and `between` says what happens to the state
before the next one is looked for.  With `update` these are the nonces that step h tries in turn
when all of them give a half of zero. -/
inductive Series (mac : Mac) (q : Nat) (between : Generator → Generator) :
    Generator → List Nat → Prop where
  | nil (state : Generator) : Series mac q between state []
  | cons {state : Generator} {i k : Nat} {ks : List Nat} (chosen : Chooses mac q state i k)
      (later : Series mac q between (between (gathered mac q (afterCandidates mac q i state))) ks) :
      Series mac q between state (k :: ks)

variable {mac : Mac} {q i j k l : Nat} {state : Generator} {between between' : Generator → Generator}
  {ks ls : List Nat}

/-- A candidate outside the range is followed by the same update. -/
theorem update_gathered (state : Generator) :
    update mac (gathered mac q state) = (step mac q state).2 := rfl

theorem Series.inRange (series : Series mac q between state ks) : ∀ k ∈ ks, InRange q k := by
  induction series with
  | nil state => exact fun k listed => absurd listed List.not_mem_nil
  | cons chosen later ih =>
    exact List.forall_mem_cons.mpr ⟨chosen.inRange, ih⟩

/-- The first nonce is chosen before anything happens between two of them. -/
theorem Series.head_unique (first : Series mac q between state ks)
    (second : Series mac q between' state ls) (head : ks[0]? = some k) (head' : ls[0]? = some l) :
    k = l := by
  cases first with
  | nil => cases head
  | cons chosen later =>
    cases second with
    | nil => cases head'
    | cons chosen' later' =>
      cases head
      cases head'
      exact (chosen.unique chosen').2

end NonceStandard

open NonceStandard

/-! ## What the generator hands out -/

namespace DerivedNonces

variable {mac : Mac} {order : Nat}

/-- A source that was started for a message hands out these nonces, given enough attempts. -/
def HandsOut (mac : Mac) (order d : Nat) (message : Octets) (ks : List Nat) : Prop :=
  ∃ attempts started last, (DerivedNonces.new mac attempts).start order d message = (.ok (), started) ∧
    NonceSource.Draws started ks last

/-- A source between two requests. -/
def holding (mac : Mac) (attempts order : Nat) (state : Generator) : DerivedNonces mac :=
  ⟨attempts, some ⟨order, state⟩⟩

theorem next_holding (mac : Mac) (attempts order : Nat) (state : Generator) :
    NonceSource.next (holding mac attempts order state) =
      let outcome := retry (Generator.attempt mac order) attempts state
      (outcome.1, holding mac attempts order outcome.2) := rfl

theorem next_holding_iff {attempts k : Nat} {state : Generator} {following : DerivedNonces mac} :
    NonceSource.next (holding mac attempts order state) = (.ok k, following) ↔
      ∃ i < attempts, Chooses mac order state i k ∧
        following = holding mac attempts order
          (gathered mac order (afterCandidates mac order i state)) := by
  rw [next_holding]
  constructor
  · intro drawn
    have success : (retry (Generator.attempt mac order) attempts state).1 = .ok k :=
      congrArg Prod.fst drawn
    obtain ⟨i, allowed, chosen⟩ := Generator.retry_attempt_eq_ok_iff.mp success
    rw [Generator.retry_of_chooses allowed chosen] at drawn
    exact ⟨i, allowed, chosen, (congrArg Prod.snd drawn).symm⟩
  · rintro ⟨i, allowed, chosen, rfl⟩
    rw [Generator.retry_of_chooses allowed chosen]

theorem series_of_draws {attempts : Nat} {ks : List Nat} {source last : DerivedNonces mac}
    (drawn : NonceSource.Draws source ks last) : ∀ state : Generator,
    source = holding mac attempts order state → Series mac order id state ks := by
  induction drawn with
  | nothing source => exact fun state _ => .nil state
  | next drawn later ih =>
    rintro state rfl
    obtain ⟨i, _, chosen, rfl⟩ := next_holding_iff.mp drawn
    exact .cons chosen (ih _ rfl)

theorem draws_of_series {state : Generator} {ks : List Nat} (series : Series mac order id state ks) :
    ∃ enough, ∀ attempts ≥ enough,
      ∃ last, NonceSource.Draws (holding mac attempts order state) ks last := by
  induction series with
  | nil state => exact ⟨0, fun attempts _ => ⟨_, .nothing _⟩⟩
  | @cons state i k ks chosen later ih =>
    obtain ⟨enough, draws⟩ := ih
    refine ⟨max (i + 1) enough, fun attempts large => ?_⟩
    obtain ⟨last, rest⟩ := draws attempts (le_of_max_le_right large)
    have drawn := next_holding_iff.mpr ⟨i, le_of_max_le_left large, chosen, rfl⟩
    exact ⟨last, .next drawn rest⟩

theorem handsOut_iff_series (large : 2 ≤ order) (mac : Mac) (d : Nat) (message : Octets)
    (ks : List Nat) :
    HandsOut mac order d message ks ↔ Series mac order id (seed mac order (d % order) message) ks := by
  have positive : 0 < order := Nat.lt_of_lt_of_le (by decide) large
  have begins : ∀ attempts, (DerivedNonces.new mac attempts).start order d message =
      (.ok (), holding mac attempts order (seed mac order (d % order) message)) := by
    intro attempts
    rw [start_eq _ large, Generator.seeded_eq_seed mac positive]
    rfl
  constructor
  · rintro ⟨attempts, started, last, start, drawn⟩
    rw [begins] at start
    cases start
    exact series_of_draws drawn _ rfl
  · intro series
    obtain ⟨enough, draws⟩ := draws_of_series series
    obtain ⟨last, drawn⟩ := draws enough le_rfl
    exact ⟨enough, _, last, begins enough, drawn⟩

end DerivedNonces

/-! ## A tag function under which the second nonces differ -/

/-- The number of the first bits of a string is the upper part of the number of some more bits. -/
theorem Octets.leftmost_add {octets : Octets} {m t : Nat} (enough : m + t ≤ 8 * octets.length) :
    ∃ low < 2 ^ t, leftmost (m + t) octets = leftmost m octets * 2 ^ t + low := by
  have width : ((octets.bits.drop m).take t).length = t := by
    rw [List.length_take, List.length_drop, length_bits]
    omega
  refine ⟨Binary.ofMsbFirst ((octets.bits.drop m).take t), ?_, ?_⟩
  · have bound := Binary.ofMsbFirst_lt ((octets.bits.drop m).take t)
    rwa [width] at bound
  · rw [leftmost_eq, leftmost_eq, List.take_add, Binary.ofMsbFirst_append, width]

namespace Generator

variable {mac : Mac} {order : Nat} {state : Generator} {between : Generator → Generator}

theorem chain_of_steady (steady : state.advance mac = state) (count : Nat) :
    chain mac count state = ((List.replicate count state.value).flatten, state) := by
  induction count with
  | zero => rfl
  | succ count ih =>
    rw [chain, steady]
    simp only [ih]
    rfl

theorem gathered_of_steady (steady : state.advance mac = state) (order : Nat) :
    gathered mac order state = state := by
  rw [← output_eq_gathered, output, chain_of_steady steady]

theorem chooses_of_step {k : Nat} (candidate : (step mac order state).1 = k)
    (inRange : InRange order k) : Chooses mac order state 0 k := by
  subst candidate
  exact chooses_zero inRange

theorem series_of_steady {k : Nat} (steady : state.advance mac = state)
    (kept : between state = state) (candidate : (step mac order state).1 = k)
    (inRange : InRange order k) (count : Nat) :
    Series mac order between state (List.replicate count k) := by
  induction count with
  | zero => exact .nil state
  | succ count ih =>
    refine .cons (chooses_of_step candidate inRange) ?_
    rw [afterCandidates, gathered_of_steady steady, kept]
    exact ih

end Generator

namespace PartingTags

/-- One octet and zeros behind it. -/
def tag (leading : UInt8) : Octets :=
  leading :: List.replicate 31 0

theorem length_tag (leading : UInt8) : (tag leading).length = 32 := rfl

/-- What is read of such tags, one after the other. -/
def reading (order : Nat) (leading : UInt8) : Nat :=
  Octets.leftmost (Binary.bitLength order)
    (List.replicate ((Nonce.width order + 31) / 32) (tag leading)).flatten

/-- Data of 33 octets, which is a value and a separator without material, gives a key that makes all
later tags begin with `second`. -/
def mac (second : UInt8) : Mac :=
  ⟨fun key data =>
    if data.length = 33 then tag 1 else if key = tag 1 then tag second else tag 0x40,
    fun _ _ => by split_ifs <;> rfl⟩

variable {second : UInt8} {order : Nat}

theorem advance_seeded : Generator.advance (mac second) ⟨tag 0x40, tag 0x40⟩ = ⟨tag 0x40, tag 0x40⟩ :=
  rfl

theorem advance_updated : Generator.advance (mac second) ⟨tag 1, tag second⟩ = ⟨tag 1, tag second⟩ :=
  rfl

theorem update_seeded : update (mac second) ⟨tag 0x40, tag 0x40⟩ = ⟨tag 1, tag second⟩ :=
  rfl

theorem update_updated : update (mac second) ⟨tag 1, tag second⟩ = ⟨tag 1, tag second⟩ :=
  rfl

theorem step_fst {leading : UInt8} {key : Octets}
    (steady : Generator.advance (mac second) ⟨key, tag leading⟩ = ⟨key, tag leading⟩) :
    (step (mac second) order ⟨key, tag leading⟩).1 = reading order leading := by
  rw [Generator.step_eq, Generator.output, Generator.chain_of_steady steady]
  exact Octets.leftmost_take (Nonce.bitLength_le_width order) _

theorem reseed_of_material {state : Generator} (width : state.value.length = 32)
    (ordinary : state.key ≠ tag 1) (separator : UInt8) {material : Octets} (present : material ≠ []) :
    state.reseed (mac second) separator material = ⟨tag 0x40, tag 0x40⟩ := by
  have long : (state.reseedInput separator material).length ≠ 33 := by
    have positive := List.length_pos_iff.mpr present
    rw [Generator.reseedInput, List.length_append, List.length_cons]
    omega
  have key : (mac second).tag state.key (state.reseedInput separator material) = tag 0x40 := by
    simp only [mac, if_neg long, if_neg ordinary]
  have value : (mac second).tag (tag 0x40) state.value = tag 0x40 := by
    have short : state.value.length ≠ 33 := by omega
    have other : tag 0x40 ≠ tag 1 := by decide
    simp only [mac, if_neg short, if_neg other]
  rw [Generator.reseed, Generator.advance, key, value]

theorem seed_eq (large : 2 ≤ order) (d : Nat) (message : Octets) :
    seed (mac second) order (d % order) message = ⟨tag 0x40, tag 0x40⟩ := by
  have positive : 0 < order := Nat.lt_of_lt_of_le (by decide) large
  have material : Generator.seedMaterial order d message ≠ [] := by
    have bits := Binary.bitLength_pos (Nat.ne_of_gt positive)
    rw [← List.length_pos_iff, Generator.seedMaterial, List.length_append, Octets.length_fixed,
      Nonce.width, Octets.widthOfBits]
    omega
  rw [← Generator.seeded_eq_seed _ positive, Generator.seeded,
    reseed_of_material rfl (by decide) 0 material, reseed_of_material rfl (by decide) 1 material]

theorem handsOut (large : 2 ≤ order) (inRange : InRange order (reading order 0x40)) (d : Nat)
    (message : Octets) (count : Nat) :
    DerivedNonces.HandsOut (mac second) order d message
      (List.replicate count (reading order 0x40)) := by
  rw [DerivedNonces.handsOut_iff_series large, seed_eq large]
  exact Generator.series_of_steady advance_seeded rfl (step_fst advance_seeded) inRange count

theorem prescribed (large : 2 ≤ order) (inRange : InRange order (reading order 0x40))
    (inRange' : InRange order (reading order second)) (d : Nat) (message : Octets) (count : Nat) :
    Series (mac second) order (update (mac second)) (seed (mac second) order (d % order) message)
      (reading order 0x40 :: List.replicate count (reading order second)) := by
  rw [seed_eq large]
  refine .cons (Generator.chooses_of_step (step_fst advance_seeded) inRange) ?_
  rw [afterCandidates, Generator.gathered_of_steady advance_seeded, update_seeded]
  exact Generator.series_of_steady advance_updated update_updated (step_fst advance_updated)
    inRange' count

/-- The tags have enough bits, and the first ones stand in the leading octet. -/
theorem reading_eq {m t : Nat} (inOctet : m ≤ 8) (split : m + t = Binary.bitLength order)
    (positive : 0 < Binary.bitLength order) (leading : UInt8) :
    ∃ low < 2 ^ t, reading order leading = Octets.leftmost m [leading] * 2 ^ t + low := by
  have width := Nonce.bitLength_le_width order
  obtain ⟨count, counted⟩ : ∃ count, (Nonce.width order + 31) / 32 = count + 1 :=
    Nat.exists_eq_succ_of_ne_zero (by omega)
  have enough : m + t ≤ 8 * (List.replicate ((Nonce.width order + 31) / 32)
      (tag leading)).flatten.length := by
    rw [split, List.length_flatten, List.map_replicate, length_tag, List.sum_replicate,
      smul_eq_mul]
    omega
  obtain ⟨low, bound, number⟩ := Octets.leftmost_add enough
  refine ⟨low, bound, ?_⟩
  have cut := Octets.leftmost_take (inOctet.trans (by decide : 8 ≤ 8 * 1))
    (List.replicate ((Nonce.width order + 31) / 32) (tag leading)).flatten
  rw [reading, ← split, number, ← cut, counted]
  rfl

/-- Every order above two leaves room for two different readings. -/
theorem exists_second (large : 2 < order) : ∃ second, InRange order (reading order 0x40) ∧
    InRange order (reading order second) ∧ reading order 0x40 ≠ reading order second := by
  have nonzero : order ≠ 0 := by omega
  have positive := Binary.bitLength_pos nonzero
  by_cases least : order = 3
  · subst least
    refine ⟨0x80, ?_⟩
    decide +kernel
  · obtain ⟨t, bits⟩ : ∃ t, 3 + t = Binary.bitLength order := by
      refine Nat.exists_eq_add_of_le ?_ |>.imp fun _ => Eq.symm
      rw [Binary.bitLength_eq_size]
      exact Nat.lt_size.mpr (by omega)
    have top : 2 ^ (t + 2) ≤ order := by
      refine Nat.lt_size.mp ?_
      rw [← Binary.bitLength_eq_size, ← bits]
      omega
    have quarter : 2 ^ (t + 2) = 2 ^ t * 4 := pow_add 2 t 2
    obtain ⟨low, bound, first⟩ := reading_eq (by decide : 3 ≤ 8) bits positive 0x40
    obtain ⟨low', bound', other⟩ := reading_eq (by decide : 3 ≤ 8) bits positive 0x20
    rw [show Octets.leftmost 3 [0x40] = 2 by decide] at first
    rw [show Octets.leftmost 3 [0x20] = 1 by decide] at other
    refine ⟨0x20, ?_⟩
    rw [first, other]
    unfold InRange
    omega

end PartingTags

namespace DerivedNonces

/-- The generator makes the update of the standard after a candidate outside the range, and none
after a nonce.  With enough attempts a source therefore hands out the nonces of the series that goes
on without an update, and these only.  The nonce after `j` other ones is the one that the standard
prescribes after `j` unsuitable ones, whatever the tag function, exactly if it is the first or the
order is two, which leaves a single nonce. -/
theorem later_nonces_skip_the_update {order : Nat} (large : 2 ≤ order) (d : Nat) (message : Octets)
    (j : Nat) :
    (∀ mac state, Generator.attempt mac order state =
      if InRange order (step mac order state).1 then
        (.ok (some (step mac order state).1), gathered mac order state)
      else (.ok none, update mac (gathered mac order state))) ∧
    (∀ mac ks, HandsOut mac order d message ks ↔
      Series mac order id (seed mac order (d % order) message) ks) ∧
    ((∀ mac ks prescribed k l, HandsOut mac order d message ks →
      Series mac order (update mac) (seed mac order (d % order) message) prescribed →
        ks[j]? = some k → prescribed[j]? = some l → k = l) ↔ j = 0 ∨ order = 2) := by
  refine ⟨fun mac state => ?_, fun mac => handsOut_iff_series large mac d message,
    fun agree => ?_, fun exact => ?_⟩
  · rw [update_gathered]
    exact Generator.attempt_eq mac order state
  · by_contra other
    obtain ⟨later, bigger⟩ := not_or.mp other
    obtain ⟨i, rfl⟩ := Nat.exists_eq_succ_of_ne_zero later
    obtain ⟨second, inRange, inRange', differ⟩ :=
      PartingTags.exists_second (Nat.lt_of_le_of_ne large (Ne.symm bigger))
    have prescribed := PartingTags.prescribed large inRange inRange' d message (i + 1)
    exact differ (agree _ _ _ _ _ (PartingTags.handsOut large inRange d message (i + 2))
      prescribed (by simp) (by simp))
  · intro mac ks prescribed k l handed series chosen chosen'
    have resumed := (handsOut_iff_series large mac d message ks).mp handed
    rcases exact with rfl | rfl
    · exact resumed.head_unique series chosen chosen'
    · have one := resumed.inRange k (List.mem_of_getElem? chosen)
      have one' := series.inRange l (List.mem_of_getElem? chosen')
      unfold InRange at one one'
      omega

/-- For the order three there are tags under which already the second nonces differ. -/
theorem second_nonces_of_order_three :
    2 ≤ 3 ∧ ∃ mac ks prescribed, HandsOut mac 3 0 [] ks ∧
      Series mac 3 (update mac) (seed mac 3 (0 % 3) []) prescribed ∧
      ∃ k l, ks[1]? = some k ∧ prescribed[1]? = some l ∧ k ≠ l := by
  have large : 2 ≤ 3 := by decide
  obtain ⟨_, _, agrees⟩ := later_nonces_skip_the_update large 0 [] 1
  have parts := mt agrees.mp (by decide)
  push Not at parts
  obtain ⟨mac, ks, prescribed, k, l, handed, series, chosen, chosen', differ⟩ := parts
  exact ⟨large, mac, ks, prescribed, handed, series, k, l, chosen, chosen', differ⟩

/-- The secret one and the empty digest: after the first nonce of HMAC-SHA-256 the standard updates
the state and comes to another second nonce. -/
theorem second_hmac_nonce_departs :
    let first := 0x10497d369b3d525ca15ec29c104a694210bb59ff6cabfc10afe6df0283896df
    let handed := 0xf42369b10c2eb33df0a7befc6a8b2971aa788c96be7a16882f2e4640cda2d26c
    let prescribed := 0xa9b1a1a84a4c2f96b6158ed7a81404c50cb74373c22e8d9e02d0411d719acae2
    HandsOut hmacSha256 Scalar.order 1 [] [first, handed] ∧
      Series hmacSha256 Scalar.order (update hmacSha256)
        (seed hmacSha256 Scalar.order (1 % Scalar.order) []) [first, prescribed] ∧
      handed ≠ prescribed := by
  intro first handed prescribed
  let seeded : Generator :=
    ⟨Octets.fixed 32 0x47a9905e12a565c913f97badf5a62f87fc047a202d0acefd8a14919958065971,
      Octets.fixed 32 0x6510f939bad19793248d396e4feefa03ab2bcfb1b718f4d818f60b36d5b0a009⟩
  have started : seed hmacSha256 Scalar.order (1 % Scalar.order) [] = seeded := by
    rw [← Generator.seeded_eq_seed _ Scalar.order_pos]
    decide +kernel
  have chosen : Chooses hmacSha256 Scalar.order seeded 0 first := by
    refine Generator.chooses_of_step ?_ (by decide)
    rw [Generator.step_eq]
    decide +kernel
  rw [handsOut_iff_series (by decide), started]
  refine ⟨?_, ?_, by decide⟩
  · refine .cons chosen (.cons (Generator.chooses_of_step ?_ (by decide)) (.nil _))
    rw [afterCandidates, ← Generator.output_eq_gathered, Generator.step_eq]
    decide +kernel
  · refine .cons chosen (.cons (Generator.chooses_of_step ?_ (by decide)) (.nil _))
    rw [afterCandidates, ← Generator.output_eq_gathered, Generator.step_eq]
    decide +kernel

end DerivedNonces
end Secp256k1
