import Mathlib
import Secp256k1.Recovery
import Secp256k1.Proofs.FieldPowers
import Secp256k1.Proofs.PublicKeys
import Secp256k1.Proofs.SignatureEquation

/-!
# Recovery and verification

Every element whose abscissa is `r` modulo the order is named by exactly one recovery id.  The
signature equation pairs each of these nonce elements with one key element.  Recovery follows the
pairing from the nonce element to the key element and verification follows it back, so that the two
agree and a key belongs to one id only.
-/

set_option autoImplicit false

namespace Secp256k1

open Curve

/-! ## Named nonce elements -/

namespace RecoveryId

/-- The element has the abscissa and the parity that the id names. -/
inductive Names (id : RecoveryId) (r : Nat) : Group b → Prop where
  | intro {x y : FieldElement} (nonsingular : (weierstrass b).Nonsingular x y)
      (abscissa : x.val = if id.overflow then r + Scalar.order else r)
      (parity : y.isOdd = id.odd) : Names id r (.some x y nonsingular)

variable {id id' : RecoveryId} {r : Nat} {A : Group b}

theorem ofNat_eq_ok_iff {number : Nat} : ofNat number = .ok id ↔ number = id.toNat := by
  constructor
  · intro success
    unfold ofNat at success
    split at success
    · rename_i small
      cases success
      interval_cases number <;> rfl
    · cases success
  · rintro rfl
    rcases id with ⟨_ | _, _ | _⟩ <;> rfl

theorem Names.unique (first : id.Names r A) (second : id'.Names r A) : id = id' := by
  cases first with
  | intro nonsingular abscissa parity =>
    cases second with
    | intro _ abscissa' parity' =>
      obtain ⟨overflow, odd⟩ := id
      obtain ⟨overflow', odd'⟩ := id'
      -- Adding the order changes the abscissa, so the abscissa tells the overflow.
      have positive := Scalar.order_pos
      rw [abscissa] at abscissa'
      have sameOverflow : overflow = overflow' := by
        cases overflow with
        | false =>
          cases overflow' with
          | false => rfl
          | true =>
            rw [if_neg Bool.false_ne_true, if_pos rfl] at abscissa'
            omega
        | true =>
          cases overflow' with
          | false =>
            rw [if_pos rfl, if_neg Bool.false_ne_true] at abscissa'
            omega
          | true => rfl
      have sameOdd : odd = odd' := parity.symm.trans parity'
      rw [sameOverflow, sameOdd]

/-- The field modulus is below twice the order, so reduction subtracts the order at most once. -/
theorem residue_eq_some_iff (bounded : r < Scalar.order) :
    residue A = some r ↔ ∃ id : RecoveryId, id.Names r A := by
  constructor
  · intro abscissa
    cases A with
    | zero => cases abscissa
    | some x y nonsingular =>
      have reduced : x.val % Scalar.order = r := Option.some.inj abscissa
      have below : x.val < 2 * Scalar.order := x.isLt.trans (by decide)
      by_cases overflow : Scalar.order ≤ x.val
      · refine ⟨⟨true, y.isOdd⟩, .intro nonsingular ?_ rfl⟩
        rw [Nat.mod_eq_sub_mod overflow, Nat.mod_eq_of_lt (by omega)] at reduced
        rw [if_pos rfl]
        omega
      · refine ⟨⟨false, y.isOdd⟩, .intro nonsingular ?_ rfl⟩
        rw [Nat.mod_eq_of_lt (Nat.lt_of_not_le overflow)] at reduced
        exact reduced
  · rintro ⟨⟨overflow, odd⟩, named⟩
    cases named with
    | @intro x y nonsingular abscissa parity =>
      show some (x.val % Scalar.order) = some r
      rw [abscissa]
      cases overflow with
      | false => rw [if_neg Bool.false_ne_true, Nat.mod_eq_of_lt bounded]
      | true => rw [if_pos rfl, Nat.add_mod_right, Nat.mod_eq_of_lt bounded]

theorem multiply_order_isInfinity {R : Point} (stands : Point.Represents b R A) :
    (Multiplier.standard.multiply R Scalar.order).isInfinity = true :=
  ((reading b).multiply stands Multiplier.standard Scalar.order).isInfinity_iff.mpr (order_nsmul A)

theorem names_of_noncePoint {R : Point} (found : id.noncePoint? r = some R) :
    ∃ A, id.Names r A ∧ Point.Represents b R A := by
  unfold noncePoint? at found
  split at found
  · cases found
  · rename_i x canonical
    split at found
    · cases found
    · rename_i P decompressed
      split at found
      · cases found
        obtain ⟨y, rfl, square, parity⟩ := Point.decompress_eq_some_iff.mp decompressed
        have nonsingular := nonsingular_iff_rhs.mpr square
        exact ⟨_, .intro nonsingular (FieldElement.ofCanonical_eq_some_iff.mp canonical) parity,
          Point.represents_ofAffine nonsingular⟩
      · cases found

theorem Names.noncePoint (named : id.Names r A) :
    ∃ R, id.noncePoint? r = some R ∧ Point.Represents b R A := by
  cases named with
  | @intro x y nonsingular abscissa parity =>
    have stands := Point.represents_ofAffine nonsingular
    have canonical : FieldElement.ofCanonical? (if id.overflow then r + Scalar.order else r) =
        some x :=
      FieldElement.ofCanonical_eq_some_iff.mpr abscissa
    have decompressed : Point.decompress x id.odd = some (Point.ofAffine x y) :=
      Point.decompress_eq_some_iff.mpr ⟨y, rfl, nonsingular_iff_rhs.mp nonsingular, parity⟩
    refine ⟨Point.ofAffine x y, ?_, stands⟩
    simp only [noncePoint?, canonical, decompressed, multiply_order_isInfinity stands, if_true]

end RecoveryId

/-! ## Candidates -/

namespace Recovery

variable {id id' : RecoveryId} {signature : Signature} {digest : Octets} {compressed : Bool}
  {key found : PublicKey} {A B : Group b}

abbrev Relates (signature : Signature) (digest : Octets) (A B : Group b) : Prop :=
  Ecdsa.Relates (Scalar.ofDigest digest) signature.r signature.s A B

theorem represents_keyPoint {R : Point} (stands : Point.Represents b R A)
    (related : Relates signature digest A B) :
    Point.Represents b (keyPoint R signature digest) B := by
  have sum := represents_sumOfMultiples represents_generator stands
    (Scalar.product (Scalar.negate (Scalar.reduce (Scalar.ofDigest digest)))
      (Scalar.invert signature.r))
    (Scalar.product signature.s (Scalar.invert signature.r))
  simp only [Scalar.cast_product, Scalar.cast_negate, Scalar.cast_reduce, Scalar.cast_invert] at sum
  rw [(Ecdsa.relates_iff_key signature.r_valid).mp related]
  exact sum

theorem exists_relates (signature : Signature) (digest : Octets) (A : Group b) :
    ∃ B, Relates signature digest A B :=
  ⟨_, (Ecdsa.relates_iff_key signature.r_valid).mpr rfl⟩

theorem candidate_sound (success : candidate id signature digest compressed = .ok key) :
    ∃ A B, id.Names signature.r A ∧ Relates signature digest A B ∧
      Point.Represents b key.point B := by
  unfold candidate at success
  split at success
  · cases success
  · rename_i R named
    obtain ⟨A, names, stands⟩ := RecoveryId.names_of_noncePoint named
    obtain ⟨B, related⟩ := exists_relates signature digest A
    split at success
    · rename_i constructed
      cases success
      obtain ⟨_, _, rfl⟩ := PublicKey.ofPoint_eq_ok_iff.mp constructed
      refine ⟨A, B, names, related, ?_⟩
      dsimp only
      exact (represents_keyPoint stands related).normalize
    · cases success

theorem candidate_complete (compressed : Bool) (names : id.Names signature.r A)
    (related : Relates signature digest A B) (proper : B ≠ 0) :
    ∃ key, candidate id signature digest compressed = .ok key ∧
      Point.Represents b key.point B := by
  obtain ⟨R, named, standsR⟩ := names.noncePoint
  have stands := represents_keyPoint standsR related
  have finite : ¬ (keyPoint R signature digest).isInfinity = true := fun infinite =>
    proper (stands.isInfinity_iff.mp infinite)
  have onCurve := (Point.isOnCurve_iff _).mpr stands.liesOn
  have constructed := PublicKey.ofPoint_eq_ok_iff.mpr
    ⟨finite, onCurve, Eq.refl (PublicKey.mk (keyPoint R signature digest).normalize compressed)⟩
  refine ⟨PublicKey.mk (keyPoint R signature digest).normalize compressed, ?_, ?_⟩
  · simp only [candidate, named, constructed]
  · dsimp only
    exact stands.normalize

theorem verify_of_candidate (success : candidate id signature digest compressed = .ok key) :
    key.verify digest signature = true := by
  obtain ⟨A, B, names, related, stands⟩ := candidate_sound success
  exact (PublicKey.verify_iff stands digest signature).mpr
    ⟨A, related, (RecoveryId.residue_eq_some_iff signature.r_valid.2).mpr ⟨id, names⟩⟩

/-- The signature equation leads from a key element back to one nonce element, which has one id. -/
theorem id_unique (names : id.Names signature.r A) (related : Relates signature digest A B)
    {A' : Group b} (names' : id'.Names signature.r A') (related' : Relates signature digest A' B) :
    id = id' := by
  have same : A = A' := ((Ecdsa.relates_iff_nonce signature.s_valid).mp related).trans
    ((Ecdsa.relates_iff_nonce signature.s_valid).mp related').symm
  subst same
  exact names.unique names'

/-- An id recovers the point of a key exactly when it names the nonce element of the key. -/
theorem recovers_iff (stands : Point.Represents b key.point B) (proper : B ≠ 0)
    (compressed : Bool) :
    (∃ found, candidate id signature digest compressed = .ok found ∧
      found.point.sameAs key.point = true) ↔
      ∃ A, id.Names signature.r A ∧ Relates signature digest A B := by
  constructor
  · rintro ⟨found, success, same⟩
    obtain ⟨A, B', names, related, stands'⟩ := candidate_sound success
    rw [(sameAs_iff_of_represents stands' stands).mp same] at related
    exact ⟨A, names, related⟩
  · rintro ⟨A, names, related⟩
    obtain ⟨found, success, stands'⟩ := candidate_complete compressed names related proper
    exact ⟨found, success, (sameAs_iff_of_represents stands' stands).mpr rfl⟩

theorem leadsTo_iff :
    leadsTo signature digest key id = true ↔
      ∃ found, candidate id signature digest key.compressed = .ok found ∧
        found.point.sameAs key.point = true := by
  unfold leadsTo
  split
  · rename_i found success
    rw [success]
    exact ⟨fun same => ⟨found, rfl, same⟩, fun ⟨_, same, result⟩ => by cases same; exact result⟩
  · rename_i cause failure
    rw [failure]
    exact ⟨fun same => absurd same Bool.false_ne_true, fun ⟨_, same, _⟩ => by cases same⟩

/-- Whatever the key is, at most one id leads to it. -/
theorem eq_of_leadsTo (leads : leadsTo signature digest key id = true)
    (leads' : leadsTo signature digest key id' = true) : id = id' := by
  obtain ⟨found, success, same⟩ := leadsTo_iff.mp leads
  obtain ⟨found', success', same'⟩ := leadsTo_iff.mp leads'
  have equal : found.point.sameAs found'.point = true := by
    rw [Point.sameAs_iff] at same same' ⊢
    exact same.trans same'.symm
  obtain ⟨A, B, names, related, stands⟩ := candidate_sound success
  obtain ⟨A', B', names', related', stands'⟩ := candidate_sound success'
  rw [(sameAs_iff_of_represents stands stands').mp equal] at related
  exact id_unique names related names' related'

theorem findId_eq_ok_iff_leadsTo :
    findId signature digest key = .ok id ↔ leadsTo signature digest key id = true := by
  unfold findId
  constructor
  · intro success
    split at success
    · rename_i first
      cases success
      exact List.find?_some first
    · cases success
  · intro leads
    have listed : id ∈ RecoveryId.all := by rcases id with ⟨_ | _, _ | _⟩ <;> decide
    split
    · rename_i first chosen
      rw [eq_of_leadsTo leads (List.find?_some chosen)]
    · rename_i none
      exact absurd leads (List.find?_eq_none.mp none id listed)

theorem findId_eq_ok_iff (stands : Point.Represents b key.point B) (proper : B ≠ 0) :
    findId signature digest key = .ok id ↔
      ∃ A, id.Names signature.r A ∧ Relates signature digest A B :=
  findId_eq_ok_iff_leadsTo.trans (leadsTo_iff.trans (recovers_iff stands proper key.compressed))

theorem recover_eq_ok_iff {number : Nat} :
    recover number signature digest compressed = .ok key ↔
      ∃ id : RecoveryId, number = id.toNat ∧
        candidate id signature digest compressed = .ok key := by
  constructor
  · intro success
    obtain ⟨id, numbered, found⟩ := exists_of_bind_eq_ok success
    exact ⟨id, RecoveryId.ofNat_eq_ok_iff.mp numbered, found⟩
  · rintro ⟨id, numbered, found⟩
    rw [recover, RecoveryId.ofNat_eq_ok_iff.mpr numbered]
    exact found

/-- A key verifies a signature exactly when some id leads to the key, and then that id is the only
one whose key has its point.  Whatever is recovered verifies, and no two ids recover one point. -/
theorem verification_agrees_with_recovery {key : PublicKey} (obtainable : key.Obtainable)
    (signature : Signature) (digest : Octets) :
    (key.verify digest signature = true ↔ ∃ id, findId signature digest key = .ok id) ∧
    (∀ id, findId signature digest key = .ok id → ∀ number compressed,
      (∃ found, recover number signature digest compressed = .ok found ∧
        found.point.sameAs key.point = true) ↔ number = id.toNat) ∧
    (∀ number compressed found, recover number signature digest compressed = .ok found →
      found.verify digest signature = true) ∧
    (∀ number number' compressed compressed' found found',
      recover number signature digest compressed = .ok found →
      recover number' signature digest compressed' = .ok found' →
      found.point.sameAs found'.point = true → number = number') := by
  obtain ⟨B, proper, stands⟩ := obtainable.isAffineOnCurve.represents
  refine ⟨?_, ?_, ?_, ?_⟩
  · rw [PublicKey.verify_iff stands]
    constructor
    · rintro ⟨A, related, abscissa⟩
      obtain ⟨id, names⟩ := (RecoveryId.residue_eq_some_iff signature.r_valid.2).mp abscissa
      exact ⟨id, (findId_eq_ok_iff stands proper).mpr ⟨A, names, related⟩⟩
    · rintro ⟨id, success⟩
      obtain ⟨A, names, related⟩ := (findId_eq_ok_iff stands proper).mp success
      exact ⟨A, related, (RecoveryId.residue_eq_some_iff signature.r_valid.2).mpr ⟨id, names⟩⟩
  · intro id success number compressed
    obtain ⟨A, names, related⟩ := (findId_eq_ok_iff stands proper).mp success
    constructor
    · rintro ⟨found, recovered, same⟩
      obtain ⟨id', numbered, chosen⟩ := recover_eq_ok_iff.mp recovered
      obtain ⟨A', names', related'⟩ :=
        (recovers_iff stands proper compressed).mp ⟨found, chosen, same⟩
      rw [numbered, id_unique names' related' names related]
    · intro numbered
      obtain ⟨found, chosen, same⟩ :=
        (recovers_iff stands proper compressed).mpr ⟨A, names, related⟩
      exact ⟨found, recover_eq_ok_iff.mpr ⟨id, numbered, chosen⟩, same⟩
  · intro number compressed found success
    obtain ⟨id, _, chosen⟩ := recover_eq_ok_iff.mp success
    exact verify_of_candidate chosen
  · intro number number' compressed compressed' found found' success success' same
    obtain ⟨id, numbered, chosen⟩ := recover_eq_ok_iff.mp success
    obtain ⟨id', numbered', chosen'⟩ := recover_eq_ok_iff.mp success'
    obtain ⟨A, C, names, related, standsC⟩ := candidate_sound chosen
    obtain ⟨A', C', names', related', standsC'⟩ := candidate_sound chosen'
    rw [(sameAs_iff_of_represents standsC standsC').mp same] at related
    rw [numbered, numbered', id_unique names related names' related']

/-- The key with the scalar one and a signature of the empty digest, both of whose halves are the
abscissa of the generator. -/
theorem recovery_of_the_generator :
    (PrivateKey.mk 1 (by decide)).publicKey.Obtainable ∧
      ∃ id, findId (.mk Point.generator.x.val Point.generator.x.val (by decide +kernel)
          (by decide +kernel)) [] (PrivateKey.mk 1 (by decide)).publicKey = .ok id ∧
        ∀ number compressed,
          (∃ found, recover number (.mk Point.generator.x.val Point.generator.x.val
              (by decide +kernel) (by decide +kernel)) [] compressed = .ok found ∧
            found.point.sameAs (PrivateKey.mk 1 (by decide)).publicKey.point = true) ↔
          number = id.toNat := by
  have obtainable : (PrivateKey.mk 1 (by decide)).publicKey.Obtainable := .ofPrivate _
  obtain ⟨agrees, unique, _⟩ := verification_agrees_with_recovery obtainable
    (.mk Point.generator.x.val Point.generator.x.val (by decide +kernel) (by decide +kernel)) []
  obtain ⟨id, success⟩ := agrees.mp (by decide +kernel)
  exact ⟨obtainable, id, success, unique id success⟩

end Recovery
end Secp256k1
