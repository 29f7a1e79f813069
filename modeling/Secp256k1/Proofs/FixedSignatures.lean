import Mathlib
import Secp256k1.CompactSignature
import Secp256k1.Proofs.KeyRecovery
import Secp256k1.Proofs.ScalarPowers

/-!
# Signatures over a fixed number of octets

Reading undoes writing for the 64-octet form of a signature and for the 65-octet form with the
recovery id, and what is read is written again as the same octets.  So the octets that are accepted
are those with the length of the form, a header among the eight, and halves that are valid scalars.
-/

set_option autoImplicit false

namespace Secp256k1

namespace Signature

@[simp] theorem length_toOctets (signature : Signature) : signature.toOctets.length = 64 := by
  simp [toOctets, Scalar.encode]

theorem ofOctets_append {first second : Octets} (widthFirst : first.length = 32)
    (widthSecond : second.length = 32) :
    ofOctets (first ++ second) = ofScalars first.toNat second.toNat := by
  have width : (first ++ second).length = 64 := by
    rw [List.length_append, widthFirst, widthSecond]
  rw [ofOctets, if_pos width, List.take_left' widthFirst, List.drop_left' widthFirst]

theorem exists_halves (signature : Signature) :
    ∃ first second : Octets, signature.toOctets = first ++ second ∧ first.length = 32 ∧
      second.length = 32 ∧ first.toNat = signature.r ∧ second.toNat = signature.s :=
  ⟨Scalar.encode signature.r, Scalar.encode signature.s, rfl, Octets.length_fixed 32 _,
    Octets.length_fixed 32 _, Scalar.toNat_encode signature.r_valid.2,
    Scalar.toNat_encode signature.s_valid.2⟩

theorem ofOctets_toOctets (signature : Signature) :
    ofOctets signature.toOctets = .ok signature := by
  obtain ⟨first, second, written, widthFirst, widthSecond, r, s⟩ := signature.exists_halves
  rw [written, ofOctets_append widthFirst widthSecond]
  exact ofScalars_eq_ok_iff.mpr ⟨r, s⟩

theorem exists_halves_of_ofOctets {octets : Octets} {signature : Signature}
    (success : ofOctets octets = .ok signature) :
    ∃ first second : Octets, octets = first ++ second ∧ first.length = 32 ∧ second.length = 32 := by
  unfold ofOctets at success
  split at success
  · rename_i width
    refine ⟨octets.take 32, octets.drop 32, (List.take_append_drop 32 octets).symm, ?_, ?_⟩
    · rw [List.length_take, width]
      rfl
    · rw [List.length_drop, width]
  · cases success

theorem ofOctets_eq_ok_iff {octets : Octets} {signature : Signature} :
    ofOctets octets = .ok signature ↔ signature.toOctets = octets := by
  constructor
  · intro success
    obtain ⟨first, second, rfl, widthFirst, widthSecond⟩ := exists_halves_of_ofOctets success
    rw [ofOctets_append widthFirst widthSecond] at success
    obtain ⟨r, s⟩ := ofScalars_eq_ok_iff.mp success
    rw [toOctets, ← r, ← s, Scalar.encode_toNat widthFirst, Scalar.encode_toNat widthSecond]
  · rintro rfl
    exact ofOctets_toOctets signature

/-- The strings that are accepted, by their two halves. -/
theorem exists_ofOctets_iff {octets : Octets} :
    (∃ signature, ofOctets octets = .ok signature) ↔
      ∃ first second : Octets, octets = first ++ second ∧ first.length = 32 ∧
        second.length = 32 ∧ Scalar.IsValid first.toNat ∧ Scalar.IsValid second.toNat := by
  constructor
  · rintro ⟨signature, success⟩
    obtain ⟨first, second, rfl, widthFirst, widthSecond⟩ := exists_halves_of_ofOctets success
    rw [ofOctets_append widthFirst widthSecond] at success
    obtain ⟨r, s⟩ := ofScalars_eq_ok_iff.mp success
    exact ⟨first, second, rfl, widthFirst, widthSecond, r ▸ signature.r_valid,
      s ▸ signature.s_valid⟩
  · rintro ⟨first, second, rfl, widthFirst, widthSecond, validFirst, validSecond⟩
    rw [ofOctets_append widthFirst widthSecond]
    exact ⟨⟨first.toNat, second.toNat, validFirst, validSecond⟩,
      ofScalars_eq_ok_iff.mpr ⟨rfl, rfl⟩⟩

end Signature

theorem RecoveryId.toNat_lt (id : RecoveryId) : id.toNat < 4 := by
  rcases id with ⟨_ | _, _ | _⟩ <;> decide

theorem RecoveryId.exists_toNat_eq {number : Nat} (small : number < 4) :
    ∃ id : RecoveryId, id.toNat = number :=
  ⟨⟨2 ≤ number, number % 2 = 1⟩, (RecoveryId.ofNat_eq_ok_iff.mp (if_pos small)).symm⟩

namespace CompactSignature

theorem ofParts_toNat (compact : CompactSignature) :
    ofParts compact.id.toNat compact.compressed compact.signature = .ok compact := by
  rw [ofParts, RecoveryId.ofNat_eq_ok_iff.mpr rfl]
  rfl

/-- The header is far below 256, so nothing of the sum is lost in one octet. -/
theorem toNat_header (compact : CompactSignature) :
    compact.header.toNat =
      headerBase + compact.id.toNat + 4 * compact.compressed.toNat := by
  have small := compact.id.toNat_lt
  have bit := Bool.toNat_le compact.compressed
  rw [header, UInt8.toNat_ofNat', Nat.mod_eq_of_lt]
  unfold headerBase
  omega

/-- The flags of a header in the range say which id and which format it stands for. -/
theorem header_eq_iff {compact : CompactSignature} {header : UInt8} :
    compact.header = header ↔
      (headerBase ≤ header.toNat ∧ header.toNat < headerBase + 8) ∧
        compact.id.toNat = (header.toNat - headerBase) % 4 ∧
        compact.compressed = decide (4 ≤ header.toNat - headerBase) := by
  have small := compact.id.toNat_lt
  rw [← UInt8.toNat_inj, toNat_header]
  cases compact.compressed with
  | false =>
    rw [Bool.toNat_false, eq_comm (a := false), decide_eq_false_iff_not]
    omega
  | true =>
    rw [Bool.toNat_true, eq_comm (a := true), decide_eq_true_iff]
    omega

theorem ofOctets_toOctets (compact : CompactSignature) :
    ofOctets compact.toOctets = .ok compact := by
  obtain ⟨inRange, id, flag⟩ := header_eq_iff.mp (Eq.refl compact.header)
  rw [toOctets, ofOctets, if_neg (not_not.mpr compact.signature.length_toOctets), if_pos inRange]
  simp only [Signature.ofOctets_toOctets, ← id, ← flag]
  exact compact.ofParts_toNat

theorem ofParts_eq_ok_iff {id : Nat} {compressed : Bool} {signature : Signature}
    {compact : CompactSignature} :
    ofParts id compressed signature = .ok compact ↔
      compact.id.toNat = id ∧ compact.compressed = compressed ∧ compact.signature = signature := by
  constructor
  · intro success
    obtain ⟨chosen, numbered, built⟩ := exists_of_bind_eq_ok success
    cases built
    exact ⟨(RecoveryId.ofNat_eq_ok_iff.mp numbered).symm, rfl, rfl⟩
  · rintro ⟨rfl, rfl, rfl⟩
    exact compact.ofParts_toNat

theorem ofOctets_cons_eq_ok_iff {header : UInt8} {body : Octets} {compact : CompactSignature} :
    ofOctets (header :: body) = .ok compact ↔
      compact.header = header ∧ Signature.ofOctets body = .ok compact.signature := by
  constructor
  · intro success
    rw [ofOctets] at success
    split at success
    · cases success
    · split at success
      · rename_i inRange
        obtain ⟨signature, read, built⟩ := exists_of_bind_eq_ok success
        obtain ⟨id, flag, rfl⟩ := ofParts_eq_ok_iff.mp built
        exact ⟨header_eq_iff.mpr ⟨inRange, id, flag⟩, read⟩
      · cases success
  · rintro ⟨rfl, read⟩
    rw [← Signature.ofOctets_eq_ok_iff.mp read]
    exact ofOctets_toOctets compact

theorem ofOctets_eq_ok_iff {octets : Octets} {compact : CompactSignature} :
    ofOctets octets = .ok compact ↔ compact.toOctets = octets := by
  cases octets with
  | nil => exact iff_of_false (fun success => by cases success) (List.cons_ne_nil _ _)
  | cons header body =>
    rw [ofOctets_cons_eq_ok_iff, Signature.ofOctets_eq_ok_iff, toOctets, List.cons.injEq]

theorem exists_header_eq_iff {header : UInt8} (signature : Signature) :
    (∃ compact : CompactSignature, compact.header = header ∧ compact.signature = signature) ↔
      27 ≤ header.toNat ∧ header.toNat ≤ 34 := by
  constructor
  · rintro ⟨compact, names, _⟩
    obtain ⟨⟨least, most⟩, _⟩ := header_eq_iff.mp names
    exact ⟨least, Nat.le_of_lt_succ most⟩
  · rintro ⟨least, most⟩
    have small : (header.toNat - headerBase) % 4 < 4 := Nat.mod_lt _ (by decide)
    obtain ⟨id, flags⟩ := RecoveryId.exists_toNat_eq small
    exact ⟨⟨id, decide (4 ≤ header.toNat - headerBase), signature⟩,
      header_eq_iff.mpr ⟨⟨least, Nat.lt_succ_of_le most⟩, flags, rfl⟩, rfl⟩

/-- The strings that are accepted, by their header and their two halves. -/
theorem exists_ofOctets_iff {octets : Octets} :
    (∃ compact, ofOctets octets = .ok compact) ↔
      ∃ (header : UInt8) (first second : Octets), octets = header :: (first ++ second) ∧
        first.length = 32 ∧ second.length = 32 ∧ (27 ≤ header.toNat ∧ header.toNat ≤ 34) ∧
        Scalar.IsValid first.toNat ∧ Scalar.IsValid second.toNat := by
  constructor
  · rintro ⟨compact, success⟩
    cases octets with
    | nil => cases success
    | cons header body =>
      obtain ⟨names, read⟩ := ofOctets_cons_eq_ok_iff.mp success
      obtain ⟨first, second, rfl, widthFirst, widthSecond, valid⟩ :=
        Signature.exists_ofOctets_iff.mp ⟨_, read⟩
      exact ⟨header, first, second, rfl, widthFirst, widthSecond,
        (exists_header_eq_iff _).mp ⟨compact, names, rfl⟩, valid⟩
  · rintro ⟨header, first, second, rfl, widthFirst, widthSecond, inRange, valid⟩
    obtain ⟨signature, read⟩ := Signature.exists_ofOctets_iff.mpr
      ⟨first, second, rfl, widthFirst, widthSecond, valid⟩
    obtain ⟨compact, names, rfl⟩ := (exists_header_eq_iff signature).mpr inRange
    exact ⟨compact, ofOctets_cons_eq_ok_iff.mpr ⟨names, read⟩⟩

end CompactSignature

/-! ## Both forms -/

namespace Signature

/-- Reading and writing are inverse to each other between the signatures and the strings that are
accepted, over 64 octets and over 65.  Accepted are all strings with 32 octets for each half, both
of them in the range of the scalars, and behind a header from 27 to 34 in the longer form.  The
header is made of the id and the format, and these two and the signature are all that is read. -/
theorem fixed_forms_are_exact :
    (∀ octets : Octets, (∃ compact, CompactSignature.ofOctets octets = .ok compact) ↔
      ∃ (header : UInt8) (first second : Octets), octets = header :: (first ++ second) ∧
        first.length = 32 ∧ second.length = 32 ∧ (27 ≤ header.toNat ∧ header.toNat ≤ 34) ∧
        (1 ≤ first.toNat ∧ first.toNat < Scalar.order) ∧
        1 ≤ second.toNat ∧ second.toNat < Scalar.order) ∧
    (∀ (octets : Octets) (compact : CompactSignature),
      CompactSignature.ofOctets octets = .ok compact ↔ compact.toOctets = octets) ∧
    (∀ (id : Nat) (compressed : Bool) (signature : Signature) (compact : CompactSignature),
      CompactSignature.ofParts id compressed signature = .ok compact ↔
        compact.id.toNat = id ∧ compact.compressed = compressed ∧
          compact.signature = signature) ∧
    (∀ compact : CompactSignature, ∃ header : UInt8,
      compact.toOctets = header :: compact.signature.toOctets ∧
        header.toNat = 27 + compact.id.toNat + if compact.compressed then 4 else 0) ∧
    (∀ octets : Octets, (∃ signature, ofOctets octets = .ok signature) ↔
      ∃ first second : Octets, octets = first ++ second ∧
        first.length = 32 ∧ second.length = 32 ∧
        (1 ≤ first.toNat ∧ first.toNat < Scalar.order) ∧
        1 ≤ second.toNat ∧ second.toNat < Scalar.order) ∧
    (∀ (octets : Octets) (signature : Signature),
      ofOctets octets = .ok signature ↔ signature.toOctets = octets) ∧
    ∀ signature : Signature, ∃ first second : Octets, signature.toOctets = first ++ second ∧
      first.length = 32 ∧ second.length = 32 ∧ first.toNat = signature.r ∧
      second.toNat = signature.s := by
  refine ⟨fun octets => CompactSignature.exists_ofOctets_iff,
    fun octets compact => CompactSignature.ofOctets_eq_ok_iff,
    fun id compressed signature compact => CompactSignature.ofParts_eq_ok_iff,
    fun compact => ⟨compact.header, rfl, ?_⟩, fun octets => exists_ofOctets_iff,
    fun octets signature => ofOctets_eq_ok_iff, exists_halves⟩
  rw [CompactSignature.toNat_header, CompactSignature.headerBase]
  cases compact.compressed <;> rfl

end Signature
end Secp256k1
