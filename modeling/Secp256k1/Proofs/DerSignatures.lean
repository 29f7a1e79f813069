import Mathlib
import Secp256k1.Proofs.DerPositions
import Secp256k1.Proofs.DerReading

/-!
# Signatures in DER

The numbers of a signature are short enough for either form of every length.  So a signature is read
from eight strings, one for each choice of the three forms, and the string with short forms only is
shorter than the other seven.
-/

set_option autoImplicit false

namespace Secp256k1
namespace Der

/-! ## Layouts -/

/-- Both forms at each of the three places. -/
def Layout.equivForms : Layout ≃ LengthForm × LengthForm × LengthForm where
  toFun layout := (layout.sequence, layout.first, layout.second)
  invFun forms := ⟨forms.1, forms.2.1, forms.2.2⟩
  left_inv _ := rfl
  right_inv _ := rfl

instance : Fintype LengthForm :=
  ⟨{.short, .long}, fun form => by cases form <;> decide⟩

instance : Fintype Layout :=
  Fintype.ofEquiv _ Layout.equivForms.symm

/-- How many octets a form takes beyond the length itself. -/
def LengthForm.extra : LengthForm → Nat
  | .short => 0
  | .long => 1

def Layout.longForms (layout : Layout) : Nat :=
  layout.sequence.extra + layout.first.extra + layout.second.extra

theorem Layout.longForms_pos {layout : Layout} (other : layout ≠ shortest) :
    0 < layout.longForms := by
  revert layout
  decide

theorem length_writeLength (form : LengthForm) (length : Nat) :
    (writeLength form length).length = 1 + form.extra := by
  cases form <;> rfl

theorem length_writeInteger (form : LengthForm) (v : Nat) :
    (writeInteger form v).length = 2 + form.extra + (integerOctets v).length := by
  rw [writeInteger, List.length_cons, List.length_append, length_writeLength]
  omega

theorem length_writePair (layout : Layout) (r s : Nat) :
    (writePair layout r s).length =
      6 + layout.longForms + ((integerOctets r).length + (integerOctets s).length) := by
  rw [writePair, List.length_cons, List.length_append, length_writeLength, List.length_append,
    length_writeInteger, length_writeInteger, Layout.longForms]
  omega

theorem short_le_limit (form : LengthForm) : 0x80 ≤ form.limit := by
  cases form <;> decide

theorem extra_le_one (form : LengthForm) : form.extra ≤ 1 := by
  cases form <;> decide

section Pairs

variable {r s : Nat} (boundedR : r < 256 ^ 32) (boundedS : s < 256 ^ 32)

include boundedR boundedS

/-- Two numbers of at most 256 bits with their tags and lengths stay below 128 octets. -/
theorem length_content_lt (layout : Layout) :
    (writeInteger layout.first r ++ writeInteger layout.second s).length < 0x80 := by
  have shortR := length_integerOctets_le boundedR
  have shortS := length_integerOctets_le boundedS
  have first := extra_le_one layout.first
  have second := extra_le_one layout.second
  rw [List.length_append, length_writeInteger, length_writeInteger]
  omega

theorem fits_of_bounded (layout : Layout) : layout.Fits r s := by
  have shortR := length_integerOctets_le boundedR
  have shortS := length_integerOctets_le boundedS
  exact ⟨Nat.lt_of_lt_of_le (by omega) (short_le_limit layout.first),
    Nat.lt_of_lt_of_le (by omega) (short_le_limit layout.second),
    Nat.lt_of_lt_of_le (length_content_lt boundedR boundedS layout)
      (short_le_limit layout.sequence)⟩

end Pairs

/-! ## Different layouts give different strings -/

theorem form_eq_of_append_eq {form form' : LengthForm} {length length' : Nat}
    {rest rest' : Octets} (small : length < 0x80) (small' : length' < 0x80)
    (same : writeLength form length ++ rest = writeLength form' length' ++ rest') :
    form = form' := by
  have unmarked : ∀ n < 0x80, UInt8.ofNat n ≠ longMark := by decide
  cases form with
  | short =>
    cases form' with
    | short => rfl
    | long => exact absurd (List.cons.inj same).1 (unmarked length small)
  | long =>
    cases form' with
    | short => exact absurd (List.cons.inj same).1.symm (unmarked length' small')
    | long => rfl

theorem rest_eq_of_append_eq {form : LengthForm} {length length' : Nat} {rest rest' : Octets}
    (same : writeLength form length ++ rest = writeLength form length' ++ rest') :
    rest = rest' :=
  (List.append_inj same (by rw [length_writeLength, length_writeLength])).2

theorem form_eq_of_writeInteger_eq {form form' : LengthForm} {v : Nat} {rest rest' : Octets}
    (bounded : v < 256 ^ 32) (same : writeInteger form v ++ rest = writeInteger form' v ++ rest') :
    form = form' := by
  have small := Nat.lt_of_le_of_lt (length_integerOctets_le bounded) (by decide : 33 < 0x80)
  rw [writeInteger, writeInteger, List.cons_append, List.cons_append, List.append_assoc,
    List.append_assoc] at same
  have tail := (List.cons.inj same).2
  exact form_eq_of_append_eq small small tail

theorem writePair_injective {r s : Nat} (boundedR : r < 256 ^ 32) (boundedS : s < 256 ^ 32) :
    Function.Injective fun layout => writePair layout r s := by
  rintro ⟨sequence, first, second⟩ ⟨sequence', first', second'⟩ same
  have afterTag := (List.cons.inj same).2
  have sameSequence : sequence = sequence' := form_eq_of_append_eq
    (length_content_lt boundedR boundedS _) (length_content_lt boundedR boundedS _) afterTag
  subst sameSequence
  have content := rest_eq_of_append_eq afterTag
  have sameFirst : first = first' := form_eq_of_writeInteger_eq boundedR content
  subst sameFirst
  have last := List.append_cancel_left content
  rw [← List.append_nil (writeInteger second s), ← List.append_nil (writeInteger second' s)] at last
  rw [form_eq_of_writeInteger_eq boundedS last]

end Der

/-! ## Signatures -/

namespace Signature

variable {octets : Octets}

theorem r_lt (signature : Signature) : signature.r < 256 ^ 32 :=
  Nat.lt_trans signature.r_valid.2 (by decide)

theorem s_lt (signature : Signature) : signature.s < 256 ^ 32 :=
  Nat.lt_trans signature.s_valid.2 (by decide)

theorem ofDer_eq_ok_iff {signature : Signature} :
    ofDer octets = .ok signature ↔
      ∃ layout, octets = Der.writePair layout signature.r signature.s := by
  constructor
  · intro success
    unfold ofDer at success
    split at success
    · cases success
    · rename_i r s read
      obtain ⟨rfl, rfl⟩ := ofScalars_eq_ok_iff.mp success
      obtain ⟨layout, _, written⟩ := Der.readPair_eq_ok_iff.mp read
      exact ⟨layout, written⟩
  · rintro ⟨layout, rfl⟩
    have fits := Der.fits_of_bounded signature.r_lt signature.s_lt layout
    rw [ofDer, Der.readPair_eq_ok_iff.mpr ⟨layout, fits, rfl⟩]
    exact ofScalars_eq_ok_iff.mpr ⟨rfl, rfl⟩

theorem ncard_encodings (signature : Signature) :
    {octets | ofDer octets = .ok signature}.ncard = 8 := by
  have encodings : {octets | ofDer octets = .ok signature} =
      Set.range fun layout => Der.writePair layout signature.r signature.s := by
    ext octets
    rw [Set.mem_ofPred_eq, ofDer_eq_ok_iff, Set.mem_range]
    exact exists_congr fun layout => eq_comm
  rw [encodings, ← Nat.card_coe_set_eq,
    Nat.card_range_of_injective (Der.writePair_injective signature.r_lt signature.s_lt),
    Nat.card_eq_fintype_card]
  rfl

theorem length_toDer_lt {signature : Signature} (success : ofDer octets = .ok signature)
    (other : octets ≠ signature.toDer) : signature.toDer.length < octets.length := by
  obtain ⟨layout, rfl⟩ := ofDer_eq_ok_iff.mp success
  have long : 0 < layout.longForms := Der.Layout.longForms_pos fun short => other (by rw [short]; rfl)
  have none : Der.Layout.shortest.longForms = 0 := rfl
  rw [toDer, Der.length_writePair, Der.length_writePair, none]
  omega

theorem exists_error_of_no_layout
    (others : ∀ (signature : Signature) layout,
      octets ≠ Der.writePair layout signature.r signature.s) :
    ∃ cause, ofDer octets = .error cause := by
  cases outcome : ofDer octets with
  | error cause => exact ⟨cause, rfl⟩
  | ok signature =>
    obtain ⟨layout, written⟩ := ofDer_eq_ok_iff.mp outcome
    exact absurd written (others signature layout)

/-- A signature is read from the strings that some layout writes and from nothing else.  These are
eight strings, of which the one with short forms only is the shortest, and every other string is an
error.  Reading at positions agrees and never reaches outside the string. -/
theorem der_accepts_exactly_its_layouts :
    (∀ (octets : Octets) (signature : Signature), ofDer octets = .ok signature ↔
      ∃ layout, octets = Der.writePair layout signature.r signature.s) ∧
    (∀ signature : Signature, {octets | ofDer octets = .ok signature}.ncard = 8) ∧
    (∀ signature : Signature, ofDer signature.toDer = .ok signature) ∧
    (∀ (octets : Octets) (signature : Signature), ofDer octets = .ok signature →
      octets ≠ signature.toDer → signature.toDer.length < octets.length) ∧
    (∀ octets : Octets,
      (∀ (signature : Signature) layout,
        octets ≠ Der.writePair layout signature.r signature.s) →
      ∃ cause, ofDer octets = .error cause) ∧
    ∀ octets : Octets, (Der.readPairAt octets).run = some (Der.readPair octets) := by
  refine ⟨fun _ _ => ofDer_eq_ok_iff, ncard_encodings, fun signature => ?_,
    fun _ _ => length_toDer_lt, fun _ => exists_error_of_no_layout, Der.run_readPairAt⟩
  exact ofDer_eq_ok_iff.mpr ⟨Der.Layout.shortest, rfl⟩

/-- The signature of one and two with long forms only is read, and is longer than what is written;
with another tag in front it is an error. -/
theorem der_layouts_of_one_and_two :
    let signature : Signature := ⟨1, 2, by decide, by decide⟩
    let content : Octets := [0x02, 0x81, 1, 1, 0x02, 0x81, 1, 2]
    ofDer (0x30 :: 0x81 :: 8 :: content) = .ok signature ∧
      0x30 :: 0x81 :: 8 :: content ≠ signature.toDer ∧
      signature.toDer.length < (0x30 :: 0x81 :: 8 :: content).length ∧
      (∀ (other : Signature) layout,
        0x31 :: 0x81 :: 8 :: content ≠ Der.writePair layout other.r other.s) ∧
      ∃ cause, ofDer (0x31 :: 0x81 :: 8 :: content) = .error cause := by
  intro signature content
  obtain ⟨accepted, _, _, longer, others, _⟩ := der_accepts_exactly_its_layouts
  have read : ofDer (0x30 :: 0x81 :: 8 :: content) = .ok signature :=
    (accepted _ signature).mpr ⟨⟨.long, .long, .long⟩, by decide⟩
  have different : 0x30 :: 0x81 :: 8 :: content ≠ signature.toDer := by decide
  have mistagged (other : Signature) (layout : Der.Layout) :
      0x31 :: 0x81 :: 8 :: content ≠ Der.writePair layout other.r other.s := fun same =>
    absurd (List.cons.inj same).1 (by decide)
  exact ⟨read, different, longer _ _ read different, mistagged, others _ mistagged⟩

end Signature
end Secp256k1
