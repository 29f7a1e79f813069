import Mathlib
import Secp256k1.Proofs.DerIntegers

/-!
# Reading in DER

Each reader accepts exactly what the writer of the same item puts in front of the octets that it
leaves unread, with the length in either form, as long as the form can write it.
-/

set_option autoImplicit false

namespace Secp256k1
namespace Der

/-! ## Reading what was written -/

/-- The lengths that a form can write. -/
def LengthForm.limit : LengthForm → Nat
  | .short => 0x80
  | .long => 0x100

/-- The lengths of the parts can be written in the forms of the layout. -/
structure Layout.Fits (layout : Layout) (r s : Nat) : Prop where
  first : (integerOctets r).length < layout.first.limit
  second : (integerOctets s).length < layout.second.limit
  sequence : (writeInteger layout.first r ++ writeInteger layout.second s).length <
    layout.sequence.limit

theorem readLength_writeLength {form : LengthForm} {length : Nat} (bounded : length < form.limit)
    (rest : Octets) : readLength (writeLength form length ++ rest) = .ok (length, rest) := by
  have value : (UInt8.ofNat length).toNat = length := by
    rw [UInt8.toNat_ofNat', Nat.mod_eq_of_lt]
    cases form <;> simp only [LengthForm.limit] at bounded <;> omega
  cases form with
  | short =>
    have small : UInt8.ofNat length < 0x80 := by
      rw [UInt8.lt_iff_toNat_lt, value]
      exact bounded
    simp only [readLength, writeLength, readOctet, bind, Except.bind, List.singleton_append, small,
      if_true, value, pure, Except.pure]
  | long =>
    have marked : ¬ longMark < 0x80 := by decide
    simp only [readLength, writeLength, readOctet, bind, Except.bind, List.cons_append,
      List.nil_append, marked, if_false, if_true, value, pure, Except.pure]

theorem readExactly_append (content rest : Octets) :
    readExactly content.length (content ++ rest) = .ok (content, rest) := by
  have enough : ¬ (content ++ rest).length < content.length := by
    rw [List.length_append]
    omega
  rw [readExactly, if_neg enough, List.take_left, List.drop_left]

theorem readInteger_writeInteger {form : LengthForm} {v : Nat}
    (bounded : (integerOctets v).length < form.limit) (rest : Octets) :
    readInteger (writeInteger form v ++ rest) = .ok (v, rest) := by
  simp only [readInteger, writeInteger, readOctet, bind, Except.bind, List.cons_append,
    List.append_assoc, ne_eq, not_true_eq_false, if_false, readLength_writeLength bounded,
    readExactly_append, integerOfOctets_integerOctets, pure, Except.pure]

theorem readPair_writePair {layout : Layout} {r s : Nat} (fits : layout.Fits r s) :
    readPair (writePair layout r s) = .ok (r, s) := by
  have readSecond := readInteger_writeInteger fits.second []
  rw [List.append_nil] at readSecond
  simp only [readPair, writePair, readOctet, bind, Except.bind, ne_eq, not_true_eq_false, if_false,
    readLength_writeLength fits.sequence, readInteger_writeInteger fits.first, readSecond,
    List.length_nil, pure, Except.pure]

/-! ## What was read was written -/

section Soundness

variable {octets rest content : Octets} {octet : UInt8} {length v r s : Nat}

theorem eq_cons_of_readOctet (success : readOctet octets = .ok (octet, rest)) :
    octets = octet :: rest := by
  cases octets with
  | nil => cases success
  | cons leading tail =>
    cases success
    rfl

theorem eq_append_of_readExactly (success : readExactly length octets = .ok (content, rest)) :
    content.length = length ∧ octets = content ++ rest := by
  unfold readExactly at success
  split at success
  · cases success
  · rename_i enough
    cases success
    exact ⟨List.length_take_of_le (Nat.le_of_not_lt enough),
      (List.take_append_drop length octets).symm⟩

theorem exists_form_of_readLength (success : readLength octets = .ok (length, rest)) :
    ∃ form : LengthForm, length < form.limit ∧ octets = writeLength form length ++ rest := by
  obtain ⟨⟨leading, tail⟩, read, success⟩ := exists_of_bind_eq_ok success
  rw [eq_cons_of_readOctet read]
  dsimp only at success
  split at success
  · rename_i small
    cases success
    refine ⟨.short, UInt8.lt_iff_toNat_lt.mp small, ?_⟩
    rw [writeLength, UInt8.ofNat_toNat, List.singleton_append]
  · split at success
    · rename_i marked
      obtain ⟨⟨octet, after⟩, read, success⟩ := exists_of_bind_eq_ok success
      cases success
      refine ⟨.long, octet.toNat_lt, ?_⟩
      rw [eq_cons_of_readOctet read, marked, writeLength, UInt8.ofNat_toNat]
      rfl
    · cases success

theorem exists_form_of_readInteger (success : readInteger octets = .ok (v, rest)) :
    ∃ form : LengthForm, (integerOctets v).length < form.limit ∧
      octets = writeInteger form v ++ rest := by
  obtain ⟨⟨tag, afterTag⟩, readTag, success⟩ := exists_of_bind_eq_ok success
  dsimp only at success
  split at success
  · cases success
  · rename_i tagged
    obtain ⟨⟨length, afterLength⟩, readForm, success⟩ := exists_of_bind_eq_ok success
    obtain ⟨⟨content, after⟩, readContent, success⟩ := exists_of_bind_eq_ok success
    obtain ⟨value, read, success⟩ := exists_of_bind_eq_ok success
    cases success
    obtain ⟨form, bounded, written⟩ := exists_form_of_readLength readForm
    obtain ⟨whole, split⟩ := eq_append_of_readExactly readContent
    dsimp only at whole split read
    rw [← whole, integerOfOctets_eq_ok_iff.mp read] at bounded written
    refine ⟨form, bounded, ?_⟩
    rw [eq_cons_of_readOctet readTag, not_not.mp tagged, written, split,
      integerOfOctets_eq_ok_iff.mp read, writeInteger, List.cons_append, List.append_assoc]

theorem exists_layout_of_readPair (success : readPair octets = .ok (r, s)) :
    ∃ layout : Layout, layout.Fits r s ∧ octets = writePair layout r s := by
  obtain ⟨⟨tag, afterTag⟩, readTag, success⟩ := exists_of_bind_eq_ok success
  dsimp only at success
  split at success
  · cases success
  · rename_i tagged
    obtain ⟨⟨length, afterLength⟩, readForm, success⟩ := exists_of_bind_eq_ok success
    dsimp only at success
    split at success
    · cases success
    · rename_i whole
      obtain ⟨⟨first, afterFirst⟩, readFirst, success⟩ := exists_of_bind_eq_ok success
      obtain ⟨⟨second, afterSecond⟩, readSecond, success⟩ := exists_of_bind_eq_ok success
      dsimp only at success
      split at success
      · cases success
      · rename_i exhausted
        cases success
        obtain ⟨form, bounded, written⟩ := exists_form_of_readLength readForm
        obtain ⟨formFirst, boundedFirst, writtenFirst⟩ := exists_form_of_readInteger readFirst
        obtain ⟨formSecond, boundedSecond, writtenSecond⟩ := exists_form_of_readInteger readSecond
        dsimp only at writtenSecond
        rw [List.eq_nil_of_length_eq_zero (not_not.mp exhausted), List.append_nil] at writtenSecond
        rw [writtenSecond] at writtenFirst
        rw [not_not.mp whole, writtenFirst] at bounded written
        refine ⟨⟨form, formFirst, formSecond⟩, ⟨boundedFirst, boundedSecond, bounded⟩, ?_⟩
        rw [eq_cons_of_readOctet readTag, not_not.mp tagged, written, writePair]

theorem readPair_eq_ok_iff :
    readPair octets = .ok (r, s) ↔
      ∃ layout : Layout, layout.Fits r s ∧ octets = writePair layout r s := by
  refine ⟨exists_layout_of_readPair, ?_⟩
  rintro ⟨layout, fits, rfl⟩
  exact readPair_writePair fits

end Soundness

end Der
end Secp256k1
