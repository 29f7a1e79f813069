import Mathlib
import Secp256k1.Proofs.DerIntegers

/-!
# Reading at positions

The readers of DER split the string that is left to them.  Here the same items are read at positions
of one string, and everything that could reach outside is checked: a number of octets left, an octet
or a block that does not exist ends the run with nothing.  Both ways of reading agree on every
string, so reading at positions stays inside.
-/

set_option autoImplicit false

namespace Secp256k1
namespace Der

/-- A value, a fault of the octets, or nothing after an access outside of them. -/
abbrev Checked : Type → Type :=
  ExceptT DerFault Option

/-! ## Accesses -/

def octetAt (octets : Octets) (position : Nat) : Checked UInt8 :=
  ExceptT.lift octets[position]?

def blockAt (octets : Octets) (position length : Nat) : Checked Octets :=
  ExceptT.lift
    (if position + length ≤ octets.length then some ((octets.drop position).take length) else none)

/-- How many octets are left from a position on; there is no such number past the end. -/
def remainingAt (octets : Octets) (position : Nat) : Checked Nat :=
  ExceptT.lift (if position ≤ octets.length then some (octets.length - position) else none)

/-! ## Readers -/

/-- The end of the string is a fault here, and no access outside. -/
def readOctetAt (octets : Octets) (position : Nat) : Checked (UInt8 × Nat) :=
  match octets[position]? with
  | none => throw .truncatedInput
  | some octet => return (octet, position + 1)

def readLengthAt (octets : Octets) (position : Nat) : Checked (Nat × Nat) := do
  let (leading, position) ← readOctetAt octets position
  if leading < 0x80 then return (leading.toNat, position)
  else if leading = longMark then
    let (length, position) ← readOctetAt octets position
    return (length.toNat, position)
  else throw .unsupportedLength

def readExactlyAt (octets : Octets) (length position : Nat) : Checked (Octets × Nat) := do
  let left ← remainingAt octets position
  if left < length then throw .lengthExceedsInput
  else
    let content ← blockAt octets position length
    return (content, position + length)

def integerAt (content : Octets) : Checked Nat := do
  if content.length = 0 then throw .emptyInteger
  else
    let leading ← octetAt content 0
    if 0x80 ≤ leading then throw .negativeInteger
    else if 1 < content.length ∧ leading = 0 then
      let second ← octetAt content 1
      if second < 0x80 then throw .nonMinimalInteger
      else return Octets.toNat content
    else return Octets.toNat content

def readIntegerAt (octets : Octets) (position : Nat) : Checked (Nat × Nat) := do
  let (tag, position) ← readOctetAt octets position
  if tag ≠ integerTag then throw .expectedInteger
  else
    let (length, position) ← readLengthAt octets position
    let (content, position) ← readExactlyAt octets length position
    let v ← integerAt content
    return (v, position)

def readPairAt (octets : Octets) : Checked (Nat × Nat) := do
  let (tag, position) ← readOctetAt octets 0
  if tag ≠ sequenceTag then throw .expectedSequence
  else
    let (length, position) ← readLengthAt octets position
    let left ← remainingAt octets position
    if length ≠ left then throw .sequenceLengthMismatch
    else
      let (first, position) ← readIntegerAt octets position
      let (second, position) ← readIntegerAt octets position
      let left ← remainingAt octets position
      if left ≠ 0 then throw .trailingData
      else return (first, second)

/-! ## Agreement -/

/-- Both runs end with the same fault or with related values, and no access was outside. -/
inductive Agrees {α β : Type} (related : α → β → Prop) : Checked α → Except DerFault β → Prop where
  | fault (cause : DerFault) : Agrees related (throw cause) (.error cause)
  | value {a : α} {b : β} (relation : related a b) : Agrees related (pure a) (.ok b)

/-- The same value, and a position at the octets that are left. -/
inductive At (octets : Octets) {α : Type} : α × Nat → α × Octets → Prop where
  | intro (value : α) {position : Nat} (inside : position ≤ octets.length) :
      At octets (value, position) (value, octets.drop position)

section

variable {α α' β β' : Type} {octets : Octets} {position : Nat}

theorem Agrees.bind {before : α → β → Prop} {after : α' → β' → Prop} {checked : Checked α}
    {plain : Except DerFault β} {next : α → Checked α'} {next' : β → Except DerFault β'}
    (first : Agrees before checked plain)
    (later : ∀ a b, before a b → Agrees after (next a) (next' b)) :
    Agrees after (checked >>= next) (plain >>= next') := by
  cases first with
  | fault cause => exact .fault cause
  | value relation => exact later _ _ relation

theorem Agrees.run_eq {checked : Checked α} {plain : Except DerFault α}
    (agrees : Agrees Eq checked plain) : checked.run = some plain := by
  cases agrees with
  | fault cause => rfl
  | value same =>
    subst same
    rfl

theorem remainingAt_eq (inside : position ≤ octets.length) :
    remainingAt octets position = pure (octets.drop position).length := by
  rw [remainingAt, if_pos inside, List.length_drop]
  rfl

theorem agrees_readOctetAt (inside : position ≤ octets.length) :
    Agrees (At octets) (readOctetAt octets position) (readOctet (octets.drop position)) := by
  by_cases last : position = octets.length
  · rw [readOctetAt, List.getElem?_eq_none (Nat.le_of_eq last.symm), last, List.drop_length]
    exact .fault _
  · have proper : position < octets.length := Nat.lt_of_le_of_ne inside last
    rw [readOctetAt, List.getElem?_eq_getElem proper, List.drop_eq_getElem_cons proper]
    exact .value (.intro _ proper)

theorem agrees_readLengthAt (inside : position ≤ octets.length) :
    Agrees (At octets) (readLengthAt octets position) (readLength (octets.drop position)) := by
  refine (agrees_readOctetAt inside).bind ?_
  rintro _ _ ⟨leading, inside⟩
  dsimp only
  split
  · exact .value (.intro _ inside)
  · split
    · refine (agrees_readOctetAt inside).bind ?_
      rintro _ _ ⟨octet, inside⟩
      exact .value (.intro _ inside)
    · exact .fault _

theorem agrees_readExactlyAt (length : Nat) (inside : position ≤ octets.length) :
    Agrees (At octets) (readExactlyAt octets length position)
      (readExactly length (octets.drop position)) := by
  rw [readExactlyAt, remainingAt_eq inside, pure_bind, readExactly]
  split
  · exact .fault _
  · rename_i enough
    rw [List.length_drop] at enough
    have fits : position + length ≤ octets.length := by omega
    rw [blockAt, if_pos fits, List.drop_drop]
    exact .value (.intro _ fits)

/-- The first octet is looked at only if there is one, and the second only if there are two. -/
theorem agrees_integerAt (content : Octets) :
    Agrees Eq (integerAt content) (integerOfOctets content) := by
  match content with
  | [] => exact .fault _
  | [octet] =>
    have first : octetAt [octet] 0 = pure octet := rfl
    have single : ¬ (1 < [octet].length ∧ octet = 0) := fun both => absurd both.1 (Nat.lt_irrefl 1)
    rw [integerAt, if_neg (List.length_pos_of_ne_nil (List.cons_ne_nil _ _)).ne', first, pure_bind,
      if_neg single, integerOfOctets_single, ← Octets.toNat_single]
    split
    · exact .fault _
    · exact .value rfl
  | leading :: second :: tail =>
    have first : octetAt (leading :: second :: tail) 0 = pure leading := rfl
    have next : octetAt (leading :: second :: tail) 1 = pure second := rfl
    have two : 1 < (leading :: second :: tail).length := Nat.succ_lt_succ (Nat.succ_pos _)
    rw [integerAt, if_neg (List.length_pos_of_ne_nil (List.cons_ne_nil _ _)).ne', first, pure_bind,
      integerOfOctets_cons_cons]
    simp only [next, pure_bind, two, true_and]
    split
    · exact .fault _
    · by_cases null : leading = 0
      · simp only [null, true_and, if_true]
        split
        · exact .fault _
        · exact .value rfl
      · simp only [null, false_and, if_false]
        exact .value rfl

theorem agrees_readIntegerAt (inside : position ≤ octets.length) :
    Agrees (At octets) (readIntegerAt octets position) (readInteger (octets.drop position)) := by
  refine (agrees_readOctetAt inside).bind ?_
  rintro _ _ ⟨tag, inside⟩
  dsimp only
  split
  · exact .fault _
  · refine (agrees_readLengthAt inside).bind ?_
    rintro _ _ ⟨length, inside⟩
    refine (agrees_readExactlyAt length inside).bind ?_
    rintro _ _ ⟨content, inside⟩
    refine (agrees_integerAt content).bind ?_
    rintro v _ rfl
    exact .value (.intro v inside)

theorem agrees_readPairAt (octets : Octets) : Agrees Eq (readPairAt octets) (readPair octets) := by
  refine (agrees_readOctetAt (Nat.zero_le octets.length)).bind ?_
  rintro _ _ ⟨tag, inside⟩
  dsimp only
  split
  · exact .fault _
  · refine (agrees_readLengthAt inside).bind ?_
    rintro _ _ ⟨length, inside⟩
    rw [remainingAt_eq inside, pure_bind]
    dsimp only
    split
    · exact .fault _
    · refine (agrees_readIntegerAt inside).bind ?_
      rintro _ _ ⟨first, inside⟩
      refine (agrees_readIntegerAt inside).bind ?_
      rintro _ _ ⟨second, inside⟩
      rw [remainingAt_eq inside, pure_bind]
      dsimp only
      split
      · exact .fault _
      · exact .value rfl

end

/-- No access of reading at positions is outside the string, whatever the string. -/
theorem run_readPairAt (octets : Octets) : (readPairAt octets).run = some (readPair octets) :=
  (agrees_readPairAt octets).run_eq

end Der
end Secp256k1
