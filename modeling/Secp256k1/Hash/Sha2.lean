import Secp256k1.Octets
import Secp256k1.Hash.RootTable

/-!
# SHA-256 and SHA-512

The two hashes differ in the width of a word, in the number of rounds and in their rotation
amounts; a `Variant` holds those and everything else is written once.  A digest has eight words
(`length_hash`).
-/

set_option autoImplicit false

namespace Secp256k1.Sha2

/-- Three amounts by which a word is rotated before the results are combined; for the two
schedule functions the last one is a shift. -/
structure Amounts where
  first : Nat
  second : Nat
  third : Nat

structure Variant (w : Nat) where
  rounds : Nat
  sumZero : Amounts
  sumOne : Amounts
  scheduleZero : Amounts
  scheduleOne : Amounts

structure Registers (w : Nat) where
  a : BitVec w
  b : BitVec w
  c : BitVec w
  d : BitVec w
  e : BitVec w
  f : BitVec w
  g : BitVec w
  h : BitVec w

namespace Registers

def toList {w : Nat} (state : Registers w) : List (BitVec w) :=
  [state.a, state.b, state.c, state.d, state.e, state.f, state.g, state.h]

def add {w : Nat} (first second : Registers w) : Registers w :=
  ⟨first.a + second.a, first.b + second.b, first.c + second.c, first.d + second.d,
    first.e + second.e, first.f + second.f, first.g + second.g, first.h + second.h⟩

end Registers

/-- A word of the leading bits of a 64-bit constant. -/
def leadingWord (w constant : Nat) : BitVec w :=
  BitVec.ofNat w (constant >>> (64 - w))

def start (w : Nat) : Registers w :=
  let root (i : Nat) := leadingWord w (squareRoots.getD i 0)
  ⟨root 0, root 1, root 2, root 3, root 4, root 5, root 6, root 7⟩

variable {w : Nat}

def rotations (amounts : Amounts) (x : BitVec w) : BitVec w :=
  x.rotateRight amounts.first ^^^ x.rotateRight amounts.second ^^^ x.rotateRight amounts.third

def rotationsAndShift (amounts : Amounts) (x : BitVec w) : BitVec w :=
  x.rotateRight amounts.first ^^^ x.rotateRight amounts.second ^^^ x >>> amounts.third

def choice (x y z : BitVec w) : BitVec w :=
  (x &&& y) ^^^ (~~~x &&& z)

def majority (x y z : BitVec w) : BitVec w :=
  (x &&& y) ^^^ (x &&& z) ^^^ (y &&& z)

/-! ## Padding and blocks -/

/-- The fewest zero octets that complete a block after the message, the delimiter and the two
words of its length. -/
def paddingZeros (w messageLength : Nat) : Nat :=
  (2 * w - (messageLength + 1 + w / 4) % (2 * w)) % (2 * w)

/-- The message, a set bit, zeros, and the length of the message in bits. -/
def pad (w : Nat) (message : Octets) : Octets :=
  message ++ 0x80 :: List.replicate (paddingZeros w message.length) 0 ++
    Octets.fixed (w / 4) (8 * message.length)

def pieces {α : Type} (size : Nat) : (count : Nat) → List α → List (List α)
  | 0, _ => []
  | count + 1, rest => rest.take size :: pieces size count (rest.drop size)

def blocks (w : Nat) (message : Octets) : List (List (BitVec w)) :=
  let padded := pad w message
  let words := (pieces (w / 8) (padded.length / (w / 8)) padded).map fun octets =>
    BitVec.ofNat w (Octets.toNat octets)
  pieces 16 (words.length / 16) words

/-! ## Compression -/

/-- The next `count` words of the schedule: the window holds the last sixteen, and each step
hands out the oldest and appends a new one. -/
def schedule (variant : Variant w) : (count : Nat) → (window : List (BitVec w)) → List (BitVec w)
  | 0, _ => []
  | count + 1, window =>
    let next := window.getD 0 0 + rotationsAndShift variant.scheduleZero (window.getD 1 0) +
      window.getD 9 0 + rotationsAndShift variant.scheduleOne (window.getD 14 0)
    window.getD 0 0 :: schedule variant count (window.tail ++ [next])

def round (variant : Variant w) (s : Registers w) (input : BitVec w) : Registers w :=
  let t₁ := s.h + rotations variant.sumOne s.e + choice s.e s.f s.g + input
  let t₂ := rotations variant.sumZero s.a + majority s.a s.b s.c
  ⟨t₁ + t₂, s.a, s.b, s.c, s.d + t₁, s.e, s.f, s.g⟩

def compress (variant : Variant w) (state : Registers w) (block : List (BitVec w)) :
    Registers w :=
  let inputs := (schedule variant variant.rounds block).zipWith
    (fun word constant => word + leadingWord w constant) cubeRoots
  state.add (inputs.foldl (round variant) state)

def hash (variant : Variant w) (message : Octets) : Octets :=
  ((blocks w message).foldl (compress variant) (start w)).toList.flatMap
    fun word => Octets.fixed (w / 8) word.toNat

theorem length_hash (variant : Variant w) (message : Octets) :
    (hash variant message).length = 8 * (w / 8) := by
  simp only [hash, Registers.toList, List.flatMap_cons, List.flatMap_nil, List.length_append,
    Octets.length_fixed, List.length_nil]
  omega

/-! ## The two members -/

def variant256 : Variant 32 :=
  ⟨64, ⟨2, 13, 22⟩, ⟨6, 11, 25⟩, ⟨7, 18, 3⟩, ⟨17, 19, 10⟩⟩

def variant512 : Variant 64 :=
  ⟨80, ⟨28, 34, 39⟩, ⟨14, 18, 41⟩, ⟨1, 8, 7⟩, ⟨19, 61, 6⟩⟩

end Sha2

def sha256 (message : Octets) : Octets :=
  Sha2.hash Sha2.variant256 message

def sha512 (message : Octets) : Octets :=
  Sha2.hash Sha2.variant512 message

@[simp] theorem length_sha256 (message : Octets) : (sha256 message).length = 32 :=
  Sha2.length_hash Sha2.variant256 message

@[simp] theorem length_sha512 (message : Octets) : (sha512 message).length = 64 :=
  Sha2.length_hash Sha2.variant512 message

end Secp256k1
