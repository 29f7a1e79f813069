import Mathlib
import Secp256k1.Proofs.SquareRoots

/-!
# Sequences of field operations

Any sequence of operations may be run twice, on representatives and on residue classes.  One
operation keeps the two runs in step, whatever was computed before it, so they stay in step to the
end: what is computed are the least representatives of the classes.
-/

set_option autoImplicit false

namespace Secp256k1.FieldElement

/-! ## Roots of classes -/

theorem toZMod_surjective : Function.Surjective toZMod :=
  equivZMod.surjective

theorem isSquare_toZMod_iff {a : FieldElement} : IsSquare a.toZMod ↔ IsSquare a := by
  refine ⟨fun square => ?_, fun square => square.map equivZMod⟩
  have back := square.map equivZMod.symm
  rwa [show equivZMod.symm a.toZMod = a from equivZMod.symm_apply_apply a] at back

theorem toZMod_sq (a : FieldElement) : (a ^ 2).toZMod = a.toZMod ^ 2 :=
  map_pow equivZMod a 2

theorem sqrt_eq_some_iff_classes {a root : FieldElement} :
    a.sqrt = some root ↔ root.toZMod ^ 2 = a.toZMod ∧ IsSquare root.toZMod := by
  rw [sqrt_eq_some_iff, isSquare_toZMod_iff, ← toZMod_sq, toZMod_injective.eq_iff]

theorem exists_sqrt_iff (a : FieldElement) : (∃ root, a.sqrt = some root) ↔ IsSquare a.toZMod := by
  rw [isSquare_toZMod_iff, isSquare_iff_exists_sq]
  constructor
  · rintro ⟨root, found⟩
    exact ⟨root, (square_of_sqrt found).symm⟩
  · rintro ⟨c, rfl⟩
    exact exists_sqrt c

/-- The roots of a class that are squares themselves. -/
abbrev SquareRoot (c : ZMod fieldModulus) : Type :=
  {root : ZMod fieldModulus // root ^ 2 = c ∧ IsSquare root}

theorem sqrt_eq_some_of_squareRoot {a : FieldElement} (root : SquareRoot a.toZMod) :
    ∃ found, a.sqrt = some found ∧ found.toZMod = root := by
  obtain ⟨found, same⟩ := toZMod_surjective root.val
  exact ⟨found, sqrt_eq_some_iff_classes.mpr (same ▸ root.property), same⟩

instance (c : ZMod fieldModulus) : Subsingleton (SquareRoot c) where
  allEq root other := by
    obtain ⟨a, rfl⟩ := toZMod_surjective c
    obtain ⟨found, extracted, same⟩ := sqrt_eq_some_of_squareRoot root
    obtain ⟨found', extracted', same'⟩ := sqrt_eq_some_of_squareRoot other
    rw [extracted, Option.some.injEq] at extracted'
    exact Subtype.ext (same.symm.trans (extracted' ▸ same'))

/-- The only root of a class that is a square itself, if the class has roots. -/
noncomputable def squareRootOf (c : ZMod fieldModulus) : Option (ZMod fieldModulus) :=
  (Option.choice (SquareRoot c)).map Subtype.val

theorem squareRootOf_toZMod (a : FieldElement) : squareRootOf a.toZMod = a.sqrt.map toZMod := by
  rw [squareRootOf]
  cases extracted : a.sqrt with
  | none =>
    have rootless : IsEmpty (SquareRoot a.toZMod) := by
      refine ⟨fun root => ?_⟩
      obtain ⟨found, extracted', _⟩ := sqrt_eq_some_of_squareRoot root
      rw [extracted] at extracted'
      cases extracted'
    rw [Option.choice_eq_none]
    rfl
  | some root =>
    rw [Option.choice_eq_some ⟨root.toZMod, sqrt_eq_some_iff_classes.mp extracted⟩]
    rfl

/-! ## Runs -/

/-- An operation reads integers or octets, or elements computed before, by their positions. -/
inductive Operation where
  | ofNat (v : Nat)
  | ofWord (v : UInt64)
  | ofCanonical (v : Nat)
  | decode (octets : Octets)
  | add (i j : Nat)
  | sub (i j : Nat)
  | mul (i j : Nat)
  | neg (i : Nat)
  | square (i : Nat)
  | scale (i factor : Nat)
  | invert (i : Nat)
  | sqrt (i : Nat)

namespace Operation

/-- The element that an operation computes; without one of its operands there is none. -/
def result (computed : List FieldElement) : Operation → Option FieldElement
  | ofNat v => some (FieldElement.ofNat v)
  | ofWord v => some (FieldElement.ofWord v)
  | ofCanonical v => ofCanonical? v
  | decode octets => (FieldElement.decode octets).toOption
  | add i j => Option.map₂ (· + ·) computed[i]? computed[j]?
  | sub i j => Option.map₂ (· - ·) computed[i]? computed[j]?
  | mul i j => Option.map₂ (· * ·) computed[i]? computed[j]?
  | neg i => computed[i]?.map (-·)
  | square i => computed[i]?.map FieldElement.square
  | scale i factor => computed[i]?.map (FieldElement.scale · factor)
  | invert i => computed[i]?.map FieldElement.invert
  | sqrt i => computed[i]?.bind FieldElement.sqrt

/-- The class that the operation of the same name on residue classes gives. -/
noncomputable def classResult (computed : List (ZMod fieldModulus)) :
    Operation → Option (ZMod fieldModulus)
  | ofNat v => some v
  | ofWord v => some v.toNat
  | ofCanonical v => if v < fieldModulus then some v else none
  | decode octets =>
    if octets.length = 32 ∧ octets.toNat < fieldModulus then some octets.toNat else none
  | add i j => Option.map₂ (· + ·) computed[i]? computed[j]?
  | sub i j => Option.map₂ (· - ·) computed[i]? computed[j]?
  | mul i j => Option.map₂ (· * ·) computed[i]? computed[j]?
  | neg i => computed[i]?.map (-·)
  | square i => computed[i]?.map (· ^ 2)
  | scale i factor => computed[i]?.map (· * (factor : ZMod fieldModulus))
  | invert i => computed[i]?.map (·⁻¹)
  | sqrt i => computed[i]?.bind squareRootOf

/-- What is computed from first to last: each result joins the ones before it. -/
def runWith {α : Type} (result : List α → Operation → Option α) (operations : List Operation) :
    List α :=
  operations.foldl (fun computed operation => computed ++ (result computed operation).toList) []

def run : List Operation → List FieldElement :=
  runWith result

noncomputable def classRun : List Operation → List (ZMod fieldModulus) :=
  runWith classResult

theorem map_decode (octets : Octets) :
    (FieldElement.decode octets).toOption.map toZMod =
      if octets.length = 32 ∧ octets.toNat < fieldModulus then
        some (octets.toNat : ZMod fieldModulus) else none := by
  rw [FieldElement.decode, ofCanonical?]
  by_cases width : octets.length = 32
  · by_cases reduced : octets.toNat < fieldModulus
    · rw [if_pos width, dif_pos reduced, if_pos ⟨width, reduced⟩]
      rfl
    · rw [if_pos width, dif_neg reduced, if_neg fun both => reduced both.2]
      rfl
  · rw [if_neg width, if_neg fun both => width both.1]
    rfl

theorem map_unary {f : FieldElement → FieldElement} {g : ZMod fieldModulus → ZMod fieldModulus}
    (agrees : ∀ a, (f a).toZMod = g a.toZMod) (computed : List FieldElement) (i : Nat) :
    (computed[i]?.map f).map toZMod = (computed.map toZMod)[i]?.map g := by
  rw [List.getElem?_map, Option.map_map, Option.map_map]
  exact congrArg (Option.map · computed[i]?) (funext agrees)

theorem map_binary {f : FieldElement → FieldElement → FieldElement}
    {g : ZMod fieldModulus → ZMod fieldModulus → ZMod fieldModulus}
    (agrees : ∀ a c, (f a c).toZMod = g a.toZMod c.toZMod) (computed : List FieldElement)
    (i j : Nat) : (Option.map₂ f computed[i]? computed[j]?).map toZMod =
      Option.map₂ g (computed.map toZMod)[i]? (computed.map toZMod)[j]? := by
  rw [List.getElem?_map, List.getElem?_map]
  exact Option.map_map₂_distrib agrees

/-- One step of the two runs. -/
theorem map_result (computed : List FieldElement) (operation : Operation) :
    (operation.result computed).map toZMod = operation.classResult (computed.map toZMod) := by
  cases operation with
  | ofNat v => exact congrArg some (toZMod_ofNat v)
  | ofWord v => rfl
  | ofCanonical v =>
    rw [result, classResult, ofCanonical?]
    split <;> rfl
  | decode octets => exact map_decode octets
  | add i j => exact map_binary toZMod_add computed i j
  | sub i j => exact map_binary toZMod_sub computed i j
  | mul i j => exact map_binary toZMod_mul computed i j
  | neg i => exact map_unary toZMod_neg computed i
  | square i => exact map_unary (fun a => (square_eq a ▸ toZMod_sq a :)) computed i
  | scale i factor =>
    refine map_unary (fun a => ?_) computed i
    rw [FieldElement.scale, toZMod_ofNat, Nat.cast_mul]
    rfl
  | invert i => exact map_unary (map_inv₀ equivZMod) computed i
  | sqrt i =>
    rw [result, classResult, List.getElem?_map]
    cases computed[i]? with
    | none => rfl
    | some a => rw [Option.bind_some, Option.map_some, Option.bind_some, squareRootOf_toZMod]

theorem map_runWith {α β : Type} {f : α → β} {first : List α → Operation → Option α}
    {second : List β → Operation → Option β}
    (step : ∀ computed operation,
      (first computed operation).map f = second (computed.map f) operation)
    (operations : List Operation) :
    (runWith first operations).map f = runWith second operations := by
  induction operations using List.reverseRecOn with
  | nil => rfl
  | append_singleton before operation ih =>
    simp only [runWith, List.foldl_concat] at ih ⊢
    rw [List.map_append, ← ih, ← step, Option.toList_map]

/-- The whole runs. -/
theorem map_run (operations : List Operation) :
    (run operations).map toZMod = classRun operations :=
  map_runWith map_result operations

theorem map_val_run (operations : List Operation) :
    (run operations).map val = (classRun operations).map ZMod.val := by
  rw [← map_run, List.map_map]
  exact (List.map_congr_left fun a _ => val_toZMod a).symm

end Operation

/-- Whatever sequence of operations is run, what is computed are the least representatives of what
the same sequence gives on residue classes modulo the prime, so that equal representatives are equal
classes.  Inversion gives the inverse, and zero for zero.  A root is found exactly for a square; it
and its opposite are all the roots, and of these it is the one that is a square itself. -/
theorem operations_realize_prime_field :
    Nat.Prime fieldModulus ∧
    (∀ operations, (Operation.run operations).map val =
      (Operation.classRun operations).map ZMod.val) ∧
    (∀ a c : FieldElement, a = c ↔ (a.val : ZMod fieldModulus) = c.val) ∧
    (∀ a : FieldElement, a ≠ 0 → a * a.invert = 1) ∧ (0 : FieldElement).invert = 0 ∧
    (∀ a : FieldElement, (∃ root, a.sqrt = some root) ↔ IsSquare (a.val : ZMod fieldModulus)) ∧
    ∀ a root : FieldElement, a.sqrt = some root → root.square = a ∧
      (∀ c : FieldElement, c.square = a ↔ c = root ∨ c = -root) ∧
      ∀ c : FieldElement, c.square = a → (IsSquare (c.val : ZMod fieldModulus) ↔ c = root) := by
  refine ⟨fieldModulus_prime, Operation.map_val_run, fun _ _ => toZMod_injective.eq_iff.symm,
    fun _ nonzero => mul_inv_cancel₀ nonzero, ?_, exists_sqrt_iff, ?_⟩
  · rw [invert_eq, inv_zero]
  · intro a root found
    obtain ⟨square, itself⟩ := sqrt_eq_some_iff.mp found
    refine ⟨?_, fun c => ?_, fun c squareC => ?_⟩
    · rw [square_eq, square]
    · rw [square_eq, ← square, sq_eq_sq_iff_eq_or_eq_neg]
    · rw [square_eq, ← square] at squareC
      exact ⟨fun itselfC => eq_of_isSquare squareC (isSquare_toZMod_iff.mp itselfC) itself,
        fun same => isSquare_toZMod_iff.mpr (same ▸ itself)⟩

/-- Three less five wraps around, and so does the root of its square.  The modulus itself is no
representative, minus two has no root, and thirty-one octets are too few. -/
theorem run_around_the_modulus :
    (Operation.classRun [.ofNat (2 * fieldModulus + 3), .ofCanonical fieldModulus, .ofWord 5,
      .sub 0 1, .square 2, .sqrt 3, .sqrt 2, .decode (List.replicate 31 0), .invert 2, .mul 2 5,
      .neg 4]).map ZMod.val =
        [3, 5, fieldModulus - 2, 4, 2, (fieldModulus - 1) / 2, 1, fieldModulus - 2] ∧
      ofNat 2 ≠ 0 ∧ ofNat 2 * (ofNat 2).invert = 1 ∧ (ofNat 4).sqrt = some (ofNat 2) ∧
      ∀ c : FieldElement, c.square = ofNat 4 →
        (IsSquare (c.val : ZMod fieldModulus) ↔ c = ofNat 2) := by
  obtain ⟨_, runs, _, inverts, _, _, roots⟩ := operations_realize_prime_field
  have nonzero : ofNat 2 ≠ 0 := by decide
  have found : (ofNat 4).sqrt = some (ofNat 2) := by decide +kernel
  refine ⟨?_, nonzero, inverts _ nonzero, found, (roots _ _ found).2.2⟩
  rw [← runs]
  decide +kernel

end Secp256k1.FieldElement
