import Mathlib
import Secp256k1.Proofs.PublicKeys

/-!
# Encodings of points

An affine triple on the curve has one compressed and one uncompressed encoding, and decoding accepts
these, the single zero octet and nothing else.  The ordinate of a point of the curve is never zero,
so its parity always tells it from its opposite and both compressed tags can be written again.
-/

set_option autoImplicit false

namespace Secp256k1

namespace FieldElement

/-- Only the canonical octets of an element decode to it. -/
theorem decode_eq_ok_iff {octets : Octets} {a : FieldElement} :
    decode octets = .ok a ↔ octets = a.encode := by
  constructor
  · intro success
    unfold decode at success
    split at success
    · rename_i width
      split at success
      · rename_i representative canonical
        cases success
        rw [encode, ofCanonical_eq_some_iff.mp canonical, ← width, Octets.fixed_toNat]
      · cases success
    · cases success
  · rintro rfl
    exact decode_encode a

theorem encode_injective : Function.Injective encode := by
  intro a c same
  have decoded := decode_encode a
  rw [same, decode_encode c] at decoded
  exact (Except.ok.inj decoded).symm

end FieldElement

namespace Point

variable {octets : Octets} {odd : Bool} {P : Point}

/-! ## Affine triples -/

theorem isAffineOnCurve_iff :
    P.IsAffineOnCurve ↔ P.z = 1 ∧ P.isOnCurve = true := by
  rw [isOnCurve_iff]
  exact ⟨fun valid => ⟨valid.affine, valid.onCurve⟩, fun valid => ⟨valid.1, valid.2⟩⟩

theorem IsAffineOnCurve.z_ne_zero (valid : P.IsAffineOnCurve) : P.z ≠ 0 := by
  rw [valid.affine]
  exact one_ne_zero

theorem IsAffineOnCurve.finite (valid : P.IsAffineOnCurve) : ¬ P.isInfinity = true := by
  rw [Point.isInfinity_iff]
  exact valid.z_ne_zero

theorem IsAffineOnCurve.eq_ofAffine (valid : P.IsAffineOnCurve) : P = ofAffine P.x P.y := by
  have affine := valid.affine
  cases P
  cases affine
  rfl

theorem IsAffineOnCurve.square (valid : P.IsAffineOnCurve) : P.y ^ 2 = Curve.rhs P.x := by
  have equation := (valid.onCurve.resolve_left valid.z_ne_zero).1
  rwa [valid.affine, one_pow, mul_one, ← Curve.rhs_eq] at equation

theorem IsAffineOnCurve.toAffine (valid : P.IsAffineOnCurve) : P.toAffine = some (P.x, P.y) := by
  rw [toAffine_eq, valid.affine, if_neg one_ne_zero, one_pow, one_pow, div_one, div_one]

theorem IsAffineOnCurve.encodeCompressed (valid : P.IsAffineOnCurve) :
    P.encodeCompressed = (if P.y.isOdd then 3 else 2) :: P.x.encode := by
  rw [Point.encodeCompressed, valid.toAffine]

theorem IsAffineOnCurve.encodeUncompressed (valid : P.IsAffineOnCurve) :
    P.encodeUncompressed = 4 :: (P.x.encode ++ P.y.encode) := by
  rw [Point.encodeUncompressed, valid.toAffine]

/-- Normalisation keeps the affine coordinates, which are all that an encoding shows. -/
theorem toAffine_normalize (P : Point) : P.normalize.toAffine = P.toAffine := by
  by_cases denominator : P.z = 0
  · rw [normalize, if_pos ((Point.isInfinity_iff P).mpr denominator), toAffine_eq P,
      if_pos denominator]
    rfl
  · rw [toAffine_eq, toAffine_eq P, if_neg denominator, normalize_z denominator,
      if_neg one_ne_zero, one_pow, one_pow, div_one, div_one, normalize_x denominator,
      normalize_y denominator]

/-! ## One format at a time -/

theorem decodeCompressed_eq_ok_iff :
    decodeCompressed odd octets = .ok P ↔
      P.IsAffineOnCurve ∧ P.y.isOdd = odd ∧ octets = P.x.encode := by
  constructor
  · intro success
    obtain ⟨x, abscissa, found⟩ := exists_of_bind_eq_ok success
    split at found
    · rename_i R decompressed
      cases found
      obtain ⟨y, rfl, _, parity⟩ := decompress_eq_some_iff.mp decompressed
      exact ⟨isAffineOnCurve_of_decompress decompressed, parity,
        FieldElement.decode_eq_ok_iff.mp abscissa⟩
    · cases found
  · rintro ⟨valid, parity, rfl⟩
    have decompressed : decompress P.x odd = some P :=
      decompress_eq_some_iff.mpr ⟨P.y, valid.eq_ofAffine, valid.square, parity⟩
    simp only [decodeCompressed, FieldElement.decode_encode, bind, Except.bind, decompressed]

theorem ofAffineOnCurve_eq_ok_iff {x y : FieldElement} :
    ofAffineOnCurve x y = .ok P ↔ P.IsAffineOnCurve ∧ P.x = x ∧ P.y = y := by
  constructor
  · intro success
    have valid := isAffineOnCurve_of_ofAffineOnCurve success
    unfold ofAffineOnCurve at success
    split at success
    · cases success
      exact ⟨valid, rfl, rfl⟩
    · cases success
  · rintro ⟨valid, rfl, rfl⟩
    have same := valid.eq_ofAffine
    rw [ofAffineOnCurve, ← same, if_pos (isAffineOnCurve_iff.mp valid).2]

theorem decodeUncompressed_eq_ok_iff :
    decodeUncompressed octets = .ok P ↔
      P.IsAffineOnCurve ∧ octets = P.x.encode ++ P.y.encode := by
  constructor
  · intro success
    obtain ⟨x, abscissa, remaining⟩ := exists_of_bind_eq_ok success
    obtain ⟨y, ordinate, found⟩ := exists_of_bind_eq_ok remaining
    obtain ⟨valid, rfl, rfl⟩ := ofAffineOnCurve_eq_ok_iff.mp found
    refine ⟨valid, ?_⟩
    rw [← FieldElement.decode_eq_ok_iff.mp abscissa, ← FieldElement.decode_eq_ok_iff.mp ordinate,
      List.take_append_drop]
  · rintro ⟨valid, rfl⟩
    have front : (P.x.encode ++ P.y.encode).take 32 = P.x.encode :=
      List.take_left' P.x.length_encode
    have back : (P.x.encode ++ P.y.encode).drop 32 = P.y.encode :=
      List.drop_left' P.x.length_encode
    simp only [decodeUncompressed, front, back, FieldElement.decode_encode, bind, Except.bind]
    exact ofAffineOnCurve_eq_ok_iff.mpr ⟨valid, rfl, rfl⟩

/-! ## All formats -/

theorem decode_encodeCompressed (valid : P.IsAffineOnCurve) :
    decode P.encodeCompressed = .ok P := by
  have read : ∀ odd, P.y.isOdd = odd → decodeCompressed odd P.x.encode = .ok P :=
    fun odd parity => decodeCompressed_eq_ok_iff.mpr ⟨valid, parity, rfl⟩
  rw [valid.encodeCompressed]
  cases parity : P.y.isOdd with
  | false => simpa [decode] using read false parity
  | true => simpa [decode] using read true parity

theorem decode_encodeUncompressed (valid : P.IsAffineOnCurve) :
    decode P.encodeUncompressed = .ok P := by
  rw [valid.encodeUncompressed]
  simpa [decode] using decodeUncompressed_eq_ok_iff.mpr ⟨valid, rfl⟩

theorem encodeCompressed_of_decodeCompressed {tag : UInt8} {body : Octets}
    (tagged : tag = 2 ∨ tag = 3) (success : decodeCompressed (tag == 3) body = .ok P) :
    P.IsAffineOnCurve ∧ tag :: body = P.encodeCompressed := by
  obtain ⟨valid, parity, rfl⟩ := decodeCompressed_eq_ok_iff.mp success
  refine ⟨valid, ?_⟩
  rw [valid.encodeCompressed, parity]
  rcases tagged with rfl | rfl <;> rfl

/-- The three formats and what each of them stands for. -/
theorem decode_eq_ok_iff :
    decode octets = .ok P ↔
      (octets = [0] ∧ P = infinity) ∨
        P.IsAffineOnCurve ∧ (octets = P.encodeCompressed ∨ octets = P.encodeUncompressed) := by
  constructor
  · intro success
    unfold decode at success
    split at success
    · cases success
    · rename_i tag body
      split at success
      · rename_i single
        cases success
        obtain ⟨rfl, none⟩ := single
        rw [List.length_eq_zero_iff.mp none]
        exact Or.inl ⟨rfl, rfl⟩
      · split at success
        · rename_i compressed
          obtain ⟨valid, same⟩ := encodeCompressed_of_decodeCompressed compressed.1 success
          exact Or.inr ⟨valid, Or.inl same⟩
        · split at success
          · rename_i uncompressed
            obtain ⟨valid, same⟩ := decodeUncompressed_eq_ok_iff.mp success
            refine Or.inr ⟨valid, Or.inr ?_⟩
            rw [valid.encodeUncompressed, uncompressed.1, same]
          · cases success
  · rintro (⟨rfl, rfl⟩ | ⟨valid, rfl | rfl⟩)
    · rfl
    · exact decode_encodeCompressed valid
    · exact decode_encodeUncompressed valid

/-- A finite point decodes from either encoding to its normalised triple. -/
theorem decode_encode_of_finite (onCurve : P.isOnCurve = true) (finite : ¬ P.isInfinity = true) :
    decode P.encodeCompressed = .ok P.normalize ∧ decode P.encodeUncompressed = .ok P.normalize := by
  have valid := isAffineOnCurve_normalize finite ((isOnCurve_iff P).mp onCurve)
  obtain ⟨_, compressed, uncompressed⟩ := indistinguishable_of_toAffine_eq (toAffine_normalize P)
  rw [← compressed, ← uncompressed]
  exact ⟨decode_encodeCompressed valid, decode_encodeUncompressed valid⟩

theorem encodings_of_isInfinity (infinite : P.isInfinity = true) :
    P.encodeCompressed = List.replicate 33 0 ∧ P.encodeUncompressed = List.replicate 65 0 := by
  have none : P.toAffine = Option.none := if_pos infinite
  rw [encodeCompressed, encodeUncompressed, none]
  exact ⟨rfl, rfl⟩

/-- Decoding accepts the zero octet, the compressed and the uncompressed encodings of the finite
points of the curve, and nothing else.  What it returns for the latter two is affine and encodes in
the same format to the same octets, and it is the encoded point, whatever triple that was given by.
The octets that are written for infinity in the two formats are refused. -/
theorem encodings_decode_exactly :
    (∀ octets : Octets, (∃ P, decode octets = .ok P) ↔
      octets = [0] ∨ ∃ P : Point, P.isOnCurve = true ∧ ¬ P.isInfinity = true ∧
        (octets = P.encodeCompressed ∨ octets = P.encodeUncompressed)) ∧
    (∀ (octets : Octets) (P : Point), decode octets = .ok P →
      (octets = [0] ∧ P = infinity) ∨
        P.z = 1 ∧ P.isOnCurve = true ∧
          (octets.length = 33 ∧ P.encodeCompressed = octets ∨
            octets.length = 65 ∧ P.encodeUncompressed = octets)) ∧
    (∀ P : Point, P.isOnCurve = true → ¬ P.isInfinity = true →
      (∃ Q, decode P.encodeCompressed = .ok Q ∧ Q.sameAs P = true) ∧
        ∃ Q, decode P.encodeUncompressed = .ok Q ∧ Q.sameAs P = true) ∧
    ∀ P : Point, P.isInfinity = true →
      P.encodeCompressed = List.replicate 33 0 ∧ P.encodeUncompressed = List.replicate 65 0 ∧
        decode P.encodeCompressed = .error .invalidPointEncoding ∧
        decode P.encodeUncompressed = .error .invalidPointEncoding := by
  refine ⟨fun octets => ⟨?_, ?_⟩, fun octets P success => ?_, fun P onCurve finite => ?_,
    fun P infinite => ?_⟩
  · rintro ⟨P, success⟩
    rcases decode_eq_ok_iff.mp success with ⟨single, _⟩ | ⟨valid, written⟩
    · exact Or.inl single
    · exact Or.inr ⟨P, (isAffineOnCurve_iff.mp valid).2, valid.finite, written⟩
  · rintro (rfl | ⟨P, onCurve, finite, rfl | rfl⟩)
    · exact ⟨infinity, rfl⟩
    · exact ⟨P.normalize, (decode_encode_of_finite onCurve finite).1⟩
    · exact ⟨P.normalize, (decode_encode_of_finite onCurve finite).2⟩
  · rcases decode_eq_ok_iff.mp success with single | ⟨valid, written⟩
    · exact Or.inl single
    · obtain ⟨affine, onCurve⟩ := isAffineOnCurve_iff.mp valid
      refine Or.inr ⟨affine, onCurve, ?_⟩
      rcases written with rfl | rfl
      · exact Or.inl ⟨length_encodeCompressed P, rfl⟩
      · exact Or.inr ⟨length_encodeUncompressed P, rfl⟩
  · obtain ⟨compressed, uncompressed⟩ := decode_encode_of_finite onCurve finite
    have same := (sameAs_iff _ _).mpr (toAffine_normalize P)
    exact ⟨⟨P.normalize, compressed, same⟩, P.normalize, uncompressed, same⟩
  · obtain ⟨compressed, uncompressed⟩ := encodings_of_isInfinity infinite
    rw [compressed, uncompressed]
    exact ⟨rfl, rfl, rfl, rfl⟩

/-- Twice the generator, as the doubling leaves it: on the curve, finite and not affine. -/
theorem encodings_of_the_doubled_generator :
    ¬ generator.twice.isNormalized = true ∧
      ∃ Q, decode generator.twice.encodeCompressed = .ok Q ∧ Q.sameAs generator.twice = true ∧
        Q.z = 1 ∧ Q.encodeCompressed = generator.twice.encodeCompressed := by
  obtain ⟨_, reencodes, decodes, _⟩ := encodings_decode_exactly
  have onCurve : generator.twice.isOnCurve = true := by decide +kernel
  have finite : ¬ generator.twice.isInfinity = true := by decide +kernel
  obtain ⟨⟨Q, success, same⟩, _⟩ := decodes generator.twice onCurve finite
  refine ⟨by decide +kernel, Q, success, same, ?_⟩
  have width := length_encodeCompressed generator.twice
  rcases reencodes _ Q success with ⟨single, _⟩ | ⟨affine, _, ⟨_, written⟩ | ⟨long, _⟩⟩
  · rw [single] at width
    exact absurd width (by decide)
  · exact ⟨affine, written⟩
  · rw [width] at long
    exact absurd long (by decide)

end Point
end Secp256k1
