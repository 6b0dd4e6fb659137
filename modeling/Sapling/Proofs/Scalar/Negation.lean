import Sapling.Proofs.Scalar.Signs

/-! Negated numbers and magnitudes. Packing keeps a canonical number, so both only change its sign, and the
distance between a number and its negation is twice its magnitude. -/
namespace Sapling.Scalar

open Float.Model
open UnpackedFloat (Sign)

/-- Packing and unpacking gives a finite number back. -/
theorem unpack_pack_finite {sign : Sign} {m : Nat} {e : Int} {positive : 0 < m}
    (canonical : Canonical (.finite sign m e positive)) :
    UnpackedFloat.unpack .binary32 (UnpackedFloat.pack .binary32 (.finite sign m e positive)) =
      .finite sign m e positive := by
  obtain ⟨rounded, above, small⟩ := canonical.rounded
  have bits : ((UnpackedFloat.pack .binary32 (.finite sign m e positive)).toNat : Int) =
      signPlace sign + Min.min (placeOf m e) (255 * 2 ^ 23) := pack_signed positive rounded
  have fields := unpack_bits (UnpackedFloat.pack .binary32 (.finite sign m e positive))
  obtain ⟨below, least, normal⟩ := rounded
  have first : signPlace sign = 0 ∧ sign = .positive ∨ signPlace sign = 2 ^ 31 ∧ sign = .negative := by
    cases sign
    · exact .inr ⟨rfl, rfl⟩
    · exact .inl ⟨rfl, rfl⟩
  generalize (UnpackedFloat.pack .binary32 (.finite sign m e positive)).toNat = place at bits fields
  generalize UnpackedFloat.unpack .binary32 (UnpackedFloat.pack .binary32 (.finite sign m e positive)) = u
    at fields
  have begun : signOfBits place = sign := by
    rcases first with ⟨start, rfl⟩ | ⟨start, rfl⟩
    · exact if_pos (by omega)
    · exact if_neg (by omega)
  simp only [placeOf] at bits above small
  cases fields with
  | infinity exponent mantissa => omega
  | notANumber exponent mantissa => omega
  | zero exponent mantissa => omega
  | small exponent mantissa =>
    rw [begun]
    congr 1 <;> omega
  | normal low high significandPos =>
    rw [begun]
    congr 1 <;> omega

/-- Nothing is lost by packing a number in canonical form. -/
theorem unpack_pack {u : UnpackedFloat} (canonical : Canonical u) :
    UnpackedFloat.unpack .binary32 (UnpackedFloat.pack .binary32 u) = u := by
  cases u with
  | finite sign m e positive => exact unpack_pack_finite canonical
  | notANumber => rfl
  | zero sign => cases sign <;> rfl
  | infinity sign => cases sign <;> rfl

theorem unpack_neg (x : Float32) : (-x).toModel.unpack = x.toModel.unpack.neg := by
  have canonical := (unpack_fields x).canonical
  refine unpack_pack (u := x.toModel.unpack.neg) ?_
  cases shape : x.toModel.unpack <;> rw [shape] at canonical <;> exact canonical

theorem unpack_abs (x : Float32) : x.abs.toModel.unpack = x.toModel.unpack.abs := by
  have canonical := (unpack_fields x).canonical
  refine unpack_pack (u := x.toModel.unpack.abs) ?_
  cases shape : x.toModel.unpack <;> rw [shape] at canonical <;> exact canonical

/-! ## Magnitudes -/

/-- The unpacked magnitude of a finite number at a place. -/
inductive Magnitude : UnpackedFloat → Int → Prop where
  | zero : Magnitude (.zero .positive) 0
  | finite (positive : 0 < m) (rounded : Rounded m e) (small : placeOf m e < 255 * 2 ^ 23) :
      Magnitude (.finite .positive m e positive) (placeOf m e)

section
variable {x : Float32}

theorem isNaN_abs (x : Float32) : x.abs.isNaN = x.isNaN := by
  change x.abs.toModel.unpack.isNaN = x.toModel.unpack.isNaN
  rw [unpack_abs]
  cases x.toModel.unpack <;> rfl

theorem isNaN_neg (x : Float32) : (-x).isNaN = x.isNaN := by
  change (-x).toModel.unpack.isNaN = x.toModel.unpack.isNaN
  rw [unpack_neg]
  cases x.toModel.unpack <;> rfl

theorem magnitude_abs (finite : x.isFinite) : Magnitude x.abs.toModel.unpack (level x.abs) := by
  have isNumber : x.abs.isNaN = false := (isNaN_abs x).trans (isNaN_of_isFinite finite)
  rw [← level_eq isNumber]
  have canonical := (unpack_fields x).canonical
  rw [unpack_abs]
  rcases shape_of_isFinite finite with ⟨sign, shape⟩ | ⟨sign, m, e, positive, shape⟩
  · rw [shape]
    exact .zero
  · rw [shape] at canonical ⊢
    obtain ⟨rounded, -, small⟩ := canonical.rounded
    exact .finite positive rounded small

theorem isFinite_abs (x : Float32) : x.abs.isFinite = x.isFinite := by
  change x.abs.toModel.unpack.isFinite = x.toModel.unpack.isFinite
  rw [unpack_abs]
  cases x.toModel.unpack <;> rfl

theorem isFinite_neg (x : Float32) : (-x).isFinite = x.isFinite := by
  change (-x).toModel.unpack.isFinite = x.toModel.unpack.isFinite
  rw [unpack_neg]
  cases x.toModel.unpack <;> rfl

private theorem level_neg (isNumber : x.isNaN = false) : level (-x) = -level x := by
  rw [← level_eq isNumber, ← level_eq ((isNaN_neg x).trans isNumber), unpack_neg]
  cases x.toModel.unpack with
  | notANumber => rfl
  | zero sign => rfl
  | infinity sign => cases sign <;> rfl
  | finite sign m e positive =>
    cases sign with
    | positive => rfl
    | negative => exact (Int.neg_neg _).symm

theorem nonneg_abs (finite : x.isFinite) : Nonneg x.abs := by
  refine ⟨(isNaN_abs x).trans (isNaN_of_isFinite finite), ?_⟩
  have magnitude := magnitude_abs finite
  generalize x.abs.toModel.unpack = u, level x.abs = place at magnitude
  cases magnitude with
  | zero => exact Int.le_refl 0
  | finite positive rounded small =>
    have least := rounded.2.1
    simp only [placeOf]
    omega

theorem Nonneg.level_abs (nonneg : Nonneg x) : level x.abs = level x := by
  have upward := nonneg.unpack
  rw [← level_eq nonneg.isNumber, ← level_eq ((isNaN_abs x).trans nonneg.isNumber), unpack_abs]
  cases shape : x.toModel.unpack with
  | notANumber => rfl
  | zero sign => rfl
  | infinity sign =>
    rw [shape] at upward
    obtain rfl : sign = .positive := upward
    rfl
  | finite sign m e positive =>
    rw [shape] at upward
    obtain rfl : sign = .positive := upward
    rfl

/-- The two ends of a jitter around zero are in order. -/
theorem neg_abs_le_abs (finite : x.isFinite) : -x.abs ≤ x.abs := by
  obtain ⟨isNumber, up⟩ := nonneg_abs finite
  refine le_iff.mpr ⟨(isNaN_neg _).trans isNumber, isNumber, ?_⟩
  rw [level_neg isNumber]
  omega

/-! ## Distances -/

private theorem sub_negated {m : Nat} {e : Int} (positive : 0 < m) :
    UnpackedFloat.sub .binary32 (.finite .positive m e positive) (.finite .negative m e positive) =
      .round .binary32 .positive (m + m) e := by
  have above : compare ((m : Int) + m) 0 = .gt := Int.compare_eq_gt.mpr (by omega)
  dsimp only [UnpackedFloat.sub, UnpackedFloat.decreaseExponent, Sign.apply, UnpackedFloat.normalize]
  rw [Int.min_self, Int.sub_self, Int.sub_neg, Int.toNat_zero, Nat.shiftLeft_zero, above]
  rfl

/-- Between a number and its negation lies a power of two more than its magnitude at most. -/
theorem level_abs_sub_lt (finite : x.isFinite) {bound : Nat} (below : level x.abs < bound * 2 ^ 23)
    (two : 2 ≤ bound) : level (x.abs - -x.abs) < (bound + 1 : Nat) * 2 ^ 23 := by
  have magnitude := magnitude_abs finite
  rw [sub_unpack, unpack_neg]
  generalize x.abs.toModel.unpack = u, level x.abs = place at magnitude below
  cases magnitude with
  | zero =>
    have nothing : level (.ofModel (.pack (.sub .binary32 (.zero .positive)
        (UnpackedFloat.neg (.zero .positive))))) = 0 := by decide
    omega
  | @finite m e positive rounded small =>
    obtain ⟨m', e', positive', result, rounded', between⟩ :=
      round_exact (Nat.add_pos_left positive m) rounded.2.1 .positive
    have largest : Rounded (2 ^ 24 - 1) (e + 1) :=
      ⟨by decide, by have := rounded.2.1; omega, fun _ => by decide⟩
    have most := (between _ _ largest (by omega)).2 (by
      have one : (e + 1 - e).toNat = 1 := by omega
      have less := rounded.1
      rw [one]
      omega)
    have bits := pack_place positive' rounded'
    have forward : Forward (.ofModel (.pack (.finite .positive m' e' positive'))) := by
      unfold Forward
      omega
    have negated : UnpackedFloat.neg (.finite .positive m e positive) =
        .finite .negative m e positive := rfl
    rw [negated, sub_negated, result, forward.unsigned.2.1, bits]
    have normal := rounded.2.2
    simp only [placeOf] at most below ⊢
    omega

/-- A number that rounding puts beyond the format is packed as infinity. -/
theorem infinite_of_place {sign : Sign} {m : Nat} {e : Int} {positive : 0 < m} (rounded : Rounded m e)
    (large : 255 * 2 ^ 23 ≤ placeOf m e) :
    (UnpackedFloat.unpack .binary32 (UnpackedFloat.pack .binary32 (.finite sign m e positive))) =
      .infinity sign := by
  have beyond : 256 ≤ (e + Format.binary32.exponentBias +
      Format.binary32.mantissaBitsWithoutImplicit).toNat + 1 := by
    have less := rounded.1
    simp only [placeOf, Format.exponentBias] at large ⊢
    omega
  have packed : UnpackedFloat.pack .binary32 (.finite sign m e positive) =
      UnpackedFloat.packedInfinity .binary32 sign := if_pos beyond
  rw [packed]
  cases sign <;> rfl

/-- A number that can be doubled has one exponent more above it. -/
theorem level_abs_lt_of_double (finite : x.isFinite) (double : (2 * x).isFinite) :
    level x.abs < (254 : Nat) * 2 ^ 23 := by
  have magnitude := magnitude_abs finite
  have double : (UnpackedFloat.unpack .binary32 (UnpackedFloat.pack .binary32
    (.mul .binary32 (2 : Float32).toModel.unpack x.toModel.unpack))).isFinite := double
  have two : (2 : Float32).toModel.unpack = .finite .positive (2 ^ 23) (-22) (by decide) := rfl
  rw [unpack_abs] at magnitude
  rw [two] at double
  generalize x.toModel.unpack = u, level x.abs = place at magnitude double
  by_contra large
  cases u with
  | notANumber => cases magnitude
  | infinity sign => cases magnitude
  | zero sign =>
    cases magnitude
    omega
  | finite sign m e positive =>
    have magnitude : Magnitude (.finite .positive m e positive) place := magnitude
    cases magnitude with
    | finite _ rounded small =>
      have top : e = 104 := by
        obtain ⟨less, -, normal⟩ := rounded
        simp only [placeOf] at large small
        omega
      subst top
      have half : 2 ^ 23 ≤ m := rounded.2.2 (by decide)
      have product : 2 ^ 23 * 2 ^ 23 ≤ 2 ^ 23 * m := Nat.mul_le_mul_left _ half
      have log : (46 : Nat) ≤ (2 ^ 23 * m).log2 := (Nat.le_log2 (by omega)).mpr product
      obtain ⟨m', e', positive', result, rounded', between⟩ := round_between .exact
        (Nat.mul_pos (Nat.two_pow_pos 23) positive) (by decide : -149 ≤ -22 + (104 : Int))
        (by unfold target; omega) (.positive * sign)
      have reached := (between (2 ^ 23) 105 ⟨by decide, by decide, fun _ => Nat.le_refl _⟩
        (by decide)).1 product
      have doubled : UnpackedFloat.mul .binary32 (.finite .positive (2 ^ 23) (-22) (by decide))
          (.finite sign m 104 positive) = .finite (.positive * sign) m' e' positive' := result
      rw [doubled, infinite_of_place rounded' reached] at double
      cases double

end

end Sapling.Scalar
