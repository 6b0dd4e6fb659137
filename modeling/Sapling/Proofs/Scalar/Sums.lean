import Sapling.Proofs.Scalar.Level

/-! Sums of numbers that are not negative. Rounding goes to a number no smaller than any that the exact
sum reaches, so adding such a number never moves down in the order of bits. -/
namespace Sapling.Scalar

open Float.Model
open UnpackedFloat (Sign ExtendedMantissa)

/-- Mantissa and exponent as rounding leaves them. The exponent may be too large for the format. -/
def Rounded (mantissa : Nat) (exponent : Int) : Prop :=
  mantissa < 2 ^ 24 ∧ -149 ≤ exponent ∧ (exponent ≠ -149 → 2 ^ 23 ≤ mantissa)

/-- The place of a positive number by its mantissa and exponent. -/
def placeOf (mantissa : Nat) (exponent : Int) : Int := (exponent + 149) * 2 ^ 23 + mantissa

/-- The exponent that rounding aims at. -/
def target (mantissa : Nat) (exponent : Int) : Int :=
  Max.max ((mantissa.log2 : Int) + exponent - 23) (-149)

/-- The exponent leaves 24 bits of the mantissa, down to the least exponent there is. -/
theorem targetExponent_eq (exponent : Int) :
    Format.binary32.targetExponent exponent = Max.max (exponent - 24) (-149) := rfl

theorem target_eq (mantissa : Nat) (exponent : Int) :
    Format.binary32.targetExponent (totalExponent mantissa exponent) = target mantissa exponent := by
  simp only [targetExponent_eq, totalExponent, target]
  omega

private theorem shift_mantissa (m : ExtendedMantissa) (shift : Nat) :
    (m >>> shift).mantissa = m.mantissa / 2 ^ shift := by
  induction shift with
  | zero => exact (Nat.div_one _).symm
  | succ shift ih =>
    change (m >>> shift).mantissa / 2 = _
    rw [ih, Nat.div_div_eq_div_mul, Nat.pow_succ]

/-- Rounding a mantissa adds one at most. -/
theorem roundedMantissa_bounds (m : ExtendedMantissa) :
    m.mantissa ≤ m.roundedMantissa ∧ m.roundedMantissa ≤ m.mantissa + 1 := by
  obtain ⟨mantissa, round, sticky⟩ := m
  cases round <;> cases sticky <;>
    simp only [ExtendedMantissa.roundedMantissa, ExtendedMantissa.accuracy,
      UnpackedFloat.Accuracy.roundToNearestEven] <;>
    omega

/-- Shifting a mantissa to the right divides it. -/
theorem cut_mantissa (m shift : Nat) (accuracy : UnpackedFloat.Accuracy) :
    (ExtendedMantissa.ofMantissaAndAccuracy m accuracy >>> shift).mantissa = m / 2 ^ shift := by
  have start : (ExtendedMantissa.ofMantissaAndAccuracy m accuracy).mantissa = m := by
    rcases accuracy with _ | _ | _ | _ <;> rfl
  rw [shift_mantissa, start]

/-- Nothing is rounded where only zeros are cut off. -/
theorem shift_exact (m shift : Nat) :
    (ExtendedMantissa.ofMantissaAndAccuracy (m * 2 ^ shift) .exact >>> shift).roundedMantissa = m := by
  suffices whole : ∀ m : Nat, (⟨m * 2 ^ shift, false, false⟩ : ExtendedMantissa) >>> shift =
      ⟨m, false, false⟩ from congrArg ExtendedMantissa.roundedMantissa (whole m)
  induction shift with
  | zero =>
    intro m
    rw [Nat.pow_zero, Nat.mul_one]
    rfl
  | succ shift ih =>
    intro m
    change ((⟨m * 2 ^ (shift + 1), false, false⟩ : ExtendedMantissa) >>> shift).shiftRightOne = _
    have double : m * 2 ^ (shift + 1) = m * 2 * 2 ^ shift := by
      rw [Nat.pow_succ, Nat.mul_assoc, Nat.mul_comm 2]
    rw [double, ih]
    simp [ExtendedMantissa.shiftRightOne]

/-- Before it is rounded, a mantissa is cut to 24 bits, or to fewer at the least exponent. -/
theorem rounded_quotient {m : Nat} {e : Int} (positive : 0 < m) (low : e ≤ target m e) :
    Rounded (m / 2 ^ (target m e - e).toNat) (target m e) := by
  have below := (Nat.log2_lt (Nat.ne_of_gt positive)).mp (Nat.lt_succ_self m.log2)
  have above := Nat.log2_self_le (Nat.ne_of_gt positive)
  refine ⟨?_, by unfold target; omega, ?_⟩
  · rw [Nat.div_lt_iff_lt_mul (Nat.two_pow_pos _), ← Nat.pow_add]
    exact Nat.lt_of_lt_of_le below (Nat.pow_le_pow_right (by decide) (by unfold target at *; omega))
  · intro high
    rw [Nat.le_div_iff_mul_le (Nat.two_pow_pos _), ← Nat.pow_add]
    exact Nat.le_trans (Nat.pow_le_pow_right (by decide) (by unfold target at *; omega)) above

/-- A mantissa in rounded form is at its exponent already. -/
theorem target_of_rounded {m : Nat} {e : Int} (positive : 0 < m) (rounded : Rounded m e) :
    target m e = e := by
  obtain ⟨below, least, normal⟩ := rounded
  have log := (Nat.log2_lt (Nat.ne_of_gt positive)).mpr below
  unfold target
  by_cases low : e = -149
  · omega
  · have top := (Nat.le_log2 (Nat.ne_of_gt positive)).mpr (normal low)
    omega

theorem shift_of_target {m : Nat} {e : Int} (accuracy : UnpackedFloat.Accuracy) :
    UnpackedFloat.shiftToTargetExponent .binary32 m e accuracy =
      (ExtendedMantissa.ofMantissaAndAccuracy m accuracy >>> (target m e - e).toNat,
        e + (target m e - e).toNat) := by
  rw [UnpackedFloat.shiftToTargetExponent, target_eq]
  rfl

/-- The number of a rounded mantissa, which may have to be carried. -/
def carried (sign : Sign) (m : Nat) (e : Int) : UnpackedFloat :=
  let (shifted, exponent) := UnpackedFloat.shiftToTargetExponent .binary32 m e .exact
  if h : shifted.mantissa = 0 then .zero sign
  else .finite sign shifted.mantissa exponent (Nat.pos_of_ne_zero h)

/-- Rounding cuts the mantissa at the exponent that it aims at, and carries what is left if it has to. -/
theorem round_carried {m : Nat} {e : Int} (accuracy : UnpackedFloat.Accuracy) (sign : Sign) :
    UnpackedFloat.roundWithAccuracy .binary32 sign m e accuracy =
      carried sign (ExtendedMantissa.ofMantissaAndAccuracy m accuracy >>>
        (target m e - e).toNat).roundedMantissa (e + (target m e - e).toNat) := by
  rw [UnpackedFloat.roundWithAccuracy, shift_of_target]
  rfl

/-- A rounded mantissa makes zero, or a finite number at the exponent that it aims at in turn. -/
theorem carried_cases (sign : Sign) (m : Nat) (e : Int) : carried sign m e = .zero sign ∨
    ∃ m' positive, carried sign m e = .finite sign m' (e + (target m e - e).toNat) positive := by
  have shift := shift_of_target (m := m) (e := e) .exact
  unfold carried
  rw [shift]
  by_cases vanishes : (ExtendedMantissa.ofMantissaAndAccuracy m .exact >>> (target m e - e).toNat).mantissa = 0
  · exact .inl (dif_pos vanishes)
  · exact .inr ⟨_, Nat.pos_of_ne_zero vanishes, dif_neg vanishes⟩

/-- A mantissa that was rounded up may have 25 bits, and is then a power of two. -/
theorem renormalize {m : Nat} {e : Int} (positive : 0 < m) (low : -149 ≤ e)
    (small : m ≤ 2 ^ 24) (normal : e ≠ -149 → 2 ^ 23 ≤ m) (sign : Sign) :
    ∃ m' e' positive', carried sign m e = .finite sign m' e' positive' ∧
      Rounded m' e' ∧ placeOf m' e' = placeOf m e := by
  rw [carried, shift_of_target]
  by_cases fits : m < 2 ^ 24
  · have aim := target_of_rounded positive ⟨fits, low, normal⟩
    have exponent : e + (target m e - e).toNat = e := by omega
    have noShift : (target m e - e).toNat = 0 := by omega
    rw [exponent, noShift]
    exact ⟨m, e, positive, dif_neg (Nat.ne_of_gt positive), ⟨fits, low, normal⟩, rfl⟩
  · obtain rfl : m = 2 ^ 24 := by omega
    have aim : target (2 ^ 24) e = e + 1 := by
      rw [target, Nat.log2_two_pow]
      omega
    have one : (target (2 ^ 24) e - e).toNat = 1 := by omega
    rw [one]
    exact ⟨2 ^ 23, e + 1, by decide, rfl, ⟨by decide, by omega, fun _ => Nat.le_refl _⟩,
      by simp only [placeOf]; omega⟩

/-- Rounding leaves the rounded mantissa at the exponent that it aims at. -/
private theorem round_place {m : Nat} {e : Int} (accuracy : UnpackedFloat.Accuracy) (positive : 0 < m)
    (least : -149 ≤ e) (low : e ≤ target m e) (sign : Sign) :
    ∃ m' e' positive', UnpackedFloat.roundWithAccuracy .binary32 sign m e accuracy =
        .finite sign m' e' positive' ∧ Rounded m' e' ∧
      placeOf m' e' = placeOf (ExtendedMantissa.ofMantissaAndAccuracy m accuracy >>>
        (target m e - e).toNat).roundedMantissa (target m e) := by
  obtain ⟨below, floor, normal⟩ := rounded_quotient positive low
  have quotientPos : 0 < m / 2 ^ (target m e - e).toNat := by
    by_cases bottom : target m e = -149
    · have noShift : (target m e - e).toNat = 0 := by omega
      rwa [noShift, Nat.pow_zero, Nat.div_one]
    · have large := normal bottom
      omega
  obtain ⟨least', most⟩ := roundedMantissa_bounds
    (ExtendedMantissa.ofMantissaAndAccuracy m accuracy >>> (target m e - e).toNat)
  rw [cut_mantissa] at least' most
  have exponent : e + (target m e - e).toNat = target m e := by omega
  obtain ⟨m', e', positive', result, rounded, place⟩ := renormalize
    (Nat.lt_of_lt_of_le quotientPos least') floor (by omega) (fun high => Nat.le_trans (normal high) least') sign
  refine ⟨m', e', positive', ?_, rounded, place⟩
  rw [← result, round_carried, exponent]

/-- A number that the exact value reaches is reached by what is left of the value after cutting. -/
private theorem place_le_cut {a m : Nat} {b e : Int} (rounded : Rounded a b) (least : -149 ≤ e)
    (positive : 0 < m) (low : e ≤ target m e) (above : e ≤ b) (reached : a * 2 ^ (b - e).toNat ≤ m) :
    placeOf a b ≤ placeOf (m / 2 ^ (target m e - e).toNat) (target m e) := by
  obtain ⟨-, -, normal⟩ := rounded_quotient positive low
  obtain ⟨small, -, normal'⟩ := rounded
  rcases Int.lt_trichotomy b (target m e) with less | same | more
  · have large := normal (by omega)
    simp only [placeOf]
    omega
  · have cut : a ≤ m / 2 ^ (target m e - e).toNat := by
      rw [Nat.le_div_iff_mul_le (Nat.two_pow_pos _), ← same]
      exact reached
    simp only [placeOf]
    omega
  · -- A number of a larger exponent than the value cannot be reached by it.
    exfalso
    have large : 2 ^ 23 ≤ a := normal' (by unfold target at more; omega)
    have power : 2 ^ (23 + (b - e).toNat) ≤ m := by
      rw [Nat.pow_add]
      exact Nat.le_trans (Nat.mul_le_mul_right _ large) reached
    have log := (Nat.le_log2 (Nat.ne_of_gt positive)).mpr power
    unfold target at more
    omega

/-- A number that the value does not go beyond is not passed when the mantissa is rounded. -/
private theorem rounded_le_place {a m : Nat} {b e : Int} {accuracy : UnpackedFloat.Accuracy}
    (rounded : Rounded a b) (least : -149 ≤ e) (positive : 0 < m) (low : e ≤ target m e) (above : e ≤ b)
    (within : m < a * 2 ^ (b - e).toNat ∨ accuracy = .exact ∧ m = a * 2 ^ (b - e).toNat) :
    placeOf (ExtendedMantissa.ofMantissaAndAccuracy m accuracy >>>
      (target m e - e).toNat).roundedMantissa (target m e) ≤ placeOf a b := by
  obtain ⟨small, floor, normal⟩ := rounded_quotient positive low
  obtain ⟨small', least', normal'⟩ := rounded
  have most := (roundedMantissa_bounds
    (ExtendedMantissa.ofMantissaAndAccuracy m accuracy >>> (target m e - e).toNat)).2
  rw [cut_mantissa] at most
  rcases Int.lt_trichotomy b (target m e) with less | same | more
  · -- The value has a larger exponent than the number, so it goes beyond it.
    exfalso
    have large := (Nat.le_div_iff_mul_le (Nat.two_pow_pos _)).mp (normal (by omega))
    have split : (target m e - e).toNat = (b - e).toNat + ((target m e - b).toNat - 1) + 1 := by omega
    have power : 2 ^ (b - e).toNat ≤ 2 ^ ((b - e).toNat + ((target m e - b).toNat - 1)) :=
      Nat.pow_le_pow_right (by decide) (Nat.le_add_right ..)
    have short := Nat.mul_lt_mul_of_pos_right small' (Nat.two_pow_pos (b - e).toNat)
    rw [split, Nat.pow_succ] at large
    omega
  · subst same
    rcases within with under | ⟨rfl, reached⟩
    · have cut := (Nat.div_lt_iff_lt_mul (Nat.two_pow_pos _)).mpr under
      simp only [placeOf]
      omega
    · have whole := shift_exact a (target m e - e).toNat
      rw [← reached] at whole
      rw [whole]
  · have large := normal' (by omega)
    simp only [placeOf]
    omega

/-- Rounding goes to a number of the format, and past none that lies between it and the value. The value
may be a little larger than the mantissa says, if that is not exact. -/
theorem round_between {m : Nat} {e : Int} (accuracy : UnpackedFloat.Accuracy) (positive : 0 < m)
    (least : -149 ≤ e) (low : e ≤ target m e) (sign : Sign) :
    ∃ m' e' positive', UnpackedFloat.roundWithAccuracy .binary32 sign m e accuracy =
        .finite sign m' e' positive' ∧ Rounded m' e' ∧ ∀ a b, Rounded a b → e ≤ b →
      (a * 2 ^ (b - e).toNat ≤ m → placeOf a b ≤ placeOf m' e') ∧
      (m < a * 2 ^ (b - e).toNat ∨ accuracy = .exact ∧ m = a * 2 ^ (b - e).toNat →
        placeOf m' e' ≤ placeOf a b) := by
  obtain ⟨m', e', positive', result, rounded, place⟩ := round_place accuracy positive least low sign
  refine ⟨m', e', positive', result, rounded, fun a b canonical above => ⟨fun reached => ?_, fun within => ?_⟩⟩
  · have kept := (roundedMantissa_bounds
      (ExtendedMantissa.ofMantissaAndAccuracy m accuracy >>> (target m e - e).toNat)).1
    have cut := place_le_cut canonical least positive low above reached
    rw [cut_mantissa] at kept
    rw [place]
    refine Int.le_trans cut ?_
    simp only [placeOf]
    omega
  · rw [place]
    exact rounded_le_place canonical least positive low above within

theorem log2_shiftLeft {m : Nat} (positive : 0 < m) (shift : Nat) :
    (m <<< shift).log2 = m.log2 + shift := by
  have above := Nat.log2_self_le (Nat.ne_of_gt positive)
  have below := @Nat.lt_log2_self m
  rw [Nat.shiftLeft_eq, Nat.log2_eq_iff (Nat.ne_of_gt (Nat.mul_pos positive (Nat.two_pow_pos _))),
    Nat.pow_add, Nat.add_right_comm, Nat.pow_add _ _ shift]
  exact ⟨Nat.mul_le_mul_right _ above, Nat.mul_lt_mul_of_pos_right below (Nat.two_pow_pos _)⟩

/-- Rounding an exact value goes past no number of the format. -/
theorem round_exact {m : Nat} {e : Int} (positive : 0 < m) (least : -149 ≤ e) (sign : Sign) :
    ∃ m' e' positive', UnpackedFloat.round .binary32 sign m e = .finite sign m' e' positive' ∧
      Rounded m' e' ∧ ∀ a b, Rounded a b → e ≤ b →
        (a * 2 ^ (b - e).toNat ≤ m → placeOf a b ≤ placeOf m' e') ∧
        (m ≤ a * 2 ^ (b - e).toNat → placeOf m' e' ≤ placeOf a b) := by
  have shifted : 0 < m <<< (e - target m e).toNat := by
    rw [Nat.shiftLeft_eq]
    exact Nat.mul_pos positive (Nat.two_pow_pos _)
  have aim : target (m <<< (e - target m e).toNat) (e - (e - target m e).toNat) = target m e := by
    simp only [target, log2_shiftLeft positive]
    omega
  have floor : -149 ≤ e - (e - target m e).toNat := by unfold target; omega
  have low : e - (e - target m e).toNat ≤
      target (m <<< (e - target m e).toNat) (e - (e - target m e).toNat) := by
    rw [aim]
    omega
  obtain ⟨m', e', positive', result, rounded, between⟩ := round_between .exact shifted floor low sign
  refine ⟨m', e', positive', ?_, rounded, fun a b canonical above => ?_⟩
  · rw [← result, UnpackedFloat.round, target_eq]
    rfl
  · have split : (b - (e - (e - target m e).toNat)).toNat =
        (b - e).toNat + (e - target m e).toNat := by omega
    obtain ⟨below, beyond⟩ := between a b canonical (by omega)
    rw [split, Nat.pow_add, ← Nat.mul_assoc, Nat.shiftLeft_eq] at below beyond
    refine ⟨fun reached => below (Nat.mul_le_mul_right _ reached), fun within => beyond ?_⟩
    exact (Nat.lt_or_eq_of_le (Nat.mul_le_mul_right _ within)).imp_right (⟨rfl, ·⟩)

/-! ## Packing -/

/-- What the bits of a number begin with. -/
def signPlace (sign : Sign) : Nat := sign.toBitVec.toNat * 2 ^ 31

/-- The bits of a number are those of its sign, its exponent and its mantissa, side by side. -/
theorem components_toNat (sign : Sign) (exponent : BitVec 8) (mantissa : BitVec 23) :
    (UnpackedFloat.packComponents .binary32 sign exponent mantissa).toNat =
      signPlace sign + (exponent.toNat * 2 ^ 23 + mantissa.toNat) := by
  have joined : (UnpackedFloat.packComponents .binary32 sign exponent mantissa).toNat =
      ((sign.toBitVec ++ exponent).toNat <<< 23) ||| mantissa.toNat := BitVec.toNat_append ..
  have upper : (sign.toBitVec ++ exponent).toNat = sign.toBitVec.toNat * 2 ^ 8 + exponent.toNat := by
    rw [BitVec.toNat_append, ← Nat.shiftLeft_add_eq_or_of_lt exponent.isLt, Nat.shiftLeft_eq]
  rw [joined, upper, ← Nat.shiftLeft_add_eq_or_of_lt mantissa.isLt, Nat.shiftLeft_eq, signPlace]
  omega

/-- A finite number is packed by its exponent, and by whether its mantissa has the leading bit of 24. -/
theorem pack_finite (sign : Sign) {m : Nat} (e : Int) (positive : 0 < m) :
    UnpackedFloat.pack .binary32 (.finite sign m e positive) =
      if 256 ≤ (e + 150).toNat + 1 then UnpackedFloat.packedInfinity .binary32 sign
      else if m.log2 + 1 = 24 then
        UnpackedFloat.packComponents .binary32 sign (.ofNat 8 (e + 150).toNat) (.ofNat 23 m)
      else UnpackedFloat.packComponents .binary32 sign 0#8 (.ofNat 23 m) := by
  have biased : e + 150 = e + 127 + 23 := (Int.add_assoc e 127 23).symm
  rw [biased]
  rfl

/-- The bits of a number are its sign and the place of its magnitude, which is that of infinity if it is
too large. -/
theorem pack_signed {sign : Sign} {m : Nat} {e : Int} (positive : 0 < m) (rounded : Rounded m e) :
    ((Float32.ofModel (.pack (.finite sign m e positive))).toBits.toNat : Int) =
      signPlace sign + Min.min (placeOf m e) (255 * 2 ^ 23) := by
  obtain ⟨below, least, normal⟩ := rounded
  change ((UnpackedFloat.pack .binary32 (.finite sign m e positive)).toNat : Int) = _
  rw [pack_finite]
  split
  · rename_i beyond
    have infinite : (UnpackedFloat.packedInfinity .binary32 sign).toNat =
        signPlace sign + 255 * 2 ^ 23 := components_toNat ..
    rw [infinite]
    simp only [placeOf]
    omega
  · rename_i fits
    split
    · rename_i top
      have log : m.log2 = 23 := Nat.succ.inj top
      have half := Nat.log2_self_le (Nat.ne_of_gt positive)
      rw [log] at half
      rw [components_toNat]
      simp only [BitVec.toNat_ofNat, placeOf]
      omega
    · rename_i top
      have small : ¬ 2 ^ 23 ≤ m := fun large => by
        have log := (Nat.log2_eq_iff (Nat.ne_of_gt positive)).mpr ⟨large, below⟩
        exact top (by rw [log])
      rw [components_toNat]
      simp only [BitVec.toNat_ofNat, placeOf]
      omega

/-- The bits of a positive number are its place, and those of infinity if it is too large. -/
theorem pack_place {m : Nat} {e : Int} (positive : 0 < m) (rounded : Rounded m e) :
    ((Float32.ofModel (.pack (.finite .positive m e positive))).toBits.toNat : Int) =
      Min.min (placeOf m e) (255 * 2 ^ 23) :=
  (pack_signed positive rounded).trans (Int.zero_add _)

/-! ## Forward numbers -/

/-- A number from zero to infinity that is not minus zero. -/
def Forward (x : Float32) : Prop := x.toBits.toNat ≤ 255 * 2 ^ 23

theorem forward_zero : Forward 0 := by
  unfold Forward
  decide

/-- What a number that is not negative is unpacked to. -/
inductive Unsigned : UnpackedFloat → Int → Prop where
  | zero (sign : Sign) : Unsigned (.zero sign) 0
  | finite (positive : 0 < m) (rounded : Rounded m e) (small : placeOf m e < 255 * 2 ^ 23) :
      Unsigned (.finite .positive m e positive) (placeOf m e)
  | infinity : Unsigned (.infinity .positive) (255 * 2 ^ 23)

/-- A number whose place is not negative is unpacked to zero, to a positive number or to infinity. -/
theorem unsigned_of_level {x : Float32} (isNumber : x.isNaN = false) (up : 0 ≤ level x) :
    Unsigned x.toModel.unpack (level x) := by
  have place := level_eq isNumber
  have canonical := (unpack_fields x).canonical
  have isNumber : x.toModel.unpack.isNaN = false := isNumber
  cases shape : x.toModel.unpack with
  | notANumber =>
    rw [shape] at isNumber
    cases isNumber
  | zero sign =>
    rw [shape] at place
    rw [← place]
    exact .zero sign
  | infinity sign =>
    rw [shape] at place
    cases sign with
    | negative => exact absurd up (by rw [← place]; decide)
    | positive =>
      rw [← place]
      exact .infinity
  | finite sign m e positive =>
    rw [shape] at place canonical
    obtain ⟨below, least, most, normal⟩ := canonical
    have bounds := level_bounds positive ⟨below, least, most, normal⟩
    cases sign with
    | negative =>
      dsimp only [unpackedLevel, Sign.apply] at place
      omega
    | positive =>
      rw [← place]
      exact .finite positive ⟨below, least, normal⟩ bounds.2

/-- The bits of a forward number are its place, and its zero has the positive sign. -/
theorem Forward.unsigned {x : Float32} (forward : Forward x) :
    x.isNaN = false ∧ level x = x.toBits.toNat ∧ ∀ sign, x.toModel.unpack = .zero sign →
      x.toModel.unpack = .zero .positive := by
  unfold Forward at forward
  have place : level x = x.toBits.toNat := if_pos (by omega)
  have fields := unpack_fields x
  refine ⟨?_, place, ?_⟩
  · change x.toModel.unpack.isNaN = false
    cases shape : x.toModel.unpack with
    | notANumber =>
      rw [shape] at fields
      cases fields
      omega
    | _ => rfl
  · intro sign zero
    rw [zero] at fields ⊢
    cases fields
    rw [signOfBits, if_pos (by omega)]

private theorem compare_sum {a : Nat} (b : Nat) (positive : 0 < a) : compare ((a : Int) + b) 0 = .gt :=
  Int.compare_eq_gt.mpr (by omega)

private theorem add_finite {m₁ m₂ : Nat} {e₁ e₂ : Int} (positive₁ : 0 < m₁) (positive₂ : 0 < m₂)
    (first : Rounded m₁ e₁) (second : Rounded m₂ e₂) :
    ∃ m e positive, UnpackedFloat.add .binary32 (.finite .positive m₁ e₁ positive₁)
        (.finite .positive m₂ e₂ positive₂) = .finite .positive m e positive ∧
      Rounded m e ∧ placeOf m₁ e₁ ≤ placeOf m e := by
  have least : -149 ≤ Min.min e₁ e₂ := Int.le_min.mpr ⟨first.2.1, second.2.1⟩
  have shiftedPos : 0 < m₁ <<< (e₁ - Min.min e₁ e₂).toNat := by
    rw [Nat.shiftLeft_eq]
    exact Nat.mul_pos positive₁ (Nat.two_pow_pos _)
  obtain ⟨m, e, positive, result, rounded, place⟩ := round_exact
    (Nat.lt_of_lt_of_le shiftedPos (Nat.le_add_right _ (m₂ <<< (e₂ - Min.min e₁ e₂).toNat))) least .positive
  refine ⟨m, e, positive, ?_, rounded, (place m₁ e₁ first (Int.min_le_left ..)).1 ?_⟩
  · have above := compare_sum (m₂ <<< (e₂ - Min.min e₁ e₂).toNat) shiftedPos
    refine Eq.trans ?_ result
    dsimp only [UnpackedFloat.add, UnpackedFloat.decreaseExponent, Sign.apply, UnpackedFloat.normalize]
    rw [above]
    rfl
  · rw [← Nat.shiftLeft_eq]
    exact Nat.le_add_right _ _

private theorem add_unsigned {u v : UnpackedFloat} (first : Unsigned u start)
    (plus : ∀ sign, u = .zero sign → u = .zero .positive) (second : Unsigned v way) :
    start ≤ ((Float32.ofModel (.pack (.add .binary32 u v))).toBits.toNat : Int) ∧
      ((Float32.ofModel (.pack (.add .binary32 u v))).toBits.toNat : Int) ≤ 255 * 2 ^ 23 := by
  have infinite : (Float32.ofModel (.pack (.infinity .positive))).toBits.toNat = 255 * 2 ^ 23 := rfl
  cases first with
  | zero sign =>
    obtain rfl : sign = .positive := UnpackedFloat.zero.inj (plus sign rfl)
    cases second with
    | zero sign => cases sign <;> decide
    | infinity => decide
    | @finite m e positive rounded small =>
      have sum : UnpackedFloat.add .binary32 (.zero .positive) (.finite .positive m e positive) =
          .finite .positive m e positive := rfl
      obtain ⟨below, least, normal⟩ := rounded
      rw [sum, pack_place positive ⟨below, least, normal⟩]
      simp only [placeOf]
      omega
  | infinity =>
    have sum : UnpackedFloat.add .binary32 (.infinity .positive) v = .infinity .positive := by
      cases second <;> rfl
    rw [sum, infinite]
    exact ⟨Int.le_refl _, Int.le_refl _⟩
  | @finite m e positive rounded small =>
    cases second with
    | zero sign =>
      have sum : UnpackedFloat.add .binary32 (.finite .positive m e positive) (.zero sign) =
          .finite .positive m e positive := rfl
      rw [sum, pack_place positive rounded]
      omega
    | infinity =>
      have sum : UnpackedFloat.add .binary32 (.finite .positive m e positive)
          (.infinity .positive) = .infinity .positive := rfl
      rw [sum, infinite]
      exact ⟨Int.le_of_lt small, Int.le_refl _⟩
    | finite positive' rounded' small' =>
      obtain ⟨m', e', positive'', result, rounded'', place⟩ :=
        add_finite positive positive' rounded rounded'
      rw [result, pack_place positive'' rounded'']
      omega

/-- Adding a number that is not negative moves on or stays, and never leaves the forward numbers. -/
theorem Forward.add {x y : Float32} (forward : Forward x) (isNumber : y.isNaN = false)
    (up : 0 ≤ level y) : Forward (x + y) ∧ x.toBits.toNat ≤ (x + y).toBits.toNat := by
  obtain ⟨isFirst, place, plus⟩ := forward.unsigned
  have first := unsigned_of_level isFirst (by omega)
  have second := unsigned_of_level isNumber up
  obtain ⟨above, below⟩ := add_unsigned first plus second
  rw [place] at above
  exact ⟨Int.ofNat_le.mp below, Int.ofNat_le.mp above⟩

/-! ## Forward numbers in order -/

/-- The key of a forward number in the total order is its bits. -/
theorem Forward.orderKey {x : Float32} (forward : Forward x) :
    Scalar.orderKey x = x.toBits.toNat := by
  unfold Forward at forward
  simp only [Scalar.orderKey]
  rw [if_pos (by omega)]

/-- Forward numbers are in the order of their bits. -/
theorem Forward.le_iff {x y : Float32} (first : Forward x) (second : Forward y) :
    x ≤ y ↔ x.toBits.toNat ≤ y.toBits.toNat := by
  obtain ⟨isFirst, place, -⟩ := first.unsigned
  obtain ⟨isSecond, place', -⟩ := second.unsigned
  rw [Scalar.le_iff, place, place']
  simp only [isFirst, isSecond, true_and, Int.ofNat_le]

/-- The larger of two numbers is a number, and no smaller than the second, whatever the first is. -/
theorem le_max {x y : Float32} (isNumber : y.isNaN = false) :
    (max x y).isNaN = false ∧ level y ≤ level (max x y) := by
  unfold max
  split
  · exact ⟨isNumber, Int.le_refl _⟩
  · rename_i kept
    simp only [Bool.or_eq_true, decide_eq_true_eq, not_or, Bool.not_eq_true] at kept
    obtain ⟨above, isFirst⟩ := kept
    simp only [lt_iff, isFirst, isNumber, true_and, Int.not_lt] at above
    exact ⟨isFirst, above⟩

/-- The larger of a number and zero is a number that is not negative, also for what is no number. -/
theorem max_zero_unsigned (x : Float32) : (max x 0).isNaN = false ∧ 0 ≤ level (max x 0) :=
  le_max rfl

/-- Zero stays zero when it is divided by a positive number. -/
theorem zero_div {y : Float32} (isNumber : y.isNaN = false) (positive : 0 < level y) : 0 / y = 0 := by
  have unsigned := unsigned_of_level isNumber (Int.le_of_lt positive)
  have zero : (0 : Float32).toModel.unpack = .zero .positive := rfl
  rw [div_unpack, zero]
  generalize y.toModel.unpack = v at unsigned
  generalize level y = place at unsigned positive
  cases unsigned with
  | zero sign => omega
  | finite _ rounded small => rfl
  | infinity => rfl

/-- A pause after a time leads to a time that is no earlier. -/
theorem Forward.after {time : Float32} (forward : Forward time) (pause : Float32) :
    Forward (time + max pause 0) ∧ time.toBits.toNat ≤ (time + max pause 0).toBits.toNat :=
  forward.add (max_zero_unsigned pause).1 (max_zero_unsigned pause).2

end Sapling.Scalar
