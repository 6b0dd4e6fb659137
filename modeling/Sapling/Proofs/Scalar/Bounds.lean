import Sapling.Proofs.Scalar.Operations

/-! Bounds on what the operations give. A bound on the exact result that is itself a number of the format is
a bound on the rounded result, and a finite one keeps the result finite. -/
namespace Sapling.Scalar

open Float.Model
open UnpackedFloat (Sign)

/-- A real number that is the value of a finite one. -/
def Representable (v : ℝ) : Prop := ∃ y : Float32, y.isFinite ∧ value y = v

/-- A finite number between two bounds. -/
structure Between (low high : ℝ) (x : Float32) : Prop where
  finite : x.isFinite
  low : low ≤ value x
  high : value x ≤ high

section
variable {x y : Float32} {a b v : ℝ}

theorem representable_value (finite : x.isFinite) : Representable (value x) := ⟨x, finite, rfl⟩

theorem Representable.neg (representable : Representable v) : Representable (-v) := by
  obtain ⟨y, finite, rfl⟩ := representable
  exact ⟨-y, (isFinite_neg y).trans finite, value_neg y⟩

theorem Representable.signed (representable : Representable v) (sign : Sign) :
    Representable (signed sign v) := by
  cases sign with
  | positive => exact representable
  | negative => exact representable.neg

/-- Every mantissa that fits can be brought to the exponent that its bits ask for. -/
theorem representable_dyadic {m : Nat} {e : Int} (small : m < 2 ^ 24) (least : -149 ≤ e)
    (most : e ≤ 104) : Representable (dyadic m e) := by
  rcases Nat.eq_zero_or_pos m with rfl | positive
  · exact ⟨0, rfl, (dyadic_zero e).symm⟩
  · have log := (Nat.log2_lt (Nat.ne_of_gt positive)).mpr small
    have low : target m e ≤ e := by
      unfold target
      omega
    have bits : (m * 2 ^ (e - target m e).toNat).log2 = m.log2 + (e - target m e).toNat := by
      rw [← Nat.shiftLeft_eq, log2_shiftLeft positive]
    have scaledPos : 0 < m * 2 ^ (e - target m e).toNat := Nat.mul_pos positive (Nat.two_pow_pos _)
    have rounded : Rounded (m * 2 ^ (e - target m e).toNat) (target m e) := by
      refine ⟨(Nat.log2_lt (Nat.ne_of_gt scaledPos)).mp ?_, Int.le_max_right .., fun high =>
        (Nat.le_log2 (Nat.ne_of_gt scaledPos)).mp ?_⟩
      · rw [bits]
        unfold target
        omega
      · rw [bits]
        unfold target at high ⊢
        omega
    have packed : Packed .positive _ _ _ := packed_finite scaledPos rounded
    have inside : placeOf (m * 2 ^ (e - target m e).toNat) (target m e) < 255 * 2 ^ 23 := by
      have less := rounded.1
      simp only [placeOf]
      omega
    have finite := packed.finite.mpr inside
    exact ⟨_, finite, (packed.isValue finite).trans (dyadic_shift m low)⟩

/-- The mantissa may be the next power of two, too. -/
theorem representable_wide {m : Nat} {e : Int} (small : m ≤ 2 ^ 24) (least : -149 ≤ e) (most : e ≤ 103) :
    Representable (dyadic m e) := by
  rcases Nat.lt_or_eq_of_le small with less | rfl
  · exact representable_dyadic less least (by omega)
  · rw [dyadic_carry]
    exact representable_dyadic (by decide) (by omega) (by omega)

/-- Multiples of a power of two with up to 24 bits are numbers, negative ones too. -/
theorem representable_integer {n e : ℤ} (small : |n| ≤ 2 ^ 24) (least : -149 ≤ e) (most : e ≤ 103) :
    Representable (n * 2 ^ e) := by
  have wide : n.natAbs ≤ 2 ^ 24 := by
    rw [Int.abs_eq_natAbs] at small
    exact_mod_cast small
  have magnitude := representable_wide wide least most
  rcases Int.natAbs_eq n with up | down
  · rwa [dyadic, ← Int.cast_natCast, ← up] at magnitude
  · have negated := magnitude.neg
    rwa [dyadic, ← neg_mul, ← Int.cast_natCast, ← Int.cast_neg, ← down] at negated

/-- Natural numbers below two to the twenty-fourth are exact. -/
theorem representable_natural {n : Nat} (small : n < 2 ^ 24) (isNatural : v = n) : Representable v := by
  have whole := representable_dyadic small (show (-149 : ℤ) ≤ 0 by decide) (by decide)
  rwa [dyadic, zpow_zero, mul_one, ← isNatural] at whole

/-- Powers of two between the smallest and the largest one are exact. -/
theorem representable_power {e : ℤ} (least : -149 ≤ e) (most : e ≤ 127) : Representable (2 ^ e) := by
  rcases Int.lt_or_le 104 e with high | low
  · have power := representable_dyadic (show 2 ^ 23 < 2 ^ 24 by decide) (show -149 ≤ e - 23 by omega)
      (by omega)
    rwa [dyadic, Nat.cast_pow, Nat.cast_ofNat, ← zpow_natCast, ← zpow_add₀ two_ne_zero,
      Nat.cast_ofNat, add_sub_cancel] at power
  · have power := representable_dyadic (show 1 < 2 ^ 24 by decide) least low
    simpa [dyadic] using power

theorem value_of_parts {sign : Sign} {m : Nat} {e : Int} {positive : 0 < m}
    (shape : x.toModel.unpack = .finite sign m e positive) : value x = signed sign (dyadic m e) := by
  rw [value, shape, unpackedValue_finite]

@[simp] theorem value_zero : value 0 = 0 := rfl

@[simp] theorem value_one : value 1 = 1 := by
  have shape : (1 : Float32).toModel.unpack = .finite .positive (2 ^ 23) (-23) (by decide) := rfl
  norm_num [value_of_parts shape, dyadic]

@[simp] theorem value_half : value 0.5 = 1 / 2 := by
  have shape : (0.5 : Float32).toModel.unpack = .finite .positive (2 ^ 23) (-24) (by decide) := rfl
  norm_num [value_of_parts shape, dyadic]

@[simp] theorem value_two : value 2 = 2 := by
  have shape : (2 : Float32).toModel.unpack = .finite .positive (2 ^ 23) (-22) (by decide) := rfl
  norm_num [value_of_parts shape, dyadic]

/-- The gap after one is a unit in its last place. -/
theorem value_epsilon : value epsilon = 2 ^ (-23 : ℤ) := by
  have shape : epsilon.toModel.unpack = .finite .positive (2 ^ 23) (-46) (by decide) := rfl
  norm_num [value_of_parts shape, dyadic, zpow_neg]

theorem representable_zero : Representable 0 := ⟨0, rfl, value_zero⟩

theorem representable_one : Representable 1 := ⟨1, rfl, value_one⟩

/-- A number between finite ones is finite. -/
theorem isFinite_of_levels (isNumber : x.isNaN = false) (low : -(255 * 2 ^ 23) < level x)
    (high : level x < 255 * 2 ^ 23) : x.isFinite := by
  have place := level_eq isNumber
  have isNumber : x.toModel.unpack.isNaN = false := isNumber
  change x.toModel.unpack.isFinite = true
  cases shape : x.toModel.unpack with
  | notANumber => rw [shape] at isNumber; cases isNumber
  | infinity sign =>
    rw [shape] at place
    cases sign <;> dsimp only [unpackedLevel, Sign.apply] at place <;> omega
  | _ => rfl

theorem levels_of_isFinite (finite : x.isFinite) :
    -(255 * 2 ^ 23) < level x ∧ level x < 255 * 2 ^ 23 := by
  obtain ⟨sign, m, e, rounded, small, place, -⟩ := parts_of_isFinite finite
  have least := rounded.2.1
  simp only [placeOf] at place small
  cases sign <;> simp only [Sign.apply] at place <;> omega

theorem abs_value_lt (finite : x.isFinite) : |value x| < 2 ^ 128 := by
  obtain ⟨sign, m, e, rounded, small, -, isValue⟩ := parts_of_isFinite finite
  have below : dyadic m e < dyadic (2 ^ 23) 105 := by
    rw [dyadic_lt_iff rounded.wide rounded_after.wide]
    simp only [placeOf] at small ⊢
    omega
  rw [isValue, abs_signed, abs_of_nonneg (dyadic_nonneg m e)]
  norm_num [dyadic] at below ⊢
  exact below

/-- The least positive value. -/
theorem least_le (finite : x.isFinite) (positive : 0 < value x) : 2 ^ (-149 : ℤ) ≤ value x := by
  obtain ⟨k, isValue⟩ := value_grid finite
  have unit : (0 : ℝ) < 2 ^ (-149 : ℤ) := by positivity
  rw [isValue] at positive ⊢
  have least : (1 : ℤ) ≤ k := by exact_mod_cast pos_of_mul_pos_left positive unit.le
  have least : (1 : ℝ) ≤ k := by exact_mod_cast least
  exact le_mul_of_one_le_left unit.le least

/-! ## Bounds -/

/-- Rounding stays between any two numbers around the exact result, so nothing overflows between them. -/
theorem Rounds.between (rounds : Rounds v x) (first : Representable a) (second : Representable b)
    (above : a ≤ v) (below : v ≤ b) : Between a b x := by
  obtain ⟨y, finite, rfl⟩ := first
  obtain ⟨z, finite', rfl⟩ := second
  have low := rounds.above y finite above
  have high := rounds.below z finite' below
  have finite'' := isFinite_of_levels rounds.isNumber
    (Int.lt_of_lt_of_le (levels_of_isFinite finite).1 low)
    (Int.lt_of_le_of_lt high (levels_of_isFinite finite').2)
  exact ⟨finite'', (level_le_iff finite finite'').mp low, (level_le_iff finite'' finite').mp high⟩

/-- Rounding does not go below a number that the exact result is not below. -/
theorem Rounds.at_least (rounds : Rounds v x) (first : Representable a) (above : a ≤ v)
    (finite : x.isFinite) : a ≤ value x := by
  obtain ⟨y, finite', rfl⟩ := first
  exact (level_le_iff finite' finite).mp (rounds.above y finite' above)

theorem Rounds.at_most (rounds : Rounds v x) (second : Representable b) (below : v ≤ b)
    (finite : x.isFinite) : value x ≤ b := by
  obtain ⟨y, finite', rfl⟩ := second
  exact (level_le_iff finite finite').mp (rounds.below y finite' below)

/-- A result that needs no rounding is exact. -/
theorem Rounds.exact (rounds : Rounds v x) (representable : Representable v) :
    x.isFinite ∧ value x = v :=
  have between := rounds.between representable representable le_rfl le_rfl
  ⟨between.finite, le_antisymm between.high between.low⟩

/-- Rounding keeps the order of results that differ. -/
theorem Rounds.le {w : ℝ} (first : Rounds v x) (second : Rounds w y) (less : v < w) (finite : x.isFinite)
    (finite' : y.isFinite) : value x ≤ value y := by
  by_contra above
  have nearest := first.nearest finite y finite'
  have nearest' := second.nearest finite' x finite
  rw [not_le] at above
  rcases abs_cases (value x - v) with ⟨isAbs, _⟩ | ⟨isAbs, _⟩ <;>
    rcases abs_cases (value y - v) with ⟨isAbs, _⟩ | ⟨isAbs, _⟩ <;>
    rcases abs_cases (value x - w) with ⟨isAbs, _⟩ | ⟨isAbs, _⟩ <;>
    rcases abs_cases (value y - w) with ⟨isAbs, _⟩ | ⟨isAbs, _⟩ <;>
    linarith

theorem Between.weaken {a' b' : ℝ} (between : Between a b x) (below : a' ≤ a) (above : b ≤ b') :
    Between a' b' x :=
  ⟨between.finite, below.trans between.low, between.high.trans above⟩

theorem Between.magnitude (between : Between (-b) b x) : |value x| ≤ b :=
  abs_le.mpr ⟨between.low, between.high⟩

/-- Bounds of a sum add up where they are numbers themselves. -/
theorem Between.add {a' b' : ℝ} (first : Between a b x) (second : Between a' b' y)
    (low : Representable (a + a')) (high : Representable (b + b')) : Between (a + a') (b + b') (x + y) :=
  (rounds_add first.finite second.finite).between low high (add_le_add first.low second.low)
    (add_le_add first.high second.high)

theorem Between.sub {a' b' : ℝ} (first : Between a b x) (second : Between a' b' y)
    (low : Representable (a - b')) (high : Representable (b - a')) : Between (a - b') (b - a') (x - y) :=
  (rounds_sub first.finite second.finite).between low high (sub_le_sub first.low second.high)
    (sub_le_sub first.high second.low)

theorem within_add (first : Between (-a) a x) (second : Between (-b) b y) (sum : Representable (a + b)) :
    Between (-(a + b)) (a + b) (x + y) := by
  have low : Representable (-a + -b) := by
    rw [← neg_add]
    exact sum.neg
  rw [neg_add]
  exact first.add second low sum

theorem within_sub (first : Between (-a) a x) (second : Between (-b) b y) (sum : Representable (a + b)) :
    Between (-(a + b)) (a + b) (x - y) := by
  have low : Representable (-a - b) := by
    rw [← neg_add']
    exact sum.neg
  have high : Representable (a - -b) := by
    rw [sub_neg_eq_add]
    exact sum
  have between := first.sub second low high
  rwa [← neg_add', sub_neg_eq_add] at between

/-- Upper bounds of numbers that are not negative multiply. -/
theorem Between.mul_unsigned (first : Between 0 a x) (second : Between 0 b y)
    (high : Representable (a * b)) : Between 0 (a * b) (x * y) :=
  (rounds_mul first.finite second.finite).between representable_zero high
    (mul_nonneg first.low second.low)
    (mul_le_mul first.high second.high second.low (first.low.trans first.high))

/-- The magnitude of a product is bounded by those of its factors. -/
theorem Between.mul (first : Between (-a) a x) (second : Between (-b) b y)
    (bound : Representable (a * b)) : Between (-(a * b)) (a * b) (x * y) := by
  have product : |value x * value y| ≤ a * b := by
    rw [abs_mul]
    exact mul_le_mul first.magnitude second.magnitude (abs_nonneg _) ((abs_nonneg _).trans first.magnitude)
  obtain ⟨low, high⟩ := abs_le.mp product
  exact (rounds_mul first.finite second.finite).between bound.neg bound low high

/-! ## Parts of one -/

/-- A part of a number that is not negative. -/
theorem Between.part (part : Between 0 1 y) (finite : x.isFinite) (up : 0 ≤ value x) :
    Between 0 (value x) (y * x) := by
  have product := part.mul_unsigned ⟨finite, up, le_rfl⟩
  rw [one_mul] at product
  exact product (representable_value finite)

/-- What is left of one is in the unit interval. -/
theorem one_sub_between (part : Between 0 1 x) : Between 0 1 (1 - x) := by
  have rounds := rounds_sub (show (1 : Float32).isFinite from rfl) part.finite
  rw [value_one] at rounds
  exact rounds.between representable_zero representable_one (by linarith [part.high])
    (by linarith [part.low])

theorem product_between (first : Between 0 1 x) (second : Between 0 1 y) : Between 0 1 (x * y) :=
  (first.part second.finite second.low).weaken le_rfl second.high

/-- Results that are past one by less than half a unit in the last place are not rounded past it. -/
theorem Rounds.le_one (rounds : Rounds v x) (finite : x.isFinite) (near : v ≤ 1 + 2 ^ (-25 : ℤ)) :
    value x ≤ 1 := by
  by_contra above
  have next : (Float32.ofBits 0x3F800001).isFinite := by decide
  have place : level (Float32.ofBits 0x3F800001) = level 1 + 1 := by decide
  have shape : (Float32.ofBits 0x3F800001).toModel.unpack =
      .finite .positive (2 ^ 23 + 1) (-23) (by decide) := rfl
  have past : level 1 < level x := by
    rw [← value_one, not_le, ← lt_iff_value rfl finite, lt_iff] at above
    exact above.2.2
  have least := (level_le_iff next finite).mp (by omega)
  have nearer := rounds.nearest finite 1 rfl
  norm_num [value_of_parts shape, dyadic] at least near
  rw [value_one] at nearer
  rcases abs_cases (value x - v) with ⟨isAbs, _⟩ | ⟨isAbs, _⟩ <;>
    rcases abs_cases (1 - v) with ⟨isAbs, _⟩ | ⟨isAbs, _⟩ <;> linarith

/-- A result is rounded by no more than half a unit in the last place of a power of two that it does not
exceed. -/
theorem Rounds.error {k : ℤ} (rounds : Rounds v x) (least : -125 ≤ k) (most : k ≤ 127) (small : |v| ≤ 2 ^ k) :
    |value x - v| ≤ 2 ^ (k - 25) := by
  have power := representable_power (show -149 ≤ k by omega) most
  obtain ⟨low, high⟩ := abs_le.mp small
  have finite := (rounds.between power.neg power low high).finite
  have unit : (0 : ℝ) < 2 ^ (k - 24) := by positivity
  have whole : (2 : ℝ) ^ k = 2 ^ 24 * 2 ^ (k - 24) := by
    rw [← zpow_natCast, ← zpow_add₀ two_ne_zero]
    congr 1
    omega
  have half : (2 : ℝ) ^ (k - 24) = 2 * 2 ^ (k - 25) := by
    rw [← zpow_one_add₀ two_ne_zero]
    congr 1
    omega
  -- the nearest multiple of the unit in the last place is a number
  let units := v / 2 ^ (k - 24)
  have near : |units - round units| ≤ 1 / 2 := abs_sub_round units
  have few : |round units| ≤ 2 ^ 24 := by
    have ratio : |units| ≤ 2 ^ 24 := by
      rw [abs_div, abs_of_pos unit, div_le_iff₀ unit, ← whole]
      exact small
    have reach : |(round units : ℝ)| < 2 ^ 24 + 1 := by
      have apart := abs_sub_abs_le_abs_sub (round units : ℝ) units
      rw [abs_sub_comm] at apart
      linarith
    have reach : |round units| < 2 ^ 24 + 1 := by exact_mod_cast reach
    omega
  obtain ⟨y, finite', isValue⟩ := representable_integer few (show -149 ≤ k - 24 by omega) (by omega)
  refine (rounds.nearest finite y finite').trans ?_
  calc |value y - v|
    _ = |units - round units| * 2 ^ (k - 24) := by
      rw [isValue, ← abs_of_pos unit, ← abs_mul, abs_of_pos unit, sub_mul, div_mul_cancel₀ _ unit.ne',
        abs_sub_comm]
    _ ≤ 1 / 2 * 2 ^ (k - 24) := by gcongr
    _ = 2 ^ (k - 25) := by rw [half, ← mul_assoc, one_div_mul_cancel two_ne_zero, one_mul]

/-- Between minus one and one, rounding changes a result by a twenty-fifth power of a half at most. -/
theorem Rounds.unit_error (rounds : Rounds v x) (low : -1 ≤ v) (high : v ≤ 1) :
    |value x - v| ≤ 2 ^ (-25 : ℤ) :=
  rounds.error (k := 0) (by decide) (by decide) (by rw [zpow_zero]; exact abs_le.mpr ⟨low, high⟩)

/-- A part of what was taken away from a number may be added to what is left of it. -/
theorem add_rest_between {whole taken part : Float32} (unit : Between 0 1 whole)
    (within : Between 0 (value whole) taken) (less : Between 0 (value taken) part) :
    Between 0 1 (part + (whole - taken)) := by
  have rest := rounds_sub unit.finite within.finite
  have bounds := rest.between representable_zero representable_one (by linarith [within.high])
    (by linarith [within.low, unit.high])
  have near := rest.unit_error (by linarith [within.high]) (by linarith [within.low, unit.high])
  have sum := rounds_add less.finite bounds.finite
  have two : Representable 2 := ⟨2, rfl, value_two⟩
  have finite := (sum.between representable_zero two (add_nonneg less.low bounds.low)
    (by linarith [less.high, within.high, unit.high, bounds.high])).finite
  refine ⟨finite, sum.at_least representable_zero (add_nonneg less.low bounds.low) finite,
    sum.le_one finite ?_⟩
  linarith [(abs_le.mp near).2, less.high, within.high, unit.high]

end

/-! ## Clamping -/

/-- Comparing with finite numbers bounds the value. -/
theorem between_of_le {x low high : Float32} (first : low.isFinite) (second : high.isFinite)
    (above : low ≤ x) (below : x ≤ high) : Between (value low) (value high) x := by
  obtain ⟨-, isNumber, up⟩ := le_iff.mp above
  have down := (le_iff.mp below).2.2
  have finite := isFinite_of_levels isNumber (Int.lt_of_lt_of_le (levels_of_isFinite first).1 up)
    (Int.lt_of_le_of_lt down (levels_of_isFinite second).2)
  exact ⟨finite, (level_le_iff first finite).mp up, (level_le_iff finite second).mp down⟩

theorem clamp_between {x low high : Float32} (isNumber : x.isNaN = false) (first : low.isFinite)
    (second : high.isFinite) (ordered : low ≤ high) :
    Between (value low) (value high) (clamp x low high) := by
  have isLow := isNaN_of_isFinite first
  have isHigh := isNaN_of_isFinite second
  have ends := (le_iff_value first second).mp ordered
  unfold clamp
  by_cases under : x < low
  · have kept : ¬ high < low := fun above => ((not_le_iff isLow isHigh).mpr above) ordered
    simp only [under, kept, ↓reduceIte]
    exact ⟨first, le_rfl, ends⟩
  · simp only [under, ↓reduceIte]
    by_cases above : high < x
    · rw [if_pos above]
      exact ⟨second, ends, le_rfl⟩
    · rw [if_neg above]
      exact between_of_le first second (not_not.mp (mt (not_le_iff isLow isNumber).mp under))
        (not_not.mp (mt (not_le_iff isNumber isHigh).mp above))

theorem between_unit {x : Float32} (above : 0 ≤ x) (below : x ≤ 1) : Between 0 1 x := by
  have between := between_of_le rfl rfl above below
  rwa [value_zero, value_one] at between

/-- Numbers are clamped into the unit interval. -/
theorem clamp_unit {x : Float32} (isNumber : x.isNaN = false) : Between 0 1 (clamp x 0 1) := by
  have unit : (0 : Float32) ≤ 1 := by decide +kernel
  have between := clamp_between isNumber rfl rfl unit
  rwa [value_zero, value_one] at between

/-- What is not a number is not clamped. -/
theorem clamp_nan {x : Float32} (odd : x.isNaN) (low high : Float32) : clamp x low high = x := by
  have below : ¬ x < low := fun under => by
    have isNumber := (lt_iff.mp under).1
    rw [odd] at isNumber
    cases isNumber
  have above : ¬ high < x := fun beyond => by
    have isNumber := (lt_iff.mp beyond).2.1
    rw [odd] at isNumber
    cases isNumber
  simp only [clamp, below, above, ↓reduceIte]

/-! ## Infinities and what is not a number -/

section
variable {x y : Float32}

/-- A number that is not finite is an infinity. -/
theorem infinity_of_not_isFinite (isNumber : x.isNaN = false) (infinite : ¬ x.isFinite) :
    ∃ sign, x.toModel.unpack = .infinity sign := by
  have isNumber : x.toModel.unpack.isNaN = false := isNumber
  have infinite : ¬ x.toModel.unpack.isFinite = true := infinite
  cases shape : x.toModel.unpack with
  | notANumber => rw [shape] at isNumber; cases isNumber
  | infinity sign => exact ⟨sign, rfl⟩
  | _ => rw [shape] at infinite; exact absurd rfl infinite

/-- A number of a value other than zero is unpacked to a sign, a mantissa and an exponent. -/
theorem finite_of_value_ne_zero (finite : x.isFinite) (away : value x ≠ 0) :
    ∃ sign m e, ∃ mantissaPos : 0 < m, x.toModel.unpack = .finite sign m e mantissaPos := by
  unfold value at away
  rcases shape_of_isFinite finite with ⟨sign, shape⟩ | parts
  · rw [shape] at away
    exact absurd rfl away
  · exact parts

/-- A quotient is a number unless both sides are infinite or the divisor is zero. -/
theorem div_isNumber (first : x.isNaN = false) (second : y.isNaN = false)
    (apart : y.isFinite → value y ≠ 0) (bounded : x.isFinite ∨ y.isFinite) : (x / y).isNaN = false := by
  by_cases finite' : y.isFinite
  · by_cases finite : x.isFinite
    · exact (rounds_div finite finite' (apart finite')).isNumber
    · obtain ⟨sign, shape⟩ := infinity_of_not_isFinite first finite
      obtain ⟨sign', m, e, mantissaPos, shape'⟩ := finite_of_value_ne_zero finite' (apart finite')
      have outcome : UnpackedFloat.div .binary32 (.infinity sign) (.finite sign' m e mantissaPos) =
          .infinity (sign / sign') := rfl
      rw [div_unpack, shape, shape', outcome]
      cases sign / sign' <;> rfl
  · obtain ⟨sign', shape'⟩ := infinity_of_not_isFinite second finite'
    rw [div_unpack, shape']
    rcases shape_of_isFinite (bounded.resolve_right finite') with
      ⟨sign, shape⟩ | ⟨sign, m, e, mantissaPos, shape⟩
    · have outcome : UnpackedFloat.div .binary32 (.zero sign) (.infinity sign') = .zero (sign / sign') :=
        rfl
      rw [shape, outcome]
      cases sign / sign' <;> rfl
    · have outcome : UnpackedFloat.div .binary32 (.finite sign m e mantissaPos) (.infinity sign') =
          .zero (sign / sign') := rfl
      rw [shape, outcome]
      cases sign / sign' <;> rfl

/-- Infinity divided by infinity is not a number. -/
theorem div_isNaN (first : x.isNaN = false) (second : y.isNaN = false) (infinite : ¬ x.isFinite)
    (infinite' : ¬ y.isFinite) : (x / y).isNaN := by
  obtain ⟨sign, shape⟩ := infinity_of_not_isFinite first infinite
  obtain ⟨sign', shape'⟩ := infinity_of_not_isFinite second infinite'
  have outcome : UnpackedFloat.div .binary32 (.infinity sign) (.infinity sign') = .notANumber := rfl
  rw [div_unpack, shape, shape', outcome]
  rfl

/-- What is not a number makes every sum that it is part of no number either. -/
theorem add_isNaN (odd : x.isNaN ∨ y.isNaN) : (x + y).isNaN := by
  have outcome : UnpackedFloat.add .binary32 x.toModel.unpack y.toModel.unpack = .notANumber := by
    rcases odd with odd | odd
    · rw [unpack_of_isNaN odd]
      rfl
    · rw [unpack_of_isNaN odd]
      cases x.toModel.unpack <;> rfl
  rw [add_unpack, outcome]
  rfl

theorem sub_isNaN (odd : x.isNaN ∨ y.isNaN) : (x - y).isNaN := by
  rw [sub_eq_add]
  exact add_isNaN (odd.imp_right (isNaN_neg y).trans)

/-- Both parts of a finite sum are finite: two infinities have an infinity for their sum, or what is not a number. -/
theorem finite_of_add (finite : (x + y).isFinite) : x.isFinite ∧ y.isFinite := by
  rw [add_unpack] at finite
  change x.toModel.unpack.isFinite = true ∧ y.toModel.unpack.isFinite = true
  generalize x.toModel.unpack = u at *
  generalize y.toModel.unpack = v at *
  have odd : ¬ (Float32.ofModel (.pack .notANumber)).isFinite := by decide
  have infinite (sign : Sign) : ¬ (Float32.ofModel (.pack (.infinity sign))).isFinite := by
    cases sign <;> decide
  cases u with
  | notANumber => exact absurd finite odd
  | infinity sign =>
    cases v with
    | notANumber => exact absurd finite odd
    | infinity sign' => cases sign <;> cases sign' <;> exact absurd finite (by decide)
    | _ => exact absurd finite (infinite sign)
  | _ =>
    cases v with
    | notANumber => exact absurd finite odd
    | infinity sign => exact absurd finite (infinite sign)
    | _ => exact ⟨rfl, rfl⟩

theorem finite_of_sub (finite : (x - y).isFinite) : x.isFinite ∧ y.isFinite := by
  rw [sub_eq_add] at finite
  obtain ⟨first, second⟩ := finite_of_add finite
  exact ⟨first, (isFinite_neg y).symm.trans second⟩

theorem mul_isNaN_of_first (odd : x.isNaN) : (x * y).isNaN := by
  have outcome : UnpackedFloat.mul .binary32 .notANumber y.toModel.unpack = .notANumber := rfl
  rw [mul_unpack, unpack_of_isNaN odd, outcome]
  rfl

/-- Only finite numbers have a finite square. -/
theorem finite_of_mul_self (finite : (x * x).isFinite) : x.isFinite := by
  rw [mul_unpack] at finite
  change x.toModel.unpack.isFinite = true
  cases shape : x.toModel.unpack with
  | notANumber =>
    rw [shape] at finite
    exact absurd finite (by decide)
  | infinity sign =>
    rw [shape] at finite
    cases sign <;> exact absurd finite (by decide)
  | _ => rfl

/-- Infinity times zero is not a number. -/
theorem mul_zero_isNaN (isNumber : x.isNaN = false) (infinite : ¬ x.isFinite) (finite : y.isFinite)
    (vanishes : value y = 0) : (x * y).isNaN := by
  obtain ⟨sign, shape⟩ := infinity_of_not_isFinite isNumber infinite
  unfold value at vanishes
  rcases shape_of_isFinite finite with ⟨sign', shape'⟩ | ⟨sign', m, e, mantissaPos, shape'⟩
  · have outcome : UnpackedFloat.mul .binary32 (.infinity sign) (.zero sign') = .notANumber := rfl
    rw [mul_unpack, shape, shape', outcome]
    rfl
  · rw [shape', unpackedValue_finite] at vanishes
    have away := dyadic_pos (e := e) mantissaPos
    cases sign' <;> simp only [signed_positive, signed_negative] at vanishes <;> linarith

end

/-! ## Numbers that are not negative -/

section
variable {x y : Float32}

private theorem Rounds.nonneg {v : ℝ} (rounds : Rounds v x) (up : 0 ≤ v) : Nonneg x :=
  ⟨rounds.isNumber, rounds.above 0 rfl (value_zero.trans_le up)⟩

/-- A square is not negative. -/
theorem nonneg_square (isNumber : x.isNaN = false) : Nonneg (x * x) := by
  by_cases finite : x.isFinite
  · exact (rounds_mul finite finite).nonneg (mul_self_nonneg _)
  · obtain ⟨sign, shape⟩ := infinity_of_not_isFinite isNumber finite
    rw [mul_unpack, shape]
    cases sign <;> exact ⟨by decide, by decide⟩

theorem Nonneg.value_nonneg (nonneg : Nonneg x) (finite : x.isFinite) : 0 ≤ value x := by
  have up := (level_le_iff rfl finite).mp (show level 0 ≤ level x from nonneg.up)
  rwa [value_zero] at up

/-- A number that is not negative and not finite is the positive infinity. -/
theorem infinite_of_nonneg (nonneg : Nonneg x) (infinite : ¬ x.isFinite) :
    x.toModel.unpack = .infinity .positive := by
  obtain ⟨sign, shape⟩ := infinity_of_not_isFinite nonneg.isNumber infinite
  have upward := nonneg.unpack
  rw [shape] at upward
  obtain rfl : sign = .positive := upward
  exact shape

/-- The root of a number that is not negative is not negative, infinity included. -/
theorem Nonneg.sqrt (nonneg : Nonneg x) : Nonneg x.sqrt := by
  by_cases finite : x.isFinite
  · exact (rounds_sqrt finite (nonneg.value_nonneg finite)).nonneg (Real.sqrt_nonneg _)
  · rw [sqrt_unpack, infinite_of_nonneg nonneg finite]
    exact ⟨by decide, by decide⟩

/-- A finite sum of numbers that are not negative is not below any of them. -/
theorem le_of_add (first : Nonneg x) (second : Nonneg y) (finite : (x + y).isFinite) :
    value x ≤ value (x + y) ∧ value y ≤ value (x + y) := by
  obtain ⟨isFirst, isSecond⟩ := finite_of_add finite
  have rounds := rounds_add isFirst isSecond
  have up := first.value_nonneg isFirst
  have up' := second.value_nonneg isSecond
  exact ⟨rounds.at_least (representable_value isFirst) (by linarith) finite,
    rounds.at_least (representable_value isSecond) (by linarith) finite⟩

end


end Sapling.Scalar
