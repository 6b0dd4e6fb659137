import Sapling.Proofs.Scalar.Rounding

/-! The operations on finite numbers, each with the real result that it rounds. -/
namespace Sapling.Scalar

open Float.Model
open UnpackedFloat (Sign Accuracy)

variable {x y : Float32}

/-- A finite number rounds its own value. -/
theorem rounds_value (finite : x.isFinite) : Rounds (value x) x where
  isNumber := isNaN_of_isFinite finite
  above y finite' := (level_le_iff finite' finite).mpr
  below y finite' := (level_le_iff finite finite').mpr
  nearest _ y _ := by
    rw [sub_self, abs_zero]
    exact abs_nonneg _
  bounded _ := finite
  unbounded large := by
    obtain ⟨sign, m, e, rounded, small, -, isValue⟩ := parts_of_isFinite finite
    have below := (dyadic_le_iff rounded.wide rounded_largest.wide).mpr (Int.lt_add_one_iff.mp small)
    rw [isValue, abs_signed, abs_of_nonneg (dyadic_nonneg m e)] at large
    rw [dyadic_largest] at below
    linarith

theorem rounds_zero (sign : Sign) : Rounds 0 (.ofModel (.pack (.zero sign))) := by
  have finite : (Float32.ofModel (.pack (.zero sign))).isFinite := by cases sign <;> rfl
  have nothing : value (.ofModel (.pack (.zero sign))) = 0 := by cases sign <;> rfl
  rw [← nothing]
  exact rounds_value finite

/-- A canonical number stays as it is when it is packed. -/
theorem rounds_pack {u : UnpackedFloat} (canonical : Canonical u) (finite : u.isFinite) :
    Rounds (unpackedValue u) (.ofModel (.pack u)) := by
  obtain ⟨isFinite, same⟩ := pack_value canonical finite
  rw [← same]
  exact rounds_value isFinite

/-! ## Sums -/

/-- Packing rounds a mantissa at an exponent to the nearest number. -/
theorem rounds_round {m : Nat} (e : Int) (positive : 0 < m) (sign : Sign) :
    Rounds (signed sign (dyadic m e)) (.ofModel (.pack (.round .binary32 sign m e))) := by
  have aim : target (m <<< (e - target m e).toNat) (e - (e - target m e).toNat) = target m e := by
    simp only [target, log2_shiftLeft positive]
    omega
  have same : dyadic (m <<< (e - target m e).toNat) (e - (e - target m e).toNat) = dyadic m e := by
    rw [Nat.shiftLeft_eq]
    have shift := dyadic_shift m (show e - (e - target m e).toNat ≤ e by omega)
    rwa [show (e - (e - (e - target m e).toNat)).toNat = (e - target m e).toNat by omega] at shift
  have least : e - (e - target m e).toNat ≤
      target (m <<< (e - target m e).toNat) (e - (e - target m e).toNat) := by
    rw [aim]
    omega
  have rounds := rounds_roundWithAccuracy least (describes_exact _ _) (dyadic_nonneg _ _) sign
  rw [← dyadic, same] at rounds
  rw [UnpackedFloat.round, target_eq]
  exact rounds

private theorem rounds_normalize (k e : Int) (sign : Sign) :
    Rounds (k * 2 ^ e) (.ofModel (.pack (.normalize .binary32 k e sign))) := by
  unfold UnpackedFloat.normalize
  split
  · rename_i below
    rw [Int.compare_eq_lt] at below
    have negative : (k : ℝ) * 2 ^ e = signed .negative (dyadic (-k).toNat e) := by
      have magnitude : (((-k).toNat : ℤ) : ℝ) = -k := by
        rw [Int.toNat_of_nonneg (by omega)]
        push_cast
        ring
      rw [dyadic, ← Int.cast_natCast, magnitude, signed_negative]
      ring
    rw [negative]
    exact rounds_round e (by omega) .negative
  · rename_i vanishes
    rw [Int.compare_eq_eq] at vanishes
    rw [vanishes, Int.cast_zero, zero_mul]
    exact rounds_zero sign
  · rename_i above
    rw [Int.compare_eq_gt] at above
    have positive : (k : ℝ) * 2 ^ e = signed .positive (dyadic k.toNat e) := by
      rw [dyadic, ← Int.cast_natCast, Int.toNat_of_nonneg (by omega), signed_positive]
    rw [positive]
    exact rounds_round e (by omega) .positive

/-- A mantissa brought to a smaller exponent, with its sign. -/
private theorem signed_shift (sign : Sign) (m : Nat) {e least : Int} (below : least ≤ e) :
    signed sign (dyadic m e) = (sign.apply (m <<< (e - least).toNat : Nat) : ℤ) * 2 ^ least := by
  rw [← signed_apply, ← dyadic, Nat.shiftLeft_eq, dyadic_shift m below]

private theorem rounds_unpacked_add {u v : UnpackedFloat} (first : Canonical u) (second : Canonical v)
    (finite : u.isFinite) (finite' : v.isFinite) :
    Rounds (unpackedValue u + unpackedValue v) (.ofModel (.pack (.add .binary32 u v))) := by
  cases u with
  | notANumber => cases finite
  | infinity => cases finite
  | zero s =>
    cases v with
    | notANumber => cases finite'
    | infinity => cases finite'
    | zero t =>
      have sum : UnpackedFloat.add .binary32 (.zero s) (.zero t) =
          .zero (if s == t then s else .positive) := by cases s <;> cases t <;> rfl
      rw [sum, unpackedValue_zero, unpackedValue_zero, add_zero]
      exact rounds_zero _
    | finite t n f mantissaPos =>
      have sum : UnpackedFloat.add .binary32 (.zero s) (.finite t n f mantissaPos) = .finite t n f mantissaPos := rfl
      rw [sum, unpackedValue_zero, zero_add]
      exact rounds_pack second rfl
  | finite s m e mantissaPos =>
    cases v with
    | notANumber => cases finite'
    | infinity => cases finite'
    | zero t =>
      have sum : UnpackedFloat.add .binary32 (.finite s m e mantissaPos) (.zero t) = .finite s m e mantissaPos := rfl
      rw [sum, unpackedValue_zero, add_zero]
      exact rounds_pack first rfl
    | finite t n f mantissaPos' =>
      rw [unpackedValue_finite, unpackedValue_finite, signed_shift s m (Int.min_le_left e f),
        signed_shift t n (Int.min_le_right e f), ← add_mul, ← Int.cast_add]
      exact rounds_normalize _ _ _

/-- Operations on finite numbers are the exact ones rounded. -/
theorem rounds_add (first : x.isFinite) (second : y.isFinite) : Rounds (value x + value y) (x + y) :=
  rounds_unpacked_add (unpack_fields x).canonical (unpack_fields y).canonical first second

/-- A difference is the sum with the negated number. -/
theorem unpacked_sub (u v : UnpackedFloat) :
    UnpackedFloat.sub .binary32 u v = .add .binary32 u v.neg := by
  cases u with
  | finite s m e mantissaPos =>
    cases v with
    | finite t n f mantissaPos' =>
      cases t with
      | positive => rfl
      | negative =>
        dsimp only [UnpackedFloat.sub, UnpackedFloat.add, UnpackedFloat.neg, Sign.apply]
        rw [Int.sub_neg]
    | _ => rfl
  | _ => cases v <;> rfl

theorem sub_eq_add (x y : Float32) : x - y = x + -y := by
  rw [sub_unpack, add_unpack, unpack_neg, unpacked_sub]

theorem rounds_sub (first : x.isFinite) (second : y.isFinite) : Rounds (value x - value y) (x - y) := by
  rw [sub_eq_add, sub_eq_add_neg, ← value_neg]
  exact rounds_add first ((isFinite_neg y).trans second)

/-! ## Products -/

private theorem dyadic_mul (m n : Nat) (e f : Int) : dyadic m e * dyadic n f = dyadic (m * n) (e + f) := by
  simp only [dyadic, zpow_add₀ (two_ne_zero : (2 : ℝ) ≠ 0)]
  push_cast
  ring

private theorem rounds_unpacked_mul {u v : UnpackedFloat} (first : Canonical u) (second : Canonical v)
    (finite : u.isFinite) (finite' : v.isFinite) :
    Rounds (unpackedValue u * unpackedValue v) (.ofModel (.pack (.mul .binary32 u v))) := by
  cases u with
  | notANumber => cases finite
  | infinity => cases finite
  | zero s =>
    rw [unpackedValue_zero, zero_mul]
    cases v with
    | notANumber => cases finite'
    | infinity => cases finite'
    | _ => exact rounds_zero _
  | finite s m e positive =>
    cases v with
    | notANumber => cases finite'
    | infinity => cases finite'
    | zero t =>
      rw [unpackedValue_zero, mul_zero]
      exact rounds_zero _
    | finite t n f positive' =>
      -- Unless both numbers are very small, the product has the bits that rounding asks for.
      have low : e + f ≤ target (m * n) (e + f) := by
        by_cases large : 2 ^ 23 ≤ m * n
        · have log := (Nat.le_log2 (Nat.ne_of_gt (Nat.mul_pos positive positive'))).mpr large
          unfold target
          omega
        · have short := Nat.le_mul_of_pos_right m positive'
          have short' := Nat.le_mul_of_pos_left n positive
          have least : e = -149 := by
            by_contra high
            have normal := first.2.2.2 high
            omega
          have least' : f = -149 := by
            by_contra high
            have normal := second.2.2.2 high
            omega
          unfold target
          omega
      rw [unpackedValue_finite, unpackedValue_finite, ← signed_mul, dyadic_mul]
      exact rounds_roundWithAccuracy low (describes_exact _ _) (dyadic_nonneg _ _) _

theorem rounds_mul (first : x.isFinite) (second : y.isFinite) : Rounds (value x * value y) (x * y) :=
  rounds_unpacked_mul (unpack_fields x).canonical (unpack_fields y).canonical first second

/-! ## Quotients -/

private theorem signed_div (s t : Sign) (a b : ℝ) : signed (s / t) (a / b) = signed s a / signed t b := by
  cases s <;> cases t
  · exact (neg_div_neg_eq a b).symm
  · exact (neg_div b a).symm
  · exact (div_neg a).symm
  · rfl

/-- What is left of a division tells on which side of the middle the quotient lies. -/
theorem describes_fraction {m n : Nat} (divisorPos : 0 < n) {unit : ℝ} (positive : 0 < unit) :
    Describes unit (m / n * unit)
      (.ofMantissaAndAccuracy (m / n) (UnpackedFloat.accuracyOfFraction (m % n) n)) := by
  have divisor : (0 : ℝ) < n := by exact_mod_cast divisorPos
  have whole : (m : ℝ) / n = (m / n : Nat) + (m % n : Nat) / n := by
    have split : ((m / n : Nat) : ℝ) * n + (m % n : Nat) = m := by exact_mod_cast Nat.div_add_mod' m n
    rw [div_eq_iff divisor.ne', add_mul, div_mul_cancel₀ _ divisor.ne', split]
  have less : ((m % n : Nat) : ℝ) / n < 1 := by
    rw [div_lt_one divisor]
    exact_mod_cast Nat.mod_lt m divisorPos
  rw [whole]
  generalize (m / n : Nat) = q
  generalize m % n = rest at less
  unfold UnpackedFloat.accuracyOfFraction
  by_cases divides : rest = 0
  · rw [if_pos divides, divides]
    simp [UnpackedFloat.ExtendedMantissa.ofMantissaAndAccuracy, Describes]
  · rw [if_neg divides]
    have more : (0 : ℝ) < rest / n := by
      have positive : (0 : ℝ) < rest := by exact_mod_cast Nat.pos_of_ne_zero divides
      positivity
    rcases Nat.lt_trichotomy (2 * rest) n with under | half | above
    · rw [Nat.compare_eq_lt.mpr under]
      have side : (rest : ℝ) / n < 1 / 2 := by
        rw [div_lt_div_iff₀ divisor two_pos]
        have under : (2 * rest : ℝ) < n := by exact_mod_cast under
        linarith
      exact ⟨by nlinarith, by nlinarith⟩
    · rw [Nat.compare_eq_eq.mpr half]
      have side : (rest : ℝ) / n = 1 / 2 := by
        rw [div_eq_div_iff divisor.ne' two_ne_zero]
        have half : (2 * rest : ℝ) = n := by exact_mod_cast half
        linarith
      change (q + (rest : ℝ) / n) * unit = (q + 1 / 2) * unit
      rw [side]
    · rw [Nat.compare_eq_gt.mpr above]
      have side : 1 / 2 < (rest : ℝ) / n := by
        rw [div_lt_div_iff₀ two_pos divisor]
        have above : (n : ℝ) < 2 * rest := by exact_mod_cast above
        linarith
      exact ⟨by nlinarith, by nlinarith⟩

/-- A quotient is taken with as many bits as rounding asks for. -/
private theorem divCore_low {m n : Nat} {e f aim : Int} (positive : 0 < m) (positive' : 0 < n)
    (aimed : aim ≤ Max.max ((m.log2 + e) - (n.log2 + f) - 24) (-149)) :
    aim ≤ target ((m <<< (e - f - aim).toNat) / n) aim := by
  by_cases high : -149 < aim
  · have bits := log2_shiftLeft positive (e - f - aim).toNat
    have most : n < 2 ^ (n.log2 + 1) := Nat.lt_log2_self
    have large : 2 ^ (n.log2 + 1) * 2 ^ 23 ≤ m <<< (e - f - aim).toNat := by
      rw [← Nat.pow_add]
      refine Nat.le_trans (Nat.pow_le_pow_right (by decide) ?_) (Nat.log2_self_le ?_)
      · omega
      · rw [Nat.shiftLeft_eq]
        exact Nat.ne_of_gt (Nat.mul_pos positive (Nat.two_pow_pos _))
    have quotient : 2 ^ 23 ≤ (m <<< (e - f - aim).toNat) / n := by
      rw [Nat.le_div_iff_mul_le positive', Nat.mul_comm]
      exact Nat.le_trans (Nat.mul_le_mul_right _ (Nat.le_of_lt most)) large
    have log := (Nat.le_log2 (by omega)).mpr quotient
    unfold target
    omega
  · unfold target
    omega

private theorem rounds_unpacked_div {u : UnpackedFloat} {t : Sign} {n : Nat} {f : Int} {positive' : 0 < n}
    (finite : u.isFinite) :
    Rounds (unpackedValue u / signed t (dyadic n f))
      (.ofModel (.pack (.div .binary32 u (.finite t n f positive')))) := by
  cases u with
  | notANumber => cases finite
  | infinity => cases finite
  | zero s =>
    rw [unpackedValue_zero, div_eq_mul_inv, zero_mul]
    exact rounds_zero _
  | finite s m e positive =>
    let aim := Min.min (e - f) (Format.binary32.targetExponent (totalExponent m e - totalExponent n f))
    have outcome : UnpackedFloat.div .binary32 (.finite s m e positive) (.finite t n f positive') =
        .roundWithAccuracy .binary32 (s / t) ((m <<< (e - f - aim).toNat) / n) aim
          (UnpackedFloat.accuracyOfFraction ((m <<< (e - f - aim).toNat) % n) n) := rfl
    have least : aim ≤ e - f := Int.min_le_left _ _
    have aimed : aim ≤ Max.max ((m.log2 + e) - (n.log2 + f) - 24) (-149) := by
      refine Int.le_trans (Int.min_le_right _ _) ?_
      simp only [targetExponent_eq, totalExponent]
      omega
    have shifted : dyadic (m <<< (e - f - aim).toNat) aim = dyadic m (e - f) := by
      rw [Nat.shiftLeft_eq, dyadic_shift m least]
    have quotient : dyadic m e / dyadic n f = (m <<< (e - f - aim).toNat : Nat) / n * 2 ^ aim := by
      have divisor : (n : ℝ) ≠ 0 := by exact_mod_cast Nat.ne_of_gt positive'
      rw [div_mul_eq_mul_div, ← dyadic, shifted, dyadic, dyadic, dyadic,
        zpow_sub₀ (two_ne_zero : (2 : ℝ) ≠ 0)]
      field_simp
    have described := describes_fraction (m := m <<< (e - f - aim).toNat) positive'
      (by positivity : (0 : ℝ) < 2 ^ aim)
    rw [outcome, unpackedValue_finite, ← signed_div, quotient]
    exact rounds_roundWithAccuracy (divCore_low positive positive' aimed) described (by positivity) _

/-- A quotient of finite numbers is the exact quotient rounded, unless the divisor is zero. -/
theorem rounds_div (first : x.isFinite) (second : y.isFinite) (apart : value y ≠ 0) :
    Rounds (value x / value y) (x / y) := by
  rw [div_unpack, value, value]
  unfold value at apart
  rcases shape_of_isFinite second with ⟨t, shape⟩ | ⟨t, n, f, positive', shape⟩
  · rw [shape] at apart
    exact absurd rfl apart
  · rw [shape]
    exact rounds_unpacked_div first

/-! ## Roots -/

/-- What is left of a square root tells on which side of the middle it lies. -/
theorem describes_root (m : Nat) {unit : ℝ} (positive : 0 < unit) :
    Describes unit (√m * unit) (.ofMantissaAndAccuracy m.sqrt
      (if m - m.sqrt * m.sqrt = 0 then .exact
       else .inexact (if m - m.sqrt * m.sqrt ≤ m.sqrt then .lt else .gt))) := by
  have under := Nat.sqrt_le m
  have below := Nat.lt_succ_sqrt m
  generalize m.sqrt = root at under below
  have square : √(m : ℝ) * √m = m := Real.mul_self_sqrt (Nat.cast_nonneg m)
  have nonneg := Real.sqrt_nonneg m
  have rootNonneg : (0 : ℝ) ≤ root := Nat.cast_nonneg root
  by_cases whole : m - root * root = 0
  · rw [if_pos whole]
    have same : (m : ℝ) = root * root := by exact_mod_cast (by omega : m = root * root)
    have isRoot : √(m : ℝ) = root := by
      rw [same]
      exact Real.sqrt_mul_self rootNonneg
    change √(m : ℝ) * unit = root * unit
    rw [isRoot]
  · rw [if_neg whole]
    have more : (root : ℝ) < √m := by
      have more : (root : ℝ) * root < m := by exact_mod_cast (by omega : root * root < m)
      nlinarith
    split
    · rename_i low
      have low : (m : ℝ) ≤ root * root + root := by
        exact_mod_cast (by omega : m ≤ root * root + root)
      have side : √(m : ℝ) < root + 1 / 2 := by nlinarith
      exact ⟨by nlinarith, by nlinarith⟩
    · rename_i high
      have high : (root : ℝ) * root + root + 1 ≤ m := by
        exact_mod_cast (by omega : root * root + root + 1 ≤ m)
      have less : (m : ℝ) < (root + 1) * (root + 1) := by exact_mod_cast below
      have side : (root : ℝ) + 1 / 2 < √m := by nlinarith
      have top : √(m : ℝ) < root + 1 := by nlinarith
      exact ⟨by nlinarith, by nlinarith⟩

private theorem rounds_unpacked_sqrt {m : Nat} {e : Int} {positive : 0 < m}
    (canonical : Canonical (.finite .positive m e positive)) :
    Rounds √(dyadic m e) (.ofModel (.pack (.sqrt .binary32 (.finite .positive m e positive)))) := by
  let aim := Min.min (e.ediv 2) (Format.binary32.targetExponent ((totalExponent m e + 1).ediv 2))
  let shifted := m <<< (e - 2 * aim).toNat
  have outcome : UnpackedFloat.sqrt .binary32 (.finite .positive m e positive) =
      .roundWithAccuracy .binary32 .positive shifted.sqrt aim
        (if shifted - shifted.sqrt * shifted.sqrt = 0 then .exact
         else .inexact (if shifted - shifted.sqrt * shifted.sqrt ≤ shifted.sqrt then .lt else .gt)) := rfl
  obtain ⟨short, least, most, normal⟩ := canonical
  have halved : aim ≤ e / 2 := Int.min_le_left _ _
  have aimed : aim ≤ (m.log2 + e + 2) / 2 - 24 := by
    have bound : aim ≤ Format.binary32.targetExponent ((totalExponent m e + 1) / 2) :=
      Int.min_le_right _ _
    simp only [targetExponent_eq, totalExponent] at bound
    omega
  have root : √(dyadic m e) = √(shifted : ℝ) * 2 ^ aim := by
    have square : ((2 : ℝ) ^ aim) ^ 2 = 2 ^ (2 * aim) := by
      rw [← zpow_natCast, ← zpow_mul, Int.mul_comm]
      rfl
    have value : dyadic m e = shifted * (2 ^ aim) ^ 2 := by
      rw [square, ← dyadic, show shifted = m * 2 ^ (e - 2 * aim).toNat from Nat.shiftLeft_eq ..,
        dyadic_shift m (by omega)]
    rw [value, Real.sqrt_mul (Nat.cast_nonneg _), Real.sqrt_sq (by positivity)]
  have low : aim ≤ target shifted.sqrt aim := by
    have bits : shifted.log2 = _ := log2_shiftLeft positive (e - 2 * aim).toNat
    have large : 2 ^ 23 * 2 ^ 23 ≤ shifted := by
      rw [← Nat.pow_add]
      refine Nat.le_trans (Nat.pow_le_pow_right (by decide) ?_) (Nat.log2_self_le ?_)
      · omega
      · rw [show shifted = m * 2 ^ (e - 2 * aim).toNat from Nat.shiftLeft_eq ..]
        exact Nat.ne_of_gt (Nat.mul_pos positive (Nat.two_pow_pos _))
    have quotient := Nat.le_sqrt.mpr large
    have log := (Nat.le_log2 (by omega)).mpr quotient
    unfold target
    omega
  rw [outcome, root]
  exact rounds_roundWithAccuracy low (describes_root _ (by positivity)) (by positivity) .positive

/-- The root of a number that is not negative is the exact root rounded. -/
theorem rounds_sqrt (finite : x.isFinite) (nonneg : 0 ≤ value x) : Rounds √(value x) x.sqrt := by
  have canonical := (unpack_fields x).canonical
  rw [sqrt_unpack]
  unfold value at nonneg ⊢
  rcases shape_of_isFinite finite with ⟨t, shape⟩ | ⟨s, m, e, mantissaPos, shape⟩
  · rw [shape, unpackedValue_zero, Real.sqrt_zero]
    exact rounds_zero t
  · rw [shape] at canonical nonneg ⊢
    cases s with
    | negative =>
      have positive := dyadic_pos (e := e) mantissaPos
      rw [unpackedValue_finite, signed_negative] at nonneg
      linarith
    | positive => exact rounds_unpacked_sqrt canonical

/-! ## Whole numbers -/

/-- A word turned into a number is rounded. -/
theorem rounds_word (n : UInt32) : Rounds n.toNat n.toFloat32 := by
  have rounds := rounds_normalize (n.toNat : Int) 0 .positive
  rw [zpow_zero, mul_one, Int.cast_natCast] at rounds
  exact rounds

end Sapling.Scalar
