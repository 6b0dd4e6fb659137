import Mathlib.Algebra.Order.Ring.Int
import Sapling.Scalar

/-! The order of single-precision numbers. Numbers other than zero have one place each in the order of
their bits, with the negative ones turned around, and comparing two numbers is comparing their places. -/
namespace Sapling.Scalar

open Float.Model
open UnpackedFloat (Sign)

/-- The place of a number; both zeros are at place zero. -/
def level (x : Float32) : Int :=
  if x.toBits.toNat < 2 ^ 31 then x.toBits.toNat else 2 ^ 31 - x.toBits.toNat

/-- The place of an unpacked number. Each exponent has the places of `2 ^ 23` mantissas. -/
def unpackedLevel : UnpackedFloat → Int
  | .infinity sign => sign.apply (255 * 2 ^ 23)
  | .notANumber => 0
  | .zero _ => 0
  | .finite sign mantissa exponent _ => sign.apply ((exponent + 149) * 2 ^ 23 + mantissa)

/-- The form in which numbers are unpacked: mantissas have 24 bits, except at the least exponent. -/
def Canonical : UnpackedFloat → Prop
  | .finite _ mantissa exponent _ =>
    mantissa < 2 ^ 24 ∧ -149 ≤ exponent ∧ exponent ≤ 104 ∧ (exponent ≠ -149 → 2 ^ 23 ≤ mantissa)
  | _ => True

/-! ## From bits to fields -/

def signOfBits (bits : Nat) : Sign := if bits < 2 ^ 31 then .positive else .negative

/-- What a number is unpacked to, by the fields of its bits. -/
inductive Fields (bits : Nat) : UnpackedFloat → Prop where
  | infinity (exponent : bits / 2 ^ 23 % 2 ^ 8 = 255) (mantissa : bits % 2 ^ 23 = 0) :
      Fields bits (.infinity (signOfBits bits))
  | notANumber (exponent : bits / 2 ^ 23 % 2 ^ 8 = 255) (mantissa : bits % 2 ^ 23 ≠ 0) :
      Fields bits .notANumber
  | zero (exponent : bits / 2 ^ 23 % 2 ^ 8 = 0) (mantissa : bits % 2 ^ 23 = 0) :
      Fields bits (.zero (signOfBits bits))
  | small (exponent : bits / 2 ^ 23 % 2 ^ 8 = 0) (mantissa : 0 < bits % 2 ^ 23) :
      Fields bits (.finite (signOfBits bits) (bits % 2 ^ 23) (-149) mantissa)
  | normal (low : bits / 2 ^ 23 % 2 ^ 8 ≠ 0) (high : bits / 2 ^ 23 % 2 ^ 8 ≠ 255)
      (positive : 0 < 2 ^ 23 + bits % 2 ^ 23) :
      Fields bits (.finite (signOfBits bits) (2 ^ 23 + bits % 2 ^ 23)
        ((bits / 2 ^ 23 % 2 ^ 8 : Nat) - 150) positive)

private theorem exponent_field (bits : BitVec 32) :
    (@UnpackedFloat.unpackExponent .binary32 bits).toNat = bits.toNat / 2 ^ 23 % 2 ^ 8 := by
  simp [UnpackedFloat.unpackExponent, Nat.shiftRight_eq_div_pow]

private theorem mantissa_field (bits : BitVec 32) :
    (@UnpackedFloat.unpackMantissa .binary32 bits).toNat = bits.toNat % 2 ^ 23 := by
  simp [UnpackedFloat.unpackMantissa]

private theorem sign_field (bits : BitVec 32) :
    Sign.ofBitVec (@UnpackedFloat.unpackSign .binary32 bits) = signOfBits bits.toNat := by
  have small := bits.isLt
  have field : (@UnpackedFloat.unpackSign .binary32 bits).toNat = bits.toNat / 2 ^ 31 % 2 := by
    change (bits.extractLsb 31 31).toNat = _
    rw [BitVec.extractLsb_toNat, Nat.shiftRight_eq_div_pow]
  have zero : @UnpackedFloat.unpackSign .binary32 bits = 0#1 ↔ bits.toNat < 2 ^ 31 := by
    rw [← BitVec.toNat_inj, field]
    change bits.toNat / 2 ^ 31 % 2 = 0 ↔ _
    omega
  simp only [Sign.ofBitVec, signOfBits, zero]

private theorem finite_congr {sign : Sign} {m n : Nat} {e f : Int} {positive : 0 < m} {positive' : 0 < n}
    (mantissa : m = n) (exponent : e = f) :
    UnpackedFloat.finite sign m e positive = .finite sign n f positive' := by
  subst mantissa exponent
  rfl

/-- Unpacking reads the fields of the bits. -/
theorem unpack_bits (bits : BitVec 32) : Fields bits.toNat (UnpackedFloat.unpack .binary32 bits) := by
  have exponent := exponent_field bits
  have mantissa := mantissa_field bits
  have sign := sign_field bits
  unfold UnpackedFloat.unpack
  dsimp only
  rw [sign]
  by_cases full : @UnpackedFloat.unpackExponent .binary32 bits = -1#8
  · rw [if_pos full]
    rw [full] at exponent
    by_cases vanishes : @UnpackedFloat.unpackMantissa .binary32 bits = 0#23
    · rw [if_pos vanishes]
      rw [vanishes] at mantissa
      exact .infinity exponent.symm mantissa.symm
    · rw [if_neg vanishes]
      exact .notANumber exponent.symm fun zero => vanishes (BitVec.eq_of_toNat_eq (mantissa.trans zero))
  have high : bits.toNat / 2 ^ 23 % 2 ^ 8 ≠ 255 := fun largest =>
    full (BitVec.eq_of_toNat_eq (exponent.trans largest))
  rw [if_neg full]
  by_cases least : @UnpackedFloat.unpackExponent .binary32 bits = 0#8
  · rw [if_pos least]
    have bottom : ((@UnpackedFloat.unpackExponent .binary32 bits).toNat : Int) - 150 + 1 = -149 := by
      rw [least]
      rfl
    rw [least] at exponent
    by_cases vanishes : @UnpackedFloat.unpackMantissa .binary32 bits = 0#23
    · rw [dif_pos vanishes]
      rw [vanishes] at mantissa
      exact .zero exponent.symm mantissa.symm
    · rw [dif_neg vanishes]
      have positive : 0 < bits.toNat % 2 ^ 23 :=
        Nat.pos_of_ne_zero fun zero => vanishes (BitVec.eq_of_toNat_eq (mantissa.trans zero))
      exact (congrArg (Fields bits.toNat) (finite_congr mantissa bottom)).mpr (.small exponent.symm positive)
  · rw [if_neg least]
    have low : bits.toNat / 2 ^ 23 % 2 ^ 8 ≠ 0 := fun zero =>
      least (BitVec.eq_of_toNat_eq (exponent.trans zero))
    have implicit : (1#1 ++ @UnpackedFloat.unpackMantissa .binary32 bits).toNat =
        2 ^ 23 + bits.toNat % 2 ^ 23 := by
      rw [BitVec.toNat_append, ← Nat.shiftLeft_add_eq_or_of_lt (BitVec.isLt _), mantissa]
      rfl
    have positive : 0 < 2 ^ 23 + bits.toNat % 2 ^ 23 := by omega
    have shifted := congrArg (fun field : Nat => (field : Int) - 150) exponent
    exact (congrArg (Fields bits.toNat) (finite_congr implicit shifted)).mpr (.normal low high positive)

theorem unpack_fields (x : Float32) : Fields x.toBits.toNat x.toModel.unpack :=
  unpack_bits x.toBits.toBitVec

/-- What is read from the fields of bits is in the one form that packing takes. -/
theorem Fields.canonical (fields : Fields bits number) : Canonical number := by
  have mantissa := Nat.mod_lt bits (Nat.two_pow_pos 23)
  have exponent := Nat.mod_lt (bits / 2 ^ 23) (Nat.two_pow_pos 8)
  cases fields with
  | small none positive => exact ⟨by omega, by omega, by omega, fun high => absurd rfl high⟩
  | normal low high positive => exact ⟨by omega, by omega, by omega, fun _ => by omega⟩
  | _ => trivial

/-- A finite number is unpacked to a zero or to a sign, a mantissa and an exponent. -/
theorem shape_of_isFinite {u : UnpackedFloat} (finite : u.isFinite) :
    (∃ sign, u = .zero sign) ∨ ∃ sign m e, ∃ positive : 0 < m, u = .finite sign m e positive := by
  cases u with
  | notANumber => cases finite
  | infinity sign => cases finite
  | zero sign => exact .inl ⟨sign, rfl⟩
  | finite sign m e positive => exact .inr ⟨sign, m, e, positive, rfl⟩

/-- The place of a number among the unpacked ones is its place in the order of bits. -/
theorem Fields.level (fields : Fields bits number) (small : bits < 2 ^ 32)
    (isNumber : number.isNaN = false) :
    unpackedLevel number = if bits < 2 ^ 31 then (bits : Int) else 2 ^ 31 - bits := by
  have sign (place : Int) : (signOfBits bits).apply place = if bits < 2 ^ 31 then place else -place := by
    unfold signOfBits
    split <;> rfl
  cases fields with
  | notANumber => exact absurd isNumber (by decide)
  | zero exponent mantissa =>
    change (0 : Int) = _
    split <;> omega
  | infinity exponent mantissa =>
    refine (sign _).trans ?_
    split <;> omega
  | small exponent mantissa =>
    refine (sign _).trans ?_
    split <;> omega
  | normal low high positive =>
    refine (sign _).trans ?_
    split <;> omega

/-! ## Operations

Each operation works on what its operands are unpacked to, and its result is packed again. -/

theorem add_unpack (x y : Float32) :
    x + y = .ofModel (.pack (.add .binary32 x.toModel.unpack y.toModel.unpack)) := rfl

theorem sub_unpack (x y : Float32) :
    x - y = .ofModel (.pack (.sub .binary32 x.toModel.unpack y.toModel.unpack)) := rfl

theorem mul_unpack (x y : Float32) :
    x * y = .ofModel (.pack (.mul .binary32 x.toModel.unpack y.toModel.unpack)) := rfl

theorem div_unpack (x y : Float32) :
    x / y = .ofModel (.pack (.div .binary32 x.toModel.unpack y.toModel.unpack)) := rfl

theorem sqrt_unpack (x : Float32) :
    x.sqrt = .ofModel (.pack (.sqrt .binary32 x.toModel.unpack)) := rfl

/-! ## Comparisons -/

private theorem compare_fields {m₁ m₂ : Nat} {e₁ e₂ : Int}
    (first : m₁ < 2 ^ 24 ∧ -149 ≤ e₁ ∧ e₁ ≤ 104 ∧ (e₁ ≠ -149 → 2 ^ 23 ≤ m₁))
    (second : m₂ < 2 ^ 24 ∧ -149 ≤ e₂ ∧ e₂ ≤ 104 ∧ (e₂ ≠ -149 → 2 ^ 23 ≤ m₂)) :
    (compare e₁ e₂).then (compare m₁ m₂) =
      compare ((e₁ + 149) * 2 ^ 23 + m₁ : Int) ((e₂ + 149) * 2 ^ 23 + m₂) := by
  rcases Int.lt_trichotomy e₁ e₂ with below | same | above
  · rw [Int.compare_eq_lt.mpr below, Int.compare_eq_lt.mpr (by omega)]
    rfl
  · subst same
    rw [Int.compare_eq_eq.mpr rfl]
    rcases Nat.lt_trichotomy m₁ m₂ with below | same | above
    · rw [Nat.compare_eq_lt.mpr below, Int.compare_eq_lt.mpr (by omega)]
      rfl
    · rw [Nat.compare_eq_eq.mpr same, Int.compare_eq_eq.mpr (by omega)]
      rfl
    · rw [Nat.compare_eq_gt.mpr above, Int.compare_eq_gt.mpr (by omega)]
      rfl
  · rw [Int.compare_eq_gt.mpr above, Int.compare_eq_gt.mpr (by omega)]
    rfl

private theorem swap_compare (a b : Int) : (compare a b).swap = compare (-a) (-b) := by
  rcases Int.lt_trichotomy a b with below | rfl | above
  · rw [Int.compare_eq_lt.mpr below, Int.compare_eq_gt.mpr (by omega)]
    rfl
  · rw [Int.compare_eq_eq.mpr rfl, Int.compare_eq_eq.mpr rfl]
    rfl
  · rw [Int.compare_eq_gt.mpr above, Int.compare_eq_lt.mpr (by omega)]
    rfl

/-- The place of a finite number lies strictly between those of zero and infinity. -/
theorem level_bounds {m : Nat} {e : Int} (positive : 0 < m)
    (canonical : m < 2 ^ 24 ∧ -149 ≤ e ∧ e ≤ 104 ∧ (e ≠ -149 → 2 ^ 23 ≤ m)) :
    0 < (e + 149) * 2 ^ 23 + m ∧ (e + 149) * 2 ^ 23 + (m : Int) < 255 * 2 ^ 23 := by
  omega

private theorem compare_levels (x y : UnpackedFloat) (first : Canonical x) (second : Canonical y)
    (isFirst : x.isNaN = false) (isSecond : y.isNaN = false) :
    x.compare y = some (compare (unpackedLevel x) (unpackedLevel y)) := by
  have lt {a b : Int} (below : a < b) : compare a b = .lt := Int.compare_eq_lt.mpr below
  have gt {a b : Int} (above : b < a) : compare a b = .gt := Int.compare_eq_gt.mpr above
  cases x with
  | notANumber => cases isFirst
  | infinity s =>
    cases y with
    | notANumber => cases isSecond
    | infinity t => cases s <;> cases t <;> rfl
    | zero t => cases s <;> rfl
    | finite t n f positive =>
      have bounds := level_bounds positive second
      cases s <;> cases t <;> dsimp only [UnpackedFloat.compare, unpackedLevel, Sign.apply]
      · rw [lt (by omega)]
      · rw [lt (by omega)]
      · rw [gt (by omega)]
      · rw [gt (by omega)]
  | zero s =>
    cases y with
    | notANumber => cases isSecond
    | infinity t => cases t <;> rfl
    | zero t => rfl
    | finite t n f positive =>
      have bounds := level_bounds positive second
      cases t <;> dsimp only [UnpackedFloat.compare, unpackedLevel, Sign.apply]
      · rw [gt (by omega)]
      · rw [lt (by omega)]
  | finite s m e positive =>
    have bounds := level_bounds positive first
    cases y with
    | notANumber => cases isSecond
    | infinity t =>
      cases s <;> cases t <;> dsimp only [UnpackedFloat.compare, unpackedLevel, Sign.apply]
      · rw [gt (by omega)]
      · rw [lt (by omega)]
      · rw [gt (by omega)]
      · rw [lt (by omega)]
    | zero t =>
      cases s <;> dsimp only [UnpackedFloat.compare, unpackedLevel, Sign.apply]
      · rw [lt (by omega)]
      · rw [gt (by omega)]
    | finite t n f positive =>
      have others := level_bounds positive second
      cases s <;> cases t <;> dsimp only [UnpackedFloat.compare, unpackedLevel, Sign.apply]
      · rw [compare_fields first second, swap_compare]
      · rw [lt (by omega)]
      · rw [gt (by omega)]
      · rw [compare_fields first second]

/-- The place of an unpacked number is that of its bits. -/
theorem level_eq {x : Float32} (isNumber : x.isNaN = false) :
    unpackedLevel x.toModel.unpack = level x :=
  (unpack_fields x).level x.toBits.toNat_lt isNumber

private theorem compare_eq {x y : Float32} (isFirst : x.isNaN = false) (isSecond : y.isNaN = false) :
    x.toModel.unpack.compare y.toModel.unpack = some (compare (level x) (level y)) := by
  rw [compare_levels _ _ (unpack_fields x).canonical (unpack_fields y).canonical isFirst isSecond,
    level_eq isFirst, level_eq isSecond]

/-- There is one shape for what is not a number. -/
theorem unpack_of_isNaN {x : Float32} (odd : x.isNaN) : x.toModel.unpack = .notANumber := by
  have odd : x.toModel.unpack.isNaN = true := odd
  cases shape : x.toModel.unpack with
  | notANumber => rfl
  | _ => rw [shape] at odd; cases odd

/-- What is not a number has no order. -/
theorem compare_nan {x y : Float32} (odd : x.isNaN ∨ y.isNaN) :
    x.toModel.unpack.compare y.toModel.unpack = none := by
  rcases odd with odd | odd
  · rw [unpack_of_isNaN odd]
    rfl
  · rw [unpack_of_isNaN odd]
    cases x.toModel.unpack <;> rfl

/-- A test passes for a comparison of numbers if it does for that of their places. What is not a number passes
none. -/
theorem comparison_iff {x y : Float32} (test : Option Ordering → Bool) (silent : test none = false) :
    test (x.toModel.unpack.compare y.toModel.unpack) ↔
      x.isNaN = false ∧ y.isNaN = false ∧ test (some (compare (level x) (level y))) := by
  by_cases odd : x.isNaN ∨ y.isNaN
  · rw [compare_nan odd, silent]
    exact ⟨nofun, fun ordered => by
      simp only [ordered.1, ordered.2.1, Bool.false_eq_true, or_self] at odd⟩
  · obtain ⟨isFirst, isSecond⟩ : x.isNaN = false ∧ y.isNaN = false := by
      simpa only [not_or, Bool.not_eq_true] using odd
    rw [compare_eq isFirst isSecond]
    exact ⟨fun ordered => ⟨isFirst, isSecond, ordered⟩, fun ordered => ordered.2.2⟩

/-- A number is smaller than another one where neither is no number and its place comes first. -/
theorem lt_iff {x y : Float32} :
    x < y ↔ x.isNaN = false ∧ y.isNaN = false ∧ level x < level y := by
  have unfolded : x < y ↔ (x.toModel.unpack.compare y.toModel.unpack == some .lt) = true :=
    decide_eq_true_iff
  rw [unfolded, comparison_iff (· == some .lt) rfl, beq_iff_eq, Option.some.injEq, Int.compare_eq_lt]

theorem le_iff {x y : Float32} :
    x ≤ y ↔ x.isNaN = false ∧ y.isNaN = false ∧ level x ≤ level y := by
  have unfolded : x ≤ y ↔ (x.toModel.unpack.compare y.toModel.unpack).any (·.isLE) = true :=
    decide_eq_true_iff
  rw [unfolded, comparison_iff (Option.any (·.isLE)) rfl, Option.any_some, Int.isLE_compare]

/-- Equal numbers have one place. Both zeros are equal. -/
theorem beq_iff {x y : Float32} :
    x == y ↔ x.isNaN = false ∧ y.isNaN = false ∧ level x = level y := by
  have unfolded : (x == y) = (x.toModel.unpack.compare y.toModel.unpack == some .eq) := rfl
  rw [unfolded, comparison_iff (· == some .eq) rfl, beq_iff_eq, Option.some.injEq, Int.compare_eq_eq]

/-- What is not a number makes a product no number. -/
theorem mul_isNaN {x y : Float32} (odd : y.isNaN) : (x * y).isNaN := by
  have outcome : UnpackedFloat.mul .binary32 x.toModel.unpack .notANumber = .notANumber := by
    cases x.toModel.unpack <;> rfl
  rw [mul_unpack, unpack_of_isNaN odd, outcome]
  rfl

/-- Two numbers are in order one way or the other. -/
theorem not_le_iff {x y : Float32} (isFirst : x.isNaN = false) (isSecond : y.isNaN = false) :
    ¬ x ≤ y ↔ y < x := by
  rw [le_iff, lt_iff]
  simp only [isFirst, isSecond, true_and, not_le]

theorem le_trans {x y z : Float32} (first : x ≤ y) (second : y ≤ z) : x ≤ z := by
  rw [le_iff] at first second ⊢
  exact ⟨first.1, second.2.1, Int.le_trans first.2.2 second.2.2⟩

theorem lt_irrefl (x : Float32) : ¬ x < x := fun below => Int.lt_irrefl _ (lt_iff.mp below).2.2

/-- The larger of two numbers is not below either. -/
theorem both_le_max {x y : Float32} (isFirst : x.isNaN = false) (isSecond : y.isNaN = false) :
    x ≤ max x y ∧ y ≤ max x y := by
  by_cases below : x < y
  · have larger : max x y = y := by simp only [max, below, decide_true, Bool.true_or, if_true]
    rw [larger, le_iff, le_iff]
    exact ⟨⟨isFirst, isSecond, Int.le_of_lt (lt_iff.mp below).2.2⟩, isSecond, isSecond, Int.le_refl _⟩
  · have larger : max x y = x := by
      simp only [max, below, isFirst, decide_false, Bool.or_self, Bool.false_eq_true, if_false]
    have above : y ≤ x := by
      by_contra lower
      exact below ((not_le_iff isSecond isFirst).mp lower)
    rw [larger]
    exact ⟨le_iff.mpr ⟨isFirst, isFirst, Int.le_refl _⟩, above⟩

theorem eq_of_bits_eq {x y : Float32} (same : x.toBits.toNat = y.toBits.toNat) : x = y := by
  obtain ⟨⟨x, _⟩⟩ := x
  obtain ⟨⟨y, _⟩⟩ := y
  obtain rfl : x = y := UInt32.toNat_inj.mp same
  rfl

/-- Numbers at the same place have the same bits, unless they are zeros. -/
theorem eq_of_level_eq {x y : Float32} (same : level x = level y) (away : level x ≠ 0) : x = y := by
  have first := x.toBits.toNat_lt
  have second := y.toBits.toNat_lt
  apply eq_of_bits_eq
  unfold level at same away
  split at same <;> split at same <;> simp only [*, ↓reduceIte] at away <;> omega

/-- What is cut off at a bound and not below it is the bound itself, to the bit. -/
theorem min_eq_of_not_lt {x bound : Float32} (isNumber : bound.isNaN = false)
    (away : level bound ≠ 0) (full : ¬ min x bound < bound) : min x bound = bound := by
  unfold min at full ⊢
  split
  · rfl
  · rename_i kept
    simp only [Bool.or_eq_true, decide_eq_true_eq, not_or, Bool.not_eq_true] at kept
    simp only [kept, decide_false, Bool.or_self, Bool.false_eq_true, ↓reduceIte] at full
    have same : level x = level bound := by
      rw [lt_iff] at full kept
      have below := kept.1
      simp only [isNumber, kept.2, true_and] at full below
      omega
    exact eq_of_level_eq same (same ▸ away)

/-- What is below a bound is not cut off at it. -/
theorem min_eq_of_lt {x bound : Float32} (below : x < bound) : min x bound = x := by
  have inside := lt_iff.mp below
  have kept : ¬ bound < x := fun above => by
    have outside := lt_iff.mp above
    omega
  simp only [min, kept, inside.1, decide_false, Bool.or_self, Bool.false_eq_true, ↓reduceIte]

/-- What is cut off at a bound that it reaches is not below the bound. -/
theorem not_min_lt {x bound : Float32} (reached : bound ≤ x) : ¬ min x bound < bound := by
  unfold min
  rw [le_iff] at reached
  split <;> rw [lt_iff] <;> omega

end Sapling.Scalar
