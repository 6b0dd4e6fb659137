import Sapling.Proofs.Scalar.Bounds

/-! Operations keep the order of numbers, with infinity beyond the finite ones. Equal exact results are treated
apart: ties and the signs of zeros leave a choice, so what a number rounds does not alone determine it. -/
namespace Sapling.Scalar

open Float.Model
open UnpackedFloat (Sign)

section
variable {x x' y z : Float32} {v w : ℝ}

private theorem limit_pos : 0 < limit := dyadic_pos (by decide)

theorem level_of_infinity {sign : Sign} (infinite : x.toModel.unpack = .infinity sign) :
    level x = sign.apply (255 * 2 ^ 23) := by
  have isNumber : x.toModel.unpack.isNaN = false := by
    rw [infinite]
    rfl
  rw [← level_eq isNumber, infinite]
  rfl

private theorem level_of_infinite (isNumber : x.isNaN = false) (infinite : ¬ x.isFinite) :
    level x = 255 * 2 ^ 23 ∨ level x = -(255 * 2 ^ 23) := by
  obtain ⟨sign, shape⟩ := infinity_of_not_isFinite isNumber infinite
  rw [level_of_infinity shape]
  cases sign <;> decide

private theorem level_within (isNumber : x.isNaN = false) :
    -(255 * 2 ^ 23) ≤ level x ∧ level x ≤ 255 * 2 ^ 23 := by
  by_cases finite : x.isFinite
  · have inside := levels_of_isFinite finite
    omega
  · have ends := level_of_infinite isNumber finite
    omega

/-- What is rounded to an infinity is at the limit or beyond it, on the same side of zero. -/
theorem Rounds.beyond (rounds : Rounds v x) (infinite : ¬ x.isFinite) :
    limit ≤ v ∧ level x = 255 * 2 ^ 23 ∨ v ≤ -limit ∧ level x = -(255 * 2 ^ 23) := by
  have origin : level 0 = 0 := by decide
  obtain ⟨sign, shape⟩ := infinity_of_not_isFinite rounds.isNumber infinite
  have place := level_of_infinity shape
  rcases le_abs.mp (not_lt.mp (mt rounds.bounded infinite)) with above | below
  · have up := rounds.above 0 rfl (by rw [value_zero]; linarith [limit_pos])
    cases sign with
    | positive => exact .inl ⟨above, place⟩
    | negative =>
      rw [place, origin] at up
      exact absurd up (by decide)
  · have down := rounds.below 0 rfl (by rw [value_zero]; linarith [limit_pos])
    cases sign with
    | positive =>
      rw [place, origin] at down
      exact absurd down (by decide)
    | negative => exact .inr ⟨le_neg_of_le_neg below, place⟩

/-- A larger result is not rounded to a smaller number. -/
theorem Rounds.mono (first : Rounds v x) (second : Rounds w y) (less : v < w) : x ≤ y := by
  refine le_iff.mpr ⟨first.isNumber, second.isNumber, ?_⟩
  by_cases finite : x.isFinite
  · by_cases finite' : y.isFinite
    · exact (level_le_iff finite finite').mpr (first.le second less finite finite')
    · rcases second.beyond finite' with ⟨-, top⟩ | ⟨below, -⟩
      · rw [top]
        exact (level_within first.isNumber).2
      · exact absurd finite (first.unbounded (lt_abs.mpr (.inr (by linarith))))
  · rcases first.beyond finite with ⟨above, top⟩ | ⟨-, bottom⟩
    · have infinite := second.unbounded (lt_abs.mpr (.inl (above.trans_lt less)))
      rcases second.beyond infinite with ⟨-, top'⟩ | ⟨below, -⟩
      · rw [top, top']
      · linarith [limit_pos]
    · rw [bottom]
      exact (level_within second.isNumber).1

/-- A result that needs no rounding has one place. -/
theorem Rounds.level_eq (rounds : Rounds (value z) x) (finite : z.isFinite) : level x = level z :=
  Int.le_antisymm (rounds.below z finite le_rfl) (rounds.above z finite le_rfl)

/-- A result of exactly zero is one of the two zeros. -/
theorem Rounds.level_zero (rounds : Rounds 0 x) : level x = 0 :=
  Rounds.level_eq (z := 0) (by rwa [value_zero]) rfl

private theorem value_eq_zero (finite : x.isFinite) (origin : level x = 0) : value x = 0 := by
  have zero : level x = level 0 := origin
  have below := (level_le_iff finite (y := 0) rfl).mp zero.le
  have above := (level_le_iff (x := 0) rfl finite).mp zero.ge
  rw [value_zero] at below above
  exact le_antisymm below above

theorem le_of_level_eq (first : x.isNaN = false) (second : y.isNaN = false) (same : level x = level y) :
    x ≤ y := le_iff.mpr ⟨first, second, same.le⟩

theorem number_le_self (isNumber : x.isNaN = false) : x ≤ x := le_of_level_eq isNumber isNumber rfl

/-- An operation that rounds nothing at zero gives numbers of one value results at one place. -/
theorem level_congr (f : Float32 → Float32) (exact : ℝ → ℝ)
    (rounds : ∀ z : Float32, z.isFinite → Rounds (exact (value z)) (f z))
    (origin : Representable (exact 0)) (finite : x.isFinite) (finite' : x'.isFinite)
    (same : value x = value x') : level (f x) = level (f x') := by
  by_cases zero : level x = 0
  · have vanishes := value_eq_zero finite zero
    have first := rounds x finite
    have second := rounds x' finite'
    obtain ⟨z, bounded, isValue⟩ := origin
    rw [vanishes, ← isValue] at first
    rw [← same, vanishes, ← isValue] at second
    exact (first.level_eq bounded).trans (second.level_eq bounded).symm
  · rw [eq_of_value_eq finite finite' same zero]

/-- What rounds a rising function, and nothing at zero, keeps the order of numbers. -/
theorem rising (f : Float32 → Float32) (exact : ℝ → ℝ)
    (rounds : ∀ z : Float32, z.isFinite → Rounds (exact (value z)) (f z)) (strict : StrictMono exact)
    (origin : Representable (exact 0)) (finite : x.isFinite) (finite' : x'.isFinite) (ordered : x ≤ x') :
    f x ≤ f x' := by
  rcases ((le_iff_value finite finite').mp ordered).lt_or_eq with less | same
  · exact (rounds x finite).mono (rounds x' finite') (strict less)
  · exact le_of_level_eq (rounds x finite).isNumber (rounds x' finite').isNumber
      (level_congr f exact rounds origin finite finite' same)

/-- What rounds a falling function, and nothing at zero, turns the order around. -/
theorem falling (f : Float32 → Float32) (exact : ℝ → ℝ)
    (rounds : ∀ z : Float32, z.isFinite → Rounds (exact (value z)) (f z)) (strict : StrictAnti exact)
    (origin : Representable (exact 0)) (finite : x.isFinite) (finite' : x'.isFinite) (ordered : x ≤ x') :
    f x' ≤ f x := by
  rcases ((le_iff_value finite finite').mp ordered).lt_or_eq with less | same
  · exact (rounds x' finite').mono (rounds x finite) (strict less)
  · exact le_of_level_eq (rounds x' finite').isNumber (rounds x finite).isNumber
      (level_congr f exact rounds origin finite finite' same).symm

/-! ## Operations -/

/-- Adding a finite number keeps the order of finite numbers, also where a sum overflows. -/
theorem sum_mono (finite : x.isFinite) (finite' : x'.isFinite) (bounded : y.isFinite)
    (ordered : x ≤ x') : x + y ≤ x' + y :=
  rising (· + y) (· + value y) (fun _ given => rounds_add given bounded) (add_left_strictMono (a := value y))
    (by rw [zero_add]; exact representable_value bounded) finite finite' ordered

theorem sum_mono_right (finite : x.isFinite) (finite' : x'.isFinite) (bounded : y.isFinite)
    (ordered : x ≤ x') : y + x ≤ y + x' :=
  rising (y + ·) (value y + ·) (fun _ given => rounds_add bounded given) (add_right_strictMono (a := value y))
    (by rw [add_zero]; exact representable_value bounded) finite finite' ordered

/-- Taking away a finite number keeps the order of finite numbers. -/
theorem difference_mono (finite : x.isFinite) (finite' : x'.isFinite) (bounded : y.isFinite)
    (ordered : x ≤ x') : x - y ≤ x' - y := by
  rw [sub_eq_add, sub_eq_add]
  exact sum_mono finite finite' ((isFinite_neg y).trans bounded) ordered

/-- Products with zero are zeros. -/
theorem level_product_zero (finite : x.isFinite) (bounded : y.isFinite) (vanishes : value y = 0) :
    level (x * y) = 0 := by
  have rounds := rounds_mul finite bounded
  rw [vanishes, mul_zero] at rounds
  exact rounds.level_zero

/-- A factor that is not negative keeps the order of finite numbers. -/
theorem product_mono (finite : x.isFinite) (finite' : x'.isFinite) (bounded : y.isFinite)
    (ordered : x ≤ x') (up : 0 ≤ value y) : x * y ≤ x' * y := by
  rcases up.lt_or_eq with positive | vanishes
  · exact rising (· * y) (· * value y) (fun _ given => rounds_mul given bounded)
      (fun _ _ less => mul_lt_mul_of_pos_right less positive)
      (by rw [zero_mul]; exact representable_zero) finite finite' ordered
  · exact le_of_level_eq (rounds_mul finite bounded).isNumber (rounds_mul finite' bounded).isNumber
      ((level_product_zero finite bounded vanishes.symm).trans
        (level_product_zero finite' bounded vanishes.symm).symm)

/-- A factor that is not positive turns the order of finite numbers. -/
theorem product_anti (finite : x.isFinite) (finite' : x'.isFinite) (bounded : y.isFinite)
    (ordered : x ≤ x') (down : value y ≤ 0) : x' * y ≤ x * y := by
  rcases down.lt_or_eq with negative | vanishes
  · exact falling (· * y) (· * value y) (fun _ given => rounds_mul given bounded)
      (fun _ _ less => mul_lt_mul_of_neg_right less negative)
      (by rw [zero_mul]; exact representable_zero) finite finite' ordered
  · exact le_of_level_eq (rounds_mul finite' bounded).isNumber (rounds_mul finite bounded).isNumber
      ((level_product_zero finite' bounded vanishes).trans (level_product_zero finite bounded vanishes).symm)

/-- A product does not depend on the order of its factors, not even in its bits. -/
theorem product_comm (x y : Float32) : x * y = y * x := by
  have same (u v : UnpackedFloat) : UnpackedFloat.mul .binary32 u v = .mul .binary32 v u := by
    have signs (s t : Sign) : s * t = t * s := by cases s <;> cases t <;> rfl
    cases u <;> cases v <;> dsimp only [UnpackedFloat.mul] <;>
      simp only [signs, Nat.mul_comm, Int.add_comm]
  rw [mul_unpack, mul_unpack, same]

/-- An infinity divided by a positive number stays where it is. -/
theorem level_infinite_div (isNumber : x.isNaN = false) (infinite : ¬ x.isFinite) (bounded : y.isFinite)
    (divisorPos : 0 < value y) : level (x / y) = level x := by
  obtain ⟨sign, shape⟩ := infinity_of_not_isFinite isNumber infinite
  obtain ⟨sign', m, e, positive, shape'⟩ := finite_of_value_ne_zero bounded divisorPos.ne'
  have size := value_of_parts shape'
  have above := dyadic_pos (e := e) positive
  cases sign' with
  | negative =>
    rw [size, signed_negative] at divisorPos
    linarith
  | positive =>
    have outcome : UnpackedFloat.div .binary32 (.infinity sign) (.finite .positive m e positive) =
        .infinity (sign / .positive) := rfl
    rw [div_unpack, shape, shape', outcome, level_of_infinity shape]
    cases sign <;> decide

/-- Quotients by a positive number are in the order of what is divided, infinities included. -/
theorem quotient_mono (ordered : x ≤ x') (bounded : y.isFinite) (divisorPos : 0 < value y) :
    x / y ≤ x' / y := by
  obtain ⟨isFirst, isSecond, places⟩ := le_iff.mp ordered
  have quotient {z : Float32} (isNumber : z.isNaN = false) : (z / y).isNaN = false :=
    div_isNumber isNumber (isNaN_of_isFinite bounded) (fun _ => divisorPos.ne') (.inr bounded)
  by_cases finite : x.isFinite <;> by_cases finite' : x'.isFinite
  · exact rising (· / y) (· / value y) (fun _ given => rounds_div given bounded divisorPos.ne')
      (fun _ _ less => div_lt_div_of_pos_right less divisorPos) (by simpa using representable_zero)
      finite finite' ordered
  all_goals refine le_iff.mpr ⟨quotient isFirst, quotient isSecond, ?_⟩
  · have top := level_infinite_div isSecond finite' bounded divisorPos
    have inside := levels_of_isFinite finite
    have within := level_within (quotient isFirst)
    have far := level_of_infinite isSecond finite'
    omega
  · have bottom := level_infinite_div isFirst finite bounded divisorPos
    have inside := levels_of_isFinite finite'
    have within := level_within (quotient isSecond)
    have far := level_of_infinite isFirst finite
    omega
  · rw [level_infinite_div isFirst finite bounded divisorPos, level_infinite_div isSecond finite' bounded divisorPos]
    exact places

/-- Numbers stay in order when they are moved into an interval. -/
theorem clamp_mono {low high : Float32} (first : low.isFinite) (second : high.isFinite)
    (ends : low ≤ high) (ordered : x ≤ x') : clamp x low high ≤ clamp x' low high := by
  obtain ⟨isFirst, isSecond, places⟩ := le_iff.mp ordered
  obtain ⟨isLow, isHigh, bounds⟩ := le_iff.mp ends
  have place {z : Float32} (isNumber : z.isNaN = false) :
      level (clamp z low high) = Min.min (Max.max (level z) (level low)) (level high) := by
    have below : z < low ↔ level z < level low := by simp only [lt_iff, isNumber, isLow, true_and]
    have above : high < z ↔ level high < level z := by simp only [lt_iff, isNumber, isHigh, true_and]
    have apart : ¬ high < low := by simp only [lt_iff, isLow, isHigh, true_and]; omega
    unfold clamp
    by_cases under : z < low
    · simp only [under, apart, ↓reduceIte]
      have under := below.mp under
      omega
    · by_cases beyond : high < z
      · simp only [under, beyond, ↓reduceIte]
        have beyond := above.mp beyond
        omega
      · simp only [under, beyond, ↓reduceIte]
        have under := mt below.mpr under
        have beyond := mt above.mpr beyond
        omega
  refine le_iff.mpr ⟨isNaN_of_isFinite (clamp_between isFirst first second ends).finite,
    isNaN_of_isFinite (clamp_between isSecond first second ends).finite, ?_⟩
  rw [place isFirst, place isSecond]
  omega

end


end Sapling.Scalar
