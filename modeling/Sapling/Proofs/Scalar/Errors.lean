import Sapling.Proofs.Scalar.Bounds

/-! How far rounded results are from exact ones. A finite result is off by half a unit in its last place, which is a
part of it unless it is tiny, and a budget of size and error goes with a number through sums and products. -/
namespace Sapling.Scalar

open Float.Model

section
variable {x y : Float32} {v v' s s' e e' : ℝ}

/-! ## Results without error -/

/-- A product that is a number itself is not rounded. -/
theorem mul_exact (first : x.isFinite) (second : y.isFinite) (isProduct : value x * value y = v)
    (exact : Representable v) : (x * y).isFinite ∧ value (x * y) = v := by
  subst isProduct
  exact (rounds_mul first second).exact exact

theorem sub_exact (first : x.isFinite) (second : y.isFinite) (isDifference : value x - value y = v)
    (exact : Representable v) : (x - y).isFinite ∧ value (x - y) = v := by
  subst isDifference
  exact (rounds_sub first second).exact exact

/-! ## Errors as parts of a result -/

/-- Before infinity the numbers are as far apart as after the last power of two. -/
theorem exists_near_of_lt_limit (up : 0 ≤ v) (inside : v ≤ limit) :
    ∃ m : ℕ, m < 2 ^ 24 ∧ |dyadic m 104 - v| ≤ 2 ^ (103 : ℤ) := by
  have unit : (0 : ℝ) < 2 ^ (104 : ℤ) := by positivity
  have half : (2 : ℝ) ^ (104 : ℤ) = 2 * 2 ^ (103 : ℤ) := by norm_num
  have last : limit = (2 ^ 24 - 1 / 2) * 2 ^ (104 : ℤ) := by norm_num [limit, dyadic]
  have whole : v = v / 2 ^ (104 : ℤ) * 2 ^ (104 : ℤ) := (div_mul_cancel₀ _ unit.ne').symm
  have most : v / 2 ^ (104 : ℤ) ≤ 2 ^ 24 - 1 / 2 := by rwa [div_le_iff₀ unit, ← last]
  have low := Nat.floor_le (div_nonneg up unit.le)
  have high := Nat.lt_floor_add_one (v / 2 ^ (104 : ℤ))
  generalize v / 2 ^ (104 : ℤ) = units at *
  have few : ⌊units⌋₊ < 2 ^ 24 := by
    have few : (⌊units⌋₊ : ℝ) < 2 ^ 24 := by linarith
    exact_mod_cast few
  have scaled {n : ℕ} (near : |n - units| ≤ 1 / 2) : |dyadic n 104 - v| ≤ 2 ^ (103 : ℤ) := by
    rw [whole, dyadic, ← sub_mul, abs_mul, abs_of_pos unit, half]
    nlinarith
  rcases le_or_gt (units - ⌊units⌋₊) (1 / 2) with near | far
  · exact ⟨⌊units⌋₊, few, scaled (by rw [abs_le]; constructor <;> linarith)⟩
  · refine ⟨⌊units⌋₊ + 1, ?_, scaled (by push_cast; rw [abs_le]; constructor <;> linarith)⟩
    have more : (⌊units⌋₊ : ℝ) + 1 < 2 ^ 24 := by linarith
    exact_mod_cast more

private theorem Rounds.last_error (rounds : Rounds v x) (finite : x.isFinite) : |value x - v| ≤ 2 ^ (103 : ℤ) := by
  have inside : |v| ≤ limit := not_lt.mp fun beyond => rounds.unbounded beyond finite
  obtain ⟨m, few, near⟩ := exists_near_of_lt_limit (abs_nonneg v) inside
  obtain ⟨y, finite', isValue⟩ := representable_dyadic few (show (-149 : ℤ) ≤ 104 by decide) le_rfl
  rw [← isValue] at near
  rcases abs_cases v with ⟨isAbs, -⟩ | ⟨isAbs, -⟩
  · rw [isAbs] at near
    exact (rounds.nearest finite y finite').trans near
  · have mirrored := rounds.nearest finite (-y) ((isFinite_neg y).trans finite')
    rw [isAbs, sub_neg_eq_add] at near
    rw [value_neg, ← neg_add', abs_neg] at mirrored
    exact mirrored.trans near

/-- A finite result is off by no more than half a unit in its last place, relative to the exact one, or by half the
least positive number. -/
theorem Rounds.relative_error (rounds : Rounds v x) (finite : x.isFinite) :
    |value x - v| ≤ 2 ^ (-24 : ℤ) * |v| + 2 ^ (-150 : ℤ) := by
  have part : 0 ≤ 2 ^ (-24 : ℤ) * |v| := by positivity
  have least : (0 : ℝ) < 2 ^ (-150 : ℤ) := by positivity
  rcases le_or_gt |v| (2 ^ (-125 : ℤ)) with small | large
  · have error := rounds.error le_rfl (by decide) small
    rw [show (-125 - 25 : ℤ) = -150 by decide] at error
    linarith
  · obtain ⟨n, low, high⟩ := exists_mem_Ioc_zpow (lt_trans (by positivity) large) one_lt_two
    have split : (2 : ℝ) ^ (-24 : ℤ) * 2 ^ n = 2 ^ (n + 1 - 25) := by
      rw [← zpow_add₀ two_ne_zero]
      congr 1
      omega
    have bounded : (2 : ℝ) ^ (n + 1 - 25) ≤ 2 ^ (-24 : ℤ) * |v| := by
      rw [← split]
      gcongr
    have above : -126 < n := by
      by_contra below
      have power : (2 : ℝ) ^ (n + 1) ≤ 2 ^ (-125 : ℤ) := zpow_le_zpow_right₀ one_le_two (by omega)
      linarith
    rcases le_or_gt n 126 with inside | beyond
    · have error := rounds.error (by omega) (by omega) high
      linarith
    · have error := rounds.last_error finite
      have power : (2 : ℝ) ^ (103 : ℤ) ≤ 2 ^ (n + 1 - 25) := zpow_le_zpow_right₀ one_le_two (by omega)
      linarith

/-! ## Budgets -/

/-- A finite number, with bounds on the exact result that it stands for and on its distance from it. -/
structure Close (size error v : ℝ) (x : Float32) : Prop where
  finite : x.isFinite
  size : |v| ≤ size
  error : |value x - v| ≤ error

theorem close_value (finite : x.isFinite) (small : |value x| ≤ s) : Close s 0 (value x) x :=
  ⟨finite, small, by rw [sub_self, abs_zero]⟩

theorem Close.weaken (close : Close s e v x) (wider : s ≤ s') (looser : e ≤ e') : Close s' e' v x :=
  ⟨close.finite, close.size.trans wider, close.error.trans looser⟩

private theorem Close.size_nonneg (close : Close s e v x) : 0 ≤ s := (abs_nonneg v).trans close.size

private theorem Close.error_nonneg (close : Close s e v x) : 0 ≤ e := (abs_nonneg _).trans close.error

/-- The rounded number is no larger than size and error together. -/
theorem Close.magnitude (close : Close s e v x) : |value x| ≤ s + e := by
  have apart := abs_sub_abs_le_abs_sub (value x) v
  linarith [close.size, close.error]

/-- A result of numbers with errors of their own is rounded once more, by half a unit in the last place of a power of
two that bounds it. -/
theorem Rounds.close (rounds : Rounds v' x) (k : ℤ) (fits : |v'| ≤ 2 ^ k) (range : -125 ≤ k ∧ k ≤ 127)
    (small : |v| ≤ s) (off : |v' - v| ≤ e) : Close s (e + 2 ^ (k - 25)) v x := by
  have power := representable_power (show -149 ≤ k by omega) range.2
  obtain ⟨low, high⟩ := abs_le.mp fits
  refine ⟨(rounds.between power.neg power low high).finite, small, ?_⟩
  have error := rounds.error range.1 range.2 fits
  linarith [abs_sub_le (value x) v' v]

/-- The errors of a sum add up, with one more for its rounding. -/
theorem Close.add (first : Close s e v x) (second : Close s' e' v' y) (k : ℤ)
    (fits : s + e + (s' + e') ≤ 2 ^ k ∧ -125 ≤ k ∧ k ≤ 127) :
    Close (s + s') (e + e' + 2 ^ (k - 25)) (v + v') (x + y) := by
  refine (rounds_add first.finite second.finite).close k ?_ fits.2 ?_ ?_
  · exact (abs_add_le _ _).trans ((add_le_add first.magnitude second.magnitude).trans fits.1)
  · exact (abs_add_le _ _).trans (add_le_add first.size second.size)
  · rw [add_sub_add_comm]
    exact (abs_add_le _ _).trans (add_le_add first.error second.error)

private theorem Close.neg (close : Close s e v x) : Close s e (-v) (-x) := by
  refine ⟨(isFinite_neg x).trans close.finite, by rw [abs_neg]; exact close.size, ?_⟩
  rw [value_neg, ← neg_sub', abs_neg]
  exact close.error

theorem Close.sub (first : Close s e v x) (second : Close s' e' v' y) (k : ℤ)
    (fits : s + e + (s' + e') ≤ 2 ^ k ∧ -125 ≤ k ∧ k ≤ 127) :
    Close (s + s') (e + e' + 2 ^ (k - 25)) (v - v') (x - y) := by
  rw [sub_eq_add_neg, sub_eq_add]
  exact first.add second.neg k fits

/-- In a product each error is scaled by the other factor, and its rounding adds one more. -/
theorem Close.mul (first : Close s e v x) (second : Close s' e' v' y) (k : ℤ)
    (fits : (s + e) * (s' + e') ≤ 2 ^ k ∧ -125 ≤ k ∧ k ≤ 127) :
    Close (s * s') (e * (s' + e') + s * e' + 2 ^ (k - 25)) (v * v') (x * y) := by
  refine (rounds_mul first.finite second.finite).close k ?_ fits.2 ?_ ?_
  · rw [abs_mul]
    exact (mul_le_mul first.magnitude second.magnitude (abs_nonneg _)
      (add_nonneg first.size_nonneg first.error_nonneg)).trans fits.1
  · rw [abs_mul]
    exact mul_le_mul first.size second.size (abs_nonneg _) first.size_nonneg
  · have split : value x * value y - v * v' = (value x - v) * value y + v * (value y - v') := by ring
    rw [split]
    refine (abs_add_le _ _).trans (add_le_add ?_ ?_) <;> rw [abs_mul]
    · exact mul_le_mul first.error second.magnitude (abs_nonneg _) first.error_nonneg
    · exact mul_le_mul first.size second.error (abs_nonneg _) first.size_nonneg

end


end Sapling.Scalar
