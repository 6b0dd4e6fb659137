import Sapling.Geometry.Orientation
import Sapling.Proofs.Geometry.Directions
import Sapling.Proofs.Geometry.Frames

/-! Rotations with rounding. What three columns give is, up to a few roundings, a multiple of a column of products,
whichever of the four pivots is taken, and a quaternion near a unit one turns the third axis near where the exact one
turns it. -/
namespace Sapling

open Scalar Matrix

namespace Quat

/-- The components, the real one last. -/
def part (q : Quat) : Fin 4 → Float32 := ![q.x, q.y, q.z, q.w]

/-- The components as real numbers. -/
noncomputable def exact (q : Quat) : Fin 4 → ℝ := fun j => value (q.part j)

/-- The length without rounding. -/
noncomputable def size (q : Quat) : ℝ := √(q.exact ⬝ᵥ q.exact)

private theorem part_scale (q : Quat) (k : Float32) (j : Fin 4) : (q.scale k).part j = q.part j * k := by
  fin_cases j <;> rfl

private theorem part_normalize (q : Quat) (j : Fin 4) : q.normalize.part j = q.part j / q.length := by
  fin_cases j <;> rfl

theorem isFinite_iff {q : Quat} : q.isFinite ↔ ∀ j, (q.part j).isFinite := by
  simp [isFinite, Fin.forall_fin_succ, part, and_assoc]

/-! ## Columns -/

section
variable {p q r : Vec3} {a b : Float32} {v w : ℝ}

private theorem sum_near (first : Between (-8) 8 a) (second : Between (-8) 8 b) :
    Close 16 (2 ^ (-21 : ℤ)) (value a + value b) (a + b) := by
  refine ((close_value first.finite first.magnitude).add (close_value second.finite second.magnitude) 4 ?_).weaken
    ?_ ?_ <;> norm_num

private theorem difference_near (first : Between (-8) 8 a) (second : Between (-8) 8 b) :
    Close 16 (2 ^ (-21 : ℤ)) (value a - value b) (a - b) := by
  refine ((close_value first.finite first.magnitude).sub (close_value second.finite second.magnitude) 4 ?_).weaken
    ?_ ?_ <;> norm_num

/-- The pivot is at least one, since both numbers of its sum are taken with the sign that makes them so. -/
theorem pivot_near (first : Close 16 (2 ^ (-21 : ℤ)) v a) (above : 1 ≤ value a)
    (second : Close 16 (2 ^ (-21 : ℤ)) w b) :
    (b ≤ 0 → Close 32 (2 ^ (-18 : ℤ)) (v - w) (a - b) ∧ 1 ≤ value (a - b)) ∧
      (¬ b ≤ 0 → Close 32 (2 ^ (-18 : ℤ)) (v + w) (a + b) ∧ 1 ≤ value (a + b)) := by
  constructor
  · intro down
    rw [le_iff_value second.finite rfl, value_zero] at down
    have near := first.sub second 6 (by norm_num)
    refine ⟨near.weaken (by norm_num) (by norm_num), ?_⟩
    exact (rounds_sub first.finite second.finite).at_least representable_one (by linarith) near.finite
  · intro up
    rw [le_iff_value second.finite rfl, value_zero, not_le] at up
    have near := first.add second 6 (by norm_num)
    refine ⟨near.weaken (by norm_num) (by norm_num), ?_⟩
    exact (rounds_add first.finite second.finite).at_least representable_one (by linarith) near.finite

/-- Whichever pivot is taken, the components before the division are a column of products. -/
theorem exists_pivot (first : p.Within 8) (second : q.Within 8) (third : r.Within 8) :
    ∃ k, ∃ n : Quat, ofColumns p q r = n.scale (0.5 / (n.part k).sqrt) ∧ 1 ≤ value (n.part k) ∧
      ∀ j, Close 32 (2 ^ (-18 : ℤ)) (products p.exact q.exact r.exact k j) (n.part j) := by
  have one : Between (-8) 8 1 := ⟨rfl, by norm_num, by norm_num⟩
  have wide {v : ℝ} {x : Float32} (near : Close 16 (2 ^ (-21 : ℤ)) v x) : Close 32 (2 ^ (-18 : ℤ)) v x :=
    near.weaken (by norm_num) (by norm_num)
  have xy := wide (sum_near first.y second.x)
  have xz := wide (sum_near first.z third.x)
  have yz := wide (sum_near second.z third.y)
  have xw := wide (difference_near second.z third.y)
  have yw := wide (difference_near third.x first.z)
  have zw := wide (difference_near first.y second.x)
  by_cases down : r.z ≤ 0
  · have rest := difference_near one third.z
    have above : 1 ≤ value (1 - r.z) := by
      rw [le_iff_value third.z.finite rfl, value_zero] at down
      exact (rounds_sub rfl third.z.finite).at_least representable_one (by rw [value_one]; linarith) rest.finite
    obtain ⟨less, more⟩ := pivot_near rest above (difference_near second.y first.x)
    by_cases below : q.y - p.x ≤ 0
    · obtain ⟨near, least⟩ := less below
      rw [value_one, show 1 - value r.z - (value q.y - value p.x) = 1 + value p.x - value q.y - value r.z by ring]
        at near
      refine ⟨0, ⟨1 - r.z - (q.y - p.x), p.y + q.x, p.z + r.x, q.z - r.y⟩, ?_, least, fun j => ?_⟩
      · simp only [ofColumns, if_pos down, if_pos below]
        rfl
      · fin_cases j
        exacts [near, xy, xz, xw]
    · obtain ⟨near, least⟩ := more below
      rw [value_one, show 1 - value r.z + (value q.y - value p.x) = 1 - value p.x + value q.y - value r.z by ring]
        at near
      refine ⟨1, ⟨p.y + q.x, 1 - r.z + (q.y - p.x), q.z + r.y, r.x - p.z⟩, ?_, least, fun j => ?_⟩
      · simp only [ofColumns, if_pos down, if_neg below]
        rfl
      · fin_cases j
        exacts [xy, near, yz, yw]
  · have rest := sum_near one third.z
    have above : 1 ≤ value (1 + r.z) := by
      rw [le_iff_value third.z.finite rfl, value_zero, not_le] at down
      exact (rounds_add rfl third.z.finite).at_least representable_one (by rw [value_one]; linarith) rest.finite
    obtain ⟨less, more⟩ := pivot_near rest above (sum_near second.y first.x)
    by_cases below : q.y + p.x ≤ 0
    · obtain ⟨near, least⟩ := less below
      rw [value_one, show 1 + value r.z - (value q.y + value p.x) = 1 - value p.x - value q.y + value r.z by ring]
        at near
      refine ⟨2, ⟨p.z + r.x, q.z + r.y, 1 + r.z - (q.y + p.x), p.y - q.x⟩, ?_, least, fun j => ?_⟩
      · simp only [ofColumns, if_neg down, if_pos below]
        rfl
      · fin_cases j
        exacts [xz, yz, near, zw]
    · obtain ⟨near, least⟩ := more below
      rw [value_one, show 1 + value r.z + (value q.y + value p.x) = 1 + value p.x + value q.y + value r.z by ring]
        at near
      refine ⟨3, ⟨q.z - r.y, r.x - p.z, p.y - q.x, 1 + r.z + (q.y + p.x)⟩, ?_, least, fun j => ?_⟩
      · simp only [ofColumns, if_neg down, if_neg below]
        rfl
      · fin_cases j
        exacts [xw, yw, zw, near]

/-- Half the inverse of the root of a pivot. -/
theorem inverse_between (near : Close 32 (2 ^ (-18 : ℤ)) v a) (least : 1 ≤ value a) :
    Between (1 / 16) (1 / 2) (0.5 / a.sqrt) := by
  have most : value a ≤ 8 ^ 2 := by
    have magnitude := near.magnitude
    norm_num at magnitude ⊢
    linarith [le_abs_self (value a)]
  have root : Between 1 8 a.sqrt := by
    refine (rounds_sqrt near.finite (by linarith)).between representable_one ?_ ?_ ?_
    · exact representable_natural (n := 8) (by norm_num) (by norm_num)
    · rwa [Real.one_le_sqrt]
    · exact Real.sqrt_le_iff.mpr ⟨by norm_num, most⟩
  have positive : 0 < value a.sqrt := by linarith [root.low]
  have half : Representable (1 / 2) := ⟨0.5, by decide, value_half⟩
  have rounds := rounds_div (show (0.5 : Float32).isFinite by decide) root.finite positive.ne'
  rw [value_half] at rounds
  refine rounds.between ?_ half ?_ ?_
  · rw [show (1 / 16 : ℝ) = 2 ^ (-4 : ℤ) by norm_num]
    exact representable_power (by decide) (by decide)
  · rw [le_div_iff₀ positive]
    linarith [root.high]
  · rw [div_le_iff₀ positive]
    linarith [root.low]

end

/-! ## Length one -/

section
variable {q : Quat}

private theorem size_nonneg (q : Quat) : 0 ≤ q.size := Real.sqrt_nonneg _

private theorem size_sq (q : Quat) : q.size ^ 2 = q.exact ⬝ᵥ q.exact := Real.sq_sqrt (dot_self_nonneg _)

theorem abs_le_size (q : Quat) (j : Fin 4) : |q.exact j| ≤ q.size := abs_le_sqrt_dot_self q.exact j

/-- Squares and their sums lose a few halves of a unit in the last place, unless the whole is tiny or huge. -/
theorem dot_self_near (finite : ∀ j, (q.part j).isFinite) (large : 2 ^ (-60 : ℤ) ≤ q.size)
    (small : q.size ≤ 2 ^ (60 : ℤ)) :
    (q.dot q).isFinite ∧ |value (q.dot q) - q.size ^ 2| ≤ 2 ^ (-22 : ℤ) * q.size ^ 2 := by
  have close (j : Fin 4) := close_value (finite j) ((q.abs_le_size j).trans small)
  have square (j : Fin 4) := (close j).mul (close j) 120 (by norm_num)
  have left := (square 0).add (square 2) 122 (by norm_num)
  have right := (square 1).add (square 3) 122 (by norm_num)
  have whole := left.add right 123 (by norm_num)
  refine ⟨whole.finite, ?_⟩
  have nonneg (j : Fin 4) := nonneg_square (isNaN_of_isFinite (finite j))
  have error (j : Fin 4) : |value (q.part j * q.part j) - q.exact j ^ 2| ≤
      2 ^ (-24 : ℤ) * q.exact j ^ 2 + 2 ^ (-150 : ℤ) := by
    have error := (rounds_mul (finite j) (finite j)).relative_error (square j).finite
    rwa [abs_mul_self, ← sq] at error
  have first := (rounds_add (square 0).finite (square 2).finite).relative_error left.finite
  have second := (rounds_add (square 1).finite (square 3).finite).relative_error right.finite
  have total := (rounds_add left.finite right.finite).relative_error whole.finite
  have up (j : Fin 4) := (nonneg j).value_nonneg (square j).finite
  have up' := ((nonneg 0).add (nonneg 2)).value_nonneg left.finite
  have up'' := ((nonneg 1).add (nonneg 3)).value_nonneg right.finite
  rw [abs_of_nonneg (add_nonneg (up 0) (up 2))] at first
  rw [abs_of_nonneg (add_nonneg (up 1) (up 3))] at second
  rw [abs_of_nonneg (add_nonneg up' up'')] at total
  have least : (2 : ℝ) ^ (-120 : ℤ) ≤ q.size ^ 2 := by
    have power : (2 : ℝ) ^ (-120 : ℤ) = (2 ^ (-60 : ℤ)) ^ 2 := by norm_num
    rw [power]
    gcongr
  have parts : q.size ^ 2 = q.exact 0 ^ 2 + q.exact 1 ^ 2 + q.exact 2 ^ 2 + q.exact 3 ^ 2 := by
    simp only [q.size_sq, dot_four, sq]
  have errorX := error 0
  have errorY := error 1
  have errorZ := error 2
  have errorW := error 3
  have none (j : Fin 4) := sq_nonneg (q.exact j)
  change |value (q.part 0 * q.part 0 + q.part 2 * q.part 2 + (q.part 1 * q.part 1 + q.part 3 * q.part 3)) -
    q.size ^ 2| ≤ _
  rw [abs_le] at errorX errorY errorZ errorW first second total ⊢
  norm_num at errorX errorY errorZ errorW first second total least ⊢
  constructor <;> linarith [none 0, none 1, none 2, none 3]

/-- The components over the length are the exact ones up to a few roundings. -/
theorem normalize_near (finite : ∀ j, (q.part j).isFinite) (large : 2 ^ (-60 : ℤ) ≤ q.size)
    (small : q.size ≤ 2 ^ (60 : ℤ)) (j : Fin 4) :
    Close 1 (2 ^ (-20 : ℤ)) (q.exact j / q.size) (q.normalize.part j) := by
  obtain ⟨whole, near⟩ := dot_self_near finite large small
  obtain ⟨isRoot, root⟩ := root_near whole large near
  rw [part_normalize]
  exact quotient_near (finite j) isRoot (lt_of_lt_of_le (by positivity) large) (q.abs_le_size j) root

/-- A quaternion near one of length one has nearly that length. -/
theorem length_near {t : Fin 4 → ℝ} (unit : t ⬝ᵥ t = 1)
    (near : ∀ j, Close 1 (2 ^ (-20 : ℤ)) (t j) (q.part j)) :
    q.length.isFinite ∧ |value q.length - 1| ≤ 2 ^ (-14 : ℤ) := by
  have square (j : Fin 4) := (near j).mul (near j) 1 (by norm_num)
  have left := (square 0).add (square 2) 2 (by norm_num)
  have right := (square 1).add (square 3) 2 (by norm_num)
  have whole := left.add right 3 (by norm_num)
  have error := whole.error
  rw [show t 0 * t 0 + t 2 * t 2 + (t 1 * t 1 + t 3 * t 3) = 1 by rw [← unit, dot_four]; ring] at error
  have isSum : q.dot q = q.part 0 * q.part 0 + q.part 2 * q.part 2 + (q.part 1 * q.part 1 + q.part 3 * q.part 3) :=
    rfl
  rw [← isSum] at error whole
  rw [length]
  generalize q.dot q = square at *
  norm_num at error
  obtain ⟨low, high⟩ := abs_le.mp error
  have under : 1 - 1 / 32768 ≤ √(value square) := Real.le_sqrt_of_sq_le (by linarith)
  have beyond : √(value square) ≤ 1 + 1 / 32768 := Real.sqrt_le_iff.mpr ⟨by norm_num, by linarith⟩
  have off : |√(value square) - 1| ≤ 1 / 32768 := abs_le.mpr ⟨by linarith, by linarith⟩
  have fits : |√(value square)| ≤ 2 ^ (1 : ℤ) := by
    rw [abs_of_nonneg (Real.sqrt_nonneg _), zpow_one]
    linarith
  have near := (rounds_sqrt whole.finite (by linarith)).close 1 fits (by norm_num) abs_one.le off
  refine ⟨near.finite, near.error.trans ?_⟩
  norm_num

/-- Where a quaternion near an exact one takes the third axis. -/
theorem rotate_near {t : Fin 4 → ℝ} (near : ∀ j, Close 1 (2 ^ (-20 : ℤ)) (t j) (q.part j)) (i : Fin 3) :
    Close 8 (2 ^ (-16 : ℤ)) (thirdImage t i) ((q.rotate .unitZ).part i) := by
  -- the operations one after the other, each with a power of two that bounds its result
  have zero : Close 0 0 0 0 := ⟨rfl, by norm_num, by norm_num⟩
  have one : Close 1 0 1 1 := ⟨rfl, by norm_num, by norm_num⟩
  have two : Close 2 0 2 2 := ⟨rfl, by norm_num, by norm_num⟩
  have square (j : Fin 4) := (near j).mul (near j) 1 (by norm_num)
  have plane := (square 0).add (square 1) 2 (by norm_num)
  have along := (square 3).sub (plane.add (square 2) 2 (by norm_num)) 3 (by norm_num)
  have none (j : Fin 4) := zero.mul (near j) (-50) (by norm_num)
  have none' (j : Fin 4) := (near j).mul zero (-50) (by norm_num)
  have whole (j : Fin 4) := one.mul (near j) 1 (by norm_num)
  have whole' (j : Fin 4) := (near j).mul one 1 (by norm_num)
  have towards := (((none 0).add (none 1) (-40) (by norm_num)).add (whole 2) 1 (by norm_num)).mul two 2 (by norm_num)
  have across := (near 3).mul two 2 (by norm_num)
  have toX := (whole' 1).sub (none 2) 1 (by norm_num)
  have toY := (none' 2).sub (whole 0) 1 (by norm_num)
  have toZ := (none' 0).sub (none 1) (-40) (by norm_num)
  have share (j : Fin 4) := (near j).mul towards 2 (by norm_num)
  have kept := zero.mul along (-40) (by norm_num)
  have turnX := toX.mul across 2 (by norm_num)
  have turnY := toY.mul across 2 (by norm_num)
  have turnZ := toZ.mul across (-20) (by norm_num)
  have x := (kept.add (share 0) 2 (by norm_num)).add turnX 3 (by norm_num)
  have y := (kept.add (share 1) 2 (by norm_num)).add turnY 3 (by norm_num)
  have z := ((one.mul along 3 (by norm_num)).add (share 2) 3 (by norm_num)).add turnZ 3 (by norm_num)
  fin_cases i
  · change Close _ _ (thirdImage t 0) (q.rotate .unitZ).x
    rw [show thirdImage t 0 = 0 * (t 3 * t 3 - (t 0 * t 0 + t 1 * t 1 + t 2 * t 2)) +
      t 0 * ((0 * t 0 + 0 * t 1 + 1 * t 2) * 2) + (t 1 * 1 - 0 * t 2) * (t 3 * 2) by simp [thirdImage]; ring]
    exact x.weaken (by norm_num) (by norm_num)
  · change Close _ _ (thirdImage t 1) (q.rotate .unitZ).y
    rw [show thirdImage t 1 = 0 * (t 3 * t 3 - (t 0 * t 0 + t 1 * t 1 + t 2 * t 2)) +
      t 1 * ((0 * t 0 + 0 * t 1 + 1 * t 2) * 2) + (t 2 * 0 - 1 * t 0) * (t 3 * 2) by simp [thirdImage]; ring]
    exact y.weaken (by norm_num) (by norm_num)
  · change Close _ _ (thirdImage t 2) (q.rotate .unitZ).z
    rw [show thirdImage t 2 = 1 * (t 3 * t 3 - (t 0 * t 0 + t 1 * t 1 + t 2 * t 2)) +
      t 2 * ((0 * t 0 + 0 * t 1 + 1 * t 2) * 2) + (t 0 * 0 - 0 * t 1) * (t 3 * 2) by simp [thirdImage]; ring]
    exact z.weaken (by norm_num) (by norm_num)

end

/-! ## From columns to length one -/

section
variable {p q r : Vec3}

/-- A quaternion scaled by a small factor and brought to length one is what it was over its length, up to a few
roundings. -/
theorem exists_scaled {n : Quat} {factor : Float32} (finite : ∀ j, (n.part j).isFinite)
    (small : ∀ j, |n.exact j| ≤ 33) {k : Fin 4} (large : 1 ≤ n.exact k)
    (between : Between (1 / 16) (1 / 2) factor) :
    ∃ t : Fin 4 → ℝ, (∀ j, |t j - n.exact j| ≤ 2 ^ (-16 : ℤ)) ∧ 0 < t ⬝ᵥ t ∧
      ∀ j, Close 1 (2 ^ (-20 : ℤ)) (unitOf t j) ((n.scale factor).normalize.part j) := by
  obtain ⟨isFinite, low, high⟩ := between
  have positive : 0 < value factor := by linarith
  have half : |value factor| ≤ 1 / 2 := by rwa [abs_of_pos positive]
  have product (j : Fin 4) : Close 17 (2 ^ (-20 : ℤ)) (n.exact j * value factor) ((n.scale factor).part j) := by
    rw [part_scale]
    exact ((close_value (finite j) (small j)).mul (close_value isFinite half) 5 (by norm_num)).weaken (by norm_num)
      (by norm_num)
  generalize n.scale factor = v at *
  have above : 1 / 32 ≤ v.size := by
    refine LE.le.trans ?_ ((le_abs_self _).trans (v.abs_le_size k))
    have error := (abs_le.mp (product k).error).1
    norm_num at error
    simp only [exact] at error large ⊢
    nlinarith
  have below : v.size ≤ 36 := by
    have part (j : Fin 4) : v.exact j * v.exact j ≤ 18 * 18 := by
      rw [← abs_mul_abs_self]
      exact mul_self_le_mul_self (abs_nonneg _) ((product j).magnitude.trans (by norm_num))
    refine abs_le_of_sq_le_sq' ?_ (by norm_num) |>.2
    rw [size_sq, dot_four]
    linarith [part 0, part 1, part 2, part 3]
  have unit := normalize_near (fun j => (product j).finite) (le_trans (by norm_num) above)
    (below.trans (by norm_num))
  obtain ⟨t, isPart⟩ : ∃ t, t = (value factor)⁻¹ • v.exact := ⟨_, rfl⟩
  have length : √(t ⬝ᵥ t) = (value factor)⁻¹ * v.size := by
    rw [isPart, smul_dotProduct, dotProduct_smul, smul_eq_mul, smul_eq_mul, ← mul_assoc, ← v.size_sq, ← sq, ← mul_pow]
    exact Real.sqrt_sq (mul_nonneg (inv_nonneg.mpr positive.le) v.size_nonneg)
  refine ⟨t, fun j => ?_, ?_, fun j => ?_⟩
  · have split : t j - n.exact j = (v.exact j - n.exact j * value factor) / value factor := by
      rw [isPart, Pi.smul_apply, smul_eq_mul]
      field_simp
    rw [split, abs_div, abs_of_pos positive, div_le_iff₀ positive]
    refine (product j).error.trans ?_
    norm_num
    linarith
  · rw [← Real.sqrt_pos, length]
    exact mul_pos (inv_pos.mpr positive) (lt_of_lt_of_le (by norm_num) above)
  · rw [unitOf, length, isPart, Pi.smul_apply, smul_eq_mul, mul_div_mul_left _ _ (inv_pos.mpr positive).ne']
    exact unit j

/-- The quaternion that three columns give is, up to a few roundings, a column of products over its length. -/
theorem ofColumns_near (first : p.Within 8) (second : q.Within 8) (third : r.Within 8) :
    ∃ k, ∃ t : Fin 4 → ℝ, 1 - 2 ^ (-18 : ℤ) ≤ products p.exact q.exact r.exact k k ∧
      (∀ j, |t j - products p.exact q.exact r.exact k j| ≤ 2 ^ (-15 : ℤ)) ∧ 0 < t ⬝ᵥ t ∧
      ∀ j, Close 1 (2 ^ (-20 : ℤ)) (unitOf t j) ((ofColumns p q r).normalize.part j) := by
  obtain ⟨k, n, isPivot, least, near⟩ := exists_pivot first second third
  obtain ⟨t, scaled, positive, unit⟩ := exists_scaled (fun j => (near j).finite)
    (fun j => (near j).magnitude.trans (by norm_num)) least (inverse_between (near k) least)
  refine ⟨k, t, ?_, fun j => ?_, positive, fun j => isPivot ▸ unit j⟩
  · linarith [(abs_le.mp (near k).error).2]
  · refine (abs_sub_le _ _ _).trans ((add_le_add (scaled j) (near j).error).trans ?_)
    norm_num

/-- Columns near those of a frame give a rotation that takes the third axis near the third column. -/
theorem third_near {p' q' r' : Fin 3 → ℝ} {a b c : ℝ} (frame : Frame p' q' r') (first : p.Within 8)
    (second : q.Within 8) (third : r.Within 8) (near : ∀ i, |p.exact i - p' i| ≤ a)
    (near' : ∀ i, |q.exact i - q' i| ≤ b) (near'' : ∀ i, |r.exact i - r' i| ≤ c) (small : a + b + c ≤ 1 / 200)
    (i : Fin 3) :
    |((ofColumns p q r).normalize.rotate .unitZ).exact i - r' i| ≤
      5 * (a + b + c + 2 ^ (-15 : ℤ)) + 2 ^ (-16 : ℤ) := by
  obtain ⟨k, t, least, close, positive, unit⟩ := ofColumns_near first second third
  have apart := products_sub_le near near' near'' k
  have large : 9 / 10 ≤ products p' q' r' k k := by
    have error := (abs_le.mp (apart k)).2
    norm_num at least
    linarith
  have exact := frame.image_near (t := t) large (fun j => (abs_sub_le _ _ _).trans (add_le_add (close j) (apart j)))
    (by norm_num at small ⊢; linarith) i
  have scaled : |thirdImage (unitOf t) i - r' i| ≤ 5 * (2 ^ (-15 : ℤ) + (a + b + c)) := by
    rw [thirdImage_unitOf, div_sub' positive.ne', abs_div, abs_of_pos positive, div_le_iff₀ positive]
    exact exact
  have turned := (rotate_near unit i).error
  refine (abs_sub_le _ _ _).trans ((add_le_add turned scaled).trans_eq ?_)
  ring

end

end Quat


end Sapling
