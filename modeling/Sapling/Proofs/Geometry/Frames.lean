import Mathlib.LinearAlgebra.CrossProduct
import Mathlib.Tactic.FinCases
import Mathlib.Tactic.LinearCombination
import Sapling.Proofs.Scalar.Values

/-! Rotations of space without rounding. The four columns of products that the three columns of a rotation give are
the same quaternion up to its length, and the quaternion takes the third axis to the third column. Columns that lean a
little give a quaternion that is turned by no more than they lean. -/
namespace Sapling

open Matrix

/-- Three columns of length one at right angles, the second one across the third and the first. -/
structure Frame (p q r : Fin 3 → ℝ) : Prop where
  first : p ⬝ᵥ p = 1
  third : r ⬝ᵥ r = 1
  across : p ⬝ᵥ r = 0
  second : q = r ⨯₃ p

/-- What three columns give for four times the products of the components of a quaternion, real part last. -/
def products (p q r : Fin 3 → ℝ) : Fin 4 → Fin 4 → ℝ :=
  ![![1 + p 0 - q 1 - r 2, p 1 + q 0, p 2 + r 0, q 2 - r 1],
    ![p 1 + q 0, 1 - p 0 + q 1 - r 2, q 2 + r 1, r 0 - p 2],
    ![p 2 + r 0, q 2 + r 1, 1 - p 0 - q 1 + r 2, p 1 - q 0],
    ![q 2 - r 1, r 0 - p 2, p 1 - q 0, 1 + p 0 + q 1 + r 2]]

/-- Where a quaternion takes the third axis, times its squared length. -/
def thirdImage (t : Fin 4 → ℝ) : Fin 3 → ℝ :=
  ![t 0 * t 2 + t 3 * t 1 + (t 2 * t 0 + t 1 * t 3), t 1 * t 2 - t 3 * t 0 + (t 2 * t 1 - t 0 * t 3),
    t 3 ^ 2 - t 0 ^ 2 - t 1 ^ 2 + t 2 ^ 2]

/-! ## Exact columns -/

section
variable {p q r : Fin 3 → ℝ}

theorem dot_three (v w : Fin 3 → ℝ) : v ⬝ᵥ w = v 0 * w 0 + v 1 * w 1 + v 2 * w 2 := vec3_dotProduct v w

theorem dot_four (v w : Fin 4 → ℝ) : v ⬝ᵥ w = v 0 * w 0 + v 1 * w 1 + v 2 * w 2 + v 3 * w 3 := by
  simp [dotProduct, Fin.sum_univ_four]

/-- The second column by its components. -/
theorem Frame.second_eq (frame : Frame p q r) : q 0 = r 1 * p 2 - r 2 * p 1 ∧ q 1 = r 2 * p 0 - r 0 * p 2 ∧
    q 2 = r 0 * p 1 - r 1 * p 0 := by
  rw [frame.second, cross_apply]
  exact ⟨rfl, rfl, rfl⟩

/-- Each of the other columns is across the two that remain. -/
theorem Frame.first_eq (frame : Frame p q r) : p 0 = q 1 * r 2 - q 2 * r 1 ∧ p 1 = q 2 * r 0 - q 0 * r 2 ∧
    p 2 = q 0 * r 1 - q 1 * r 0 := by
  obtain ⟨x, y, z⟩ := frame.second_eq
  have third := frame.third
  have across := frame.across
  rw [dot_three] at third across
  rw [x, y, z]
  refine ⟨?_, ?_, ?_⟩
  · linear_combination (-p 0) * third + r 0 * across
  · linear_combination (-p 1) * third + r 1 * across
  · linear_combination (-p 2) * third + r 2 * across

private theorem Frame.third_eq (frame : Frame p q r) : r 0 = p 1 * q 2 - p 2 * q 1 ∧ r 1 = p 2 * q 0 - p 0 * q 2 ∧
    r 2 = p 0 * q 1 - p 1 * q 0 := by
  obtain ⟨x, y, z⟩ := frame.second_eq
  have first := frame.first
  have across := frame.across
  rw [dot_three] at first across
  rw [x, y, z]
  refine ⟨?_, ?_, ?_⟩
  · linear_combination (-r 0) * first + p 0 * across
  · linear_combination (-r 1) * first + p 1 * across
  · linear_combination (-r 2) * first + p 2 * across

/-- The rows have length one and are at right angles, too. -/
theorem Frame.rows (frame : Frame p q r) (i j : Fin 3) :
    p i * p j + q i * q j + r i * r j = if i = j then 1 else 0 := by
  obtain ⟨x, y, z⟩ := frame.second_eq
  have first := frame.first
  have third := frame.third
  have across := frame.across
  rw [dot_three] at first third across
  -- the second column has the products of the other two, by the rule for products of cross products
  have general (δ : ℝ) (second : q i * q j = δ * ((p 0 * p 0 + p 1 * p 1 + p 2 * p 2) *
      (r 0 * r 0 + r 1 * r 1 + r 2 * r 2) - (p 0 * r 0 + p 1 * r 1 + p 2 * r 2) ^ 2) -
      (r 0 * r 0 + r 1 * r 1 + r 2 * r 2) * (p i * p j) - (p 0 * p 0 + p 1 * p 1 + p 2 * p 2) * (r i * r j) +
      (p 0 * r 0 + p 1 * r 1 + p 2 * r 2) * (p i * r j + r i * p j)) :
      p i * p j + q i * q j + r i * r j = δ := by
    rw [second, first, third, across]
    ring
  refine general _ ?_
  fin_cases i <;> fin_cases j <;> simp [x, y, z] <;> ring

/-- The second column has length one and is across the other two. -/
theorem Frame.columns (frame : Frame p q r) : q 0 * q 0 + q 1 * q 1 + q 2 * q 2 = 1 ∧
    p 0 * q 0 + p 1 * q 1 + p 2 * q 2 = 0 ∧ q 0 * r 0 + q 1 * r 1 + q 2 * r 2 = 0 := by
  obtain ⟨x, y, z⟩ := frame.second_eq
  have first := frame.first
  have third := frame.third
  have across := frame.across
  rw [dot_three] at first third across
  rw [x, y, z]
  refine ⟨?_, by ring, by ring⟩
  linear_combination (r 0 * r 0 + r 1 * r 1 + r 2 * r 2) * first + third -
    (p 0 * r 0 + p 1 * r 1 + p 2 * r 2) * across

/-- The table is that of the products of four numbers: any of its columns gives it, up to a factor. -/
theorem Frame.products_mul (frame : Frame p q r) (k i j : Fin 4) :
    products p q r k i * products p q r k j = products p q r k k * products p q r i j := by
  obtain ⟨px, py, pz⟩ := frame.first_eq
  obtain ⟨qx, qy, qz⟩ := frame.second_eq
  obtain ⟨rx, ry, rz⟩ := frame.third_eq
  obtain ⟨qq, pq, qr⟩ := frame.columns
  have xx : p 0 * p 0 + q 0 * q 0 + r 0 * r 0 = 1 := frame.rows 0 0
  have yy : p 1 * p 1 + q 1 * q 1 + r 1 * r 1 = 1 := frame.rows 1 1
  have zz : p 2 * p 2 + q 2 * q 2 + r 2 * r 2 = 1 := frame.rows 2 2
  have xy : p 0 * p 1 + q 0 * q 1 + r 0 * r 1 = 0 := frame.rows 0 1
  have xz : p 0 * p 2 + q 0 * q 2 + r 0 * r 2 = 0 := frame.rows 0 2
  have yz : p 1 * p 2 + q 1 * q 2 + r 1 * r 2 = 0 := frame.rows 1 2
  have pp := frame.first
  have rr := frame.third
  have pr := frame.across
  rw [dot_three] at pp rr pr
  -- each equation is linear in the products of two entries, and so are the facts about columns and rows
  fin_cases k <;> fin_cases i <;> fin_cases j <;> simp [products] <;> linarith

private theorem Frame.thirdImage_products (frame : Frame p q r) (k : Fin 4) (i : Fin 3) :
    thirdImage (products p q r k) i = 4 * products p q r k k * r i := by
  have product := frame.products_mul k
  fin_cases i <;> simp only [thirdImage, sq, product] <;> simp [products] <;> ring

private theorem Frame.dot_products (frame : Frame p q r) (k : Fin 4) :
    products p q r k ⬝ᵥ products p q r k = 4 * products p q r k k := by
  rw [dot_four]
  simp only [frame.products_mul k]
  simp [products]
  ring

end

/-! ## Columns that lean -/

section
variable {p q r : Fin 3 → ℝ} {e : ℝ}

private theorem sq_dot_le {n : ℕ} (v w : Fin n → ℝ) : (v ⬝ᵥ w) ^ 2 ≤ (v ⬝ᵥ v) * (w ⬝ᵥ w) := by
  have bound := Finset.sum_mul_sq_le_sq_mul_sq Finset.univ v w
  simpa only [dotProduct, ← sq] using bound

/-- Products of components that are near each other have sums that are. -/
theorem dot_near {v w v' w' : Fin 3 → ℝ} (near : ∀ i, |v i * w i - v' i * w' i| ≤ e) :
    |v ⬝ᵥ w - v' ⬝ᵥ w'| ≤ 3 * e := by
  have split : v ⬝ᵥ w - v' ⬝ᵥ w' =
      (v 0 * w 0 - v' 0 * w' 0) + (v 1 * w 1 - v' 1 * w' 1) + (v 2 * w 2 - v' 2 * w' 2) := by
    rw [dot_three, dot_three]
    ring
  rw [split]
  refine (abs_add_three _ _ _).trans ?_
  linarith [near 0, near 1, near 2]

theorem dot_self_nonneg {n : ℕ} (v : Fin n → ℝ) : 0 ≤ v ⬝ᵥ v :=
  Finset.sum_nonneg fun i _ => mul_self_nonneg (v i)

theorem abs_le_sqrt_dot_self {n : ℕ} (v : Fin n → ℝ) (i : Fin n) : |v i| ≤ √(v ⬝ᵥ v) := by
  refine Real.abs_le_sqrt ?_
  rw [sq]
  exact Finset.single_le_sum (fun j _ => mul_self_nonneg (v j)) (Finset.mem_univ i)

/-- The image changes no faster than the square of the length does. -/
theorem sq_thirdImage_sub_le (a b : Fin 4 → ℝ) (i : Fin 3) :
    (thirdImage a i - thirdImage b i) ^ 2 ≤ ((a + b) ⬝ᵥ (a + b)) * ((a - b) ⬝ᵥ (a - b)) := by
  have dot (t : Fin 4 → ℝ) (split : thirdImage a i - thirdImage b i = t ⬝ᵥ (a - b))
      (same : t ⬝ᵥ t = (a + b) ⬝ᵥ (a + b)) :
      (thirdImage a i - thirdImage b i) ^ 2 ≤ ((a + b) ⬝ᵥ (a + b)) * ((a - b) ⬝ᵥ (a - b)) := by
    rw [split, ← same]
    exact sq_dot_le t (a - b)
  fin_cases i
  · refine dot ![(a + b) 2, (a + b) 3, (a + b) 0, (a + b) 1] ?_ ?_ <;> rw [dot_four] <;>
      simp [thirdImage, dot_four] <;> ring
  · refine dot ![-(a + b) 3, (a + b) 2, (a + b) 1, -(a + b) 0] ?_ ?_ <;> rw [dot_four] <;>
      simp [thirdImage, dot_four] <;> ring
  · refine dot ![-(a + b) 0, -(a + b) 1, (a + b) 2, (a + b) 3] ?_ ?_ <;> rw [dot_four] <;>
      simp [thirdImage, dot_four] <;> ring

private theorem sq_dot_sub_le (a b : Fin 4 → ℝ) :
    (a ⬝ᵥ a - b ⬝ᵥ b) ^ 2 ≤ ((a + b) ⬝ᵥ (a + b)) * ((a - b) ⬝ᵥ (a - b)) := by
  have split : a ⬝ᵥ a - b ⬝ᵥ b = (a + b) ⬝ᵥ (a - b) := by
    simp only [dot_four, Pi.add_apply, Pi.sub_apply]
    ring
  rw [split]
  exact sq_dot_le (a + b) (a - b)

private theorem Frame.abs_le (frame : Frame p q r) (i : Fin 3) : |p i| ≤ 1 ∧ |q i| ≤ 1 ∧ |r i| ≤ 1 := by
  have row := frame.rows i i
  rw [if_pos rfl] at row
  simp only [← sq_le_one_iff_abs_le_one, sq]
  refine ⟨?_, ?_, ?_⟩ <;>
    linarith [mul_self_nonneg (p i), mul_self_nonneg (q i), mul_self_nonneg (r i)]

/-- A column of products is off by no more than the three columns are together. -/
theorem products_sub_le {p' q' r' : Fin 3 → ℝ} {a b c : ℝ} (first : ∀ i, |p i - p' i| ≤ a)
    (second : ∀ i, |q i - q' i| ≤ b) (third : ∀ i, |r i - r' i| ≤ c) (k j : Fin 4) :
    |products p q r k j - products p' q' r' k j| ≤ a + b + c := by
  have up := (abs_nonneg _).trans (first 0)
  have up' := (abs_nonneg _).trans (second 0)
  have up'' := (abs_nonneg _).trans (third 0)
  simp only [abs_le] at first second third ⊢
  fin_cases k <;> fin_cases j <;> simp [products] <;> constructor <;>
    linarith [first 0, first 1, first 2, second 0, second 1, second 2, third 0, third 1, third 2]

/-- A vector over its length. -/
noncomputable def unitOf {n : ℕ} (v : Fin n → ℝ) : Fin n → ℝ := fun i => v i / √(v ⬝ᵥ v)

/-- A vector other than zero over its length has length one. -/
theorem unitOf_dot_self {n : ℕ} {v : Fin n → ℝ} (positive : 0 < v ⬝ᵥ v) : unitOf v ⬝ᵥ unitOf v = 1 := by
  have split : unitOf v = (√(v ⬝ᵥ v))⁻¹ • v := by
    funext i
    exact div_eq_inv_mul _ _
  rw [split, smul_dotProduct, dotProduct_smul, smul_eq_mul, smul_eq_mul, ← mul_assoc, ← mul_inv,
    Real.mul_self_sqrt positive.le, inv_mul_cancel₀ positive.ne']

/-- The image that a quaternion over its length has is the image over the squared length. -/
theorem thirdImage_unitOf (t : Fin 4 → ℝ) (i : Fin 3) : thirdImage (unitOf t) i = thirdImage t i / (t ⬝ᵥ t) := by
  unfold unitOf
  have square : √(t ⬝ᵥ t) ^ 2 = t ⬝ᵥ t := Real.sq_sqrt (dot_self_nonneg t)
  generalize √(t ⬝ᵥ t) = l at *
  rw [← square]
  fin_cases i <;> simp [thirdImage] <;> ring

/-- A quaternion that is near the products of a frame takes the third axis near the third column. -/
theorem Frame.image_near (frame : Frame p q r) {k : Fin 4} {t : Fin 4 → ℝ} (large : 9 / 10 ≤ products p q r k k)
    (near : ∀ j, |t j - products p q r k j| ≤ e) (small : e ≤ 1 / 100) (i : Fin 3) :
    |thirdImage t i - t ⬝ᵥ t * r i| ≤ 5 * e * (t ⬝ᵥ t) := by
  have image := frame.thirdImage_products k i
  have length := frame.dot_products k
  generalize products p q r k = n at *
  have up : 0 ≤ e := (abs_nonneg _).trans (near 0)
  have apart : (t - n) ⬝ᵥ (t - n) ≤ 4 * e ^ 2 := by
    have part (j : Fin 4) : (t j - n j) * (t j - n j) ≤ e ^ 2 := by
      rw [← sq, sq_le_sq, abs_of_nonneg up]
      exact near j
    rw [dot_four]
    simp only [Pi.sub_apply]
    linarith [part 0, part 1, part 2, part 3]
  have images := sq_thirdImage_sub_le t n i
  have lengths := sq_dot_sub_le t n
  have third : r i ^ 2 ≤ 1 := (sq_le_one_iff_abs_le_one _).mpr (frame.abs_le i).2.2
  -- the length of the sum and that of the products are bounded by that of the quaternion
  have sum : (t + n) ⬝ᵥ (t + n) + (t - n) ⬝ᵥ (t - n) = 2 * (t ⬝ᵥ t + n ⬝ᵥ n) := by
    simp only [dot_four, Pi.add_apply, Pi.sub_apply]
    ring
  have weighted (j : Fin 4) : 10 * (n j * n j) ≤ 11 * (t j * t j) + 110 * ((t j - n j) * (t j - n j)) := by
    nlinarith [sq_nonneg (11 * t j - 10 * n j)]
  have most : 10 * (n ⬝ᵥ n) ≤ 11 * (t ⬝ᵥ t) + 110 * ((t - n) ⬝ᵥ (t - n)) := by
    simp only [dot_four, Pi.sub_apply]
    linarith [weighted 0, weighted 1, weighted 2, weighted 3]
  have sumNonneg := dot_self_nonneg (t + n)
  have differenceNonneg := dot_self_nonneg (t - n)
  rw [image, ← length] at images
  generalize (t - n) ⬝ᵥ (t - n) = error at *
  generalize (t + n) ⬝ᵥ (t + n) = whole at *
  have tiny : e ^ 2 ≤ 1 / 10000 := by nlinarith
  have least : 326 / 100 ≤ t ⬝ᵥ t := by linarith
  have whole_le : whole ≤ 25 / 16 * (t ⬝ᵥ t) ^ 2 := by nlinarith
  have split : thirdImage t i - t ⬝ᵥ t * r i =
      (thirdImage t i - n ⬝ᵥ n * r i) - (t ⬝ᵥ t - n ⬝ᵥ n) * r i := by ring
  refine abs_le_of_sq_le_sq ?_ (by positivity)
  calc (thirdImage t i - t ⬝ᵥ t * r i) ^ 2
    _ ≤ 2 * ((thirdImage t i - n ⬝ᵥ n * r i) ^ 2 + (t ⬝ᵥ t - n ⬝ᵥ n) ^ 2 * r i ^ 2) := by
      rw [split, ← mul_pow]
      nlinarith [sq_nonneg (thirdImage t i - n ⬝ᵥ n * r i + (t ⬝ᵥ t - n ⬝ᵥ n) * r i)]
    _ ≤ 2 * (whole * error + whole * error * 1) := by gcongr
    _ ≤ 16 * e ^ 2 * whole := by nlinarith
    _ ≤ 16 * e ^ 2 * (25 / 16 * (t ⬝ᵥ t) ^ 2) := by gcongr
    _ = (5 * e * (t ⬝ᵥ t)) ^ 2 := by ring

/-- Two directions that are nearly across each other are near the columns of a frame. -/
theorem exists_frame {lean off : ℝ} (unit : r ⬝ᵥ r = 1) (across : |p ⬝ᵥ r| ≤ lean)
    (length : |p ⬝ᵥ p - (p ⬝ᵥ r) ^ 2 - 1| ≤ off) (small : off < 1) :
    ∃ p' q', Frame p' q' r ∧ (∀ i, |p i - p' i| ≤ lean + off) ∧ ∀ i, |(r ⨯₃ p) i - q' i| ≤ off := by
  obtain ⟨s, lies⟩ : ∃ s, s = p ⬝ᵥ r := ⟨_, rfl⟩
  rw [← lies] at across length
  -- what is left of the first direction across the third one, and its length
  obtain ⟨v, remnant⟩ : ∃ v, v = p - s • r := ⟨_, rfl⟩
  have square : v ⬝ᵥ v = p ⬝ᵥ p - s ^ 2 := by
    rw [remnant, lies]
    simp only [sub_dotProduct, dotProduct_sub, smul_dotProduct, dotProduct_smul, smul_eq_mul, unit,
      dotProduct_comm r p]
    ring
  rw [← square] at length
  have right : v ⬝ᵥ r = 0 := by
    rw [remnant, sub_dotProduct, smul_dotProduct, unit, smul_eq_mul, lies, mul_one, sub_self]
  have positive : 0 < v ⬝ᵥ v := by linarith [(abs_le.mp length).1]
  obtain ⟨t, root⟩ : ∃ t, t = √(v ⬝ᵥ v) := ⟨_, rfl⟩
  have rootPos : 0 < t := root ▸ Real.sqrt_pos.mpr positive
  have squared : t ^ 2 = v ⬝ᵥ v := by rw [root, Real.sq_sqrt positive.le]
  have near : |t - 1| ≤ off := by
    refine LE.le.trans ?_ length
    rw [← squared, show t ^ 2 - 1 = (t + 1) * (t - 1) by ring, abs_mul]
    refine le_mul_of_one_le_left (abs_nonneg _) ?_
    rw [abs_of_pos (by linarith)]
    linarith
  have whole : v = t • (t⁻¹ • v) := by rw [smul_smul, mul_inv_cancel₀ rootPos.ne', one_smul]
  have frame : Frame (t⁻¹ • v) (r ⨯₃ (t⁻¹ • v)) r := by
    refine ⟨?_, unit, ?_, rfl⟩
    · rw [smul_dotProduct, dotProduct_smul, ← squared, smul_eq_mul, smul_eq_mul]
      field_simp
    · rw [smul_dotProduct, right, smul_zero]
  refine ⟨_, _, frame, fun i => ?_, fun i => ?_⟩
  · have split : p i - (t⁻¹ • v) i = s * r i + (t - 1) * (t⁻¹ • v) i := by
      have part := congrFun whole i
      have part' := congrFun remnant i
      simp only [Pi.smul_apply, Pi.sub_apply, smul_eq_mul] at part part' ⊢
      linear_combination part - part'
    obtain ⟨first, -, third⟩ := frame.abs_le i
    rw [split]
    refine (abs_add_le _ _).trans (add_le_add ?_ ?_) <;> rw [abs_mul]
    · exact (mul_le_of_le_one_right (abs_nonneg _) third).trans across
    · exact (mul_le_of_le_one_right (abs_nonneg _) first).trans near
  · have split : r ⨯₃ p = t • (r ⨯₃ (t⁻¹ • v)) := by
      rw [← map_smul, ← whole, remnant, map_sub, map_smul, cross_self, smul_zero, sub_zero]
    have turned := (frame.abs_le i).2.1
    rw [split, Pi.smul_apply, smul_eq_mul, ← sub_one_mul, abs_mul]
    exact (mul_le_of_le_one_right (abs_nonneg _) turned).trans near

end


end Sapling
