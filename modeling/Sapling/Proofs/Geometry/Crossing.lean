import Sapling.Proofs.Geometry.Directions

/-! Cross products with rounding. Each component is a difference of two products, so it is off by a part of these and
not of what is left of them: the cross product with a direction is across that direction as far as it is longer than
the errors. -/
namespace Sapling

open Scalar Matrix

/-! ## Vectors that are near each other -/

section
variable {v w : Fin 3 → ℝ} {e : ℝ}

private theorem sum_abs_le (v : Fin 3 → ℝ) : |v 0| + |v 1| + |v 2| ≤ 7 / 4 * √(v ⬝ᵥ v) := by
  have square : √(v ⬝ᵥ v) ^ 2 = v ⬝ᵥ v := Real.sq_sqrt (dot_self_nonneg v)
  refine le_of_sq_le_sq ?_ (by positivity)
  rw [mul_pow, square, dot_three, ← abs_mul_abs_self (v 0), ← abs_mul_abs_self (v 1), ← abs_mul_abs_self (v 2)]
  nlinarith [sq_nonneg (|v 0| - |v 1|), sq_nonneg (|v 0| - |v 2|), sq_nonneg (|v 1| - |v 2|), abs_nonneg (v 0),
    abs_nonneg (v 1), abs_nonneg (v 2)]

private theorem sqrt_dot_self_le (near : ∀ i, |v i - w i| ≤ e) : √(v ⬝ᵥ v) ≤ √(w ⬝ᵥ w) + 2 * e := by
  have up : 0 ≤ e := (abs_nonneg _).trans (near 0)
  have square : √(w ⬝ᵥ w) ^ 2 = w ⬝ᵥ w := Real.sq_sqrt (dot_self_nonneg w)
  have sum := sum_abs_le w
  have root := Real.sqrt_nonneg (w ⬝ᵥ w)
  refine Real.sqrt_le_iff.mpr ⟨by positivity, ?_⟩
  have part (i : Fin 3) : v i * v i ≤ w i * w i + 2 * e * |w i| + e ^ 2 := by
    have most : |v i| ≤ |w i| + e := by linarith [abs_sub_abs_le_abs_sub (v i) (w i), near i]
    rw [← abs_mul_abs_self (v i), ← abs_mul_abs_self (w i)]
    nlinarith [abs_nonneg (v i), abs_nonneg (w i)]
  generalize √(w ⬝ᵥ w) = l at *
  rw [add_sq, square, dot_three, dot_three]
  nlinarith [part 0, part 1, part 2]

end

/-! ## Rounding errors -/

section
variable {a b c d : Float32}

/-- A difference of two products, each of the three operations with its own error. -/
theorem sub_mul_near (first : a.isFinite) (second : b.isFinite) (third : c.isFinite) (fourth : d.isFinite)
    (finite : (a * b - c * d).isFinite) :
    |value (a * b - c * d) - (value a * value b - value c * value d)| ≤
      2 ^ (-24 : ℤ) * (|value a| * |value b| + |value c| * |value d|) + 2 ^ (-23 : ℤ) * |value (a * b - c * d)| +
        2 ^ (-147 : ℤ) := by
  obtain ⟨left, right⟩ := finite_of_sub finite
  have product := (rounds_mul first second).relative_error left
  have product' := (rounds_mul third fourth).relative_error right
  have difference := (rounds_sub left right).relative_error finite
  rw [abs_mul] at product product'
  have lost := abs_sub_abs_le_abs_sub (value (a * b) - value (c * d)) (value (a * b - c * d))
  rw [abs_sub_comm (value (a * b) - value (c * d))] at lost
  norm_num at product product' difference ⊢
  rw [abs_le] at product product' ⊢
  have low := (abs_le.mp difference).1
  have high := (abs_le.mp difference).2
  constructor <;> linarith

/-- A cross product up to the errors of two products and a difference for each component. -/
structure NearCross (c u v : Fin 3 → ℝ) : Prop where
  error (i : Fin 3) : |c i - (u ⨯₃ v) i| ≤ 2 ^ (-24 : ℤ) * (|u (i + 1)| * |v (i + 2)| + |v (i + 1)| * |u (i + 2)|) +
    2 ^ (-23 : ℤ) * |c i| + 2 ^ (-147 : ℤ)

/-- A rounded cross product without overflow is close to the exact one. -/
theorem cross_near {a b : Vec3} (first : a.isFinite) (second : b.isFinite) (finite : (a.cross b).isFinite) :
    NearCross (a.cross b).exact a.exact b.exact := by
  obtain ⟨x, y, z⟩ := Vec3.isFinite_iff.mp first
  obtain ⟨x', y', z'⟩ := Vec3.isFinite_iff.mp second
  obtain ⟨x'', y'', z''⟩ := Vec3.isFinite_iff.mp finite
  refine ⟨fun i => ?_⟩
  rw [cross_apply, mul_comm (a.exact 2) (b.exact 1), mul_comm (a.exact 0) (b.exact 2),
    mul_comm (a.exact 1) (b.exact 0)]
  fin_cases i
  · exact sub_mul_near y z' y' z x''
  · exact sub_mul_near z x' z' x y''
  · exact sub_mul_near x y' x' y z''

end

section
variable {c u v r : Fin 3 → ℝ}

/-- A small error in one factor makes a small error in the exact cross product. -/
theorem cross_sub_le {e : ℝ} (near : ∀ i, |v i - r i| ≤ e) (i : Fin 3) :
    |(u ⨯₃ r) i - (u ⨯₃ v) i| ≤ 2 * √(u ⬝ᵥ u) * e := by
  have split : (u ⨯₃ r) i - (u ⨯₃ v) i =
      u (i + 2) * (v (i + 1) - r (i + 1)) - u (i + 1) * (v (i + 2) - r (i + 2)) := by
    rw [cross_apply, cross_apply]
    fin_cases i <;> simp <;> ring
  have part (j : Fin 3) (k : Fin 3) : |u j * (v k - r k)| ≤ √(u ⬝ᵥ u) * e := by
    rw [abs_mul]
    exact mul_le_mul (abs_le_sqrt_dot_self u j) (near k) (abs_nonneg _) (Real.sqrt_nonneg _)
  rw [split]
  exact (abs_sub _ _).trans (by linarith [part (i + 2) (i + 1), part (i + 1) (i + 2)])

/-- Rounding errors do not shorten a right axis much that is at an angle to the direction. -/
theorem NearCross.size_le (crossed : NearCross c u v) (near : NearUnit v r) (long : 2 ^ (-45 : ℤ) ≤ √(u ⬝ᵥ u))
    (apart : √(u ⬝ᵥ u) / 1000 ≤ √((u ⨯₃ r) ⬝ᵥ (u ⨯₃ r))) : √(u ⬝ᵥ u) / 1010 ≤ √(c ⬝ᵥ c) := by
  have error (i : Fin 3) : |(u ⨯₃ r) i - c i| ≤
      2 ^ (-18 : ℤ) * √(u ⬝ᵥ u) + 2 ^ (-23 : ℤ) * √(c ⬝ᵥ c) + 2 ^ (-147 : ℤ) := by
    have noise := crossed.error i
    rw [abs_sub_comm] at noise
    refine (abs_sub_le _ _ _).trans ((add_le_add (cross_sub_le near.error i) noise).trans ?_)
    have product (j k : Fin 3) : |u j| * |v k| ≤ √(u ⬝ᵥ u) * (3 / 2) :=
      mul_le_mul (abs_le_sqrt_dot_self u j) (near.small k) (abs_nonneg _) (Real.sqrt_nonneg _)
    norm_num
    linarith [product (i + 1) (i + 2), product (i + 2) (i + 1), abs_le_sqrt_dot_self c i, Real.sqrt_nonneg (u ⬝ᵥ u)]
  have root := sqrt_dot_self_le error
  norm_num at root long ⊢
  linarith

/-- The right axis is across the direction up to the errors of its three products. -/
theorem NearCross.across (crossed : NearCross c u v) (near : NearUnit v r) :
    |c ⬝ᵥ v| ≤ 177 / 100 * 2 ^ (-24 : ℤ) * √(u ⬝ᵥ u) + 2 ^ (-21 : ℤ) * √(c ⬝ᵥ c) + 2 ^ (-144 : ℤ) := by
  have square := (abs_le.mp near.dot_self).2
  rw [dot_three] at square
  have pair (i j : Fin 3) (apart : i ≠ j) : |v i| * |v j| ≤ 1 / 2 + 2 ^ (-18 : ℤ) := by
    have both : v i * v i + v j * v j ≤ 1 + 2 ^ (-17 : ℤ) := by
      have none (k : Fin 3) := mul_self_nonneg (v k)
      norm_num at square ⊢
      fin_cases i <;> fin_cases j <;> simp at apart ⊢ <;> linarith [none 0, none 1, none 2]
    norm_num at both ⊢
    nlinarith [sq_nonneg (|v i| - |v j|), abs_mul_abs_self (v i), abs_mul_abs_self (v j)]
  have term (i : Fin 3) : |(c i - (u ⨯₃ v) i) * v i| ≤
      2 ^ (-24 : ℤ) * ((|u (i + 1)| + |u (i + 2)|) * (1 / 2 + 2 ^ (-18 : ℤ))) + 2 ^ (-22 : ℤ) * |c i| +
        2 ^ (-146 : ℤ) := by
    have first := mul_le_mul_of_nonneg_left (pair (i + 2) i (by fin_cases i <;> decide)) (abs_nonneg (u (i + 1)))
    have second := mul_le_mul_of_nonneg_left (pair (i + 1) i (by fin_cases i <;> decide)) (abs_nonneg (u (i + 2)))
    have third := mul_le_mul_of_nonneg_left (near.small i) (abs_nonneg (c i))
    rw [abs_mul]
    refine (mul_le_mul_of_nonneg_right (crossed.error i) (abs_nonneg (v i))).trans ?_
    norm_num at first second ⊢
    linarith [near.small i, abs_nonneg (c i)]
  have split : c ⬝ᵥ v = (c 0 - (u ⨯₃ v) 0) * v 0 + (c 1 - (u ⨯₃ v) 1) * v 1 + (c 2 - (u ⨯₃ v) 2) * v 2 := by
    have right := dot_cross_self u v
    rw [dot_three] at right ⊢
    linear_combination right
  have x := term 0
  have y := term 1
  have z := term 2
  have sum := sum_abs_le u
  have sum' := sum_abs_le c
  rw [split]
  refine (abs_add_three _ _ _).trans ?_
  simp only [Fin.reduceAdd, zero_add] at x y z
  norm_num at x y z ⊢
  linarith [Real.sqrt_nonneg (u ⬝ᵥ u), Real.sqrt_nonneg (c ⬝ᵥ c)]

end

end Sapling
