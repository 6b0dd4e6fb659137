import Sapling.Geometry.Orientation
import Sapling.Proofs.Geometry.Crossing
import Sapling.Proofs.Geometry.Turns

/-! Looking along a direction. The rotation is finite and of length one for every upward direction. It takes the third
axis along the direction if the upward one is at an angle to it, or so nearly parallel that another axis is taken:
between the two the right axis is made of rounding errors. -/
namespace Sapling

open Scalar Matrix

/-! ## The right axis -/

section
variable {forward up f p : Vec3}

private theorem rightAxis_of_mem (found : p ∈ (up.cross f).normalize?) : rightAxis f up = p := by
  rw [Option.mem_def] at found
  rw [rightAxis, List.findSome?_cons, found]
  rfl

private theorem rightAxis_of_none (unfound : (up.cross f).normalize? = none)
    (found : p ∈ (Vec3.unitY.cross f).normalize?) : rightAxis f up = p := by
  rw [Option.mem_def] at found
  rw [rightAxis, List.findSome?_cons, unfound]
  dsimp only
  rw [List.findSome?_cons, found]
  rfl

private theorem rightAxis_within (f up : Vec3) : (rightAxis f up).Within 2 := by
  unfold rightAxis
  cases found : [up, Vec3.unitY, Vec3.unitZ, Vec3.unitX].findSome? fun c => (c.cross f).normalize? with
  | none => exact Vec3.unitX_within
  | some p =>
    obtain ⟨c, -, isUnit⟩ := List.exists_of_findSome?_eq_some found
    exact Vec3.normalize?_within (Vec3.isFinite_of_normalize? isUnit).1 isUnit

private theorem lookRotation_of_mem (found : f ∈ forward.normalize?) :
    lookRotation forward up = (Quat.ofColumns (rightAxis f up) (f.cross (rightAxis f up)) f).normalize := by
  rw [Option.mem_def] at found
  rw [lookRotation, found]

end

/-! ## Columns around a direction -/

namespace Vec3

/-- Finite, and neither very short nor very long along any axis. -/
structure Moderate (a : Vec3) : Prop where
  finite : a.isFinite
  least : ∀ i, 1 / 1000 ≤ |a.exact i|
  most : ∀ i, |a.exact i| ≤ 1000

/-- The sine of the angle between two directions is at least a thousandth, and the first one is not tiny. -/
structure Clear (a b : Vec3) : Prop where
  long : 2 ^ (-45 : ℤ) ≤ a.size
  apart : a.size * b.size / 1000 ≤ √((a.exact ⨯₃ b.exact) ⬝ᵥ (a.exact ⨯₃ b.exact))

variable {a b f p : Vec3} {r : Fin 3 → ℝ}

theorem Moderate.size_between (moderate : Moderate a) : 1 / 1000 ≤ a.size ∧ a.size ≤ 2000 := by
  refine ⟨(moderate.least 0).trans (a.abs_le_size 0), abs_le_of_sq_le_sq' ?_ (by norm_num) |>.2⟩
  have part (i : Fin 3) : a.exact i * a.exact i ≤ 1000 * 1000 := by
    rw [← abs_mul_abs_self]
    exact mul_self_le_mul_self (abs_nonneg _) (moderate.most i)
  rw [size_sq, dot_three]
  linarith [part 0, part 1, part 2]

/-- No component of the direction vanishes. -/
theorem Moderate.direction_away (moderate : Moderate a) (found : f ∈ a.normalize?) (i : Fin 3) :
    2 ^ (-23 : ℤ) ≤ |f.exact i| := by
  obtain ⟨least, most⟩ := moderate.size_between
  obtain ⟨finite, whole⟩ := isFinite_of_normalize? found
  have isPart := (normalize?_near (le_trans (by norm_num) least) found i).finite
  obtain ⟨-, -, rfl⟩ := mem_normalize?_iff.mp found
  obtain ⟨isInverse, near⟩ := inverse_length_near whole (le_trans (by norm_num) least)
  rw [part_mul] at isPart
  have error := (rounds_mul (isFinite_iff_part.mp finite i) isInverse).relative_error isPart
  have large : 1 / 4000 ≤ value (1 / a.length) := by
    have low := (abs_le.mp near).1
    norm_num at low
    nlinarith
  have product : 1 / 4000000 ≤ |value (a.part i)| * |value (1 / a.length)| := by
    rw [abs_of_nonneg (le_trans (by norm_num) large)]
    have component := mul_le_mul (moderate.least i) large (by norm_num) (abs_nonneg _)
    norm_num at component ⊢
    exact component
  have kept := abs_sub_abs_le_abs_sub (value (a.part i) * value (1 / a.length))
    (value (a.part i * (1 / a.length)))
  rw [abs_sub_comm] at kept
  rw [abs_mul] at error kept
  rw [exact, part_mul]
  norm_num at error ⊢
  linarith

/-- Across the upward axis components are only moved and negated. -/
theorem cross_unitY (finite : f.isFinite) :
    (unitY.cross f).isFinite ∧ (unitY.cross f).exact = ![f.exact 2, 0, -f.exact 0] := by
  obtain ⟨x, y, z⟩ := isFinite_iff.mp finite
  have one : (1 : Float32).isFinite := rfl
  have zero : (0 : Float32).isFinite := rfl
  obtain ⟨keptZ, isZ⟩ := mul_exact one z (by rw [value_one, one_mul]) (representable_value z)
  obtain ⟨keptX, isX⟩ := mul_exact x one (by rw [value_one, mul_one]) (representable_value x)
  obtain ⟨lostX, noX⟩ := mul_exact zero x (by rw [value_zero, zero_mul]) representable_zero
  obtain ⟨lostY, noY⟩ := mul_exact zero y (by rw [value_zero, zero_mul]) representable_zero
  obtain ⟨lostY', noY'⟩ := mul_exact y zero (by rw [value_zero, mul_zero]) representable_zero
  obtain ⟨lostZ, noZ⟩ := mul_exact z zero (by rw [value_zero, mul_zero]) representable_zero
  have first := sub_exact keptZ lostY' (by rw [isZ, noY', sub_zero]) (representable_value z)
  have second := sub_exact lostX lostZ (by rw [noX, noZ, sub_zero]) representable_zero
  have third := sub_exact lostY keptX (by rw [noY, isX, zero_sub]) (representable_value x).neg
  refine ⟨isFinite_iff.mpr ⟨first.1, second.1, third.1⟩, ?_⟩
  funext i
  fin_cases i
  exacts [first.2, second.2, third.2]

/-- Of length one and across a direction, up to errors of about a ten thousandth. -/
structure Beside (p : Vec3) (r : Fin 3 → ℝ) : Prop where
  across : |p.exact ⬝ᵥ r| ≤ 2 ^ (-13 : ℤ) + 2 ^ (-17 : ℤ)
  unit : |p.exact ⬝ᵥ p.exact - 1| ≤ 2 ^ (-17 : ℤ)

/-- The unit vector of what is nearly across a direction is nearly across it. -/
theorem beside_of_mem {c : Vec3} (large : 2 ^ (-60 : ℤ) ≤ c.size) (found : p ∈ c.normalize?)
    (near : NearUnit f.exact r) (across : |c.exact ⬝ᵥ f.exact| ≤ 2 ^ (-13 : ℤ) * c.size) : p.Beside r := by
  have positive : 0 < c.size := lt_of_lt_of_le (by positivity) large
  have close := nearUnit_of_mem large found
  have turned : |c.heading ⬝ᵥ f.exact| ≤ 2 ^ (-13 : ℤ) := by
    have split : c.heading ⬝ᵥ f.exact = (c.exact ⬝ᵥ f.exact) / c.size := by
      simp only [dot_three, heading, unitOf, size]
      ring
    rw [split, abs_div, abs_of_pos positive, div_le_iff₀ positive]
    exact across
  have error (i : Fin 3) : |p.exact i * r i - c.heading i * f.exact i| ≤ 2 * 2 ^ (-20 : ℤ) := by
    have split : p.exact i * r i - c.heading i * f.exact i =
        (p.exact i - c.heading i) * r i - c.heading i * (f.exact i - r i) := by ring
    have first := mul_le_mul (close.error i) (near.exact_le_one i) (abs_nonneg _) (by positivity)
    have second := mul_le_mul (close.exact_le_one i) (near.error i) (abs_nonneg _) zero_le_one
    rw [split]
    refine (abs_sub _ _).trans ?_
    rw [abs_mul, abs_mul, two_mul]
    exact add_le_add (first.trans_eq (mul_one _)) (second.trans_eq (one_mul _))
  refine ⟨?_, close.dot_self⟩
  have kept := (abs_sub_abs_le_abs_sub (p.exact ⬝ᵥ r) (c.heading ⬝ᵥ f.exact)).trans (dot_near error)
  norm_num at kept turned ⊢
  linarith

private theorem Clear.apart_heading (clear : Clear a b) (positive : 0 < b.size) :
    a.size / 1000 ≤ √((a.exact ⨯₃ b.heading) ⬝ᵥ (a.exact ⨯₃ b.heading)) := by
  have split : a.exact ⨯₃ b.exact = b.size • (a.exact ⨯₃ b.heading) := by
    rw [← map_smul]
    congr 1
    funext i
    simp only [heading, unitOf, Pi.smul_apply, smul_eq_mul]
    exact (mul_div_cancel₀ _ positive.ne').symm
  have apart := clear.apart
  rw [split, smul_dotProduct, dotProduct_smul, smul_eq_mul, smul_eq_mul, ← mul_assoc, ← sq,
    Real.sqrt_mul (sq_nonneg _), Real.sqrt_sq positive.le] at apart
  refine le_of_mul_le_mul_left ?_ positive
  linarith

/-- An upward direction at an angle gives a right axis beside the direction. -/
theorem Clear.beside (clear : Clear a b) (positive : 0 < b.size) (first : a.isFinite) (second : f.isFinite)
    (near : NearUnit f.exact b.heading) (found : p ∈ (a.cross f).normalize?) : p.Beside b.heading := by
  have long := clear.long
  have crossed := cross_near first second (isFinite_of_normalize? found).1
  have wide : a.size / 1010 ≤ (a.cross f).size := crossed.size_le near long (clear.apart_heading positive)
  have across : |(a.cross f).exact ⬝ᵥ f.exact| ≤ 177 / 100 * 2 ^ (-24 : ℤ) * a.size +
      2 ^ (-21 : ℤ) * (a.cross f).size + 2 ^ (-144 : ℤ) := crossed.across near
  refine beside_of_mem ?_ found near (across.trans ?_) <;> norm_num at long ⊢ <;> linarith

/-- The axis taken where there is no other is across the direction exactly. -/
theorem exists_beside (away : 2 ^ (-23 : ℤ) ≤ |f.exact 2|) (finite : f.isFinite) (near : NearUnit f.exact r) :
    ∃ p, p ∈ (unitY.cross f).normalize? ∧ p.Beside r := by
  obtain ⟨whole, parts⟩ := cross_unitY finite
  have square : (unitY.cross f).size ^ 2 = f.exact 2 * f.exact 2 + f.exact 0 * f.exact 0 := by
    rw [size_sq, parts, dot_three]
    simp
  have large : 2 ^ (-23 : ℤ) ≤ (unitY.cross f).size := by
    have component := (unitY.cross f).abs_le_size 0
    rw [parts] at component
    exact away.trans component
  have small : (unitY.cross f).size ≤ 3 := by
    refine abs_le_of_sq_le_sq' ?_ (by norm_num) |>.2
    have x := mul_self_le_mul_self (abs_nonneg _) (near.small 0)
    have z := mul_self_le_mul_self (abs_nonneg _) (near.small 2)
    rw [abs_mul_abs_self] at x z
    linarith
  have orthogonal : (unitY.cross f).exact ⬝ᵥ f.exact = 0 := by
    rw [parts, dot_three]
    simp
    ring
  have above : 2 ^ (-60 : ℤ) ≤ (unitY.cross f).size := le_trans (by norm_num) large
  obtain ⟨p, found⟩ := exists_normalize? whole above (small.trans (by norm_num))
  refine ⟨p, found, beside_of_mem above found near ?_⟩
  rw [orthogonal, abs_zero]
  exact mul_nonneg (by positivity) (size_nonneg _)

/-- The right axis is beside the direction, if it is made of more than rounding errors. -/
theorem Moderate.rightAxis_beside {up forward : Vec3} (moderate : forward.Moderate) (finite : up.isFinite)
    (found : f ∈ forward.normalize?) (apart : Clear up forward ∨ (up.cross f).normalize? = none) :
    (rightAxis f up).Beside forward.heading := by
  obtain ⟨least, -⟩ := moderate.size_between
  have large : 2 ^ (-60 : ℤ) ≤ forward.size := le_trans (by norm_num) least
  have near := nearUnit_of_mem large found
  have isFinite : f.isFinite := isFinite_iff_part.mpr fun i => (normalize?_near large found i).finite
  cases axis : (up.cross f).normalize? with
  | none =>
    obtain ⟨p, isUnit, beside⟩ := exists_beside (moderate.direction_away found 2) isFinite near
    rwa [rightAxis_of_none axis isUnit]
  | some p =>
    have clear : Clear up forward := apart.resolve_right (by rw [axis]; exact Option.some_ne_none p)
    rw [rightAxis_of_mem axis]
    exact clear.beside (lt_of_lt_of_le (by norm_num) least) finite isFinite near axis

private theorem Within.cross_of_two (first : a.Within 2) (second : b.Within 2) : (a.cross b).Within 8 := by
  have crossed := first.cross second (representable_natural (n := 4) (by norm_num) (by norm_num))
    (representable_natural (n := 8) (by norm_num) (by norm_num))
  exact crossed.weaken (by norm_num)

private theorem Within.abs_exact_le {bound : ℝ} (within : Within bound a) (i : Fin 3) : |a.exact i| ≤ bound := by
  fin_cases i
  exacts [within.x.magnitude, within.y.magnitude, within.z.magnitude]

/-- The upward column is near the exact one across the other two. -/
theorem Beside.cross_near (beside : p.Beside r) (near : NearUnit f.exact r) (first : p.Within 2)
    (third : f.Within 2) (second : (f.cross p).Within 8) (i : Fin 3) :
    |(f.cross p).exact i - (r ⨯₃ p.exact) i| ≤ 6 * 2 ^ (-20 : ℤ) := by
  have root : √(p.exact ⬝ᵥ p.exact) ≤ 2 := by
    have unit := (abs_le.mp beside.unit).2
    norm_num at unit
    exact Real.sqrt_le_iff.mpr ⟨by norm_num, by linarith⟩
  have turned := cross_sub_le (u := p.exact) near.error i
  rw [← cross_anticomm r, ← cross_anticomm f.exact, Pi.neg_apply, Pi.neg_apply, ← neg_sub', abs_neg,
    abs_sub_comm] at turned
  have noise := Sapling.cross_near third.isFinite first.isFinite second.isFinite |>.error i
  have product (j k : Fin 3) : |f.exact j| * |p.exact k| ≤ 2 * 2 :=
    mul_le_mul (third.abs_exact_le j) (first.abs_exact_le k) (abs_nonneg _) (by norm_num)
  have upward := second.abs_exact_le i
  refine (abs_sub_le _ _ _).trans ((add_le_add noise turned).trans ?_)
  norm_num
  linarith [product (i + 1) (i + 2), product (i + 2) (i + 1)]

/-- Columns made of a direction and what is beside it take the third axis along the direction. -/
theorem Beside.third_near (beside : p.Beside r) (near : NearUnit f.exact r) (first : p.Within 2)
    (third : f.Within 2) (i : Fin 3) :
    |((Quat.ofColumns p (f.cross p) f).normalize.rotate .unitZ).exact i - r i| ≤ 1 / 1000 := by
  have length : |p.exact ⬝ᵥ p.exact - (p.exact ⬝ᵥ r) ^ 2 - 1| ≤ 9 * 2 ^ (-20 : ℤ) := by
    have across := abs_le.mp beside.across
    have whole := abs_le.mp beside.unit
    have square : (p.exact ⬝ᵥ r) ^ 2 ≤ 2 ^ (-20 : ℤ) := by
      norm_num at across ⊢
      nlinarith
    have nonneg := sq_nonneg (p.exact ⬝ᵥ r)
    rw [abs_le]
    norm_num at whole square ⊢
    constructor <;> linarith
  obtain ⟨p', q', frame, right, upward⟩ := exists_frame near.unit beside.across length (by norm_num)
  have second := third.cross_of_two first
  refine (Quat.third_near frame (first.weaken (by norm_num)) second (third.weaken (by norm_num)) right
    (fun j => (abs_sub_le _ _ _).trans (add_le_add (beside.cross_near near first third second j) (upward j)))
    near.error (by norm_num) i).trans (by norm_num)

end Vec3

/-! ## The rotation -/

section
open Vec3
variable {forward up : Vec3}

/-- A direction of moderate components gives a finite rotation of length one for every upward direction. It takes
the third axis along the direction unless the right axis is made of rounding errors. -/
theorem looks_along_forward (moderate : forward.Moderate) (finite : up.isFinite) :
    ∃ direction ∈ forward.normalize?, (lookRotation forward up).isFinite ∧
      (lookRotation forward up).length.isFinite ∧ |value (lookRotation forward up).length - 1| ≤ 1 / 1000 ∧
      (up.Clear forward ∨ (up.cross direction).normalize? = none → ∀ i,
        |((lookRotation forward up).rotate .unitZ).exact i - forward.heading i| ≤ 1 / 1000) := by
  obtain ⟨least, most⟩ := moderate.size_between
  obtain ⟨direction, found⟩ := exists_normalize? moderate.finite (le_trans (by norm_num) least)
    (most.trans (by norm_num))
  have near := nearUnit_of_mem (le_trans (by norm_num) least) found
  have first := rightAxis_within direction up
  have third := normalize?_within moderate.finite found
  obtain ⟨k, t, -, -, positive, unit⟩ := Quat.ofColumns_near (first.weaken (by norm_num))
    (third.cross_of_two first) (third.weaken (by norm_num))
  obtain ⟨isFinite, length⟩ := Quat.length_near (unitOf_dot_self positive) unit
  rw [← lookRotation_of_mem found] at unit isFinite length
  refine ⟨direction, found, Quat.isFinite_iff.mpr fun j => (unit j).finite, isFinite, length.trans (by norm_num),
    fun apart i => ?_⟩
  have beside := moderate.rightAxis_beside finite found apart
  rw [lookRotation_of_mem found]
  exact beside.third_near near first third i

/-- An upward direction that is three times the direction itself leaves a right axis of rounding errors, and the third
axis is taken elsewhere. With the upward axis the same direction is looked along. -/
theorem looks_aside_of_parallel_up :
    let forward : Vec3 := ⟨6, 9, 1⟩
    let up : Vec3 := ⟨18, 27, 3⟩
    (lookRotation forward up).isFinite ∧
      (∀ i, |((lookRotation forward unitY).rotate .unitZ).exact i - forward.heading i| ≤ 1 / 1000) ∧
      ¬ ∀ i, |((lookRotation forward up).rotate .unitZ).exact i - forward.heading i| ≤ 1 / 1000 := by
  intro forward up
  have six : value 6 = 6 := by
    have shape : (6 : Float32).toModel.unpack = .finite .positive (6 * 2 ^ 21) (-21) (by decide) := rfl
    norm_num [value_of_parts shape, dyadic]
  have nine : value 9 = 9 := by
    have shape : (9 : Float32).toModel.unpack = .finite .positive (9 * 2 ^ 20) (-20) (by decide) := rfl
    norm_num [value_of_parts shape, dyadic]
  have parts : forward.exact = ![6, 9, 1] := by
    funext i
    fin_cases i
    exacts [six, nine, value_one]
  have parts' : unitY.exact = ![0, 1, 0] := by
    funext i
    fin_cases i
    exacts [value_zero, value_one, value_zero]
  have size : forward.size = √118 := by
    rw [Vec3.size, parts, dot_three]
    simp only [Matrix.cons_val]
    norm_num
  have moderate : forward.Moderate := by
    refine ⟨by decide +kernel, ?_, ?_⟩ <;> rw [parts] <;> intro i <;> fin_cases i <;> norm_num
  have clear : unitY.Clear forward := by
    have one : unitY.size = 1 := by
      rw [Vec3.size, parts', dot_three]
      simp
    refine ⟨?_, ?_⟩
    · rw [one]
      norm_num
    · rw [one, size, parts, parts', cross_apply, dot_three]
      have root : √118 ≤ (11 : ℝ) := Real.sqrt_le_iff.mpr ⟨by norm_num, by norm_num⟩
      refine LE.le.trans ?_ (Real.le_sqrt_of_sq_le (x := 1) ?_)
      · linarith
      · simp only [Matrix.cons_val]
        norm_num
  obtain ⟨-, -, length, -, -, -⟩ := looks_along_forward moderate (show up.isFinite by decide +kernel)
  obtain ⟨_, -, -, -, -, along⟩ := looks_along_forward moderate (show unitY.isFinite by decide +kernel)
  refine ⟨length, along (.inl clear), fun near => ?_⟩
  have image : value ((lookRotation forward up).rotate .unitZ).x ≤ 1 / 2 := by
    rw [← value_half]
    exact (le_iff_value (by decide +kernel) (by decide +kernel)).mp (by decide +kernel)
  have along : 11 / 20 ≤ forward.heading 0 := by
    change 11 / 20 ≤ forward.exact 0 / forward.size
    have root : √118 ≤ (120 / 11 : ℝ) := Real.sqrt_le_iff.mpr ⟨by norm_num, by norm_num⟩
    rw [size, parts, le_div_iff₀ (by positivity)]
    simp
    linarith
  have off := (abs_le.mp (near 0)).1
  change -(1 / 1000) ≤ value ((lookRotation forward up).rotate .unitZ).x - forward.heading 0 at off
  linarith

end

end Sapling
