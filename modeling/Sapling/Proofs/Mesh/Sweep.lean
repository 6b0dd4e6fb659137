import Sapling.Proofs.Geometry.Interpolation
import Sapling.Proofs.Mesh.Finiteness

/-! How a tube is swept along its curve. Its first and last rings have the ends of the curve for their centers,
with nothing lost to rounding, so branches that share a point meet in it. From ring to ring the parameter rises
from zero to one, and from height to height the radius falls. -/
namespace Sapling

open Scalar

/-- Coordinates that compare as equal: they are the same numbers, up to the signs of zeros. -/
def Vec3.Equals (a b : Vec3) : Prop := a.x == b.x ∧ a.y == b.y ∧ a.z == b.z

instance (a b : Vec3) : Decidable (a.Equals b) :=
  inferInstanceAs (Decidable (a.x == b.x ∧ a.y == b.y ∧ a.z == b.z))

/-! ## Ends of a curve -/

section
variable {a b c : Float32}

/-- A number counted once is not rounded. -/
theorem counted_once (finite : a.isFinite) : (1 * a).isFinite ∧ value (1 * a) = value a := by
  have product := rounds_mul (show (1 : Float32).isFinite from rfl) finite
  rw [value_one, one_mul] at product
  exact product.exact (representable_value finite)

/-- A finite number not counted is nothing, however large it is. -/
theorem not_counted (finite : a.isFinite) : (0 * a).isFinite ∧ value (0 * a) = 0 := by
  have product := rounds_mul (show (0 : Float32).isFinite from rfl) finite
  rw [value_zero, zero_mul] at product
  exact product.exact representable_zero

private theorem sum_exact (first : a.isFinite) (second : b.isFinite) (finite : c.isFinite)
    (same : value a + value b = value c) : (a + b).isFinite ∧ value (a + b) = value c := by
  have sum := rounds_add first second
  rw [same] at sum
  exact sum.exact (representable_value finite)

/-- A weighted sum in which one of three numbers is counted once, and the others not, is that number. -/
theorem first_counted (first : a.isFinite) (second : b.isFinite) (third : c.isFinite) :
    1 * a + 0 * b + 0 * c == a := by
  obtain ⟨finite, isValue⟩ := counted_once first
  obtain ⟨finite', vanishes⟩ := not_counted second
  obtain ⟨finite'', vanishes'⟩ := not_counted third
  have both := sum_exact finite finite' first (by rw [isValue, vanishes, add_zero])
  have total := sum_exact both.1 finite'' first (by rw [both.2, vanishes', add_zero])
  exact (beq_iff_value total.1 first).mpr total.2

private theorem last_counted (first : a.isFinite) (second : b.isFinite) (third : c.isFinite) :
    0 * a + 0 * b + 1 * c == c := by
  obtain ⟨finite, vanishes⟩ := not_counted first
  obtain ⟨finite', vanishes'⟩ := not_counted second
  obtain ⟨finite'', isValue⟩ := counted_once third
  have both := sum_exact finite finite' (c := 0) rfl (by rw [vanishes, vanishes', add_zero, value_zero])
  have total := sum_exact both.1 finite'' third (by rw [both.2, isValue, value_zero, zero_add])
  exact (beq_iff_value total.1 third).mpr total.2

end

namespace Curve

variable {curve : Curve}

private theorem point_zero (start : curve.start.isFinite) (control : curve.control.isFinite)
    (tip : curve.tip.isFinite) : (curve.point 0).Equals curve.start := by
  obtain ⟨x, y, z⟩ := Vec3.isFinite_iff.mp start
  obtain ⟨x', y', z'⟩ := Vec3.isFinite_iff.mp control
  obtain ⟨x'', y'', z''⟩ := Vec3.isFinite_iff.mp tip
  have weights : (1 - 0) * (1 - 0) = (1 : Float32) ∧ 2 * (1 - 0) * 0 = (0 : Float32) ∧
    0 * 0 = (0 : Float32) := by decide +kernel
  simp only [point, weights]
  exact ⟨first_counted x x' x'', first_counted y y' y'', first_counted z z' z''⟩

private theorem point_one (start : curve.start.isFinite) (control : curve.control.isFinite)
    (tip : curve.tip.isFinite) : (curve.point 1).Equals curve.tip := by
  obtain ⟨x, y, z⟩ := Vec3.isFinite_iff.mp start
  obtain ⟨x', y', z'⟩ := Vec3.isFinite_iff.mp control
  obtain ⟨x'', y'', z''⟩ := Vec3.isFinite_iff.mp tip
  have weights : (1 - 1) * (1 - 1) = (0 : Float32) ∧ 2 * (1 - 1) * 1 = (0 : Float32) ∧
    1 * 1 = (1 : Float32) := by decide +kernel
  simp only [point, weights]
  exact ⟨last_counted x x' x'', last_counted y y' y'', last_counted z z' z''⟩

end Curve

namespace Tube

variable {tube : Tube}

/-! ## Parameters -/

theorem value_fieldsAlong_pos (tube : Tube) : 0 < value tube.fieldsAlong.toFloat32 :=
  zero_lt_one.trans_le (one_le_value_word tube.fieldsAlong_pos)

private theorem parameter_zero (tube : Tube) : tube.parameter 0 = 0 := by
  have finite := word_isFinite tube.fieldsAlong
  have above := (lt_iff_value (x := 0) rfl finite).mpr (by rw [value_zero]; exact tube.value_fieldsAlong_pos)
  have nothing : (UInt32.ofNat 0).toFloat32 = 0 := by decide
  rw [parameter, nothing]
  exact zero_div (isNaN_of_isFinite finite) (lt_iff.mp above).2.2

/-- The last parameter is exactly one, also where the number of fields is rounded. -/
theorem parameter_last (tube : Tube) : tube.parameter tube.fieldsAlong.toNat = 1 := by
  have positive := tube.value_fieldsAlong_pos
  have rounds := rounds_div (word_isFinite tube.fieldsAlong) (word_isFinite tube.fieldsAlong) positive.ne'
  rw [div_self positive.ne'] at rounds
  obtain ⟨finite, whole⟩ := rounds.exact representable_one
  have one : level 1 ≠ 0 := by decide
  rw [parameter, UInt32.ofNat_toNat]
  exact (eq_of_value_eq rfl finite (value_one.trans whole.symm) one).symm

private theorem parameter_mono {i j : Nat} (ordered : i ≤ j) (inside : j ≤ tube.fieldsAlong.toNat) :
    tube.parameter i ≤ tube.parameter j := by
  have fits := Nat.lt_of_le_of_lt inside (UInt32.toNat_lt _)
  have words : UInt32.ofNat i ≤ UInt32.ofNat j := by
    rw [UInt32.le_iff_toNat_le, UInt32.toNat_ofNat_of_lt' fits,
      UInt32.toNat_ofNat_of_lt' (Nat.lt_of_le_of_lt ordered fits)]
    exact ordered
  exact quotient_mono (word_le_iff.mpr (.inl words)) (word_isFinite _) tube.value_fieldsAlong_pos

/-- All vertices of a ring are at its parameter. -/
theorem map_v_vertices (tube : Tube) : tube.mesh.vertices.toList.map Vertex.v =
    (List.range (tube.fieldsAlong.toNat + 1)).flatMap fun i =>
      List.replicate tube.fieldsAround.toNat (tube.parameter i) := by
  have ring (i : Nat) : (tube.ringVertices i).map Vertex.v =
      List.replicate tube.fieldsAround.toNat (tube.parameter i) := by
    have each : (tube.ringVertices i).map Vertex.v =
        (List.range tube.fieldsAround.toNat).map fun _ => tube.parameter i := List.map_map
    rw [each, List.map_const', List.length_range]
  simp only [mesh, List.map_flatMap, ring]

/-- The first ring of a tube is centered on the start of its curve and the last one on its tip, wherever the three
points lie and however fine the tube is. The vertices of each ring are at one parameter, which is zero at first,
never falls from ring to ring, and is one in the end. -/
theorem ends_on_curve (tube : Tube) (start : tube.curve.start.isFinite)
    (control : tube.curve.control.isFinite) (tip : tube.curve.tip.isFinite) :
    let along := tube.fieldsAlong.toNat
    (∃ first ∈ tube.mesh.rings[0]?, first.center.Equals tube.curve.start) ∧
    (∃ last ∈ tube.mesh.rings.back?, last.center.Equals tube.curve.tip) ∧
    (tube.mesh.vertices.toList.map Vertex.v = (List.range (along + 1)).flatMap fun i =>
      List.replicate tube.fieldsAround.toNat (tube.parameter i)) ∧
    tube.parameter 0 = 0 ∧ tube.parameter along = 1 ∧
    ∀ i < along, tube.parameter i ≤ tube.parameter (i + 1) := by
  intro along
  have first : tube.mesh.rings[0]? = some (tube.ring 0) := by simp [mesh]
  have last : tube.mesh.rings.back? = some (tube.ring along) := by simp [mesh, along, List.range_succ]
  refine ⟨⟨_, first, ?_⟩, ⟨_, last, ?_⟩, tube.map_v_vertices, tube.parameter_zero, tube.parameter_last,
    fun i inside => parameter_mono (Nat.le_succ i) inside⟩
  · simp only [ring, parameter_zero]
    exact Curve.point_zero start control tip
  · simp only [ring, along, parameter_last]
    exact Curve.point_one start control tip

/-- Points at the ends of the range of numbers, and more rings than numbers tell apart. -/
theorem far_curve_keeps_ends :
    let curve : Curve := ⟨⟨3.4028235e38, -0.0, 1e-45⟩, ⟨-3.4028235e38, 3.4028235e38, 3.4028235e38⟩,
      ⟨0.1, -1e30, 7⟩⟩
    let tube : Tube := ⟨curve, 0.1, 0, 1, 16777217, 0⟩
    curve.start.isFinite ∧ curve.control.isFinite ∧ curve.tip.isFinite ∧
      (∃ first ∈ tube.mesh.rings[0]?, first.center.Equals curve.start) ∧
      (∃ last ∈ tube.mesh.rings.back?, last.center.Equals curve.tip) ∧
      tube.parameter 0 = 0 ∧ tube.parameter 16777217 = 1 := by
  intro curve tube
  have start : curve.start.isFinite := by decide +kernel
  have control : curve.control.isFinite := by decide +kernel
  have tip : curve.tip.isFinite := by decide +kernel
  obtain ⟨first, last, -, zero, one, -⟩ := ends_on_curve tube start control tip
  exact ⟨start, control, tip, first, last, zero, one⟩

/-! ## Radii -/

private theorem half_width_between (finite : tube.baseWidth.isFinite) :
    Between 0 (value (Scalar.max tube.baseWidth 0)) (Scalar.max tube.baseWidth 0 * 0.5) := by
  have width := max_zero_between ⟨finite, neg_abs_le _, le_abs_self _⟩
  have half : Between 0 1 (0.5 : Float32) := ⟨rfl, by norm_num, by norm_num⟩
  rw [product_comm]
  exact half.part width.finite width.low

/-- A radius is a part of half of the width. -/
theorem radiusAt_eq (tube : Tube) (height : Float32) : tube.radiusAt height =
    lerp 1 topScale (inverseLerp tube.baseHeight tube.maxHeight height) *
      (Scalar.max tube.baseWidth 0 * 0.5) := product_comm _ _

/-- The radius of a tube does not grow with height, wherever the heights are and however they round. Nowhere is it
negative or more than half of the width. -/
theorem radius_falls_with_height (tube : Tube) (width : tube.baseWidth.isFinite)
    (range : Span (tube.baseHeight, tube.maxHeight)) :
    (∀ low high : Float32, low.isFinite → high.isFinite → low ≤ high →
      tube.radiusAt high ≤ tube.radiusAt low) ∧
    ∀ height : Float32, height.isFinite →
      0 ≤ tube.radiusAt height ∧ tube.radiusAt height ≤ Scalar.max tube.baseWidth 0 * 0.5 := by
  have half := half_width_between width
  have scale (height : Float32) (finite : height.isFinite) :=
    scale_between (inverseLerp_inside range finite)
  constructor
  · intro low high finite finite' ordered
    have ratio := inverseLerp_mono range finite finite' ordered
    have thinner := lerp_anti positive_topScale positive_one (value_one ▸ topScale_between.high)
      (inverseLerp_inside range finite) (inverseLerp_inside range finite') ratio
    rw [radiusAt_eq, radiusAt_eq]
    exact product_mono (scale high finite').finite (scale low finite).finite half.finite thinner half.low
  · intro height finite
    have radius := (scale height finite).part half.finite half.low
    rw [radiusAt_eq, le_iff_value rfl radius.finite, le_iff_value radius.finite half.finite, value_zero]
    exact ⟨radius.low, radius.high⟩

/-- Heights that are too far from the foot of a tube for a number count as higher than its top. -/
theorem radius_falls_beyond_numbers :
    let tube : Tube := ⟨⟨.zero, .unitY, ⟨0, 2, 0⟩⟩, 0.2, -3e38, 0, 12, 8⟩
    tube.baseWidth.isFinite ∧ Span (tube.baseHeight, tube.maxHeight) ∧ (3.4e38 : Float32).isFinite ∧
      ¬ (3.4e38 - tube.baseHeight).isFinite ∧ tube.radiusAt 3.4e38 ≤ tube.radiusAt (-1e38) ∧
      0 ≤ tube.radiusAt 3.4e38 ∧ tube.radiusAt (-1e38) ≤ Scalar.max tube.baseWidth 0 * 0.5 := by
  intro tube
  have width : tube.baseWidth.isFinite := by decide +kernel
  have range : Span (tube.baseHeight, tube.maxHeight) :=
    ⟨by decide +kernel, by decide +kernel, by decide +kernel, by decide +kernel⟩
  have low : (-1e38 : Float32).isFinite := by decide +kernel
  have high : (3.4e38 : Float32).isFinite := by decide +kernel
  obtain ⟨falls, within⟩ := radius_falls_with_height tube width range
  exact ⟨width, range, high, by decide +kernel, falls _ _ low high (by decide +kernel), (within _ high).1,
    (within _ low).2⟩

end Tube


end Sapling
