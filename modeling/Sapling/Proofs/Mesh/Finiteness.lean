import Sapling.Proofs.Geometry.Interpolation
import Sapling.Proofs.Geometry.Vectors
import Sapling.Proofs.Mesh.Surface
import Sapling.Proofs.Scalar.Words

/-! Which tubes have finite vertices. While coordinates and widths keep away from the greatest number by three
powers of two, nothing overflows but heights: a ring needs one of its two height differences to be a number.
The waves that go around a ring can be any that stay between minus one and one. -/
namespace Sapling

open Scalar

/-- A function of angles with values between minus one and one. -/
def UnitWave (wave : Float32 → Float32) : Prop :=
  ∀ x : Float32, x.isFinite → -1 ≤ wave x ∧ wave x ≤ 1

namespace Tube

/-! ## Meshes for any waves -/

/-- How far around a ring a column is. -/
def share (tube : Tube) (j : Nat) : Float32 := (UInt32.ofNat j).toFloat32 / tube.fieldsAround.toFloat32

def normalBy (cos sin : Float32 → Float32) (tube : Tube) (i j : Nat) : Vec3 :=
  let (right, up) := ringAxes (tube.curve.tangent (tube.parameter i))
  let angle := tube.share j * Scalar.tau
  right * cos angle + up * sin angle

def vertexBy (cos sin : Float32 → Float32) (tube : Tube) (i j : Nat) : Vertex :=
  let ring := tube.ring i
  let normal := tube.normalBy cos sin i j
  ⟨ring.center + normal * ring.radius, normal, tube.share j, tube.parameter i⟩

def meshBy (cos sin : Float32 → Float32) (tube : Tube) : Mesh :=
  let along := tube.fieldsAlong.toNat
  let around := tube.fieldsAround.toNat
  { vertices := ((List.range (along + 1)).flatMap fun i =>
      (List.range around).map (tube.vertexBy cos sin i)).toArray
    indices := ((indices along around).map UInt32.ofNat).toArray
    rings := ((List.range (along + 1)).map tube.ring).toArray }

/-- The mesh of a tube is the one for the waves that the program runs with. -/
theorem mesh_eq (tube : Tube) : tube.mesh = tube.meshBy Float32.cos Float32.sin := rfl

/-- Coordinates and a width that sums of a few of them cannot overflow with. -/
structure Moderate (tube : Tube) : Prop where
  start : tube.curve.start.Within (2 ^ 125)
  control : tube.curve.control.Within (2 ^ 125)
  tip : tube.curve.tip.Within (2 ^ 125)
  baseWidth : Between (-(2 ^ 125)) (2 ^ 125) tube.baseWidth
  baseHeight : tube.baseHeight.isFinite
  maxHeight : tube.maxHeight.isFinite

/-- One of the two height differences of a ring is a number. -/
def HeightsFit (tube : Tube) (i : Nat) : Prop :=
  (tube.maxHeight - tube.baseHeight).isFinite ∨ ((tube.ring i).center.y - tube.baseHeight).isFinite

end Tube

/-! ## Weights -/

section
variable {t u : Float32}

theorem representable_multiple {n : Nat} {v : ℝ} (few : n ≤ 7) (isMultiple : v = n * 2 ^ 125) :
    Representable v := by
  have multiple := representable_dyadic (show n * 2 ^ 21 < 2 ^ 24 by omega)
    (show (-149 : ℤ) ≤ 104 by decide) le_rfl
  rw [isMultiple]
  convert multiple using 1
  rw [dyadic]
  push_cast
  norm_num
  ring

/-- The weight of the control point is at most one: either the parameter is at most a half or what is left
of one is. -/
theorem middle_between (part : Between 0 1 t) : Between 0 1 (2 * (1 - t) * t) := by
  have two : Between 0 2 (2 : Float32) := ⟨rfl, value_two ▸ zero_le_two, value_two.le⟩
  have half : Representable (1 / 2) := ⟨0.5, rfl, value_half⟩
  have rest := one_sub_between part
  rcases le_total (value t) (1 / 2) with low | high
  · have first := two.mul_unsigned rest (representable_natural (n := 2) (by decide) (by norm_num))
    have second : Between 0 (1 / 2) t := ⟨part.finite, part.low, low⟩
    have product := first.mul_unsigned second
      (representable_natural (n := 1) (by decide) (by norm_num))
    rwa [mul_one, mul_one_div_cancel two_ne_zero] at product
  · have rounds := rounds_sub (show (1 : Float32).isFinite from rfl) part.finite
    rw [value_one] at rounds
    have small : Between 0 (1 / 2) (1 - t) :=
      ⟨rest.finite, rest.low, rounds.at_most half (by linarith) rest.finite⟩
    have first := two.mul_unsigned small (representable_natural (n := 1) (by decide) (by norm_num))
    rw [mul_one_div_cancel two_ne_zero] at first
    exact product_between first part

end

/-! ## Curves -/

namespace Curve

variable {c : Curve} {t : Float32}

private theorem weigh_within {a : Vec3} {bound : ℝ} (factor : Between 0 1 t) (within : a.Within bound)
    (representable : Representable bound) : (t * a).Within bound := by
  have weighed := Vec3.Within.weigh (factor.weaken (by norm_num) le_rfl) within
    (by rwa [one_mul])
  rwa [one_mul] at weighed

private theorem point_within (start : c.start.Within (2 ^ 125)) (control : c.control.Within (2 ^ 125))
    (tip : c.tip.Within (2 ^ 125)) (part : Between 0 1 t) : (c.point t).Within (3 * 2 ^ 125) := by
  have one : Representable (2 ^ 125) := representable_multiple (n := 1) (by decide) (by norm_num)
  have two : Representable (2 ^ 125 + 2 ^ 125) := representable_multiple (n := 2) (by decide) (by norm_num)
  have three : Representable (2 ^ 125 + 2 ^ 125 + 2 ^ 125) :=
    representable_multiple (n := 3) (by decide) (by norm_num)
  have rest := one_sub_between part
  have first := weigh_within (product_between rest rest) start one
  have second := weigh_within (middle_between part) control one
  have third := weigh_within (product_between part part) tip one
  exact ((first.add second two).add third three).weaken (by norm_num)

private theorem direction?_within {difference direction : Vec3} (finite : difference.isFinite)
    (found : direction ∈ direction? difference) : direction.Within 2 := by
  unfold direction? at found
  by_cases long : degenerate < difference.lengthSquared
  · rw [if_pos long, Option.mem_some_iff] at found
    have least : 0 ≤ level degenerate := by decide +kernel
    have away := (lt_iff.mp long).2.2
    exact found ▸ Vec3.normalize_within finite (Int.lt_of_le_of_lt least away)
  · rw [if_neg long] at found
    cases found

private theorem tangent_within (points : ∀ t, Between 0 1 t → (c.point t).Within (3 * 2 ^ 125))
    (part : Between 0 1 t) : (c.tangent t).Within 2 := by
  have six : Representable (3 * 2 ^ 125 + 3 * 2 ^ 125) :=
    representable_multiple (n := 6) (by decide) (by norm_num)
  have step : tangentStep.isFinite := by decide +kernel
  have ahead := (points _ (clamp_unit (rounds_add part.finite step).isNumber)).sub (points t part) six
  have behind := (points t part).sub (points _ (clamp_unit (rounds_sub part.finite step).isNumber)) six
  unfold tangent
  cases found : direction? (c.point (clamp (t + tangentStep) 0 1) - c.point t) with
  | some direction =>
    have within := direction?_within ahead.isFinite found
    simpa [found] using within
  | none =>
    cases found' : direction? (c.point t - c.point (clamp (t - tangentStep) 0 1)) with
    | some direction =>
      have within := direction?_within behind.isFinite found'
      simpa [found, found'] using within
    | none => simpa [found, found'] using Vec3.unitY_within

end Curve

/-! ## Rings -/

namespace Tube

variable {tube : Tube} {i : Nat}

/-- A part of a whole number of fields. -/
theorem part_between {i : Nat} {n : UInt32} (counted : 0 < n.toNat) (inside : i ≤ n.toNat) :
    Between 0 1 ((UInt32.ofNat i).toFloat32 / n.toFloat32) := by
  have given : (UInt32.ofNat i).toNat = i :=
    UInt32.toNat_ofNat_of_lt' (Nat.lt_of_le_of_lt inside (UInt32.toNat_lt n))
  have ordered : value (UInt32.ofNat i).toFloat32 ≤ value n.toFloat32 :=
    value_word_mono (UInt32.le_iff_toNat_le.mpr (given.symm ▸ inside))
  have positive := zero_lt_one.trans_le (one_le_value_word counted)
  refine (rounds_div (word_isFinite _) (word_isFinite n) positive.ne').between representable_zero
    representable_one ?_ ?_
  · exact div_nonneg (word_between _).low positive.le
  · exact (div_le_one positive).mpr ordered

/-- A tube has a field along its curve, also where the settings ask for none. -/
theorem fieldsAlong_pos (tube : Tube) : 0 < tube.fieldsAlong.toNat := by
  rw [toNat_fieldsAlong]
  exact Nat.le_max_right ..

theorem parameter_between (inside : i ≤ tube.fieldsAlong.toNat) : Between 0 1 (tube.parameter i) :=
  part_between tube.fieldsAlong_pos inside

theorem center_within (moderate : tube.Moderate) (inside : i ≤ tube.fieldsAlong.toNat) :
    (tube.ring i).center.Within (3 * 2 ^ 125) :=
  Curve.point_within moderate.start moderate.control moderate.tip (parameter_between inside)

theorem topScale_between : Between 0 1 topScale := by
  have low : (0 : Float32) ≤ topScale := by decide +kernel
  have high : topScale ≤ (1 : Float32) := by decide +kernel
  exact between_unit low high

theorem positive_topScale : Positive topScale := ⟨topScale_between.finite, by decide +kernel⟩

theorem positive_one : Positive 1 := ⟨rfl, by decide +kernel⟩

/-- What is left of the width at a ratio of heights. -/
theorem scale_between {ratio : Float32} (part : Between 0 1 ratio) :
    Between 0 1 (lerp 1 topScale ratio) := by
  have between := lerp_between positive_topScale positive_one (value_one ▸ topScale_between.high) part
  rwa [value_one] at between

/-- A radius that is cut off at zero keeps its bound. -/
theorem max_zero_between {w : Float32} {bound : ℝ} (within : Between (-bound) bound w) :
    Between 0 bound (Scalar.max w 0) := by
  have order := lt_iff_value within.finite (show (0 : Float32).isFinite from rfl)
  rw [value_zero] at order
  unfold Scalar.max
  rw [isNaN_of_isFinite within.finite, Bool.or_false]
  by_cases below : w < 0
  · have negative := order.mp below
    simp only [below, decide_true, ↓reduceIte]
    exact ⟨rfl, value_zero.ge, by linarith [value_zero, within.low]⟩
  · have up := not_lt.mp (mt order.mpr below)
    simp only [below, decide_false, Bool.false_eq_true, ↓reduceIte]
    exact ⟨within.finite, up, within.high⟩

private theorem radius_between (moderate : tube.Moderate) (inside : i ≤ tube.fieldsAlong.toNat)
    (fits : tube.HeightsFit i) : Between 0 (2 ^ 124) (tube.ring i).radius := by
  have center := center_within moderate inside
  have ratio := inverseLerp_between moderate.baseHeight moderate.maxHeight center.y.finite fits
  have half : Between 0 (1 / 2) (0.5 : Float32) := ⟨rfl, by norm_num, value_half.le⟩
  have width : Representable (2 ^ 125 * (1 / 2)) := by
    have power := representable_power (show (-149 : ℤ) ≤ 124 by decide) (by decide)
    norm_num at power ⊢
    exact power
  have halved := (max_zero_between moderate.baseWidth).mul_unsigned half width
  have scaled := halved.mul_unsigned (scale_between ratio) (by rwa [mul_one])
  exact scaled.weaken le_rfl (by norm_num)

private theorem radius_isNaN (moderate : tube.Moderate) (inside : i ≤ tube.fieldsAlong.toNat)
    (fits : ¬ tube.HeightsFit i) : (tube.ring i).radius.isNaN := by
  obtain ⟨span, rise⟩ := not_or.mp fits
  have center := center_within moderate inside
  have ratio := inverseLerp_isNaN moderate.baseHeight moderate.maxHeight center.y.finite span rise
  exact mul_isNaN (add_isNaN (.inr (mul_isNaN ratio)))

/-- The axes of a ring are unit vectors up to rounding. -/
theorem ringAxes_within {forward : Vec3} (within : forward.Within 2) :
    (ringAxes forward).1.Within 2 ∧ (ringAxes forward).2.Within 2 := by
  have four : Representable (2 * 2) := representable_natural (n := 4) (by decide) (by norm_num)
  have eight : Representable (2 * 2 + 2 * 2) := representable_natural (n := 8) (by decide) (by norm_num)
  have axis {a b fallback : Vec3} (first : a.Within 2) (second : b.Within 2) (other : fallback.Within 2) :
      ((a.cross b).normalize?.getD fallback).Within 2 := by
    have finite := (first.cross second four eight).isFinite
    cases found : (a.cross b).normalize? with
    | some direction => exact Vec3.normalize?_within finite found
    | none => exact other
  have right := axis within (b := if 0.99 < (forward.dot .unitY).abs then Vec3.unitZ else Vec3.unitY)
    (by split; exacts [Vec3.unitZ_within, Vec3.unitY_within]) Vec3.unitX_within
  exact ⟨right, axis right within Vec3.unitZ_within⟩

section
variable {cos sin : Float32 → Float32} {j : Nat}

private theorem share_between (column : j < tube.fieldsAround.toNat) : Between 0 1 (tube.share j) :=
  part_between (Nat.zero_lt_of_lt column) (Nat.le_of_lt column)

private theorem wave_between {wave : Float32 → Float32} {x : Float32} (isUnit : UnitWave wave)
    (finite : x.isFinite) : Between (-1) 1 (wave x) := by
  obtain ⟨low, high⟩ := isUnit x finite
  have between := between_of_le (show (-1 : Float32).isFinite from rfl) rfl low high
  rwa [value_neg, value_one] at between

private theorem normalBy_within (isCos : UnitWave cos) (isSin : UnitWave sin) (moderate : tube.Moderate)
    (inside : i ≤ tube.fieldsAlong.toNat) (column : j < tube.fieldsAround.toNat) :
    (tube.normalBy cos sin i j).Within 4 := by
  have points (t : Float32) (part : Between 0 1 t) : (tube.curve.point t).Within (3 * 2 ^ 125) :=
    Curve.point_within moderate.start moderate.control moderate.tip part
  obtain ⟨right, up⟩ := ringAxes_within (Curve.tangent_within points (parameter_between inside))
  have two : Representable (2 * 1) := representable_natural (n := 2) (by decide) (by norm_num)
  have four : Representable (2 * 1 + 2 * 1) := representable_natural (n := 4) (by decide) (by norm_num)
  have angle : (tube.share j * tau).isFinite := by
    have share := share_between column
    have full : tau.isFinite := by decide +kernel
    have up := (le_iff_value rfl full).mp (show (0 : Float32) ≤ tau by decide +kernel)
    rw [value_zero] at up
    exact ((rounds_mul share.finite full).between representable_zero (representable_value full)
      (mul_nonneg share.low up) (mul_le_of_le_one_left up share.high)).finite
  exact ((right.scale (wave_between isCos angle) two).add (up.scale (wave_between isSin angle) two)
    four).weaken (by norm_num)

private theorem position_within (isCos : UnitWave cos) (isSin : UnitWave sin) (moderate : tube.Moderate)
    (inside : i ≤ tube.fieldsAlong.toNat) (column : j < tube.fieldsAround.toNat)
    (fits : tube.HeightsFit i) : (tube.vertexBy cos sin i j).position.Within (5 * 2 ^ 125) := by
  have normal := normalBy_within isCos isSin moderate inside column
  have radius := (radius_between moderate inside fits).weaken (by norm_num : -(2 ^ 124 : ℝ) ≤ 0) le_rfl
  have offset := normal.scale radius (representable_multiple (n := 2) (by decide) (by norm_num))
  exact ((center_within moderate inside).add offset
    (representable_multiple (n := 5) (by decide) (by norm_num))).weaken (by norm_num)

private theorem vertexBy_isFinite_iff (isCos : UnitWave cos) (isSin : UnitWave sin) (moderate : tube.Moderate)
    (inside : i ≤ tube.fieldsAlong.toNat) (column : j < tube.fieldsAround.toNat) :
    (tube.vertexBy cos sin i j).isFinite ↔ tube.HeightsFit i := by
  constructor
  · intro finite
    by_contra unfit
    have radius := radius_isNaN moderate inside unfit
    have odd : (tube.vertexBy cos sin i j).position.x.isNaN := add_isNaN (.inr (mul_isNaN radius))
    rw [isNaN_of_isFinite (List.all_eq_true.mp finite _ List.mem_cons_self)] at odd
    cases odd
  · intro fits
    obtain ⟨x, y, z⟩ := position_within isCos isSin moderate inside column fits
    obtain ⟨x', y', z'⟩ := normalBy_within isCos isSin moderate inside column
    have u := (share_between column).finite
    have v := (parameter_between inside).finite
    refine List.all_eq_true.mpr ?_
    simp only [Vertex.toList, List.forall_mem_cons]
    exact ⟨x.finite, y.finite, z.finite, x'.finite, y'.finite, z'.finite, u, v, List.forall_mem_nil _⟩

/-- The mesh of a moderate tube has finite vertices, and its rings have finite centers and radii, if and only
if the heights of every ring fit. The program's own mesh is the one for the cosine and the sine of
single-precision numbers. -/
theorem mesh_finite_iff (isCos : UnitWave cos) (isSin : UnitWave sin) (tube : Tube)
    (moderate : tube.Moderate) :
    tube.mesh = tube.meshBy Float32.cos Float32.sin ∧
    ((tube.meshBy cos sin).isFinite ↔ ∀ i ≤ tube.fieldsAlong.toNat, tube.HeightsFit i) ∧
    ((∀ ring ∈ (tube.meshBy cos sin).rings, ring.center.isFinite ∧ ring.radius.isFinite) ↔
      ∀ i ≤ tube.fieldsAlong.toNat, tube.HeightsFit i) := by
  have vertex (i j : Nat) (inside : i ≤ tube.fieldsAlong.toNat) (column : j < tube.fieldsAround.toNat) :=
    vertexBy_isFinite_iff isCos isSin moderate inside column
  have positive : 0 < tube.fieldsAround.toNat := by
    rw [toNat_fieldsAround]
    exact Nat.lt_of_lt_of_le (by decide) (Nat.le_max_right ..)
  refine ⟨tube.mesh_eq, ?_, ?_⟩
  · have each : (tube.meshBy cos sin).isFinite ↔ ∀ i ≤ tube.fieldsAlong.toNat,
        ∀ j < tube.fieldsAround.toNat, (tube.vertexBy cos sin i j).isFinite := by
      simp [Mesh.isFinite, meshBy]
    rw [each]
    exact ⟨fun finite i inside => (vertex i 0 inside positive).mp (finite i inside 0 positive),
      fun fits i inside j column => (vertex i j inside column).mpr (fits i inside)⟩
  · have each : (∀ ring ∈ (tube.meshBy cos sin).rings, ring.center.isFinite ∧ ring.radius.isFinite) ↔
        ∀ i ≤ tube.fieldsAlong.toNat,
          (tube.ring i).center.isFinite ∧ (tube.ring i).radius.isFinite := by
      simp [meshBy]
    rw [each]
    refine ⟨fun finite i inside => ?_, fun fits i inside => ?_⟩
    · by_contra unfit
      have odd := radius_isNaN moderate inside unfit
      rw [isNaN_of_isFinite (finite i inside).2] at odd
      cases odd
    · exact ⟨(center_within moderate inside).isFinite,
        (radius_between moderate inside (fits i inside)).finite⟩

end

/-- A short branch high up, with heights counted over the whole range of numbers and over half of it. Waves
are given at the three angles of its rings. -/
theorem high_branch_is_not_finite :
    let cos : Float32 → Float32 := fun x => if x < 1 then 1 else if x < 3 then -0.50000006 else -0.4999999
    let sin : Float32 → Float32 := fun x => if x < 1 then 0 else if x < 3 then 0.8660254 else -0.86602545
    let curve : Curve := ⟨⟨0, 4.2535296e37, 0⟩, ⟨0, 4.2535296e37, 0⟩, ⟨0, 4.2535296e37, 0⟩⟩
    let whole : Tube := ⟨curve, 0.1, -3.2964854e38, 3.2964854e38, 1, 3⟩
    let half : Tube := ⟨curve, 0.1, -1.4355662e38, 1.8609192e38, 1, 3⟩
    UnitWave cos ∧ UnitWave sin ∧ whole.Moderate ∧ ¬ (whole.meshBy cos sin).isFinite ∧
      half.Moderate ∧ (half.meshBy cos sin).isFinite := by
  intro cos sin curve whole half
  have isCos : UnitWave cos := fun x _ => by
    change -1 ≤ (if x < 1 then _ else _) ∧ (if x < 1 then _ else _) ≤ _
    split
    · decide +kernel
    · split <;> decide +kernel
  have isSin : UnitWave sin := fun x _ => by
    change -1 ≤ (if x < 1 then _ else _) ∧ (if x < 1 then _ else _) ≤ _
    split
    · decide +kernel
    · split <;> decide +kernel
  have power : value 4.2535296e37 = 2 ^ 125 := by
    have same : (4.2535296e37 : Float32) = .ofBits 0x7E000000 := by decide +kernel
    have shape : (Float32.ofBits 0x7E000000).toModel.unpack =
        .finite .positive (2 ^ 23) 102 (by decide) := rfl
    rw [same, value_of_parts shape]
    norm_num [dyadic]
  have zero : Between (-(2 ^ 125)) (2 ^ 125) (0 : Float32) := ⟨rfl, by norm_num, by norm_num⟩
  have height : Between (-(2 ^ 125)) (2 ^ 125) (4.2535296e37 : Float32) :=
    ⟨by decide +kernel, by rw [power]; norm_num, power.le⟩
  have point : Vec3.Within (2 ^ 125) ⟨0, 4.2535296e37, 0⟩ := ⟨zero, height, zero⟩
  have width : Between (-(2 ^ 125)) (2 ^ 125) (0.1 : Float32) := by
    have low : (0 : Float32) ≤ 0.1 := by decide +kernel
    have high : (0.1 : Float32) ≤ 1 := by decide +kernel
    exact (between_unit low high).weaken (by norm_num) (by norm_num)
  have moderate : whole.Moderate := ⟨point, point, point, width, by decide +kernel, by decide +kernel⟩
  have moderate' : half.Moderate := ⟨point, point, point, width, by decide +kernel, by decide +kernel⟩
  have unfit : ¬ ((whole.maxHeight - whole.baseHeight).isFinite ∨
      ((whole.ring 0).center.y - whole.baseHeight).isFinite) := by decide +kernel
  have fits : (half.maxHeight - half.baseHeight).isFinite := by decide +kernel
  refine ⟨isCos, isSin, moderate, fun finite => ?_, moderate', ?_⟩
  · exact unfit ((mesh_finite_iff isCos isSin whole moderate).2.1.mp finite 0 (Nat.zero_le _))
  · exact (mesh_finite_iff isCos isSin half moderate').2.1.mpr fun _ _ => .inl fits

end Tube

end Sapling
