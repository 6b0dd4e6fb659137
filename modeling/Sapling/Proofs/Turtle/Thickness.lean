import Sapling.Growth.Scheduler
import Sapling.Proofs.Geometry.Interpolation
import Sapling.Proofs.Geometry.Vectors
import Sapling.Turtle.Walk

/-! Which segments have a thickness that a tube can have. Widths are drawn for any power function that keeps
the numbers between zero and one among themselves; the one that the program runs with is one choice for it. -/
namespace Sapling

open Scalar

/-- Powers with a positive exponent: of a number between zero and one the power is another one, and what is
not a number stays so. -/
structure UnitPower (power : Float32 → Float32 → Float32) : Prop where
  unit (x e : Float32) : 0 ≤ x → x ≤ 1 → Positive e → 0 ≤ power x e ∧ power x e ≤ 1
  odd (x e : Float32) : x.isNaN → Positive e → (power x e).isNaN

/-! ## Widths for any power -/

namespace Taper

/-- How far up and out a point is. The taper's factor is a power of it. -/
def reach (taper : Taper) (point origin : Vec3) (maxHeight : Float32) : Float32 :=
  let vertical := inverseLerp origin.y maxHeight point.y
  let horizontal :=
    Scalar.clamp (horizontalDistance point origin / taper.maxHorizontalDistance) 0 1
  Scalar.clamp ((vertical + horizontal) * 0.5) 0 1

def factorBy (power : Float32 → Float32 → Float32) (taper : Taper) (point origin : Vec3)
    (maxHeight : Float32) : Float32 := power (taper.reach point origin maxHeight) taper.exponent

def widthBy (power : Float32 → Float32 → Float32) (taper : Taper) (point origin : Vec3)
    (maxHeight : Float32) : Float32 :=
  lerp taper.maxWidth taper.minWidth (taper.factorBy power point origin maxHeight)

def thickenBy (power : Float32 → Float32 → Float32) (taper : Taper) (origin : Vec3) (maxHeight : Float32)
    (segments : Array Segment) : Array Segment :=
  let tapered := segments.map fun s => { s with thickness := taper.widthBy power s.tip origin maxHeight }
  match taper.trunkWidth with
  | some width => tapered.modify 0 fun s => { s with thickness := width }
  | none => tapered

end Taper

namespace TurtleSettings

def interpretBy (power : Float32 → Float32 → Float32) (settings : TurtleSettings) (word : List Char)
    (origin : Transform) : Random.Draw Interpretation := do
  let base := origin.position.y
  let walk ← word.foldlM (Walk.step settings base) (.start origin)
  let closed := walk.closeAll settings base
  return { closed.finish settings origin.position with
    segments := settings.taper.thickenBy power origin.position closed.skeleton.maxHeight
      closed.skeleton.segments }

/-- Drawing is drawing with the power function of the program. -/
theorem interpret_eq (settings : TurtleSettings) :
    settings.interpret = settings.interpretBy Float32.pow := rfl

end TurtleSettings

/-! ## Reach -/

namespace Taper

/-- One of the two height differences is small enough for a number. -/
def HeightFits (point origin : Vec3) (maxHeight : Float32) : Prop :=
  (maxHeight - origin.y).isFinite ∨ (point.y - origin.y).isFinite

variable {taper : Taper} {point origin : Vec3} {maxHeight : Float32}

private theorem isNumber_horizontalDistance (isPoint : point.isFinite) (isOrigin : origin.isFinite) :
    (horizontalDistance point origin).isNaN = false := by
  obtain ⟨x, -, z⟩ := Vec3.isFinite_iff.mp isPoint
  obtain ⟨x', -, z'⟩ := Vec3.isFinite_iff.mp isOrigin
  have squared : Nonneg (Vec3.lengthSquared ⟨point.x - origin.x, 0, point.z - origin.z⟩) :=
    Vec3.nonneg_lengthSquared (rounds_sub x x').isNumber (isNaN_of_isFinite (x := 0) rfl)
      (rounds_sub z z').isNumber
  exact squared.sqrt.isNumber

private theorem horizontal_between (positive : Positive taper.maxHorizontalDistance) (isPoint : point.isFinite)
    (isOrigin : origin.isFinite) :
    Between 0 1 (clamp (horizontalDistance point origin / taper.maxHorizontalDistance) 0 1) :=
  clamp_unit (div_isNumber (isNumber_horizontalDistance isPoint isOrigin)
    (isNaN_of_isFinite positive.finite) (fun _ => positive.value_pos.ne') (.inr positive.finite))

private theorem reach_between (accepted : taper.Accepted) (isPoint : point.isFinite) (isOrigin : origin.isFinite)
    (isHeight : maxHeight.isFinite) (fits : HeightFits point origin maxHeight) :
    Between 0 1 (taper.reach point origin maxHeight) := by
  have vertical := inverseLerp_between (Vec3.isFinite_iff.mp isOrigin).2.1 isHeight
    (Vec3.isFinite_iff.mp isPoint).2.1 fits
  have horizontal := horizontal_between accepted.maxHorizontalDistance isPoint isOrigin
  have two : Representable (1 + 1) := representable_natural (n := 2) (by decide) (by norm_num)
  have sum := vertical.add horizontal (by rw [add_zero]; exact representable_zero) two
  exact clamp_unit (rounds_mul sum.finite (show (0.5 : Float32).isFinite from rfl)).isNumber

private theorem reach_isNaN (isPoint : point.isFinite) (isOrigin : origin.isFinite)
    (isHeight : maxHeight.isFinite) (fits : ¬ HeightFits point origin maxHeight) :
    (taper.reach point origin maxHeight).isNaN := by
  obtain ⟨span, rise⟩ := not_or.mp fits
  have vertical := inverseLerp_isNaN (Vec3.isFinite_iff.mp isOrigin).2.1 isHeight
    (Vec3.isFinite_iff.mp isPoint).2.1 span rise
  have mean := mul_isNaN_of_first (y := 0.5) (add_isNaN (.inl vertical)
    (y := clamp (horizontalDistance point origin / taper.maxHorizontalDistance) 0 1))
  unfold reach
  rw [clamp_nan mean]
  exact mean

/-! ## Widths -/

/-- The taper is complete at a point, and the least width is lost beside the greatest there. -/
def Vanishes (power : Float32 → Float32 → Float32) (taper : Taper) (point origin : Vec3)
    (maxHeight : Float32) : Prop :=
  taper.minWidth - taper.maxWidth = -taper.maxWidth ∧ 1 ≤ taper.factorBy power point origin maxHeight

variable {power : Float32 → Float32 → Float32}

private theorem factorBy_between
    (unit : ∀ x : Float32, 0 ≤ x → x ≤ 1 → 0 ≤ power x taper.exponent ∧ power x taper.exponent ≤ 1)
    (reach : Between 0 1 (taper.reach point origin maxHeight)) :
    Between 0 1 (taper.factorBy power point origin maxHeight) := by
  have factor := unit (taper.reach point origin maxHeight)
  rw [le_iff_value rfl reach.finite, le_iff_value reach.finite rfl, value_zero, value_one] at factor
  obtain ⟨low, high⟩ := factor reach.low reach.high
  exact between_unit low high

/-- Widths of accepted tapers are positive unless the heights do not fit or the width vanishes. -/
theorem widthBy_positive_iff (lawful : UnitPower power) (accepted : taper.Accepted)
    (isPoint : point.isFinite) (isOrigin : origin.isFinite) (isHeight : maxHeight.isFinite) :
    Positive (taper.widthBy power point origin maxHeight) ↔
      HeightFits point origin maxHeight ∧ ¬ Vanishes power taper point origin maxHeight := by
  by_cases fits : HeightFits point origin maxHeight
  · have part := factorBy_between (fun x above below => lawful.unit x _ above below accepted.exponent)
      (reach_between accepted isPoint isOrigin isHeight fits)
    rw [and_iff_right fits]
    exact lerp_positive_iff accepted.minWidth accepted.maxWidth accepted.widths.ordered part
  · have odd : (taper.factorBy power point origin maxHeight).isNaN :=
      lawful.odd _ _ (reach_isNaN isPoint isOrigin isHeight fits) accepted.exponent
    have width : (taper.widthBy power point origin maxHeight).isNaN :=
      add_isNaN (.inr (mul_isNaN odd))
    refine iff_of_false (fun positive => ?_) fun both => fits both.1
    rw [isNaN_of_isFinite positive.finite] at width
    cases width

/-- The first segment takes the width of the trunk, if that is given. -/
def thicknessBy (power : Float32 → Float32 → Float32) (taper : Taper) (origin : Vec3)
    (maxHeight : Float32) (i : Nat) (tip : Vec3) : Float32 :=
  match taper.trunkWidth with
  | some width => if i = 0 then width else taper.widthBy power tip origin maxHeight
  | none => taper.widthBy power tip origin maxHeight

private theorem thickness_thickenBy (power : Float32 → Float32 → Float32) {segments : Array Segment} {i : Nat}
    {segment : Segment} (held : (taper.thickenBy power origin maxHeight segments)[i]? = some segment) :
    segment.thickness = taper.thicknessBy power origin maxHeight i segment.tip := by
  unfold thicknessBy
  unfold thickenBy at held
  cases trunk : taper.trunkWidth with
  | none =>
    simp only [trunk, Array.getElem?_map, Option.map_eq_some_iff] at held
    obtain ⟨drawn, -, rfl⟩ := held
    rfl
  | some width =>
    simp only [trunk, Array.getElem?_modify, Array.getElem?_map] at held
    by_cases first : i = 0
    · rw [if_pos first.symm, Option.map_eq_some_iff] at held
      obtain ⟨drawn, -, rfl⟩ := held
      exact (if_pos first).symm
    · rw [if_neg (Ne.symm first), Option.map_eq_some_iff] at held
      obtain ⟨drawn, -, rfl⟩ := held
      exact (if_neg first).symm

end Taper

/-! ## Drawings -/

namespace Interpretation

/-- All coordinates that a drawing is made of are finite. -/
structure Finite (drawing : Interpretation) : Prop where
  segments : ∀ segment ∈ drawing.segments,
    segment.start.isFinite ∧ segment.control.isFinite ∧ segment.tip.isFinite
  anchors : ∀ anchor ∈ drawing.anchors, anchor.position.isFinite
  origin : drawing.origin.isFinite
  maxHeight : drawing.maxHeight.isFinite

end Interpretation

namespace Tube

private theorem validate_ok_iff {tube : Tube} : tube.validate = .ok () ↔
    ¬ tube.curveSegments < 1 ∧ ¬ tube.radialSegments < 3 ∧ Positive tube.baseWidth := by
  simp only [validate, Validation.unless_ok_iff, Ensure.positive_ok_iff]

end Tube

namespace TurtleSettings

/-- The tube of a drawn segment is valid if and only if its thickness is positive: it has the width of
the trunk, or the heights fit and the least width is not lost at its tip. The program draws with one such power
function, for which the powers of single-precision numbers stand. -/
theorem drawn_tube_valid_iff {power : Float32 → Float32 → Float32} (lawful : UnitPower power)
    (settings : TurtleSettings) (accepted : settings.validate = .ok ()) (mesh : MeshSettings)
    (fine : mesh.validate = .ok ()) (word : List Char) (origin : Transform) (source : Random.Generator)
    (s : Scheduler) :
    settings.interpret = settings.interpretBy Float32.pow ∧
    let drawing := ((settings.interpretBy power word origin).run source).1
    drawing.Finite → ∀ i segment, drawing.segments[i]? = some segment →
      ((({ s with interpretation := drawing, mesh } : Scheduler).tubeOf segment).validate = .ok () ↔
        Positive segment.thickness) ∧
      (Positive segment.thickness ↔ (i = 0 ∧ settings.taper.trunkWidth.isSome) ∨
        (Taper.HeightFits segment.tip drawing.origin drawing.maxHeight ∧
          ¬ Taper.Vanishes power settings.taper segment.tip drawing.origin drawing.maxHeight)) := by
  refine ⟨settings.interpret_eq, ?_⟩
  intro drawing finite i segment held
  obtain ⟨along, around⟩ := MeshSettings.validate_ok_iff.mp fine
  have accepted := (validate_ok_iff.mp accepted).taper
  obtain ⟨-, -, isTip⟩ := finite.segments segment (Array.mem_of_getElem? held)
  have width := Taper.widthBy_positive_iff lawful accepted isTip finite.origin finite.maxHeight
  have thickness : segment.thickness = settings.taper.thicknessBy power drawing.origin drawing.maxHeight i
      segment.tip := Taper.thickness_thickenBy power held
  refine ⟨Tube.validate_ok_iff.trans (by simp only [Scheduler.tubeOf, along, around,
    not_false_eq_true, true_and]), ?_⟩
  rw [thickness, Taper.thicknessBy]
  cases trunk : settings.taper.trunkWidth with
  | none => simpa using width
  | some given =>
    by_cases first : i = 0
    · have positive := accepted.trunkWidth given trunk
      simpa [first] using positive
    · simpa [first] using width

/-- A step up and out, drawn with widths that are far apart: its tip is as high and as far out as the taper
reaches, no thickness is left there, and no scheduler makes a valid tube of it. -/
theorem slanted_step_has_no_thickness :
    let settings : TurtleSettings :=
      { lengthVariance := 0, taper := { minWidth := 1e-9, maxWidth := 1, maxHorizontalDistance := 0.1 } }
    let origin : Transform := ⟨.zero, ⟨0, 0, -0.38268343, 0.9238795⟩, .one⟩
    let drawing := ((settings.interpretBy (fun x _ => x) ['F'] origin).run (.ofSeed 1)).1
    settings.validate = .ok () ∧ drawing.Finite ∧ ∃ segment, drawing.segments[0]? = some segment ∧
      ∀ s : Scheduler, (({ s with interpretation := drawing, mesh := {} } : Scheduler).tubeOf
        segment).validate ≠ .ok () := by
  intro settings origin drawing
  have accepted : settings.validate = .ok () := by decide +kernel
  have lawful : UnitPower fun x _ => x :=
    ⟨fun x _ above below _ => ⟨above, below⟩, fun x _ odd _ => odd⟩
  have finite : drawing.Finite :=
    ⟨by decide +kernel, by decide +kernel, by decide +kernel, by decide +kernel⟩
  have drawn : 0 < drawing.segments.size := by decide +kernel
  have apart : settings.taper.minWidth - settings.taper.maxWidth = -settings.taper.maxWidth := by
    decide +kernel
  have complete : ∀ segment ∈ drawing.segments,
      1 ≤ settings.taper.factorBy (fun x _ => x) segment.tip drawing.origin drawing.maxHeight := by
    decide +kernel
  refine ⟨accepted, finite, drawing.segments[0], Array.getElem?_eq_getElem drawn, fun s valid => ?_⟩
  obtain ⟨-, valid_iff⟩ := drawn_tube_valid_iff lawful settings accepted {} rfl ['F'] origin (.ofSeed 1) s
  obtain ⟨isValid, isPositive⟩ := valid_iff finite 0 _ (Array.getElem?_eq_getElem drawn)
  rcases isPositive.mp (isValid.mp valid) with ⟨-, trunk⟩ | ⟨-, kept⟩
  · cases trunk
  · exact kept ⟨apart, complete _ (Array.getElem_mem drawn)⟩

end TurtleSettings

/-! ## Tapering

Branches get thinner on the way up and out. Of two points, the one that is no lower and no closer to the trunk
has the larger factor and the smaller width, for every power function that keeps the numbers between zero and one
in order.
-/

/-- Powers with one exponent of numbers between zero and one: they are such numbers too, in the same order. -/
structure RisingPower (power : Float32 → Float32 → Float32) (exponent : Float32) : Prop where
  unit (x : Float32) : 0 ≤ x → x ≤ 1 → 0 ≤ power x exponent ∧ power x exponent ≤ 1
  rises (x y : Float32) : 0 ≤ x → x ≤ y → y ≤ 1 → power x exponent ≤ power y exponent

namespace Taper

/-- The taper is that for the power function of the program. -/
theorem width_eq (taper : Taper) : taper.width = taper.widthBy Float32.pow := rfl

private theorem factor_eq (taper : Taper) : taper.factor = taper.factorBy Float32.pow := rfl

variable {taper : Taper} {p q origin : Vec3} {maxHeight : Float32} {power : Float32 → Float32 → Float32}

private theorem reach_unit (accepted : taper.Accepted) (isPoint : p.isFinite) (isOrigin : origin.isFinite)
    (heights : Span (origin.y, maxHeight)) : Between 0 1 (taper.reach p origin maxHeight) :=
  reach_between accepted isPoint isOrigin heights.high (.inl heights.width)

/-- A point that is no lower and no closer to the trunk is reached no earlier. -/
theorem reach_mono (accepted : taper.Accepted) (isFirst : p.isFinite) (isSecond : q.isFinite)
    (isOrigin : origin.isFinite) (heights : Span (origin.y, maxHeight)) (higher : p.y ≤ q.y)
    (farther : horizontalDistance p origin ≤ horizontalDistance q origin) :
    taper.reach p origin maxHeight ≤ taper.reach q origin maxHeight := by
  have isHigh := (Vec3.isFinite_iff.mp isFirst).2.1
  have isHigh' := (Vec3.isFinite_iff.mp isSecond).2.1
  have distance := accepted.maxHorizontalDistance
  have vertical := inverseLerp_inside heights isHigh
  have vertical' := inverseLerp_inside heights isHigh'
  have horizontal := horizontal_between distance isFirst isOrigin
  have horizontal' := horizontal_between distance isSecond isOrigin
  have two : Representable (1 + 1) := representable_natural (n := 2) (by decide) (by norm_num)
  have zero : Representable (0 + 0) := by
    rw [add_zero]
    exact representable_zero
  have out := clamp_mono (show (0 : Float32).isFinite from rfl) (show (1 : Float32).isFinite from rfl) (by decide)
    (quotient_mono farther distance.finite distance.value_pos)
  have up := inverseLerp_mono heights isHigh isHigh' higher
  have sum := le_trans
    (sum_mono vertical.finite vertical'.finite horizontal.finite up)
    (sum_mono_right horizontal.finite horizontal'.finite vertical'.finite out)
  have half : 0 ≤ value 0.5 := by norm_num
  exact clamp_mono rfl rfl (by decide) (product_mono (vertical.add horizontal zero two).finite
    (vertical'.add horizontal' zero two).finite rfl sum half)

/-- Up and out from the foot of the trunk the factor does not fall and the width does not rise. Factors are
numbers from zero to one, and no branch is wider than the greatest width. The program's own factor and width are
those for the powers of single-precision numbers. -/
theorem widths_fall_up_and_out (taper : Taper) (accepted : taper.validate = .ok ())
    (rising : RisingPower power taper.exponent) (isOrigin : origin.isFinite)
    (heights : Span (origin.y, maxHeight)) (isFirst : p.isFinite) (isSecond : q.isFinite)
    (higher : p.y ≤ q.y) (farther : horizontalDistance p origin ≤ horizontalDistance q origin) :
    (taper.factor = taper.factorBy Float32.pow ∧ taper.width = taper.widthBy Float32.pow) ∧
    taper.factorBy power p origin maxHeight ≤ taper.factorBy power q origin maxHeight ∧
    UnitNumber (taper.factorBy power p origin maxHeight) ∧
    UnitNumber (taper.factorBy power q origin maxHeight) ∧
    taper.widthBy power q origin maxHeight ≤ taper.widthBy power p origin maxHeight ∧
    taper.widthBy power p origin maxHeight ≤ taper.maxWidth := by
  have accepted := validate_ok_iff.mp accepted
  have ordered := (le_iff_value accepted.minWidth.finite accepted.maxWidth.finite).mp accepted.widths.ordered
  have first := reach_unit accepted isFirst isOrigin heights
  have second := reach_unit accepted isSecond isOrigin heights
  have part := factorBy_between rising.unit first
  have part' := factorBy_between rising.unit second
  have factor : taper.factorBy power p origin maxHeight ≤ taper.factorBy power q origin maxHeight :=
    rising.rises _ _ (unitNumber_iff_between.mpr first).low
      (reach_mono accepted isFirst isSecond isOrigin heights higher farther)
      (unitNumber_iff_between.mpr second).high
  have width := lerp_between accepted.minWidth accepted.maxWidth ordered part
  exact ⟨⟨taper.factor_eq, taper.width_eq⟩, factor, unitNumber_iff_between.mpr part,
    unitNumber_iff_between.mpr part',
    lerp_anti accepted.minWidth accepted.maxWidth ordered part part' factor,
    (le_iff_value width.finite accepted.maxWidth.finite).mpr width.high⟩

/-- A point just above the foot of the trunk, and one that is too far out for its distance to be a number, with
widths far apart. The power with exponent one is the number itself. -/
theorem widths_fall_beyond_numbers :
    let power : Float32 → Float32 → Float32 := fun x _ => x
    let taper : Taper := { minWidth := 1e-30, maxWidth := 3e38 }
    let origin : Vec3 := ⟨-3e38, 1, 0⟩
    let p : Vec3 := ⟨-3e38, 2, 0⟩
    let q : Vec3 := ⟨3e38, 1e38, -7⟩
    taper.validate = .ok () ∧ RisingPower power taper.exponent ∧ origin.isFinite ∧ Span (origin.y, 3e38) ∧
      p.isFinite ∧ q.isFinite ∧ p.y ≤ q.y ∧
      Taper.horizontalDistance p origin ≤ Taper.horizontalDistance q origin ∧
      taper.factorBy power p origin 3e38 ≤ taper.factorBy power q origin 3e38 ∧
      taper.widthBy power q origin 3e38 ≤ taper.widthBy power p origin 3e38 ∧
      taper.widthBy power p origin 3e38 ≤ taper.maxWidth := by
  intro power taper origin p q
  have accepted : taper.validate = .ok () := by decide +kernel
  have rising : RisingPower power taper.exponent :=
    ⟨fun x above below => ⟨above, below⟩, fun x y _ ordered _ => ordered⟩
  have isOrigin : origin.isFinite := by decide +kernel
  have heights : Span (origin.y, 3e38) :=
    ⟨by decide +kernel, by decide +kernel, by decide +kernel, by decide +kernel⟩
  have isFirst : p.isFinite := by decide +kernel
  have isSecond : q.isFinite := by decide +kernel
  have higher : p.y ≤ q.y := by decide +kernel
  have farther : Taper.horizontalDistance p origin ≤ Taper.horizontalDistance q origin := by decide +kernel
  obtain ⟨-, factor, -, -, width, most⟩ := widths_fall_up_and_out taper accepted rising isOrigin heights isFirst
    isSecond higher farther
  exact ⟨accepted, rising, isOrigin, heights, isFirst, isSecond, higher, farther, factor, width, most⟩

end Taper

end Sapling
