import Sapling.Proofs.Settings.Checks

/-! The numbers of settings, wherever they stand. In accepted settings they are finite, apart from the
components of base colors: no check looks at those. -/
namespace Sapling

/-! ## All numbers -/

def ControlJitter.numbers (control : ControlJitter) : List Float32 :=
  [control.lateral, control.vertical.1, control.vertical.2]

def Taper.numbers (taper : Taper) : List Float32 :=
  [taper.minWidth, taper.maxWidth, taper.exponent, taper.maxHorizontalDistance] ++
    taper.trunkWidth.toList

def TurtleSettings.numbers (settings : TurtleSettings) : List Float32 :=
  [settings.baseLength, settings.lengthVariance, settings.baseAngle, settings.angleVariance,
    settings.branchProbability, settings.leafThreshold] ++
    settings.controlJitter.numbers ++ settings.taper.numbers

def TintRanges.numbers (tint : TintRanges) : List Float32 :=
  [tint.r.1, tint.r.2, tint.g.1, tint.g.2, tint.b.1, tint.b.2]

def LeafSettings.numbers (settings : LeafSettings) : List Float32 :=
  [settings.leafSize, settings.sizeVariation.1, settings.sizeVariation.2,
    settings.orientationJitterDegrees] ++ settings.tint.numbers

def Spread.numbers : Spread → List Float32
  | .point => []
  | .sphere radius => [radius]
  | .radial length thickness => [length, thickness]

def GrowthTiming.numbers (timing : GrowthTiming) : List Float32 :=
  [timing.totalGrowthTime, timing.branchOverlapDelay, timing.overlapJitter.1,
    timing.overlapJitter.2, timing.durationJitter.1, timing.durationJitter.2,
    timing.settleDelay.1, timing.settleDelay.2, timing.leafClusterStagger] ++
    timing.leafSpread.numbers

def BarkPalette.numbers (palette : BarkPalette) : List Float32 :=
  palette.colorVariance :: palette.baseColors.flatMap Color.toList

def TreeSettings.numbers (settings : TreeSettings) : List Float32 :=
  settings.turtle.numbers ++ settings.leaves.numbers ++ settings.timing.numbers ++
    settings.bark.numbers

/-! ## Finite numbers -/

private theorem UnitNumber.finite {x : Float32} (inside : UnitNumber x) : x.isFinite := by
  obtain ⟨-, isNumber, up⟩ := Scalar.le_iff.mp inside.low
  obtain ⟨-, -, down⟩ := Scalar.le_iff.mp inside.high
  have zero : Scalar.level 0 = 0 := by decide
  have one : Scalar.level 1 = 127 * 2 ^ 23 := by decide
  have nonneg : Scalar.Nonneg x := ⟨isNumber, zero ▸ up⟩
  exact nonneg.isFinite_of_level (by omega)

namespace ControlJitter.Accepted

private theorem finite {control : ControlJitter} (accepted : control.Accepted) :
    ∀ x ∈ control.numbers, x.isFinite := by
  simp [numbers, accepted.lateral.notNegative.finite, accepted.vertical.low,
    accepted.vertical.high]

end ControlJitter.Accepted

namespace Taper.Accepted

private theorem finite {taper : Taper} (accepted : taper.Accepted) : ∀ x ∈ taper.numbers, x.isFinite := by
  have own (width : Float32) (given : width ∈ taper.trunkWidth.toList) : width.isFinite :=
    (accepted.trunkWidth width (Option.mem_toList.mp given)).finite
  simpa [numbers, accepted.minWidth.finite, accepted.maxWidth.finite, accepted.exponent.finite,
    accepted.maxHorizontalDistance.finite] using own

end Taper.Accepted

namespace TurtleSettings.Accepted

private theorem finite {settings : TurtleSettings} (accepted : settings.Accepted) :
    ∀ x ∈ settings.numbers, x.isFinite := by
  have means : ∀ x ∈ [settings.baseLength, settings.lengthVariance, settings.baseAngle,
      settings.angleVariance, settings.branchProbability, settings.leafThreshold], x.isFinite := by
    simp [accepted.baseLength.finite, accepted.lengthVariance.notNegative.finite,
      accepted.baseAngle.finite, accepted.angleVariance.notNegative.finite,
      accepted.branchProbability.finite, accepted.leafThreshold.finite]
  exact List.forall_mem_append.mpr
    ⟨List.forall_mem_append.mpr ⟨means, accepted.controlJitter.finite⟩, accepted.taper.finite⟩

end TurtleSettings.Accepted

namespace LeafSettings.Accepted

private theorem finite {settings : LeafSettings} (accepted : settings.Accepted) :
    ∀ x ∈ settings.numbers, x.isFinite := by
  simp [numbers, TintRanges.numbers, accepted.leafSize.finite, accepted.sizeVariation.low,
    accepted.sizeVariation.high, accepted.orientationJitter.notNegative.finite,
    accepted.red.low, accepted.red.high, accepted.green.low, accepted.green.high,
    accepted.blue.low, accepted.blue.high]

end LeafSettings.Accepted

private theorem Spread.Accepted.finite {spread : Spread} (accepted : spread.Accepted) :
    ∀ x ∈ spread.numbers, x.isFinite := by
  cases spread with
  | point => exact nofun
  | sphere radius => simpa [numbers] using NotNegative.finite accepted
  | radial length thickness => simp [numbers, accepted.1.finite, accepted.2.finite]

namespace GrowthTiming.Accepted

private theorem finite {timing : GrowthTiming} (accepted : timing.Accepted) :
    ∀ x ∈ timing.numbers, x.isFinite := by
  refine List.forall_mem_append.mpr ⟨?_, accepted.leafSpread.finite⟩
  simp [accepted.totalGrowthTime.finite, accepted.branchOverlapDelay.finite,
    accepted.overlapJitter.low, accepted.overlapJitter.high, accepted.durationJitter.low,
    accepted.durationJitter.high, accepted.settleDelay.low, accepted.settleDelay.high,
    accepted.leafClusterStagger.finite]

end GrowthTiming.Accepted

namespace TreeSettings

/-- In accepted settings all numbers outside the base colors of the bark are finite. The base colors may
hold anything: whatever stands there, the settings are accepted. So all numbers of accepted settings are
finite if and only if those of the base colors are. -/
theorem accepted_numbers_finite {settings : TreeSettings} (valid : settings.validate = .ok ()) :
    (∀ x ∈ settings.turtle.numbers ++ settings.leaves.numbers ++ settings.timing.numbers ++
      [settings.bark.colorVariance], x.isFinite) ∧
    ((∀ x ∈ settings.numbers, x.isFinite) ↔
      ∀ color ∈ settings.bark.baseColors, ∀ x ∈ color.toList, x.isFinite) ∧
    ∀ colors : List Color,
      { settings with bark := { settings.bark with baseColors := colors } }.validate = .ok () := by
  have accepted := validate_ok_iff.mp valid
  have groups : ∀ x ∈ settings.turtle.numbers ++ settings.leaves.numbers ++ settings.timing.numbers,
      x.isFinite :=
    List.forall_mem_append.mpr ⟨List.forall_mem_append.mpr
      ⟨accepted.turtle.finite, accepted.leaves.finite⟩, accepted.timing.finite⟩
  have variance : settings.bark.colorVariance.isFinite := accepted.colorVariance.finite
  refine ⟨List.forall_mem_append.mpr ⟨groups, by simpa using variance⟩, ?_, fun colors => ?_⟩
  · rw [numbers, List.forall_mem_append, and_iff_right groups, BarkPalette.numbers,
      List.forall_mem_cons, and_iff_right variance, List.forall_mem_flatMap]
  · exact validate_ok_iff.mpr ⟨accepted.grammar, accepted.turtle, accepted.mesh, accepted.leaves,
      accepted.timing, accepted.colorVariance⟩

/-- The usual settings with a base color of infinite red are accepted. All their other numbers are
finite. -/
theorem infinite_red_is_accepted :
    let settings : TreeSettings := { bark := { baseColors := [⟨Scalar.infinity, 0.2, 0.1, 1⟩] } }
    settings.validate = .ok () ∧ (∃ x ∈ settings.numbers, ¬ x.isFinite) ∧
    ∀ x ∈ settings.turtle.numbers ++ settings.leaves.numbers ++ settings.timing.numbers ++
      [settings.bark.colorVariance], x.isFinite := by
  have valid : ({ bark := { baseColors := [⟨Scalar.infinity, 0.2, 0.1, 1⟩] } } :
      TreeSettings).validate = .ok () := rfl
  obtain ⟨finite, all, -⟩ := accepted_numbers_finite valid
  refine ⟨valid, ?_, finite⟩
  by_contra bounded
  have red := all.mp (by simpa using bounded) _ List.mem_cons_self _ List.mem_cons_self
  exact absurd red (by decide)

end TreeSettings


end Sapling
