import Sapling.Proofs.Color
import Sapling.Proofs.Color.Wheel

/-! Places of colors on the wheel. A hue is a sixth of the place that tells the components of its color, up to a
few roundings, and the place found from the hue again tells them, too. Value and saturation give back how far the
components are apart. -/
namespace Sapling

open Scalar Wheel

/-- How far the components of a color are apart. -/
def Hsv.chroma (hsv : Hsv) : Float32 := hsv.value * hsv.saturation

namespace Color

def part (color : Color) : Primary → Float32
  | .red => color.r
  | .green => color.g
  | .blue => color.b

def greatest (color : Color) : Float32 := Scalar.max (Scalar.max color.r color.g) color.b

def least (color : Color) : Float32 := Scalar.min (Scalar.min color.r color.g) color.b

def spread (color : Color) : Float32 := color.greatest - color.least

/-- How far the component after one is ahead of the one before it, as a part of the spread. -/
def slope (color : Color) (p : Primary) : Float32 :=
  (color.part p.next - color.part p.next.next) / color.spread

/-- The spread without rounding. -/
noncomputable def extent (color : Color) : ℝ := value color.greatest - value color.least

/-- A place on the wheel tells the components of a color. -/
def Told (color : Color) (bound h : ℝ) : Prop :=
  Matches bound color.extent (value color.least) h fun p => value (color.part p)

theorem toHsv_eq (color : Color) : color.toHsv =
    ⟨if color.spread ≤ epsilon then 0
      else if color.greatest == color.part .red then euclideanRemainder (color.slope .red) 6 / 6
      else if color.greatest == color.part .green then (color.slope .green + 2) / 6
      else (color.slope .blue + 4) / 6,
    if color.greatest ≤ epsilon then 0 else color.spread / color.greatest, color.greatest⟩ := rfl

variable {color : Color} {bound h : ℝ}

/-! ## The spread of a color -/

theorem Proper.part (proper : color.Proper) : ∀ p, Between 0 1 (color.part p)
  | .red => unitNumber_iff_between.mp proper.red
  | .green => unitNumber_iff_between.mp proper.green
  | .blue => unitNumber_iff_between.mp proper.blue

theorem Proper.greatest (proper : color.Proper) : Between 0 1 color.greatest :=
  max_unit (max_unit (proper.part .red) (proper.part .green)) (proper.part .blue)

private theorem Proper.least (proper : color.Proper) : Between 0 1 color.least :=
  min_unit (min_unit (proper.part .red) (proper.part .green)) (proper.part .blue)

private theorem value_greatest (proper : color.Proper) : value color.greatest =
    value (color.part .red) ⊔ value (color.part .green) ⊔ value (color.part .blue) := by
  have red := proper.part .red
  have green := proper.part .green
  rw [← value_max red.finite green.finite]
  exact value_max (max_unit red green).finite (proper.part .blue).finite

private theorem value_least (proper : color.Proper) : value color.least =
    value (color.part .red) ⊓ value (color.part .green) ⊓ value (color.part .blue) := by
  have red := proper.part .red
  have green := proper.part .green
  rw [← value_min red.finite green.finite]
  exact value_min (min_unit red green).finite (proper.part .blue).finite

theorem part_le (proper : color.Proper) (p : Primary) : value (color.part p) ≤ value color.greatest := by
  rw [value_greatest proper]
  cases p
  · exact le_sup_left.trans le_sup_left
  · exact le_sup_right.trans le_sup_left
  · exact le_sup_right

theorem le_part (proper : color.Proper) (p : Primary) : value color.least ≤ value (color.part p) := by
  rw [value_least proper]
  cases p
  · exact inf_le_left.trans inf_le_left
  · exact inf_le_left.trans inf_le_right
  · exact inf_le_right

private theorem least_reached (proper : color.Proper) : ∃ p, value (color.part p) = value color.least := by
  rw [value_least proper]
  rcases min_choice (value (color.part .red) ⊓ value (color.part .green)) (value (color.part .blue))
    with chosen | chosen
  · rcases min_choice (value (color.part .red)) (value (color.part .green)) with chosen' | chosen'
    · exact ⟨.red, by rw [chosen, chosen']⟩
    · exact ⟨.green, by rw [chosen, chosen']⟩
  · exact ⟨.blue, chosen.symm⟩

private theorem greatest_reached (proper : color.Proper) : ∃ p, value color.greatest = value (color.part p) := by
  rw [value_greatest proper]
  rcases max_choice (value (color.part .red) ⊔ value (color.part .green)) (value (color.part .blue))
    with chosen | chosen
  · rcases max_choice (value (color.part .red)) (value (color.part .green)) with chosen' | chosen'
    · exact ⟨.red, by rw [chosen, chosen']⟩
    · exact ⟨.green, by rw [chosen, chosen']⟩
  · exact ⟨.blue, chosen⟩

theorem extent_nonneg (proper : color.Proper) : 0 ≤ color.extent :=
  sub_nonneg.mpr ((le_part proper .red).trans (part_le proper .red))

theorem extent_le (proper : color.Proper) : color.extent ≤ value color.greatest :=
  sub_le_self _ proper.least.low

private theorem rounds_spread (proper : color.Proper) : Rounds color.extent color.spread :=
  rounds_sub proper.greatest.finite proper.least.finite

theorem Proper.spread (proper : color.Proper) : Between 0 (value color.greatest) color.spread :=
  (rounds_spread proper).between representable_zero (representable_value proper.greatest.finite)
    (extent_nonneg proper) (extent_le proper)

theorem extent_le_one (proper : color.Proper) : color.extent ≤ 1 := (extent_le proper).trans proper.greatest.high

theorem spread_near (proper : color.Proper) : |value color.spread - color.extent| ≤ 2 ^ (-25 : ℤ) :=
  (rounds_spread proper).unit_error (by linarith [extent_nonneg proper]) (extent_le_one proper)

/-! ## The place of a color -/

private theorem Told.moved {bound' e : ℝ} (placed : color.Told bound h) (proper : color.Proper)
    (near : |e - h| ≤ bound') : color.Told (bound' + bound) e := by
  have nonneg := extent_nonneg proper
  exact Matches.moved placed nonneg ((mul_le_of_le_one_left (abs_nonneg _) (extent_le_one proper)).trans near)

/-- Places are no larger than eight, so rounding one moves it by little. -/
theorem Told.rounded {x : Float32} (placed : color.Told (2 ^ (-22 : ℤ)) h) (proper : color.Proper)
    (near : Rounds h x ∧ |h| ≤ 8 ∨ value x = h) : color.Told (2 ^ (-21 : ℤ)) (value x) := by
  have apart : |value x - h| ≤ 2 ^ (-22 : ℤ) := by
    rcases near with ⟨rounds, small⟩ | equal
    · exact rounds.error (k := 3) (by decide) (by decide) (by norm_num [small])
    · rw [equal, sub_self, abs_zero]
      positivity
  have moved := placed.moved proper apart
  rwa [show (2 : ℝ) ^ (-22 : ℤ) + 2 ^ (-22 : ℤ) = 2 ^ (-21 : ℤ) by norm_num] at moved

section
variable (proper : color.Proper) (far : ¬ color.spread ≤ epsilon)
include proper far

private theorem spread_large : 2 ^ (-23 : ℤ) < value color.spread := by
  rwa [le_epsilon_iff proper.spread.finite, not_le] at far

private theorem extent_pos : 0 < color.extent := by
  have large := spread_large proper far
  obtain ⟨-, high⟩ := abs_le.mp (spread_near proper)
  norm_num at large high ⊢
  linarith

/-- A slope is exact up to the roundings of a difference, of the spread and of their ratio. -/
theorem slope_near (p : Primary) : Between (-2) 2 (color.slope p) ∧
    |color.extent * value (color.slope p) -
      (value (color.part p.next) - value (color.part p.next.next))| ≤ 2 ^ (-22 : ℤ) := by
  have first := proper.part p.next
  have second := proper.part p.next.next
  have large := spread_large proper far
  have positive : 0 < value color.spread := lt_trans (by positivity) large
  have unit := proper.spread.high.trans proper.greatest.high
  have close := spread_near proper
  let step := color.part p.next - color.part p.next.next
  let exact := value (color.part p.next) - value (color.part p.next.next)
  have apart : |exact| ≤ color.extent := by
    rw [abs_le, extent]
    exact ⟨by linarith [le_part proper p.next, part_le proper p.next.next],
      by linarith [le_part proper p.next.next, part_le proper p.next]⟩
  have within := abs_le.mp (apart.trans (extent_le_one proper))
  have stepped : |value step - exact| ≤ 2 ^ (-25 : ℤ) :=
    (rounds_sub first.finite second.finite).unit_error within.1 within.2
  have quotient : Rounds (value step / value color.spread) (color.slope p) :=
    rounds_div (difference_within first second).finite proper.spread.finite positive.ne'
  have steep : |value step / value color.spread| ≤ 2 := by
    rw [abs_div, abs_of_pos positive, div_le_iff₀ positive]
    have reach := abs_sub_abs_le_abs_sub (value step) exact
    obtain ⟨low, -⟩ := abs_le.mp close
    norm_num at stepped low large
    linarith
  have two := representable_natural (v := 2) (n := 2) (by decide) (by norm_num)
  obtain ⟨low, high⟩ := abs_le.mp steep
  have between := quotient.between two.neg two low high
  have ratio := quotient.error (k := 1) (by decide) (by decide) (by rwa [zpow_one])
  refine ⟨between, ?_⟩
  calc |color.extent * value (color.slope p) - exact|
    _ = |(color.extent - value color.spread) * value (color.slope p) +
          value color.spread * (value (color.slope p) - value step / value color.spread) +
          (value step - exact)| := by
      rw [mul_sub, mul_div_cancel₀ _ positive.ne']
      ring_nf
    _ ≤ 2 ^ (-25 : ℤ) * 2 + 1 * 2 ^ (1 - 25 : ℤ) + 2 ^ (-25 : ℤ) := by
      refine (abs_add_three ..).trans (add_le_add (add_le_add ?_ ?_) stepped) <;> rw [abs_mul]
      · exact mul_le_mul (by rwa [abs_sub_comm]) between.magnitude (abs_nonneg _) (by positivity)
      · exact mul_le_mul (by rwa [abs_of_pos positive]) ratio (abs_nonneg _) zero_le_one
    _ ≤ 2 ^ (-22 : ℤ) := by norm_num

private theorem told_slope {p : Primary} (full : value color.greatest = value (color.part p)) :
    color.Told (2 ^ (-22 : ℤ)) (p.place + value (color.slope p)) := by
  have positive := extent_pos proper far
  have ceiling (q : Primary) : value (color.part q) ≤ value color.least + color.extent := by
    rw [extent, add_sub_cancel]
    exact part_le proper q
  have ideal := matches_slope (p := p) (le_part proper) (least_reached proper)
    (by rw [extent, add_sub_cancel, full]) ceiling positive
  have near := (slope_near proper far p).2
  have apart : color.extent * |p.place + value (color.slope p) - (p.place +
      (value (color.part p.next) - value (color.part p.next.next)) / color.extent)| ≤ 2 ^ (-22 : ℤ) := by
    rwa [add_sub_add_left_eq_sub, ← abs_of_pos positive, ← abs_mul, abs_of_pos positive, mul_sub,
      mul_div_cancel₀ _ positive.ne']
  have moved := ideal.moved positive.le apart
  rwa [add_zero] at moved

/-- Green and blue slopes are moved to their places without leaving the wheel. -/
theorem told_shifted {p : Primary} {x : Float32} (atPlace : value x = p.place) (finite : x.isFinite)
    (ahead : 2 ≤ p.place) (full : value color.greatest = value (color.part p)) :
    Between 0 6 (color.slope p + x) ∧ color.Told (2 ^ (-21 : ℤ)) (value (color.slope p + x)) := by
  have slope := (slope_near proper far p).1
  have rounds := rounds_add slope.finite finite
  have placed := told_slope proper far full
  have most := p.place_le
  rw [add_comm, ← atPlace] at placed
  rw [← atPlace] at ahead most
  have six := representable_natural (v := 6) (n := 6) (by decide) (by norm_num)
  have low : 0 ≤ value (color.slope p) + value x := by linarith [slope.low]
  have high : value (color.slope p) + value x ≤ 6 := by linarith [slope.high]
  exact ⟨rounds.between representable_zero six low high,
    placed.rounded proper (.inl ⟨rounds, abs_le.mpr ⟨by linarith, by linarith⟩⟩)⟩

/-- A red slope that points back is moved by a turn. -/
theorem told_turned (full : value color.greatest = value (color.part .red)) :
    Between 0 6 (euclideanRemainder (color.slope .red) 6) ∧
      color.Told (2 ^ (-21 : ℤ)) (value (euclideanRemainder (color.slope .red) 6)) := by
  have slope := (slope_near proper far .red).1
  have placed := told_slope proper far full
  have six : (6 : Float32).isFinite := rfl
  have between := euclideanRemainder_between slope.finite six (by norm_num)
  rw [Primary.place_red, zero_add] at placed
  rw [value_six] at between
  refine ⟨between, ?_⟩
  rcases le_or_gt 0 (value (color.slope .red)) with forth | back
  · have remainder := value_euclideanRemainder slope.finite six (by norm_num) forth
    have floorZero : ⌊value (color.slope .red) / 6⌋₊ = 0 := Nat.floor_eq_zero.mpr (by linarith [slope.high])
    rw [value_six, floorZero, Nat.cast_zero, mul_zero, sub_zero] at remainder
    exact placed.rounded proper (.inr remainder)
  · have rounds := rounds_euclideanRemainder slope.finite six back (by norm_num; linarith [slope.low])
    rw [value_six] at rounds
    have ahead : color.Told _ _ := (matches_turn slope.low back.le).mpr placed
    exact ahead.rounded proper (.inl ⟨rounds, abs_le.mpr ⟨by linarith [slope.low], by linarith⟩⟩)

/-- A hue is a sixth of a place that tells the color. -/
theorem toHsv_place : ∃ place, color.toHsv.hue = place / 6 ∧ Between 0 6 place ∧
    color.Told (2 ^ (-21 : ℤ)) (value place) := by
  have most (p : Primary) := beq_iff_value proper.greatest.finite (proper.part p).finite
  rw [toHsv_eq]
  dsimp only
  rw [if_neg far]
  split
  · rename_i full
    exact ⟨_, rfl, told_turned proper far ((most _).mp full)⟩
  · rename_i other
    split
    · rename_i full
      exact ⟨_, rfl, told_shifted proper far (by norm_num) rfl (by norm_num) ((most _).mp full)⟩
    · rename_i other'
      have full : value color.greatest = value (color.part .blue) := by
        obtain ⟨p, full⟩ := greatest_reached proper
        cases p with
        | red => exact absurd ((most _).mpr full) other
        | green => exact absurd ((most _).mpr full) other'
        | blue => exact full
      exact ⟨_, rfl, told_shifted proper far (by norm_num) rfl (by norm_num) full⟩

end

/-! ## From the hue to a place -/

private theorem rounds_sixth {place : Float32} (finite : place.isFinite) : Rounds (value place / 6) (place / 6) := by
  have rounds := rounds_div finite (show (6 : Float32).isFinite from rfl) (by norm_num)
  rwa [value_six] at rounds

private theorem sixth_between {place : Float32} (wheel : Between 0 6 place) : Between 0 1 (place / 6) :=
  (rounds_sixth wheel.finite).between representable_zero representable_one (by linarith [wheel.low])
    (by linarith [wheel.high])

/-- A place is found again from its hue. Where the hue is a full turn, the wheel is entered anew. -/
theorem told_turn {place : Float32} (placed : color.Told bound (value place)) (proper : color.Proper)
    (wheel : Between 0 6 place) : color.Told (2 ^ (-21 : ℤ) + bound) (value (turn (place / 6))) := by
  have unit := sixth_between wheel
  have sixth := (rounds_sixth wheel.finite).unit_error (by linarith [wheel.low]) (by linarith [wheel.high])
  have fraction := value_euclideanRemainder unit.finite (y := 1) rfl (by norm_num) unit.low
  have finite := (euclideanRemainder_between unit.finite (y := 1) rfl (by norm_num)).finite
  have product : Rounds _ (turn (place / 6)) := rounds_mul finite (show (6 : Float32).isFinite from rfl)
  rw [value_one, div_one, one_mul] at fraction
  rw [fraction, value_six] at product
  rcases unit.high.lt_or_eq with less | full
  · have floorZero : ⌊value (place / 6)⌋₊ = 0 := Nat.floor_eq_zero.mpr less
    rw [floorZero, Nat.cast_zero, sub_zero] at product
    have sixths := product.error (k := 3) (by decide) (by decide)
      (abs_le.mpr ⟨by linarith [unit.low], by linarith⟩)
    refine placed.moved proper ?_
    rw [abs_le] at sixth sixths ⊢
    norm_num at sixth sixths ⊢
    constructor <;> linarith
  · rw [full, Nat.floor_one, Nat.cast_one, sub_self, zero_mul] at product
    rw [(product.exact representable_zero).2]
    have near : |0 + 6 - value place| ≤ 2 ^ (-21 : ℤ) := by
      rw [full, abs_le] at sixth
      rw [abs_le]
      norm_num at sixth ⊢
      constructor <;> linarith
    exact (matches_turn (by norm_num) le_rfl).mp (placed.moved proper near)

private theorem saturation_between (proper : color.Proper) : Between 0 1 color.toHsv.saturation := by
  rw [toHsv_eq]
  dsimp only
  split
  · exact ⟨rfl, value_zero.ge, value_zero.trans_le zero_le_one⟩
  · rename_i bright
    rw [le_epsilon_iff proper.greatest.finite, not_le] at bright
    have positive : 0 < value color.greatest := lt_trans (by positivity) bright
    exact (rounds_div proper.spread.finite proper.greatest.finite positive.ne').between representable_zero
      representable_one (div_nonneg proper.spread.low positive.le) ((div_le_one positive).mpr proper.spread.high)

/-- The hue, saturation and level of a proper color lie in the unit interval, also where a division has no
color to work on. -/
theorem toHsv_proper (proper : color.Proper) : color.toHsv.Proper := by
  refine ⟨unitNumber_iff_between.mpr ?_, unitNumber_iff_between.mpr (saturation_between proper),
    unitNumber_iff_between.mpr proper.greatest⟩
  by_cases far : color.spread ≤ epsilon
  · rw [toHsv_eq]
    dsimp only
    rw [if_pos far]
    exact ⟨rfl, value_zero.ge, value_zero.trans_le zero_le_one⟩
  · obtain ⟨place, atPlace, wheel, -⟩ := toHsv_place proper far
    rw [atPlace]
    exact sixth_between wheel

/-- The hue of a color leads to a place that tells it. A color of almost no spread has no place of its own. -/
theorem told_hue (proper : color.Proper) : color.Told (2 ^ (-20 : ℤ)) (value (turn color.toHsv.hue)) := by
  by_cases far : color.spread ≤ epsilon
  · refine matches_anywhere (le_part proper) (fun p => ?_) ?_ _
    · rw [extent, add_sub_cancel]
      exact part_le proper p
    · rw [le_epsilon_iff proper.spread.finite] at far
      obtain ⟨low, -⟩ := abs_le.mp (spread_near proper)
      norm_num at far low ⊢
      linarith
  · obtain ⟨place, atPlace, wheel, placed⟩ := toHsv_place proper far
    rw [atPlace, show (2 : ℝ) ^ (-20 : ℤ) = 2 ^ (-21 : ℤ) + 2 ^ (-21 : ℤ) by norm_num]
    exact told_turn placed proper wheel

/-- A part of a whole is nearly the part that its ratio takes. -/
theorem ratio_near {part whole : Float32} (unit : Between 0 1 whole) (positive : 0 < value whole)
    (within : Between 0 (value whole) part) :
    |value whole * value (part / whole) - value part| ≤ 2 ^ (-25 : ℤ) := by
  have ratio := (rounds_div within.finite unit.finite positive.ne').unit_error
    (by linarith [div_nonneg within.low positive.le]) ((div_le_one positive).mpr within.high)
  calc |value whole * value (part / whole) - value part|
    _ = value whole * |value (part / whole) - value part / value whole| := by
      rw [← abs_of_pos positive, ← abs_mul, abs_of_pos positive, mul_sub, mul_div_cancel₀ _ positive.ne']
    _ ≤ 1 * 2 ^ (-25 : ℤ) := mul_le_mul unit.high ratio (abs_nonneg _) zero_le_one
    _ = 2 ^ (-25 : ℤ) := one_mul _

/-- Value and saturation give back the spread. What is nearly black has almost none. -/
theorem chroma_near (proper : color.Proper) :
    |color.extent - value color.toHsv.chroma| ≤ 2 ^ (-23 : ℤ) := by
  have unit := proper.greatest
  have part := saturation_between proper
  have rounds := rounds_mul unit.finite part.finite
  have product := rounds.unit_error (by linarith [mul_nonneg unit.low part.low])
    (mul_le_one₀ unit.high part.low part.high)
  change |color.extent - value (color.greatest * color.toHsv.saturation)| ≤ _
  by_cases dark : color.greatest ≤ epsilon
  · have grey : color.toHsv.saturation = 0 := by
      rw [toHsv_eq]
      exact if_pos dark
    rw [le_epsilon_iff unit.finite] at dark
    rw [grey, value_zero, mul_zero] at rounds
    rw [grey, (rounds.exact representable_zero).2, sub_zero, abs_of_nonneg (extent_nonneg proper)]
    exact (extent_le proper).trans dark
  · have saturation : color.toHsv.saturation = color.spread / color.greatest := by
      rw [toHsv_eq]
      exact if_neg dark
    rw [le_epsilon_iff unit.finite, not_le] at dark
    have ratio := ratio_near unit (lt_trans (by positivity) dark) proper.spread
    have near := spread_near proper
    rw [← saturation] at ratio
    rw [abs_le] at product ratio near ⊢
    norm_num at product ratio near ⊢
    constructor <;> linarith

end Color


end Sapling
