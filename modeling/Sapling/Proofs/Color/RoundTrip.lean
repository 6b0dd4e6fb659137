import Mathlib.Tactic.IntervalCases
import Sapling.Proofs.Color.Places
import Sapling.Proofs.Scalar.Words

/-! Colors made of their hues. A color made of hue, saturation and value has what the place of the hue shows of a
full component, next to white. That place tells the components of the color that the hue is from, so this color
comes back nearly as it was. -/
namespace Sapling

open Scalar Wheel

/-- What all components of a color have. -/
def Hsv.rest (hsv : Hsv) : Float32 := hsv.value - hsv.chroma

namespace Color

variable {color : Color}

/-! ## From the place to a color -/

/-- A color by the components of a primary color and of those after and before it. -/
def around (p : Primary) (own ahead behind : Float32) : Color :=
  match p with
  | .red => rgb own ahead behind
  | .green => rgb behind own ahead
  | .blue => rgb ahead behind own

private theorem part_around (p : Primary) (own ahead behind : Float32) : (around p own ahead behind).part p = own ∧
    (around p own ahead behind).part p.next = ahead ∧
    (around p own ahead behind).part p.next.next = behind := by
  cases p <;> exact ⟨rfl, rfl, rfl⟩

/-- What a hue mixes into its primary color. -/
def mixed (hsv : Hsv) : Float32 := hsv.chroma * (1 - (euclideanRemainder (turn hsv.hue) 2 - 1).abs)

/-- Places in the first half of the way between two primary colors are on the first one's side. -/
theorem ofHsv_eq (hsv : Hsv) : ofHsv hsv =
    match (turn hsv.hue).toUInt32.toNat with
    | 0 => around .red (hsv.chroma + hsv.rest) (mixed hsv + hsv.rest) (0 + hsv.rest)
    | 1 => around .green (hsv.chroma + hsv.rest) (0 + hsv.rest) (mixed hsv + hsv.rest)
    | 2 => around .green (hsv.chroma + hsv.rest) (mixed hsv + hsv.rest) (0 + hsv.rest)
    | 3 => around .blue (hsv.chroma + hsv.rest) (0 + hsv.rest) (mixed hsv + hsv.rest)
    | 4 => around .blue (hsv.chroma + hsv.rest) (mixed hsv + hsv.rest) (0 + hsv.rest)
    | _ => around .red (hsv.chroma + hsv.rest) (0 + hsv.rest) (mixed hsv + hsv.rest) := by
  unfold ofHsv mixed turn Hsv.rest Hsv.chroma
  dsimp only
  generalize (euclideanRemainder hsv.hue 1 * 6).toUInt32.toNat = sector
  rcases sector with _ | _ | _ | _ | _ | _ <;> rfl

/-- A component is what a place shows of it, up to a bound. The rest of the color is white. -/
def Near (bound : ℝ) (hsv : Hsv) (shown : ℝ) (component : Float32) : Prop :=
  |Scalar.value component - (Scalar.value hsv.value - Scalar.value hsv.chroma * (1 - shown))| ≤ bound

/-- What is mixed in grows with the way from the nearest primary color, whichever side of it the place is on. -/
theorem nearness_near {place : Float32} {n : ℕ} {way : ℝ} (finite : place.isFinite) (up : 0 ≤ value place)
    (isWay : |value place - 2 * n| = way) (near : way ≤ 1) :
    |value (1 - (euclideanRemainder place 2 - 1).abs) - way| ≤ 2 ^ (-24 : ℤ) := by
  have between := euclideanRemainder_between finite (y := 2) rfl (by norm_num)
  have phase := value_euclideanRemainder finite (y := 2) rfl (by norm_num) up
  rw [value_two] at phase between
  have middle : |value (euclideanRemainder place 2) - 1| = 1 - way := by
    rcases le_or_gt (2 * n : ℝ) (value place) with forth | back
    · rw [abs_of_nonneg (by linarith)] at isWay
      have floor : ⌊value place / 2⌋₊ = n := by
        rw [Nat.floor_eq_iff (by linarith)]
        constructor <;> linarith
      rw [phase, floor, isWay, abs_of_nonpos (by linarith), neg_sub]
    · rw [abs_of_neg (by linarith)] at isWay
      obtain ⟨before, rfl⟩ : ∃ before, n = before + 1 :=
        Nat.exists_eq_succ_of_ne_zero (by rintro rfl; norm_num at back; linarith)
      push_cast at isWay back
      have floor : ⌊value place / 2⌋₊ = before := by
        rw [Nat.floor_eq_iff (by linarith)]
        constructor <;> linarith
      rw [phase, floor, abs_of_nonneg (by linarith)]
      linarith
  have one : (1 : Float32).isFinite := rfl
  have midway := midway_between finite
  have first := rounds_sub between.finite one
  have second := rounds_sub one midway.finite
  rw [value_one] at first second
  have first := (abs_abs_sub_abs_le ..).trans
    (first.unit_error (by linarith [between.low]) (by linarith [between.high]))
  have second := second.unit_error (by linarith [midway.high]) (by linarith [midway.low])
  rw [middle, ← value_abs, abs_le] at first
  rw [abs_le] at second
  rw [abs_le]
  norm_num at first second ⊢
  constructor <;> linarith

section
variable {hsv : Hsv} (proper : hsv.Proper)
include proper

theorem chroma_between : Between 0 (value hsv.value) hsv.chroma := by
  have unit := unitNumber_iff_between.mp proper.value
  have full := (unitNumber_iff_between.mp proper.saturation).part unit.finite unit.low
  rwa [product_comm] at full

/-- Part of the full component is added to the white in the color. -/
theorem near_part {part : Float32} {shown : ℝ} (less : Between 0 (value hsv.chroma) part)
    (close : |value part - value hsv.chroma * shown| ≤ 2 ^ (-23 : ℤ)) :
    Near (2 ^ (-22 : ℤ)) hsv shown (part + hsv.rest) := by
  have unit := unitNumber_iff_between.mp proper.value
  have full := chroma_between proper
  have low := full.low
  have high := full.high
  have most := unit.high
  have rounds : Rounds (value hsv.value - value hsv.chroma) hsv.rest := rounds_sub unit.finite full.finite
  have rest := rounds.unit_error (by linarith) (by linarith)
  have white := rounds.between representable_zero representable_one (by linarith) (by linarith)
  have sum := (rounds_add less.finite white.finite).error (k := 1) (by decide) (by decide)
    (by rw [zpow_one, abs_le]; constructor <;> linarith [less.low, less.high, white.low, white.high])
  rw [Near]
  rw [abs_le] at close rest sum ⊢
  norm_num at close rest sum ⊢
  constructor <;> linarith

private theorem near_full : Near (2 ^ (-22 : ℤ)) hsv 1 (hsv.chroma + hsv.rest) := by
  have full := chroma_between proper
  refine near_part proper ⟨full.finite, full.low, le_rfl⟩ ?_
  rw [mul_one, sub_self, abs_zero]
  positivity

private theorem near_none : Near (2 ^ (-22 : ℤ)) hsv 0 (0 + hsv.rest) := by
  refine near_part proper ⟨rfl, value_zero.ge, value_zero.trans_le (chroma_between proper).low⟩ ?_
  rw [mul_zero, sub_zero, value_zero, abs_zero]
  positivity

private theorem near_mixed {n : ℕ} {way : ℝ} (isWay : |value (turn hsv.hue) - 2 * n| = way) (next : way ≤ 1) :
    Near (2 ^ (-22 : ℤ)) hsv way (mixed hsv + hsv.rest) := by
  have wheel := turn_between (unitNumber_iff_between.mp proper.hue)
  have full := chroma_between proper
  have most := full.high.trans (unitNumber_iff_between.mp proper.value).high
  have part := nearness_between wheel.finite
  have product := (rounds_mul full.finite part.finite).unit_error
    (by linarith [mul_nonneg full.low part.low]) (mul_le_one₀ most part.low part.high)
  have nearness := nearness_near wheel.finite wheel.low isWay next
  have less := part.part full.finite full.low
  rw [product_comm] at less
  refine near_part proper less ?_
  calc |value (mixed hsv) - value hsv.chroma * way|
    _ ≤ 2 ^ (-25 : ℤ) + 1 * 2 ^ (-24 : ℤ) := by
      refine (abs_sub_le _ _ _).trans (add_le_add product ?_)
      rw [← mul_sub, abs_mul, abs_of_nonneg full.low]
      exact mul_le_mul most nearness (abs_nonneg _) zero_le_one
    _ ≤ 2 ^ (-23 : ℤ) := by norm_num

/-- In the first place after a primary color the next one is mixed in. -/
theorem near_forth {p : Primary} {n : ℕ} (atPlace : p.place = 2 * n) (low : 2 * n ≤ value (turn hsv.hue))
    (high : value (turn hsv.hue) ≤ 2 * n + 1) (q : Primary) :
    Near (2 ^ (-22 : ℤ)) hsv (share q (value (turn hsv.hue)))
      ((around p (hsv.chroma + hsv.rest) (mixed hsv + hsv.rest) (0 + hsv.rest)).part q) := by
  obtain ⟨way, place⟩ : ∃ way, p.place + way = value (turn hsv.hue) := ⟨_, add_sub_cancel ..⟩
  obtain ⟨own, ahead, behind⟩ := share_forth p (t := way) (by linarith) (by linarith)
  obtain ⟨first, second, third⟩ :=
    part_around p (hsv.chroma + hsv.rest) (mixed hsv + hsv.rest) (0 + hsv.rest)
  rw [place] at own ahead behind
  rcases p.cases_next q with rfl | rfl | rfl
  · rw [first, own]
    exact near_full proper
  · rw [second, ahead]
    exact near_mixed proper (n := n) (by rw [← place, atPlace, add_sub_cancel_left, abs_of_nonneg (by linarith)])
      (by linarith)
  · rw [third, behind]
    exact near_none proper

/-- In the last place before a primary color the one before it is mixed in. Red comes at the end of the wheel,
too. -/
theorem near_back {p : Primary} {n : ℕ} (low : 2 * n ≤ value (turn hsv.hue) + 1)
    (high : value (turn hsv.hue) ≤ 2 * n)
    (place : ∀ q, share q (p.place + (value (turn hsv.hue) - 2 * n)) = share q (value (turn hsv.hue)))
    (q : Primary) :
    Near (2 ^ (-22 : ℤ)) hsv (share q (value (turn hsv.hue)))
      ((around p (hsv.chroma + hsv.rest) (0 + hsv.rest) (mixed hsv + hsv.rest)).part q) := by
  obtain ⟨own, ahead, behind⟩ :=
    share_back p (t := value (turn hsv.hue) - 2 * n) (by linarith) (by linarith)
  obtain ⟨first, second, third⟩ :=
    part_around p (hsv.chroma + hsv.rest) (0 + hsv.rest) (mixed hsv + hsv.rest)
  rw [← place]
  rcases p.cases_next q with rfl | rfl | rfl
  · rw [first, own]
    exact near_full proper
  · rw [second, ahead]
    exact near_none proper
  · rw [third, behind]
    exact near_mixed proper (n := n) (abs_of_nonpos (by linarith)) (by linarith)

/-- Each component is what the place of the hue shows of it. -/
theorem ofHsv_near (q : Primary) :
    Near (2 ^ (-22 : ℤ)) hsv (share q (value (turn hsv.hue))) ((ofHsv hsv).part q) := by
  have wheel := turn_between (unitNumber_iff_between.mp proper.hue)
  have word := toNat_toUInt32 wheel.finite wheel.low (by linarith [wheel.high])
  have below := Nat.floor_le wheel.low
  have above := Nat.lt_floor_add_one (value (turn hsv.hue))
  have last : ⌊value (turn hsv.hue)⌋₊ ≤ 6 := Nat.floor_le_of_le wheel.high
  have back {p : Primary} {n : ℕ} (atPlace : p.place = 2 * n) (low : 2 * n ≤ value (turn hsv.hue) + 1)
      (high : value (turn hsv.hue) ≤ 2 * n) :=
    near_back proper low high (fun q => by rw [atPlace, add_sub_cancel]) q
  have closing (low : 5 ≤ value (turn hsv.hue)) := by
    refine near_back proper (p := .red) (n := 3) (by norm_num; linarith) (by norm_num [wheel.high])
      (fun q => ?_) q
    have turned := share_turn (p := q) (h := value (turn hsv.hue) - 6) (by linarith) (by linarith [wheel.high])
    rw [sub_add_cancel] at turned
    norm_num [turned]
  -- a turn that is rounded up to six places is in no sector of its own
  rw [ofHsv_eq, word]
  generalize ⌊value (turn hsv.hue)⌋₊ = sector at below above last
  interval_cases sector <;> norm_num at below above
  · exact near_forth proper (n := 0) (by norm_num) (by norm_num [below]) (by norm_num [above.le]) q
  · exact back (n := 1) (by norm_num) (by norm_num; linarith) (by norm_num; linarith)
  · exact near_forth proper (n := 1) (by norm_num) (by norm_num; linarith) (by norm_num; linarith) q
  · exact back (n := 2) (by norm_num) (by norm_num; linarith) (by norm_num; linarith)
  · exact near_forth proper (n := 2) (by norm_num) (by norm_num; linarith) (by norm_num; linarith) q
  · exact closing below
  · exact closing (by linarith)

end

/-! ## There and back -/

private theorem part_returns (proper : color.Proper) (p : Primary) :
    |value ((ofHsv color.toHsv).part p) - value (color.part p)| ≤ 1 / 10000 := by
  let s := share p (value (turn color.toHsv.hue))
  have near : |_ - (value color.greatest - value color.toHsv.chroma * (1 - s))| ≤ _ :=
    ofHsv_near (toHsv_proper proper) p
  have shared : |color.extent * s - (value (color.part p) - value color.least)| ≤ _ := told_hue proper p
  have chroma : |color.extent - value color.toHsv.chroma| ≤ _ := chroma_near proper
  have white : |(color.extent - value color.toHsv.chroma) * (1 - s)| ≤ 2 ^ (-23 : ℤ) := by
    have less : 1 - s ≤ 1 := sub_le_self _ share_nonneg
    rw [abs_mul, abs_of_nonneg (sub_nonneg.mpr share_le_one)]
    exact (mul_le_of_le_one_right (abs_nonneg _) less).trans chroma
  rw [extent] at shared white
  rw [abs_le] at near shared white ⊢
  norm_num at near shared white ⊢
  constructor <;> linarith

/-- A color comes back from its hue, saturation and value, which are numbers from zero to one, and no component is
off by more than a ten-thousandth. -/
theorem comes_back_from_hsv (proper : color.Proper) :
    color.toHsv.Proper ∧ (ofHsv color.toHsv).Proper ∧
      |value (ofHsv color.toHsv).r - value color.r| ≤ 1 / 10000 ∧
      |value (ofHsv color.toHsv).g - value color.g| ≤ 1 / 10000 ∧
      |value (ofHsv color.toHsv).b - value color.b| ≤ 1 / 10000 := by
  have unit := toHsv_proper proper
  refine ⟨unit, ?_, part_returns proper .red, part_returns proper .green, part_returns proper .blue⟩
  exact ofHsv_proper (unitNumber_iff_between.mp unit.hue) (unitNumber_iff_between.mp unit.saturation)
    (unitNumber_iff_between.mp unit.value)

/-- The hue of a red with almost no blue is a full turn. -/
theorem comes_back_after_full_turn :
    (rgb 1 0 epsilon).Proper ∧ (rgb 1 0 epsilon).toHsv.hue = 1 ∧ (rgb 1 0 epsilon).toHsv.Proper ∧
      (ofHsv (rgb 1 0 epsilon).toHsv).Proper ∧
      |value (ofHsv (rgb 1 0 epsilon).toHsv).r - value 1| ≤ 1 / 10000 ∧
      |value (ofHsv (rgb 1 0 epsilon).toHsv).g - value 0| ≤ 1 / 10000 ∧
      |value (ofHsv (rgb 1 0 epsilon).toHsv).b - value epsilon| ≤ 1 / 10000 := by
  have proper : (rgb 1 0 epsilon).Proper := by decide +kernel
  exact ⟨proper, by decide +kernel, comes_back_from_hsv proper⟩

end Color


end Sapling
