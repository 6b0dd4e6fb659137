import Mathlib.Analysis.Real.Sqrt
import Mathlib.Tactic.Linarith

/-! The color wheel before any rounding. Going round it is six places long, with the primary colors two places
apart. Each of them shows in full up to one place away from its own and fades out over the next. A place tells how
far each component of a color stays above the least one, so a small move round the wheel changes little. -/
namespace Sapling

inductive Primary where
  | red
  | green
  | blue
deriving DecidableEq

namespace Primary

def next : Primary → Primary
  | red => green
  | green => blue
  | blue => red

/-- Two places from each primary color to the next. -/
def steps : Primary → ℕ
  | red => 0
  | green => 2
  | blue => 4

def place (p : Primary) : ℝ := p.steps

@[simp] theorem place_red : red.place = 0 := Nat.cast_zero

@[simp] theorem place_green : green.place = 2 := Nat.cast_ofNat

@[simp] theorem place_blue : blue.place = 4 := Nat.cast_ofNat

private theorem place_nonneg (p : Primary) : 0 ≤ p.place := by cases p <;> norm_num

theorem place_le (p : Primary) : p.place ≤ 4 := by cases p <;> norm_num

/-- Two places on from a primary color is the next one, maybe after a turn. -/
theorem place_next (p : Primary) : p.next.place = p.place + 2 ∨ p.next.place = p.place + 2 - 6 := by
  cases p <;> norm_num [next]

/-- Two places back from it is the one left. -/
theorem place_next_next (p : Primary) :
    p.next.next.place = p.place - 2 ∨ p.next.next.place = p.place - 2 + 6 := by
  cases p <;> norm_num [next]

/-- Going on from one primary color reaches each of them within two steps. -/
theorem cases_next (p q : Primary) : q = p ∨ q = p.next ∨ q = p.next.next := by
  cases p <;> cases q <;> decide

end Primary

namespace Wheel

variable {d e h t : ℝ}

/-- Places beyond which nothing shows. -/
def sight : ℕ := 2

/-- Places of a turn. -/
def circle : ℕ := 6

/-- What shows of a component so far round the wheel from its own place, either way. -/
noncomputable def shown (d : ℝ) : ℝ := max 0 (min 1 (sight - min |d| (circle - |d|)))

/-- What shows of a component at a place. -/
noncomputable def share (p : Primary) (h : ℝ) : ℝ := shown (h - p.place)

theorem shown_eq (d : ℝ) : shown d = max 0 (min 1 (2 - min |d| (6 - |d|))) := by
  rw [shown, sight, circle, Nat.cast_ofNat, Nat.cast_ofNat]

private theorem shown_nonneg (d : ℝ) : 0 ≤ shown d := le_max_left ..

private theorem shown_le_one (d : ℝ) : shown d ≤ 1 := max_le zero_le_one (min_le_left ..)

private theorem shown_neg (d : ℝ) : shown (-d) = shown d := by rw [shown, abs_neg, shown]

/-- A turn later everything is the same. -/
theorem shown_turn (low : -6 ≤ d) (high : d ≤ 0) : shown (d + 6) = shown d := by
  rw [shown_eq, shown_eq, abs_of_nonneg (by linarith), abs_of_nonpos high, min_comm (d + 6), sub_neg_eq_add,
    sub_add_cancel_right, add_comm d]

private theorem shown_full (near : |t| ≤ 1) : shown t = 1 := by
  have way : min |t| (6 - |t|) = |t| := min_eq_left (by linarith)
  rw [shown_eq, way, min_eq_left (by linarith), max_eq_right zero_le_one]

private theorem shown_ahead (near : |t| ≤ 1) : shown (t - 2) = max 0 t := by
  obtain ⟨low, high⟩ := abs_le.mp near
  have way : min |t - 2| (6 - |t - 2|) = 2 - t := by
    rw [abs_of_nonpos (by linarith), neg_sub]
    exact min_eq_left (by linarith)
  rw [shown_eq, way, sub_sub_cancel, min_eq_right high]

private theorem shown_behind (near : |t| ≤ 1) : shown (t + 2) = max 0 (-t) := by
  rw [← shown_neg, neg_add', shown_ahead (by rwa [abs_neg])]

/-- No more changes than the wheel is turned. -/
theorem shown_near (d e : ℝ) : |shown d - shown e| ≤ |d - e| := by
  have sides := abs_abs_sub_abs_le d e
  have ways : |min |d| (6 - |d|) - min |e| (6 - |e|)| ≤ |d - e| := by
    refine (abs_min_sub_min_le_max ..).trans (max_le sides ?_)
    rwa [sub_sub_sub_cancel_left, abs_sub_comm]
  calc |shown d - shown e|
    _ ≤ |min 1 (2 - min |d| (6 - |d|)) - min 1 (2 - min |e| (6 - |e|))| := by
      rw [shown_eq, shown_eq, max_comm 0, max_comm 0]
      exact abs_max_sub_max_le_abs ..
    _ ≤ |(2 - min |d| (6 - |d|)) - (2 - min |e| (6 - |e|))| := by
      rw [min_comm 1, min_comm 1]
      exact abs_inf_sub_inf_le_abs ..
    _ ≤ |d - e| := by rwa [sub_sub_sub_cancel_left, abs_sub_comm]

variable {p : Primary}

theorem share_nonneg : 0 ≤ share p h := shown_nonneg _

theorem share_le_one : share p h ≤ 1 := shown_le_one _

/-- A whole turn changes no share. -/
theorem share_turn (low : -2 ≤ h) (high : h ≤ 0) : share p (h + 6) = share p h := by
  have least := p.place_nonneg
  have most := p.place_le
  rw [share, add_sub_right_comm]
  exact shown_turn (by linarith) (by linarith)

/-- Up to one place away from a primary color it shows in full, and next to it the one on whose side the place
is, as far as the place is away. -/
theorem share_around (p : Primary) (near : |t| ≤ 1) : share p (p.place + t) = 1 ∧
    share p.next (p.place + t) = max 0 t ∧ share p.next.next (p.place + t) = max 0 (-t) := by
  obtain ⟨low, high⟩ := abs_le.mp near
  refine ⟨by rw [share, add_sub_cancel_left, shown_full near], ?_, ?_⟩
  · rw [← shown_ahead near, share]
    rcases p.place_next with placed | placed
    · rw [placed, add_sub_add_left_eq_sub]
    · rw [placed, show p.place + t - (p.place + 2 - 6) = t - 2 + 6 by ring,
        shown_turn (by linarith) (by linarith)]
  · rw [← shown_behind near, share]
    rcases p.place_next_next with placed | placed
    · rw [placed, show p.place + t - (p.place - 2) = t + 2 by ring]
    · rw [placed, show t + 2 = p.place + t - (p.place - 2 + 6) + 6 by ring,
        shown_turn (by linarith) (by linarith)]

/-- Up to one place behind a primary color, its own component is full and the next one comes in. -/
theorem share_forth (p : Primary) (low : 0 ≤ t) (high : t ≤ 1) : share p (p.place + t) = 1 ∧
    share p.next (p.place + t) = t ∧ share p.next.next (p.place + t) = 0 := by
  have around := share_around p (abs_le.mpr ⟨by linarith, high⟩)
  rwa [max_eq_right low, max_eq_left (neg_nonpos.mpr low)] at around

/-- Up to one place in front of a primary color, its own component is full and the one before fades out. -/
theorem share_back (p : Primary) (low : -1 ≤ t) (high : t ≤ 0) : share p (p.place + t) = 1 ∧
    share p.next (p.place + t) = 0 ∧ share p.next.next (p.place + t) = -t := by
  have around := share_around p (abs_le.mpr ⟨low, by linarith⟩)
  rwa [max_eq_left high, max_eq_right (neg_nonneg.mpr high)] at around

/-! ## Places of colors -/

section
variable {parts : Primary → ℝ} {least spread bound : ℝ}

/-- A place on the wheel tells the components of a color, up to a bound. -/
def Matches (bound spread least h : ℝ) (parts : Primary → ℝ) : Prop :=
  ∀ p, |spread * share p h - (parts p - least)| ≤ bound

/-- A color of almost no spread is matched anywhere. -/
theorem matches_anywhere (floor : ∀ p, least ≤ parts p) (ceiling : ∀ p, parts p ≤ least + spread)
    (small : spread ≤ bound) (h : ℝ) : Matches bound spread least h parts := by
  intro p
  have nonneg : 0 ≤ spread := by linarith [floor p, ceiling p]
  have part := mul_le_of_le_one_right nonneg (share_le_one (p := p) (h := h))
  have added := mul_nonneg nonneg (share_nonneg (p := p) (h := h))
  rw [abs_le]
  exact ⟨by linarith [ceiling p], by linarith [floor p]⟩

/-- A place nearby still tells the components, as closely as the spread makes of the distance. -/
theorem Matches.moved {bound' : ℝ} (same : Matches bound spread least h parts) (nonneg : 0 ≤ spread)
    (near : spread * |e - h| ≤ bound') : Matches (bound' + bound) spread least e parts := by
  intro p
  have turned : |spread * share p e - spread * share p h| ≤ bound' := by
    rw [← mul_sub, abs_mul, abs_of_nonneg nonneg]
    refine (mul_le_mul_of_nonneg_left ?_ nonneg).trans near
    have change := shown_near (e - p.place) (h - p.place)
    rwa [sub_sub_sub_cancel_right] at change
  exact (abs_sub_le ..).trans (add_le_add turned (same p))

/-- Places a whole turn apart tell the same components. -/
theorem matches_turn (low : -2 ≤ h) (high : h ≤ 0) :
    Matches bound spread least (h + 6) parts ↔ Matches bound spread least h parts :=
  forall_congr' fun _ => by rw [share_turn low high]

/-- The place of the largest component, moved by how far the next one is ahead of the one before, tells all of
them. -/
theorem matches_slope {p : Primary} (floor : ∀ q, least ≤ parts q) (reached : ∃ q, parts q = least)
    (full : parts p = least + spread) (ceiling : ∀ q, parts q ≤ least + spread) (positive : 0 < spread) :
    Matches 0 spread least (p.place + (parts p.next - parts p.next.next) / spread) parts := by
  have near : |(parts p.next - parts p.next.next) / spread| ≤ 1 := by
    rw [abs_div, abs_of_pos positive, div_le_one positive, abs_le]
    exact ⟨by linarith [floor p.next, ceiling p.next.next], by linarith [floor p.next.next, ceiling p.next]⟩
  obtain ⟨own, ahead, behind⟩ := share_around p near
  -- one of the two others is the least component
  have other : parts p.next = least ∨ parts p.next.next = least := by
    obtain ⟨q, reaches⟩ := reached
    rcases p.cases_next q with rfl | rfl | rfl
    · linarith
    · exact .inl reaches
    · exact .inr reaches
  intro q
  rw [abs_nonpos_iff, sub_eq_zero]
  rcases p.cases_next q with rfl | rfl | rfl
  · rw [own, full]
    ring
  · rw [ahead, mul_max_of_nonneg _ _ positive.le, mul_zero, mul_div_cancel₀ _ positive.ne']
    rcases other with isLeast | isLeast
    · rw [isLeast, sub_self, max_eq_left (by linarith [floor p.next.next])]
    · rw [isLeast, max_eq_right (by linarith [floor p.next])]
  · rw [behind, mul_max_of_nonneg _ _ positive.le, mul_zero, mul_neg, mul_div_cancel₀ _ positive.ne', neg_sub]
    rcases other with isLeast | isLeast
    · rw [isLeast, max_eq_right (by linarith [floor p.next.next])]
    · rw [isLeast, sub_self, max_eq_left (by linarith [floor p.next])]

end

end Wheel


end Sapling
