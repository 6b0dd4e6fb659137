import Sapling.Proofs.Scalar.Values

/-! Rounding told by real values. Each operation on finite numbers gives a number nearest to the exact
result, so it goes past no number of the format that lies between the two, and leaves the finite numbers
only if the exact result does. -/
namespace Sapling.Scalar

open Float.Model
open UnpackedFloat (Sign ExtendedMantissa Accuracy)

/-! ## Mantissas with residual bits -/

private theorem Describes.shiftRightOne {unit v : ℝ} {m : ExtendedMantissa} (described : Describes unit v m)
    (positive : 0 < unit) : Describes (2 * unit) v m.shiftRightOne := by
  obtain ⟨m, round, sticky⟩ := m
  rcases Nat.even_or_odd' m with ⟨half, rfl | rfl⟩
  · have cut : 2 * half / 2 = half := by omega
    have even : 2 * half % 2 = 0 := by omega
    cases round <;> cases sticky <;>
      simp only [ExtendedMantissa.shiftRightOne, cut, even, bne_self_eq_false, Bool.or_false,
        Bool.or_true, Describes] at described ⊢ <;>
      push_cast at described <;>
      first
      | linarith
      | exact ⟨by linarith, by linarith⟩
  · have cut : (2 * half + 1) / 2 = half := by omega
    have odd : ((2 * half + 1) % 2 != 0) = true := by
      have one : (2 * half + 1) % 2 = 1 := by omega
      rw [one]
      rfl
    cases round <;> cases sticky <;>
      simp only [ExtendedMantissa.shiftRightOne, cut, odd, Bool.or_false, Bool.or_true,
        Describes] at described ⊢ <;>
      push_cast at described <;>
      first
      | linarith
      | exact ⟨by linarith, by linarith⟩

private theorem Describes.shiftRight {unit v : ℝ} {m : ExtendedMantissa} (described : Describes unit v m)
    (positive : 0 < unit) (shift : Nat) : Describes (2 ^ shift * unit) v (m >>> shift) := by
  induction shift with
  | zero =>
    rw [pow_zero, one_mul]
    exact described
  | succ shift ih =>
    rw [pow_succ', mul_assoc]
    exact ih.shiftRightOne (by positivity)

/-- A mantissa of which nothing was cut off is all there is. -/
theorem describes_exact (m : Nat) (unit : ℝ) :
    Describes unit (m * unit) (.ofMantissaAndAccuracy m .exact) := rfl

/-- The value lies between the cut mantissa and the next one, and the rounded mantissa is the nearer of
the two. -/
theorem Describes.rounded {unit v : ℝ} {m : ExtendedMantissa} (described : Describes unit v m)
    (positive : 0 < unit) : m.mantissa * unit ≤ v ∧ v < (m.mantissa + 1) * unit ∧
      (m.roundedMantissa = m.mantissa ∧ v ≤ (m.mantissa + 1 / 2) * unit ∨
        m.roundedMantissa = m.mantissa + 1 ∧ (m.mantissa + 1 / 2) * unit ≤ v) := by
  obtain ⟨m, round, sticky⟩ := m
  cases round <;> cases sticky <;>
    simp only [Describes, ExtendedMantissa.roundedMantissa, ExtendedMantissa.accuracy,
      Accuracy.roundToNearestEven] at described ⊢
  · exact ⟨by linarith, by linarith, .inl ⟨trivial, by linarith⟩⟩
  · exact ⟨by linarith, by linarith, .inl ⟨trivial, by linarith⟩⟩
  · refine ⟨by linarith, by linarith, ?_⟩
    rcases Nat.mod_two_eq_zero_or_one m with even | odd
    · exact .inl ⟨by omega, by linarith⟩
    · exact .inr ⟨by omega, by linarith⟩
  · exact ⟨by linarith, by linarith, .inr ⟨trivial, by linarith⟩⟩

/-! ## The nearest mantissa -/

/-- A mantissa and exponent that no other comes nearer to a value. The exponent may be too large for the
format, and the mantissa may still have to be carried. -/
structure Nearest (v : ℝ) (m : Nat) (e : Int) : Prop where
  wide : Wide m e
  above : ∀ a b, Rounded a b → dyadic a b ≤ v → dyadic a b ≤ dyadic m e
  below : ∀ a b, Rounded a b → v ≤ dyadic a b → dyadic m e ≤ dyadic a b
  nearest : ∀ a b, Rounded a b → |dyadic m e - v| ≤ |dyadic a b - v|

private theorem Nearest.of_neighbours {v : ℝ} {m r : Nat} {e : Int} (rounded : Rounded m e)
    (above : dyadic m e ≤ v) (below : v < dyadic (m + 1) e)
    (nearer : r = m ∧ v ≤ (m + 1 / 2) * 2 ^ e ∨ r = m + 1 ∧ (m + 1 / 2) * 2 ^ e ≤ v) :
    Nearest v r e := by
  have next : Wide (m + 1) e :=
    ⟨rounded.1, rounded.2.1, fun high => Nat.le_succ_of_le (rounded.2.2 high)⟩
  have one : dyadic (m + 1) e = dyadic m e + 2 ^ e := by
    simp only [dyadic]
    push_cast
    ring
  have middle : ((m : ℝ) + 1 / 2) * 2 ^ e = dyadic m e + 2 ^ e / 2 := by
    simp only [dyadic]
    ring
  -- A number of the format lies at the cut mantissa or below, or at the next one or above.
  have apart (a : Nat) (b : Int) (other : Rounded a b) :
      dyadic a b ≤ dyadic m e ∨ dyadic (m + 1) e ≤ dyadic a b := by
    rw [dyadic_le_iff other.wide rounded.wide, dyadic_le_iff next other.wide]
    simp only [placeOf]
    omega
  have wide : Wide r e := by
    rcases nearer with ⟨rfl, -⟩ | ⟨rfl, -⟩
    · exact rounded.wide
    · exact next
  have between : r = m ∨ r = m + 1 ∧ dyadic m e < v := by
    rcases nearer with ⟨same, -⟩ | ⟨more, beyond⟩
    · exact .inl same
    · have unit : (0 : ℝ) < 2 ^ e := by positivity
      exact .inr ⟨more, by linarith⟩
  refine ⟨wide, fun a b other reached => ?_, fun a b other within => ?_, fun a b other => ?_⟩
  · rcases apart a b other with low | high
    · rcases between with rfl | ⟨rfl, -⟩ <;> linarith [(by positivity : (0 : ℝ) < 2 ^ e)]
    · linarith
  · rcases apart a b other with low | high
    · rcases between with rfl | ⟨rfl, less⟩ <;> linarith
    · rcases between with rfl | ⟨rfl, -⟩ <;> linarith [(by positivity : (0 : ℝ) < 2 ^ e)]
  · rw [middle] at nearer
    rcases nearer with ⟨rfl, low⟩ | ⟨rfl, high⟩
    · rw [abs_of_nonpos (by linarith)]
      rcases apart a b other with less | more
      · rw [abs_of_nonpos (by linarith)]
        linarith
      · rw [abs_of_nonneg (by linarith)]
        linarith
    · rw [abs_of_nonneg (by linarith)]
      rcases apart a b other with less | more
      · rw [abs_of_nonpos (by linarith)]
        linarith
      · rw [abs_of_nonneg (by linarith)]
        linarith

/-- A mantissa without its residual bits, at the exponent that rounding aims at. -/
theorem rounded_cut {m : Nat} {e : Int} (low : e ≤ target m e) :
    Rounded (m / 2 ^ (target m e - e).toNat) (target m e) := by
  rcases Nat.eq_zero_or_pos m with rfl | positive
  · have least : target 0 e = -149 := by
      simp only [target, Nat.log2_zero] at low ⊢
      omega
    rw [Nat.zero_div, least]
    exact rounded_zero
  · exact rounded_quotient positive low

/-- The mantissa that rounding leaves for a value. -/
def roundedAt (m : Nat) (e : Int) (accuracy : Accuracy) : Nat :=
  (ExtendedMantissa.ofMantissaAndAccuracy m accuracy >>> (target m e - e).toNat).roundedMantissa

private theorem nearest_roundedAt {v : ℝ} {m : Nat} {e : Int} {accuracy : Accuracy} (low : e ≤ target m e)
    (described : Describes (2 ^ e) v (.ofMantissaAndAccuracy m accuracy)) :
    Nearest v (roundedAt m e accuracy) (target m e) := by
  have unit : (2 : ℝ) ^ (target m e - e).toNat * 2 ^ e = 2 ^ target m e := by
    rw [← zpow_natCast, ← zpow_add₀ two_ne_zero]
    congr 1
    omega
  have shifted := described.shiftRight (by positivity) (target m e - e).toNat
  rw [unit] at shifted
  obtain ⟨above, below, nearer⟩ := shifted.rounded (by positivity)
  rw [cut_mantissa] at above below nearer
  refine .of_neighbours (rounded_cut low) above ?_ nearer
  rw [dyadic]
  push_cast at below ⊢
  exact below

/-! ## Rounded numbers -/

/-- The middle between the largest number and the power of two after it. -/
noncomputable def limit : ℝ := dyadic (2 ^ 25 - 1) 103

theorem rounded_largest : Rounded (2 ^ 24 - 1) 104 := ⟨by decide, by decide, fun _ => by decide⟩

theorem rounded_after : Rounded (2 ^ 23) 105 := ⟨by decide, by decide, fun _ => Nat.le_refl _⟩

theorem dyadic_largest : dyadic (2 ^ 24 - 1) 104 = limit - 2 ^ 103 := by norm_num [limit, dyadic]

private theorem dyadic_after : dyadic (2 ^ 23) 105 = limit + 2 ^ 103 := by norm_num [limit, dyadic]

/-- A number that no finite one comes nearer to an exact result. It is finite as long as the result is on this
side of the limit, and infinite on the other. -/
structure Rounds (exact : ℝ) (x : Float32) : Prop where
  isNumber : x.isNaN = false
  above : ∀ y : Float32, y.isFinite → value y ≤ exact → level y ≤ level x
  below : ∀ y : Float32, y.isFinite → exact ≤ value y → level x ≤ level y
  nearest : x.isFinite → ∀ y : Float32, y.isFinite → |value x - exact| ≤ |value y - exact|
  bounded : |exact| < limit → x.isFinite
  unbounded : limit < |exact| → ¬ x.isFinite

/-- A result as large as the power of two after the largest number is infinite. -/
theorem Rounds.huge {exact : ℝ} {x : Float32} (rounds : Rounds exact x) (large : 2 ^ 128 ≤ |exact|) :
    ¬ x.isFinite := by
  refine rounds.unbounded (lt_of_lt_of_le ?_ large)
  norm_num [limit, dyadic]

/-- The mantissa nearest to a value on this side of the limit is that of a finite number. -/
theorem Nearest.place_lt {v : ℝ} {m : Nat} {e : Int} (nearest : Nearest v m e) (inside : v < limit) :
    placeOf m e < 255 * 2 ^ 23 := by
  by_contra beyond
  have large := (dyadic_le_iff rounded_after.wide nearest.wide).mpr (Int.not_lt.mp beyond)
  have nearer := nearest.nearest _ _ rounded_largest
  rw [dyadic_after] at large
  rw [dyadic_largest, abs_of_nonneg (by linarith)] at nearer
  rcases abs_cases (limit - 2 ^ 103 - v) with ⟨isAbs, _⟩ | ⟨isAbs, _⟩ <;> linarith

/-- The mantissa nearest to a value on the other side of the limit is that of an infinite number. -/
theorem Nearest.place_ge {v : ℝ} {m : Nat} {e : Int} (nearest : Nearest v m e) (outside : limit < v) :
    255 * 2 ^ 23 ≤ placeOf m e := by
  by_contra within
  have small := (dyadic_le_iff nearest.wide rounded_largest.wide).mpr
    (Int.lt_add_one_iff.mp (Int.not_le.mp within))
  have nearer := nearest.nearest _ _ rounded_after
  rw [dyadic_largest] at small
  rw [dyadic_after, abs_of_nonpos (by linarith)] at nearer
  rcases abs_cases (limit + 2 ^ 103 - v) with ⟨isAbs, _⟩ | ⟨isAbs, _⟩ <;> linarith

/-- A packed number by its place before the cut at infinity. -/
structure Packed (sign : Sign) (m : Nat) (e : Int) (x : Float32) : Prop where
  isNumber : x.isNaN = false
  place : level x = sign.apply (Min.min (placeOf m e) (255 * 2 ^ 23))
  finite : x.isFinite ↔ placeOf m e < 255 * 2 ^ 23
  isValue : x.isFinite → value x = signed sign (dyadic m e)

/-- Packing a rounded mantissa at its exponent keeps its value, or overflows. -/
theorem packed_finite {sign : Sign} {m : Nat} {e : Int} (positive : 0 < m) (rounded : Rounded m e) :
    Packed sign m e (.ofModel (.pack (.finite sign m e positive))) := by
  have isFinite : (Float32.ofModel (.pack (.finite sign m e positive))).isFinite =
      (UnpackedFloat.unpack .binary32 
        (UnpackedFloat.pack .binary32 (.finite sign m e positive))).isFinite := rfl
  have isNaN : (Float32.ofModel (.pack (.finite sign m e positive))).isNaN =
      (UnpackedFloat.unpack .binary32 
        (UnpackedFloat.pack .binary32 (.finite sign m e positive))).isNaN := rfl
  rcases Int.lt_or_le (placeOf m e) (255 * 2 ^ 23) with small | large
  · have canonical : Canonical (.finite sign m e positive) := by
      obtain ⟨below, least, normal⟩ := rounded
      simp only [placeOf] at small
      exact ⟨below, least, by omega, normal⟩
    have same := unpack_pack_finite canonical
    rw [same] at isNaN isFinite
    have place := level_eq isNaN
    refine ⟨isNaN, ?_, iff_of_true isFinite small,
      fun _ => (pack_value canonical rfl).2⟩
    rw [← place, Int.min_eq_left (Int.le_of_lt small)]
    exact congrArg unpackedLevel same
  · have same : UnpackedFloat.unpack .binary32 (UnpackedFloat.pack .binary32
        (.finite sign m e positive)) = .infinity sign := infinite_of_place rounded large
    rw [same] at isNaN isFinite
    have place := level_eq isNaN
    have infinite : ¬ (Float32.ofModel (.pack (.finite sign m e positive))).isFinite := by
      rw [isFinite]
      exact Bool.false_ne_true
    refine ⟨isNaN, ?_, iff_of_false infinite (Int.not_lt.mpr large), fun finite => absurd finite infinite⟩
    rw [← place, Int.min_eq_right large]
    exact congrArg unpackedLevel same

private theorem round_eq_carried {m : Nat} {e : Int} {accuracy : Accuracy} (low : e ≤ target m e) (sign : Sign) :
    UnpackedFloat.roundWithAccuracy .binary32 sign m e accuracy =
      carried sign (roundedAt m e accuracy) (target m e) := by
  have exponent : e + (target m e - e).toNat = target m e := by omega
  rw [round_carried, exponent]
  rfl

private theorem packed_carried {m : Nat} {e : Int} (wide : Wide m e) (sign : Sign) :
    Packed sign m e (.ofModel (.pack (carried sign m e))) := by
  obtain ⟨small, floor, normal⟩ := wide
  rcases Nat.eq_zero_or_pos m with rfl | positive
  · obtain rfl : e = -149 := by
      by_contra high
      exact absurd (normal high) (by decide)
    have nothing : value (.ofModel (.pack (carried sign 0 (-149)))) = 0 := by cases sign <;> rfl
    refine ⟨by cases sign <;> rfl, by cases sign <;> rfl, by cases sign <;> decide, fun _ => ?_⟩
    rw [nothing, dyadic_zero, signed_zero]
  · obtain ⟨m', e', positive', result, rounded, place⟩ := renormalize positive floor small normal sign
    obtain ⟨isNumber, level, finite, isValue⟩ : Packed sign m' e' _ := packed_finite positive' rounded
    rw [place] at level finite
    rw [dyadic_eq_of_place rounded.wide ⟨small, floor, normal⟩ place] at isValue
    have outcome : carried sign m e = .finite sign m' e' positive' := result
    rw [outcome]
    exact ⟨isNumber, level, finite, isValue⟩

/-- A packed number rounds a value to which its mantissa is nearest. -/
theorem Packed.rounds {sign : Sign} {v : ℝ} {m : Nat} {e : Int} {x : Float32} (packed : Packed sign m e x)
    (nearest : Nearest v m e) (nonneg : 0 ≤ v) : Rounds (signed sign v) x := by
  obtain ⟨isNumber, place, finite, isValue⟩ := packed
  have floor : 0 ≤ placeOf m e := by
    have least := nearest.wide.2.1
    simp only [placeOf]
    omega
  have zero : placeOf 0 (-149) = 0 := by decide
  have under {a : Nat} {b : Int} (other : Rounded a b) (reached : dyadic a b ≤ v) :
      placeOf a b ≤ placeOf m e :=
    (dyadic_le_iff other.wide nearest.wide).mp (nearest.above a b other reached)
  have cover {a : Nat} {b : Int} (other : Rounded a b) (within : v ≤ dyadic a b) :
      placeOf m e ≤ placeOf a b :=
    (dyadic_le_iff nearest.wide other.wide).mp (nearest.below a b other within)
  -- A number on the other side of zero is a bound only where both are zero.
  have across {a : Nat} {b : Int} (other : Rounded a b) (beyond : v ≤ -dyadic a b) :
      placeOf m e = 0 ∧ placeOf a b = 0 := by
    have gridNonneg := dyadic_nonneg a b
    have first := cover rounded_zero (by rw [dyadic_zero]; linarith)
    have second := (dyadic_le_iff other.wide rounded_zero.wide).mp (by rw [dyadic_zero]; linarith)
    have least := other.2.1
    rw [zero] at first second
    simp only [placeOf] at second ⊢
    simp only [placeOf] at first floor
    omega
  have magnitude (y : Float32) (finite : y.isFinite) : ∃ t a b, Rounded a b ∧ 0 ≤ placeOf a b ∧
      placeOf a b < 255 * 2 ^ 23 ∧ level y = t.apply (placeOf a b) ∧ value y = signed t (dyadic a b) := by
    obtain ⟨t, a, b, other, small, place', isValue'⟩ := parts_of_isFinite finite
    have least := other.2.1
    exact ⟨t, a, b, other, by simp only [placeOf]; omega, small, place', isValue'⟩
  refine ⟨isNumber, fun y finite' reached => ?_, fun y finite' within => ?_, fun bounded y finite' => ?_,
    fun inside => ?_, fun outside => ?_⟩
  · obtain ⟨t, a, b, other, up, small, place', isValue'⟩ := magnitude y finite'
    rw [isValue'] at reached
    rw [place, place']
    cases sign <;> cases t <;> simp only [signed_positive, signed_negative, Sign.apply] at reached ⊢
    · have bound := cover other (by linarith)
      omega
    · have bound := across other (by linarith)
      omega
    · omega
    · have bound := under other reached
      omega
  · obtain ⟨t, a, b, other, up, small, place', isValue'⟩ := magnitude y finite'
    rw [isValue'] at within
    rw [place, place']
    cases sign <;> cases t <;> simp only [signed_positive, signed_negative, Sign.apply] at within ⊢
    · have bound := under other (by linarith)
      omega
    · omega
    · have bound := across other within
      omega
    · have bound := cover other within
      omega
  · obtain ⟨t, a, b, other, -, -, -, isValue'⟩ := magnitude y finite'
    have gridNonneg := dyadic_nonneg a b
    have nearer := nearest.nearest a b other
    have origin := nearest.nearest 0 (-149) rounded_zero
    rw [dyadic_zero, zero_sub, abs_neg, abs_of_nonneg nonneg] at origin
    rw [isValue bounded, isValue']
    cases sign <;> cases t <;> simp only [signed_positive, signed_negative]
    · rw [← abs_neg, ← abs_neg (-dyadic a b - -v)]
      convert nearer using 2 <;> ring
    · rw [← abs_neg, abs_of_nonneg (by linarith : 0 ≤ dyadic a b - -v)]
      have same : -(-dyadic m e - -v) = dyadic m e - v := by ring
      rw [same]
      linarith
    · rw [abs_of_nonpos (by linarith : -dyadic a b - v ≤ 0)]
      linarith
    · exact nearer
  · rw [abs_signed, abs_of_nonneg nonneg] at inside
    exact finite.mpr (nearest.place_lt inside)
  · rw [abs_signed, abs_of_nonneg nonneg] at outside
    exact mt finite.mp (Int.not_lt.mpr (nearest.place_ge outside))

/-- Rounding a cut mantissa rounds the value that it was cut from. -/
theorem rounds_roundWithAccuracy {v : ℝ} {m : Nat} {e : Int} {accuracy : Accuracy}
    (low : e ≤ target m e) (described : Describes (2 ^ e) v (.ofMantissaAndAccuracy m accuracy))
    (nonneg : 0 ≤ v) (sign : Sign) :
    Rounds (signed sign v) (.ofModel (.pack (.roundWithAccuracy .binary32 sign m e accuracy))) := by
  have nearest := nearest_roundedAt low described
  rw [round_eq_carried low]
  exact (packed_carried nearest.wide sign).rounds nearest nonneg

end Sapling.Scalar
