import Sapling.Proofs.Scalar.Sums

/-! Numbers that are not negative. Sums, products and quotients of them are not negative either, as long as
none of the operations leaves the numbers. -/
namespace Sapling.Scalar

open Float.Model
open UnpackedFloat (Sign ExtendedMantissa)

/-- A number from minus zero to infinity. -/
structure Nonneg (x : Float32) : Prop where
  isNumber : x.isNaN = false
  up : 0 ≤ level x

/-- Such a number when it is unpacked. -/
def Upward : UnpackedFloat → Prop
  | .notANumber => False
  | .zero _ => True
  | .finite sign .. => sign = .positive
  | .infinity sign => sign = .positive

/-- Finite numbers are numbers. -/
theorem isNaN_of_isFinite {x : Float32} (finite : x.isFinite) : x.isNaN = false := by
  change x.toModel.unpack.isNaN = false
  rcases shape_of_isFinite finite with ⟨sign, shape⟩ | ⟨sign, m, e, positive, shape⟩ <;> rw [shape] <;> rfl

/-- A number that is not negative is unpacked to one of the shapes that are not. -/
theorem Nonneg.unpack {x : Float32} (nonneg : Nonneg x) : Upward x.toModel.unpack := by
  obtain ⟨isNumber, up⟩ := nonneg
  have unsigned := unsigned_of_level isNumber up
  generalize x.toModel.unpack = u, level x = place at unsigned
  cases unsigned with
  | zero sign => trivial
  | finite positive rounded small => rfl
  | infinity => rfl

theorem Forward.nonneg {x : Float32} (forward : Forward x) : Nonneg x := by
  obtain ⟨isNumber, place, -⟩ := forward.unsigned
  exact ⟨isNumber, by omega⟩

/-! ## Packing -/

/-- The bits of a positive number are bounded by its exponent. -/
theorem pack_bits {m : Nat} {e : Int} (positive : 0 < m) :
    ((Float32.ofModel (.pack (.finite .positive m e positive))).toBits.toNat ≤ 255 * 2 ^ 23) ∧
    (-150 ≤ e → e < 104 → ((Float32.ofModel (.pack (.finite .positive m e positive))).toBits.toNat : Int) <
      (e + 151) * 2 ^ 23) := by
  have plus : signPlace .positive = 0 := rfl
  change (UnpackedFloat.pack .binary32 (.finite .positive m e positive)).toNat ≤ _ ∧
    (_ → _ → ((UnpackedFloat.pack .binary32 (.finite .positive m e positive)).toNat : Int) < _)
  rw [pack_finite]
  split
  · rename_i beyond
    refine ⟨?_, fun _ _ => ?_⟩
    · exact Nat.le_refl (255 * 2 ^ 23)
    · omega
  · rename_i fits
    split
    · rw [components_toNat, plus]
      simp only [BitVec.toNat_ofNat]
      omega
    · rw [components_toNat, plus]
      simp only [BitVec.toNat_ofNat]
      omega

theorem Upward.pack {u : UnpackedFloat} (upward : Upward u) : Nonneg (.ofModel (.pack u)) := by
  cases u with
  | notANumber => exact upward.elim
  | zero sign => cases sign <;> exact ⟨by decide, by decide⟩
  | infinity sign =>
    obtain rfl : sign = .positive := upward
    exact ⟨by decide, by decide⟩
  | finite sign m e positive =>
    obtain rfl : sign = .positive := upward
    exact Forward.nonneg (pack_bits positive).1

/-! ## Operations -/

theorem upward_round (m : Nat) (e : Int) (accuracy : UnpackedFloat.Accuracy) :
    Upward (.roundWithAccuracy .binary32 .positive m e accuracy) := by
  rw [round_carried]
  rcases carried_cases .positive _ _ with result | ⟨m', positive, result⟩ <;> rw [result] <;> trivial

/-- A mantissa that is not negative is brought into a shape that is not. -/
theorem upward_normalize {m : Int} (above : 0 ≤ m) (e : Int) (sign : Sign) :
    Upward (.normalize .binary32 m e sign) := by
  unfold UnpackedFloat.normalize
  split
  · rename_i below
    rw [Int.compare_eq_lt] at below
    omega
  · trivial
  · exact upward_round ..

private theorem Upward.add {u v : UnpackedFloat} (first : Upward u) (second : Upward v) :
    Upward (.add .binary32 u v) := by
  cases u with
  | notANumber => exact first.elim
  | zero sign =>
    cases v with
    | notANumber => exact second.elim
    | zero sign' => cases sign <;> cases sign' <;> trivial
    | finite => exact second
    | infinity => exact second
  | infinity sign =>
    obtain rfl : sign = .positive := first
    cases v with
    | notANumber => exact second.elim
    | infinity sign' =>
      obtain rfl : sign' = .positive := second
      exact rfl
    | _ => exact rfl
  | finite sign m e positive =>
    obtain rfl : sign = .positive := first
    cases v with
    | notANumber => exact second.elim
    | zero => exact rfl
    | infinity => exact second
    | finite sign' n f positive' =>
      obtain rfl : sign' = .positive := second
      exact upward_normalize (Int.add_nonneg (Int.natCast_nonneg _) (Int.natCast_nonneg _)) ..

/-- A product is not negative unless infinity meets zero in it. -/
theorem Upward.mul {u v : UnpackedFloat} (first : Upward u) (second : Upward v)
    (finite : u.isFinite) (apart : v.isFinite ∨ ∀ sign, u ≠ .zero sign) :
    Upward (.mul .binary32 u v) := by
  cases u with
  | notANumber => exact first.elim
  | infinity sign => cases finite
  | zero sign =>
    cases v with
    | notANumber => exact second.elim
    | infinity sign' => exact absurd rfl (apart.resolve_left nofun sign)
    | _ => trivial
  | finite sign m e positive =>
    obtain rfl : sign = .positive := first
    cases v with
    | notANumber => exact second.elim
    | zero => trivial
    | infinity sign' =>
      obtain rfl : sign' = .positive := second
      exact rfl
    | finite sign' n f positive' =>
      obtain rfl : sign' = .positive := second
      exact upward_round ..

private theorem Upward.div {u : UnpackedFloat} (first : Upward u) {n : Nat} {f : Int} (positive' : 0 < n) :
    Upward (.div .binary32 u (.finite .positive n f positive')) := by
  cases u with
  | notANumber => exact first.elim
  | zero => trivial
  | infinity sign =>
    obtain rfl : sign = .positive := first
    exact rfl
  | finite sign m e positive =>
    obtain rfl : sign = .positive := first
    exact upward_round ..

/-- Of two canonical numbers, the one at the larger place has the larger mantissa when both are brought
to one exponent. -/
theorem mantissa_le_of_place {m n : Nat} {e f : Int} (first : Rounded m e) (second : Rounded n f)
    (ordered : placeOf m e ≤ placeOf n f) :
    m * 2 ^ (e - Min.min f e).toNat ≤ n * 2 ^ (f - Min.min f e).toNat := by
  obtain ⟨small, least, normal⟩ := first
  obtain ⟨small', least', normal'⟩ := second
  simp only [placeOf] at ordered
  rcases Int.lt_trichotomy e f with less | same | more
  · have large := normal' (by omega)
    have noShift : (e - Min.min f e).toNat = 0 := by omega
    obtain ⟨shift, exceeds⟩ : ∃ shift, (f - Min.min f e).toNat = shift + 1 :=
      ⟨(f - Min.min f e).toNat - 1, by omega⟩
    have power : 1 ≤ 2 ^ shift := Nat.one_le_two_pow
    rw [noShift, exceeds, Nat.pow_succ, Nat.pow_zero, Nat.mul_one]
    calc m ≤ 2 ^ 23 * (1 * 2) := by omega
      _ ≤ n * (2 ^ shift * 2) := Nat.mul_le_mul large (Nat.mul_le_mul_right 2 power)
  · subst same
    exact Nat.mul_le_mul_right _ (by omega)
  · have large := normal (by omega)
    omega

/-- The parts of a canonical number are as rounding leaves them. -/
theorem Canonical.rounded {sign : Sign} {m : Nat} {e : Int} {positive : 0 < m}
    (canonical : Canonical (.finite sign m e positive)) :
    Rounded m e ∧ 0 < placeOf m e ∧ placeOf m e < 255 * 2 ^ 23 :=
  ⟨⟨canonical.1, canonical.2.1, canonical.2.2.2⟩, level_bounds positive canonical⟩

/-- Taking a number away from one that is no smaller leaves a number that is not negative. -/
theorem upward_sub {u v : UnpackedFloat} (first : Canonical u) (second : Canonical v)
    (isNumber : u.isNaN = false) (finite : v.isFinite) (ordered : unpackedLevel v ≤ unpackedLevel u) :
    Upward (.sub .binary32 u v) := by
  cases v with
  | notANumber => cases finite
  | infinity => cases finite
  | zero sign' =>
    cases u with
    | notANumber => cases isNumber
    | zero sign => cases sign <;> cases sign' <;> trivial
    | infinity sign =>
      cases sign with
      | positive => exact rfl
      | negative => cases sign' <;> exact absurd ordered (by decide)
    | finite sign m e positive =>
      obtain ⟨-, above, -⟩ := first.rounded
      cases sign with
      | positive => exact rfl
      | negative =>
        dsimp only [unpackedLevel, Sign.apply, placeOf] at ordered above
        omega
  | finite sign' n f positive' =>
    obtain ⟨rounded', above', below'⟩ := second.rounded
    cases u with
    | notANumber => cases isNumber
    | zero sign =>
      cases sign' with
      | negative => exact rfl
      | positive =>
        dsimp only [unpackedLevel, Sign.apply, placeOf] at ordered above'
        omega
    | infinity sign =>
      cases sign with
      | positive => exact rfl
      | negative =>
        dsimp only [placeOf] at above' below'
        cases sign' <;> dsimp only [unpackedLevel, Sign.apply] at ordered <;> omega
    | finite sign m e positive =>
      obtain ⟨rounded, above, -⟩ := first.rounded
      refine upward_normalize ?_ ..
      cases sign <;> cases sign' <;>
        dsimp only [unpackedLevel, Sign.apply] at ordered above above' ⊢ <;>
        simp only [Nat.shiftLeft_eq]
      · have most := mantissa_le_of_place rounded rounded' (by simp only [placeOf]; omega)
        rw [Int.min_comm] at most
        omega
      · simp only [placeOf] at above above'
        omega
      · omega
      · have most := mantissa_le_of_place rounded' rounded (by simp only [placeOf]; omega)
        omega

section
variable {x y : Float32}

/-- Sums of numbers that are not negative are not negative. -/
theorem Nonneg.add (first : Nonneg x) (second : Nonneg y) : Nonneg (x + y) :=
  (first.unpack.add second.unpack).pack

/-- What is left when a finite number is taken away from one that is not smaller is not negative. -/
theorem nonneg_sub (finite : y.isFinite) (ordered : y ≤ x) : Nonneg (x - y) := by
  obtain ⟨isSecond, isFirst, below⟩ := le_iff.mp ordered
  rw [← level_eq isFirst, ← level_eq isSecond] at below
  exact (upward_sub (unpack_fields x).canonical (unpack_fields y).canonical isFirst finite below).pack

/-- Products of numbers that are not negative are not negative, unless zero meets infinity. -/
theorem Nonneg.mul (first : Nonneg x) (second : Nonneg y) (finite : x.isFinite)
    (apart : y.isFinite ∨ 0 < level x) : Nonneg (x * y) := by
  refine (first.unpack.mul second.unpack finite (apart.imp_right fun positive sign zero => ?_)).pack
  have place := level_eq first.isNumber
  rw [zero] at place
  exact absurd positive (by rw [← place]; exact Int.lt_irrefl 0)

/-- A quotient by a positive number keeps the sign. -/
theorem Nonneg.div (first : Nonneg x) {m : Nat} {e : Int} {positive : 0 < m}
    (divisor : y.toModel.unpack = .finite .positive m e positive) : Nonneg (x / y) := by
  rw [div_unpack, divisor]
  exact (first.unpack.div positive).pack

end

/-! ## Sizes -/

/-- What a positive number is rounded to, with a bound on the exponent. -/
inductive Near (most : Int) : UnpackedFloat → Prop where
  | zero (sign : Sign) : Near most (.zero sign)
  | finite (positive : 0 < m) (least : -149 ≤ e) (below : e ≤ most) :
      Near most (.finite .positive m e positive)

/-- Rounding moves the exponent at most one beyond the one it aims at. -/
theorem round_near (m : Nat) (e : Int) (accuracy : UnpackedFloat.Accuracy) :
    Near (Max.max e (target m e) + 1)
      (.roundWithAccuracy .binary32 .positive m e accuracy) := by
  have floor : -149 ≤ target m e := Int.le_max_right ..
  have cut : m / 2 ^ (target m e - e).toNat < 2 ^ 24 := by
    rw [Nat.div_lt_iff_lt_mul (Nat.two_pow_pos _), ← Nat.pow_add]
    refine Nat.lt_of_lt_of_le Nat.lt_log2_self (Nat.pow_le_pow_right (by decide) ?_)
    unfold target
    omega
  have most := (roundedMantissa_bounds
    (ExtendedMantissa.ofMantissaAndAccuracy m accuracy >>> (target m e - e).toNat)).2
  rw [cut_mantissa] at most
  have log : (ExtendedMantissa.ofMantissaAndAccuracy m accuracy >>>
      (target m e - e).toNat).roundedMantissa.log2 ≤ 24 := by
    by_cases vanishes : (ExtendedMantissa.ofMantissaAndAccuracy m accuracy >>>
        (target m e - e).toNat).roundedMantissa = 0
    · rw [vanishes]
      decide
    · have small := Nat.lt_of_le_of_lt (Nat.le_trans most cut) (show 2 ^ 24 < 2 ^ 25 by decide)
      exact Nat.le_of_lt_succ ((Nat.log2_lt vanishes).mpr small)
  rw [round_carried]
  rcases carried_cases .positive _ _ with result | ⟨m', positive, result⟩ <;> rw [result]
  · exact .zero _
  · refine .finite _ ?_ ?_ <;> unfold target at floor log ⊢ <;> omega

/-- The place of a rounded number is bounded by the exponent that rounding aims at. -/
theorem level_round {m : Nat} {e : Int} (accuracy : UnpackedFloat.Accuracy) {bound : Nat}
    (aim : Max.max e (target m e) + 152 ≤ bound) (fits : bound < 255) :
    level (.ofModel (.pack (.roundWithAccuracy .binary32 .positive m e accuracy))) <
      bound * 2 ^ 23 := by
  have floor : -149 ≤ target m e := Int.le_max_right ..
  have near := round_near m e accuracy
  generalize UnpackedFloat.roundWithAccuracy .binary32 .positive m e accuracy = u at near
  cases near with
  | zero sign =>
    have nothing : level (.ofModel (.pack (.zero sign))) = 0 := by cases sign <;> decide
    rw [nothing]
    omega
  | @finite m' e' positive least below =>
    obtain ⟨forward, bits⟩ := pack_bits (e := e') positive
    have place := (Forward.unsigned forward).2.1
    have small := bits (by omega) (by omega)
    rw [place]
    omega

/-- The parts of a number that is not negative, if it is not zero and its place is bounded. -/
theorem Nonneg.exponent_lt {x : Float32} (nonneg : Nonneg x) {bound : Nat}
    (below : level x < bound * 2 ^ 23) {sign : Sign} {m : Nat} {e : Int} {positive : 0 < m}
    (shape : x.toModel.unpack = .finite sign m e positive) :
    sign = .positive ∧ m < 2 ^ 24 ∧ -149 ≤ e ∧ e + 149 < bound := by
  have unsigned := unsigned_of_level nonneg.isNumber nonneg.up
  rw [shape] at unsigned
  generalize level x = place at unsigned below
  cases unsigned with
  | finite _ rounded small =>
    refine ⟨rfl, rounded.1, rounded.2.1, ?_⟩
    simp only [placeOf] at below
    omega

/-- A number that is not negative is finite where its place is below that of infinity. -/
theorem Nonneg.isFinite_of_level {x : Float32} (nonneg : Nonneg x)
    (below : level x < 255 * 2 ^ 23) : x.isFinite := by
  have unsigned := unsigned_of_level nonneg.isNumber nonneg.up
  change x.toModel.unpack.isFinite
  generalize x.toModel.unpack = u, level x = place at unsigned below
  cases unsigned with
  | infinity => omega
  | _ => rfl

theorem Nonneg.level_lt_of_isFinite {x : Float32} (nonneg : Nonneg x) (finite : x.isFinite) :
    level x < 255 * 2 ^ 23 := by
  have unsigned := unsigned_of_level nonneg.isNumber nonneg.up
  change x.toModel.unpack.isFinite = true at finite
  generalize x.toModel.unpack = u, level x = place at unsigned finite
  cases unsigned with
  | infinity => cases finite
  | zero => decide
  | finite _ _ small => exact small

/-- A finite number that is not negative is minus zero or is told by its bits. -/
theorem Nonneg.bits_of_isFinite {x : Float32} (nonneg : Nonneg x) (finite : x.isFinite) :
    x.toBits.toNat < 255 * 2 ^ 23 ∨ x.toBits.toNat = 2 ^ 31 := by
  have below := nonneg.level_lt_of_isFinite finite
  have up := nonneg.up
  have bits := x.toBits.toNat_lt
  unfold level at up below
  split at up <;> split at below <;> omega

/-- Adding a zero leaves a number at its place. -/
theorem Nonneg.level_zero_add {x : Float32} (nonneg : Nonneg x) (sign : Sign) :
    level (.ofModel (.pack (.add .binary32 (.zero sign) x.toModel.unpack))) = level x := by
  have unsigned := unsigned_of_level nonneg.isNumber nonneg.up
  generalize x.toModel.unpack = u, level x = place at unsigned
  cases unsigned with
  | zero sign' => cases sign <;> cases sign' <;> decide
  | infinity => cases sign <;> decide
  | @finite m e positive rounded small =>
    have sum : UnpackedFloat.add .binary32 (.zero sign) (.finite .positive m e positive) =
        .finite .positive m e positive := rfl
    have place := pack_place positive rounded
    have forward : Forward (.ofModel (.pack (.finite .positive m e positive))) := by
      unfold Forward
      omega
    rw [sum, forward.unsigned.2.1, place]
    omega

/-- The bits of a finite number that is not negative are kept. -/
theorem toBits_ofBits {bits : UInt32} (small : bits.toNat < 255 * 2 ^ 23) :
    (Float32.ofBits bits).toBits.toNat = bits.toNat := by
  have fields := unpack_bits bits.toBitVec
  change (Float32.ofModel (.pack (UnpackedFloat.unpack .binary32 bits.toBitVec))).toBits.toNat = _
  change Fields bits.toNat _ at fields
  have positive : signOfBits bits.toNat = .positive := if_pos (by omega)
  have mantissa := Nat.mod_lt bits.toNat (Nat.two_pow_pos 23)
  generalize UnpackedFloat.unpack .binary32 bits.toBitVec = u at fields
  cases fields with
  | infinity exponent => omega
  | notANumber exponent => omega
  | zero exponent none =>
    rw [positive]
    have nothing : bits.toNat = 0 := by omega
    rw [nothing]
    decide
  | small exponent fractionPos =>
    have place := pack_place fractionPos ⟨by omega, by omega, fun high => absurd rfl high⟩
    rw [positive]
    dsimp only [placeOf] at place
    omega
  | normal low high significandPos =>
    have place := pack_place significandPos (e := ((bits.toNat / 2 ^ 23 % 2 ^ 8 : Nat) : Int) - 150)
      ⟨by omega, by omega, fun _ => by omega⟩
    rw [positive]
    dsimp only [placeOf] at place
    omega

/-- The place of a product is bounded by those of its factors. -/
theorem Nonneg.level_mul {x y : Float32} (first : Nonneg x) (second : Nonneg y) {a b bound : Nat}
    (below : level x < a * 2 ^ 23) (below' : level y < b * 2 ^ 23) (finite : a < 255 ∧ b < 255)
    (reach : a + b ≤ bound + 124) (fits : 3 ≤ bound ∧ bound < 255) :
    level (x * y) < bound * 2 ^ 23 := by
  have isFirst : x.toModel.unpack.isFinite := first.isFinite_of_level (by omega)
  have isSecond : y.toModel.unpack.isFinite := second.isFinite_of_level (by omega)
  have nothing (sign : Sign) : level (.ofModel (.pack (.zero sign))) < bound * 2 ^ 23 := by
    have zero : level (.ofModel (.pack (.zero sign))) = 0 := by cases sign <;> decide
    omega
  rw [mul_unpack]
  rcases shape_of_isFinite isSecond with ⟨sign', shape'⟩ | ⟨sign', n, f, positive', shape'⟩
  · rw [shape']
    rcases shape_of_isFinite isFirst with ⟨sign, shape⟩ | ⟨sign, m, e, positive, shape⟩
      <;> rw [shape] <;> exact nothing _
  · rcases shape_of_isFinite isFirst with ⟨sign, shape⟩ | ⟨sign, m, e, positive, shape⟩
    · rw [shape, shape']
      exact nothing _
    · obtain ⟨rfl, small, least, most⟩ := first.exponent_lt below shape
      obtain ⟨rfl, small', least', most'⟩ := second.exponent_lt below' shape'
      rw [shape, shape']
      have nonzero : m * n ≠ 0 := Nat.ne_of_gt (Nat.mul_pos positive positive')
      have log : (m * n).log2 < 48 := by
        rw [Nat.log2_lt nonzero, show 48 = 24 + 24 from rfl, Nat.pow_add]
        exact Nat.mul_lt_mul'' small small'
      exact level_round .exact (by unfold target; omega) fits.2

end Sapling.Scalar
