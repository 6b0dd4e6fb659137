import Sapling.Proofs.Mesh.Surface
import Sapling.Proofs.Settings.Checks

/-! How fine a tube may be for its numbers to fit into words. Whatever is counted or indexed is at most the
number of indices; accepted settings bound that number from below only. -/
namespace Sapling

namespace Tube

/-- The whole numbers that a mesh is counted and indexed with, before they become words. -/
inductive Reckoned (along around : Nat) : Nat → Prop
  | rings : Reckoned along around (along + 1)
  | fields : Reckoned along around (along * around)
  | indices : Reckoned along around (along * around * 12)
  | row {i : Nat} (ring : i < along) : Reckoned along around (i * around)
  | step {j : Nat} (column : j < around) : Reckoned along around (j + 1)
  | turn {j : Nat} (column : j < around) : Reckoned along around ((j + 1) % around)
  | index {i j n : Nat} (ring : i < along) (column : j < around) (mem : n ∈ fieldIndices around i j) :
      Reckoned along around n

/-- The indices of a field, reckoned with words from the start. -/
def fieldWords (around i j : UInt32) : List UInt32 :=
  let a := i * around + j
  let b := a + around
  let c := i * around + (j + 1) % around
  let d := c + around
  [a, b, c, b, d, c, a, c, b, b, c, d]

/-- The indices of all fields, reckoned with words. -/
def words (along around : UInt32) : List UInt32 :=
  (List.range along.toNat).flatMap fun i => (List.range around.toNat).flatMap fun j =>
    fieldWords around (.ofNat i) (.ofNat j)

variable {along around i j n : Nat}

private theorem lt_of_mem_fieldIndices (ring : i < along) (column : j < around)
    (mem : n ∈ fieldIndices around i j) : n < (along + 1) * around := by
  obtain ⟨onA, onB, onC, onD⟩ := onTube_field (mem_fields.mpr ⟨ring, column⟩)
  have a := place_lt onA
  have b := place_lt onB
  have c := place_lt onC
  have d := place_lt onD
  simp only [next, Nat.succ_mul] at a b c d
  simp only [fieldIndices, List.mem_cons, List.not_mem_nil, or_false] at mem
  rw [Nat.succ_mul]
  omega

/-- No number is greater than the number of indices. -/
theorem Reckoned.le_indices (atLeastOne : 1 ≤ along) (three : 3 ≤ around) (reckoned : Reckoned along around n) :
    n ≤ along * around * 12 := by
  have rows : along ≤ along * around := Nat.le_mul_of_pos_right along (by omega)
  have columns : around ≤ along * around := Nat.le_mul_of_pos_left around atLeastOne
  cases reckoned with
  | rings => omega
  | fields => omega
  | indices => exact le_rfl
  | row ring =>
    have below := Nat.mul_le_mul_right around (Nat.le_of_lt ring)
    omega
  | step column => omega
  | @turn j column =>
    have below := Nat.mod_lt (j + 1) (Nat.zero_lt_of_lt column)
    omega
  | index ring column mem =>
    have below := lt_of_mem_fieldIndices ring column mem
    rw [Nat.succ_mul] at below
    omega

private theorem reckoned_fit_iff (atLeastOne : 1 ≤ along) (three : 3 ≤ around) :
    (∀ n, Reckoned along around n → n < UInt32.size) ↔ along * around * 12 < UInt32.size :=
  ⟨fun fits => fits _ .indices,
    fun small _ reckoned => Nat.lt_of_le_of_lt (reckoned.le_indices atLeastOne three) small⟩

/-- Reckoning with words drops what does not fit, as if it were dropped at the end. -/
theorem fieldWords_eq (around : UInt32) (i : Nat) (column : j < around.toNat) :
    fieldWords around (.ofNat i) (.ofNat j) = (fieldIndices around.toNat i j).map UInt32.ofNat := by
  have width := around.toNat_lt
  have next : (UInt32.ofNat j + 1) % around = UInt32.ofNat ((j + 1) % around.toNat) := by
    apply UInt32.toNat_inj.mp
    have turned := Nat.mod_lt (j + 1) (Nat.zero_lt_of_lt column)
    rw [UInt32.toNat_mod, UInt32.toNat_add, UInt32.toNat_ofNat_of_lt' (by omega : j < 2 ^ 32),
      UInt32.toNat_ofNat_of_lt' (by omega : (j + 1) % around.toNat < 2 ^ 32), UInt32.toNat_one,
      Nat.mod_eq_of_lt (by omega : j + 1 < 2 ^ 32)]
  simp only [fieldWords, fieldIndices, next, List.map_cons, List.map_nil, UInt32.ofNat_add,
    UInt32.ofNat_mul, UInt32.ofNat_toNat]

private theorem words_eq (along around : UInt32) :
    words along around = (indices along.toNat around.toNat).map UInt32.ofNat := by
  simp only [words, indices, List.map_flatMap]
  refine List.flatMap_congr fun i _ => List.flatMap_congr fun j mem => ?_
  exact fieldWords_eq around i (List.mem_range.mp mem)

/-- The greatest index is that of the last vertex. -/
theorem last_mem_indices (atLeastOne : 1 ≤ along) (three : 3 ≤ around) :
    along * around + (around - 1) ∈ indices along around := by
  obtain ⟨i, rfl⟩ := Nat.exists_eq_add_of_le' atLeastOne
  refine List.mem_flatMap.mpr ⟨i, List.mem_range.mpr (Nat.lt_succ_self i), List.mem_flatMap.mpr
    ⟨around - 1, List.mem_range.mpr (by omega), ?_⟩⟩
  have upper : (i + 1) * around + (around - 1) = i * around + (around - 1) + around := by
    rw [Nat.succ_mul]
    omega
  rw [upper]
  exact List.mem_cons_of_mem _ List.mem_cons_self

/-- Indices keep their numbers if and only if all vertices can be numbered. -/
theorem indices_kept_iff (atLeastOne : 1 ≤ along) (three : 3 ≤ around) :
    ((indices along around).map UInt32.ofNat).map UInt32.toNat = indices along around ↔
      Numbered along around := by
  rw [List.map_map]
  constructor
  · intro kept
    have last := List.map_inj_left.mp (kept.trans (List.map_id _).symm) _ (last_mem_indices atLeastOne three)
    have below : (UInt32.ofNat (along * around + (around - 1))).toNat < 2 ^ 32 := UInt32.toNat_lt _
    rw [Function.comp_apply, id_eq] at last
    rw [last] at below
    unfold Numbered
    rw [Nat.succ_mul]
    omega
  · intro numbered
    refine (List.map_congr_left fun n mem => ?_).trans (List.map_id _)
    obtain ⟨i, ring, mem⟩ := List.mem_flatMap.mp mem
    obtain ⟨j, column, mem⟩ := List.mem_flatMap.mp mem
    have below := lt_of_mem_fieldIndices (List.mem_range.mp ring) (List.mem_range.mp column) mem
    exact UInt32.toNat_ofNat_of_lt' (Nat.lt_of_lt_of_le below numbered)

end Tube

namespace MeshSettings

/-- The tubes of accepted settings are reckoned without overflow if and only if the number of their indices
fits into a word. Where it does not, the indices of a mesh go wrong as soon as its vertices are too many
to be numbered. -/
theorem reckoning_fits_iff (settings : MeshSettings) (accepted : settings.validate = .ok ()) :
    let along := settings.curveSegments
    let around := settings.radialSegments
    ((∀ n, Tube.Reckoned along.toNat around.toNat n → n < UInt32.size) ↔
      along.toNat * around.toNat * 12 < UInt32.size) ∧
    ∀ (curve : Curve) (baseWidth baseHeight maxHeight : Float32),
      let indices := (Tube.mesh ⟨curve, baseWidth, baseHeight, maxHeight, along, around⟩).indices.toList
      indices = Tube.words along around ∧
        (indices.map UInt32.toNat = Tube.indices along.toNat around.toNat ↔
          (along.toNat + 1) * around.toNat ≤ UInt32.size) := by
  intro along around
  obtain ⟨atLeastOne, three⟩ := validate_ok_iff.mp accepted
  rw [UInt32.not_lt] at atLeastOne three
  refine ⟨Tube.reckoned_fit_iff atLeastOne three, fun curve baseWidth baseHeight maxHeight => ?_⟩
  obtain ⟨sameAlong, sameAround⟩ := Tube.fields_of_fine
    ⟨curve, baseWidth, baseHeight, maxHeight, along, around⟩ atLeastOne three
  have indices : (Tube.mesh ⟨curve, baseWidth, baseHeight, maxHeight, along, around⟩).indices.toList =
      (Tube.indices along.toNat around.toNat).map UInt32.ofNat := by
    rw [Tube.mesh, sameAlong, sameAround]
  refine ⟨indices.trans (Tube.words_eq _ _).symm, ?_⟩
  rw [indices]
  exact Tube.indices_kept_iff atLeastOne three

/-- As many rings as a word can ask for are accepted; their numbers overflow, and no mesh has the indices
that it should have. -/
theorem longest_reckoning_overflows :
    (⟨4294967295, 8⟩ : MeshSettings).validate = .ok () ∧
      (¬ ∀ n, Tube.Reckoned 4294967295 8 n → n < UInt32.size) ∧
      ∀ (curve : Curve) (baseWidth baseHeight maxHeight : Float32),
        (Tube.mesh ⟨curve, baseWidth, baseHeight, maxHeight, 4294967295, 8⟩).indices.toList.map
          UInt32.toNat ≠ Tube.indices 4294967295 8 := by
  have accepted : (⟨4294967295, 8⟩ : MeshSettings).validate = .ok () := rfl
  obtain ⟨fits, kept⟩ := reckoning_fits_iff _ accepted
  refine ⟨accepted, fun all => absurd (fits.mp all) (by decide), fun curve width low high same => ?_⟩
  exact absurd ((kept curve width low high).2.mp same) (by decide)

end MeshSettings

end Sapling
