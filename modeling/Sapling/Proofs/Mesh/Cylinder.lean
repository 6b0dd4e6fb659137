import Mathlib.Data.List.Nodup
import Mathlib.Data.List.ProdSigma
import Mathlib.Tactic.Ring
import Sapling.Mesh.Tube

/-! The net of a tube, told by rings and columns: how large it is, and the edges of the triangles on its front.
Each edge runs one way only once, and both ways unless it is part of a rim. -/
namespace Sapling

/-! ## Counts

The size of a tube follows from its fineness alone, whatever the curve: each field between two rings
has four triangles, two for each side.
-/

namespace Tube

theorem length_fieldIndices (around i j : Nat) : (fieldIndices around i j).length = 12 := rfl

/-- Each field takes two triangles on each of its two sides. -/
theorem length_indices (along around : Nat) : (indices along around).length = along * (around * 12) := by
  simp only [indices, List.length_flatMap, length_fieldIndices, List.map_const', List.length_range,
    List.sum_replicate_nat]

/-- A tube has four triangles for each of its fields. -/
theorem triangleCount_mesh (tube : Tube) :
    tube.mesh.triangleCount = 4 * tube.fieldsAlong.toNat * tube.fieldsAround.toNat := by
  have indices : tube.mesh.indices.size =
      tube.fieldsAlong.toNat * (tube.fieldsAround.toNat * 12) := by
    simp only [mesh, List.size_toArray, List.length_map, length_indices]
  have thirds : tube.fieldsAlong.toNat * (tube.fieldsAround.toNat * 12) =
      4 * tube.fieldsAlong.toNat * tube.fieldsAround.toNat * 3 := by ring
  rw [Mesh.triangleCount, indices, thirds, Nat.mul_div_cancel _ (by decide)]

/-- A tube that is fine enough has the fineness it was given. -/
theorem fields_of_fine (tube : Tube) (along : 1 ≤ tube.curveSegments)
    (around : 3 ≤ tube.radialSegments) :
    tube.fieldsAlong = tube.curveSegments ∧ tube.fieldsAround = tube.radialSegments :=
  ⟨if_neg (UInt32.not_lt.mpr along), if_neg (UInt32.not_lt.mpr around)⟩

/-! ## Around the tube -/

/-- The column after this one. The first comes after the last. -/
def next (around j : Nat) : Nat := (j + 1) % around

/-- The column before this one. -/
def previous (around j : Nat) : Nat := (j + (around - 1)) % around

variable {along around i j : Nat}

theorem next_lt (column : j < around) : next around j < around :=
  Nat.mod_lt _ (Nat.zero_lt_of_lt column)

private theorem previous_lt (column : j < around) : previous around j < around :=
  Nat.mod_lt _ (Nat.zero_lt_of_lt column)

private theorem previous_next (column : j < around) : previous around (next around j) = j := by
  have turn : j + 1 + (around - 1) = j + around := by omega
  rw [previous, next, Nat.mod_add_mod, turn, Nat.add_mod_right, Nat.mod_eq_of_lt column]

private theorem next_previous (column : j < around) : next around (previous around j) = j := by
  have turn : j + (around - 1) + 1 = j + around := by omega
  rw [next, previous, Nat.mod_add_mod, turn, Nat.add_mod_right, Nat.mod_eq_of_lt column]

private theorem next_eq (column : j < around) : next around j = if j + 1 = around then 0 else j + 1 := by
  rw [next]
  split
  · rename_i last
    rw [last, Nat.mod_self]
  · exact Nat.mod_eq_of_lt (by omega)

/-- On a ring of three columns or more, each column has another one next to it. -/
theorem next_ne (three : 3 ≤ around) (column : j < around) : next around j ≠ j := by
  rw [next_eq column]
  split <;> omega

/-- With three columns or more, two steps forward are no step back. -/
theorem next_next_ne (three : 3 ≤ around) (column : j < around) :
    next around (next around j) ≠ j := by
  rw [next_eq (next_lt column), next_eq column]
  split <;> split <;> omega

/-! ## Fields and edges -/

/-- A vertex by its ring and its column, or a field by those of its first vertex. -/
abbrev Spot := Nat × Nat

/-- All fields, ring after ring. -/
def fields (along around : Nat) : List Spot := List.range along ×ˢ List.range around

theorem mem_fields : (i, j) ∈ fields along around ↔ i < along ∧ j < around := by
  rw [fields, List.mem_product, List.mem_range, List.mem_range]

private theorem nodup_fields (along around : Nat) : (fields along around).Nodup :=
  List.nodup_range.product List.nodup_range

/-- The edges of the two triangles on the front of a field, each from corner to corner. -/
def fieldEdges (around : Nat) : Spot → List (Spot × Spot)
  | (i, j) =>
    let k := next around j
    [((i, j), (i + 1, j)), ((i + 1, j), (i, k)), ((i, k), (i, j)),
      ((i + 1, j), (i + 1, k)), ((i + 1, k), (i, k)), ((i, k), (i + 1, j))]

def netEdges (along around : Nat) : List (Spot × Spot) :=
  (fields along around).flatMap (fieldEdges around)

/-- The ways along an edge of the front. -/
inductive Edge (along around : Nat) : Spot → Spot → Prop where
  | up (i j : Nat) (ring : i < along) (column : j < around) : Edge along around (i, j) (i + 1, j)
  | down (i j : Nat) (ring : i < along) (column : j < around) : Edge along around (i + 1, j) (i, j)
  | slantUp (i j : Nat) (ring : i < along) (column : j < around) :
    Edge along around (i, next around j) (i + 1, j)
  | slantDown (i j : Nat) (ring : i < along) (column : j < around) :
    Edge along around (i + 1, j) (i, next around j)
  | back (i j : Nat) (ring : i < along) (column : j < around) : Edge along around (i, next around j) (i, j)
  | forth (i j : Nat) (ring : i < along) (column : j < around) :
    Edge along around (i + 1, j) (i + 1, next around j)

theorem mem_netEdges {x y : Spot} : (x, y) ∈ netEdges along around ↔ Edge along around x y := by
  constructor
  · intro mem
    obtain ⟨⟨i, j⟩, field, edge⟩ := List.mem_flatMap.mp mem
    obtain ⟨ring, column⟩ := mem_fields.mp field
    simp only [fieldEdges, List.mem_cons, Prod.mk.injEq, List.not_mem_nil, or_false] at edge
    obtain ⟨rfl, rfl⟩ | ⟨rfl, rfl⟩ | ⟨rfl, rfl⟩ | ⟨rfl, rfl⟩ | ⟨rfl, rfl⟩ | ⟨rfl, rfl⟩ := edge
    · exact .up i j ring column
    · exact .slantDown i j ring column
    · exact .back i j ring column
    · exact .forth i j ring column
    · exact .down i _ ring (next_lt column)
    · exact .slantUp i j ring column
  · intro edge
    have ofField {i j : Nat} (ring : i < along) (column : j < around)
        (edge : (x, y) ∈ fieldEdges around (i, j)) : (x, y) ∈ netEdges along around :=
      List.mem_flatMap.mpr ⟨(i, j), mem_fields.mpr ⟨ring, column⟩, edge⟩
    cases edge with
    | down i j ring column =>
      refine ofField ring (previous_lt column) ?_
      simp [fieldEdges, next_previous column]
    | up i j ring column => exact ofField ring column (by simp [fieldEdges])
    | slantUp i j ring column => exact ofField ring column (by simp [fieldEdges])
    | slantDown i j ring column => exact ofField ring column (by simp [fieldEdges])
    | back i j ring column => exact ofField ring column (by simp [fieldEdges])
    | forth i j ring column => exact ofField ring column (by simp [fieldEdges])

/-! ## Once each way -/

/-- The field whose front has the edge. -/
def owner (around : Nat) (x y : Spot) : Spot :=
  if x.1 < y.1 then (x.1, y.2)
  else if y.1 < x.1 then (y.1, previous around y.2)
  else if x.2 = next around y.2 then y
  else (x.1 - 1, x.2)

private theorem owner_eq (three : 3 ≤ around) (column : j < around) {x y : Spot}
    (edge : (x, y) ∈ fieldEdges around (i, j)) : owner around x y = (i, j) := by
  have forward : j ≠ next around (next around j) := (next_next_ne three column).symm
  simp only [fieldEdges, List.mem_cons, Prod.mk.injEq, List.not_mem_nil, or_false] at edge
  obtain ⟨rfl, rfl⟩ | ⟨rfl, rfl⟩ | ⟨rfl, rfl⟩ | ⟨rfl, rfl⟩ | ⟨rfl, rfl⟩ | ⟨rfl, rfl⟩ := edge <;>
    simp [owner, previous_next column, forward]

private theorem nodup_fieldEdges (three : 3 ≤ around) (column : j < around) :
    (fieldEdges around (i, j)).Nodup := by
  have other := next_ne three column
  simp [fieldEdges, other, other.symm]

/-- Each edge of the net is run along once. -/
theorem nodup_netEdges (three : 3 ≤ around) : (netEdges along around).Nodup := by
  refine List.nodup_flatMap.mpr ⟨fun (i, j) field => ?_, ?_⟩
  · exact nodup_fieldEdges three (mem_fields.mp field).2
  · refine (nodup_fields along around).imp_of_mem ?_
    intro (i, j) (i', j') here there apart (x, y) one two
    have first := owner_eq three (mem_fields.mp here).2 one
    have second := owner_eq three (mem_fields.mp there).2 two
    exact apart (first.symm.trans second)

/-! ## The other way -/

/-- Does the edge lie on the first or the last ring? -/
def OnRim (along : Nat) (x y : Spot) : Prop :=
  (x.1 = 0 ∧ y.1 = 0) ∨ (x.1 = along ∧ y.1 = along)

private theorem not_onRim {x y : Spot} (apart : x.1 ≠ y.1) : ¬ OnRim along x y := by
  rintro (⟨first, second⟩ | ⟨first, second⟩) <;> exact apart (first.trans second.symm)

/-- Along a ring, edges run back in front of it and forth behind it. -/
theorem Edge.sameRing {x y : Spot} (edge : Edge along around x y) (same : x.1 = y.1) :
    (x.1 < along ∧ x.2 = next around y.2) ∨ (0 < x.1 ∧ y.2 = next around x.2) := by
  cases edge with
  | up | down | slantUp | slantDown => simp at same
  | back i j ring column => exact .inl ⟨ring, rfl⟩
  | forth i j ring column => exact .inr ⟨Nat.succ_pos i, rfl⟩

/-- Inside the tube each edge has the one of the neighbouring triangle against it. -/
theorem Edge.reverse_iff (three : 3 ≤ around) {x y : Spot} (edge : Edge along around x y) :
    Edge along around y x ↔ ¬ OnRim along x y := by
  cases edge with
  | up i j ring column => exact iff_of_true (.down i j ring column) (not_onRim (by simp))
  | down i j ring column => exact iff_of_true (.up i j ring column) (not_onRim (by simp))
  | slantUp i j ring column => exact iff_of_true (.slantDown i j ring column) (not_onRim (by simp))
  | slantDown i j ring column => exact iff_of_true (.slantUp i j ring column) (not_onRim (by simp))
  | back i j ring column =>
    cases i with
    | zero =>
      refine iff_of_false (fun against => ?_) (not_not_intro (.inl ⟨rfl, rfl⟩))
      obtain ⟨-, ahead⟩ | ⟨above, -⟩ := against.sameRing rfl
      · exact next_next_ne three column ahead.symm
      · exact Nat.lt_irrefl 0 above
    | succ i =>
      refine iff_of_true (.forth i j (Nat.lt_of_succ_lt ring) column) ?_
      simp only [OnRim]
      omega
  | forth i j ring column =>
    by_cases last : i + 1 = along
    · refine iff_of_false (fun against => ?_) (not_not_intro (.inr ⟨last, last⟩))
      obtain ⟨below, -⟩ | ⟨-, ahead⟩ := against.sameRing rfl
      · exact Nat.ne_of_lt below last
      · exact next_next_ne three column ahead.symm
    · refine iff_of_true (.back (i + 1) j (by omega) column) ?_
      simp only [OnRim]
      omega

end Tube

end Sapling
