import Mathlib.Data.List.Cycle
import Sapling.Proofs.Mesh.Cylinder

/-! The surface of a tube is a cylinder without cracks: neighbouring triangles of its front run along
their common edge in opposite ways, only the rims are open, and the back is the front turned over. -/
namespace Sapling

namespace Triangle

/-- The edges, each from corner to corner. -/
def edges (t : Triangle) : List (UInt32 × UInt32) := [(t.a, t.b), (t.b, t.c), (t.c, t.a)]

/-- The way around the triangle, wherever it starts. -/
def cycle (t : Triangle) : Cycle UInt32 := ([t.a, t.b, t.c] : List UInt32)

/-- No corner is repeated. -/
def Proper (t : Triangle) : Prop := t.a ≠ t.b ∧ t.b ≠ t.c ∧ t.c ≠ t.a

end Triangle

namespace Tube

/-- The index of a vertex. -/
def corner (around : Nat) (spot : Spot) : UInt32 := .ofNat (spot.1 * around + spot.2)

/-- What is made of the four corners of a field: the lower and the upper one of its column, then those of
the next column. -/
def atCorners (around : Nat) (make : (a b c d : UInt32) → List α) : Spot → List α
  | (i, j) =>
    make (corner around (i, j)) (corner around (i + 1, j)) (corner around (i, next around j))
      (corner around (i + 1, next around j))

/-- The two triangles on the front of a field. -/
def front (around : Nat) : Spot → List Triangle :=
  atCorners around fun a b c d => [⟨a, b, c⟩, ⟨b, d, c⟩]

/-- The two triangles on the back of a field. -/
def back (around : Nat) : Spot → List Triangle :=
  atCorners around fun a b c d => [⟨a, c, b⟩, ⟨b, c, d⟩]

def fronts (along around : Nat) : List Triangle := (fields along around).flatMap (front around)

def backs (along around : Nat) : List Triangle := (fields along around).flatMap (back around)

def frontEdges (along around : Nat) : List (UInt32 × UInt32) :=
  (fronts along around).flatMap Triangle.edges

variable {along around : Nat}

/-! ## Indices -/

/-- Is there such a ring and such a column? -/
def OnTube (along around : Nat) (spot : Spot) : Prop := spot.1 ≤ along ∧ spot.2 < around

/-- Indices are wide enough for all vertices. -/
def Numbered (along around : Nat) : Prop := (along + 1) * around ≤ 2 ^ 32

/-- Each spot of the tube has its vertex. -/
theorem place_lt {spot : Spot} (on : OnTube along around spot) :
    spot.1 * around + spot.2 < (along + 1) * around :=
  calc spot.1 * around + spot.2
    _ < spot.1 * around + around := Nat.add_lt_add_left on.2 _
    _ = (spot.1 + 1) * around := (Nat.succ_mul _ _).symm
    _ ≤ (along + 1) * around := Nat.mul_le_mul_right _ (Nat.succ_le_succ on.1)

theorem toNat_corner (numbered : Numbered along around) {spot : Spot} (on : OnTube along around spot) :
    (corner around spot).toNat = spot.1 * around + spot.2 :=
  UInt32.toNat_ofNat_of_lt' (Nat.lt_of_lt_of_le (place_lt on) numbered)

private theorem ring_corner (numbered : Numbered along around) {spot : Spot} (on : OnTube along around spot) :
    (corner around spot).toNat / around = spot.1 := by
  rw [toNat_corner numbered on, Nat.mul_comm, Nat.mul_add_div (Nat.zero_lt_of_lt on.2),
    Nat.div_eq_of_lt on.2, Nat.add_zero]

private theorem column_corner (numbered : Numbered along around) {spot : Spot}
    (on : OnTube along around spot) : (corner around spot).toNat % around = spot.2 := by
  rw [toNat_corner numbered on, Nat.mul_comm, Nat.mul_add_mod, Nat.mod_eq_of_lt on.2]

theorem corner_inj (numbered : Numbered along around) {x y : Spot} (onX : OnTube along around x)
    (onY : OnTube along around y) : corner around x = corner around y ↔ x = y := by
  refine ⟨fun same => Prod.ext ?_ ?_, fun same => same ▸ rfl⟩
  · rw [← ring_corner numbered onX, same, ring_corner numbered onY]
  · rw [← column_corner numbered onX, same, column_corner numbered onY]

/-- The corners of a field. -/
theorem onTube_field {i j : Nat} (field : (i, j) ∈ fields along around) :
    OnTube along around (i, j) ∧ OnTube along around (i + 1, j) ∧
      OnTube along around (i, next around j) ∧ OnTube along around (i + 1, next around j) := by
  obtain ⟨ring, column⟩ := mem_fields.mp field
  exact ⟨⟨Nat.le_of_lt ring, column⟩, ⟨ring, column⟩, ⟨Nat.le_of_lt ring, next_lt column⟩,
    ⟨ring, next_lt column⟩⟩

/-- The indices of a field, told by rings and columns. -/
def fieldCorners (around : Nat) : Spot → List UInt32 :=
  atCorners around fun a b c d => [a, b, c, b, d, c, a, c, b, b, c, d]

private theorem fieldIndices_eq (around : Nat) (spot : Spot) :
    (fieldIndices around spot.1 spot.2).map UInt32.ofNat = fieldCorners around spot := by
  obtain ⟨i, j⟩ := spot
  simp only [fieldIndices, fieldCorners, atCorners, corner, next, List.map_cons, List.map_nil,
    Nat.succ_mul, Nat.add_right_comm]

private theorem indices_eq (along around : Nat) : (indices along around).map UInt32.ofNat =
    (fields along around).flatMap (fieldCorners around) := by
  have each : fieldCorners around = fun spot : Spot =>
      (fieldIndices around spot.1 spot.2).map UInt32.ofNat :=
    funext fun spot => (fieldIndices_eq around spot).symm
  simp only [each, indices, fields, SProd.sprod, List.product, List.map_flatMap, List.flatMap_assoc,
    List.flatMap_map]

/-- The triangles of a field, front and back. -/
theorem trianglesOf_fields (spots : List Spot) :
    Mesh.trianglesOf (spots.flatMap (fieldCorners around)) =
      spots.flatMap fun field => front around field ++ back around field := by
  induction spots with
  | nil => rfl
  | cons spot spots ih =>
    rw [List.flatMap_cons, List.flatMap_cons, ← ih]
    rfl

private theorem mem_indices (atLeastOne : 1 ≤ along) {v : UInt32} :
    v ∈ (fields along around).flatMap (fieldCorners around) ↔
      ∃ spot, OnTube along around spot ∧ v = corner around spot := by
  constructor
  · intro mem
    obtain ⟨⟨i, j⟩, field, mem⟩ := List.mem_flatMap.mp mem
    obtain ⟨onA, onB, onC, onD⟩ := onTube_field field
    simp only [fieldCorners, atCorners, List.mem_cons, List.not_mem_nil, or_false] at mem
    have corners : v = corner around (i, j) ∨ v = corner around (i + 1, j) ∨
        v = corner around (i, next around j) ∨ v = corner around (i + 1, next around j) := by
      tauto
    obtain rfl | rfl | rfl | rfl := corners
    exacts [⟨_, onA, rfl⟩, ⟨_, onB, rfl⟩, ⟨_, onC, rfl⟩, ⟨_, onD, rfl⟩]
  · rintro ⟨⟨i, j⟩, ⟨ring, column⟩, rfl⟩
    -- The first corner of a field, or the one above it on the last ring.
    obtain below | rfl := Nat.lt_or_eq_of_le ring
    · exact List.mem_flatMap.mpr ⟨(i, j), mem_fields.mpr ⟨below, column⟩, List.mem_cons_self⟩
    · obtain ⟨i, rfl⟩ := Nat.exists_eq_add_of_le' atLeastOne
      exact List.mem_flatMap.mpr ⟨(i, j), mem_fields.mpr ⟨Nat.lt_succ_self i, column⟩,
        List.mem_cons_of_mem _ List.mem_cons_self⟩

/-! ## Edges and turns -/

theorem Edge.onTube {x y : Spot} (edge : Edge along around x y) :
    OnTube along around x ∧ OnTube along around y := by
  cases edge with
  | up i j ring column => exact ⟨⟨Nat.le_of_lt ring, column⟩, ring, column⟩
  | down i j ring column => exact ⟨⟨ring, column⟩, Nat.le_of_lt ring, column⟩
  | slantUp i j ring column => exact ⟨⟨Nat.le_of_lt ring, next_lt column⟩, ring, column⟩
  | slantDown i j ring column => exact ⟨⟨ring, column⟩, Nat.le_of_lt ring, next_lt column⟩
  | back i j ring column =>
    exact ⟨⟨Nat.le_of_lt ring, next_lt column⟩, Nat.le_of_lt ring, column⟩
  | forth i j ring column => exact ⟨⟨ring, column⟩, ring, next_lt column⟩

theorem frontEdges_eq (along around : Nat) : frontEdges along around =
    (netEdges along around).map (Prod.map (corner around) (corner around)) := by
  rw [frontEdges, fronts, netEdges, List.flatMap_assoc, List.map_flatMap]
  rfl

private theorem exists_edge {e : UInt32 × UInt32} (mem : e ∈ frontEdges along around) :
    ∃ x y, Edge along around x y ∧ e = (corner around x, corner around y) := by
  rw [frontEdges_eq] at mem
  obtain ⟨⟨x, y⟩, edge, rfl⟩ := List.mem_map.mp mem
  exact ⟨x, y, mem_netEdges.mp edge, rfl⟩

private theorem mem_frontEdges (numbered : Numbered along around) {x y : Spot}
    (onX : OnTube along around x) (onY : OnTube along around y) :
    (corner around x, corner around y) ∈ frontEdges along around ↔ Edge along around x y := by
  constructor
  · intro mem
    obtain ⟨x', y', edge, same⟩ := exists_edge mem
    obtain ⟨sameX, sameY⟩ := Prod.mk.inj same
    obtain rfl := (corner_inj numbered onX edge.onTube.1).mp sameX
    obtain rfl := (corner_inj numbered onY edge.onTube.2).mp sameY
    exact edge
  · intro edge
    rw [frontEdges_eq]
    exact List.mem_map.mpr ⟨(x, y), mem_netEdges.mpr edge, rfl⟩

private theorem nodup_frontEdges (numbered : Numbered along around) (three : 3 ≤ around) :
    (frontEdges along around).Nodup := by
  rw [frontEdges_eq]
  refine (nodup_netEdges three).map_on ?_
  rintro ⟨x, y⟩ mem ⟨x', y'⟩ mem' same
  obtain ⟨sameX, sameY⟩ := Prod.mk.inj same
  obtain ⟨onX, onY⟩ := (mem_netEdges.mp mem).onTube
  obtain ⟨onX', onY'⟩ := (mem_netEdges.mp mem').onTube
  rw [(corner_inj numbered onX onX').mp sameX, (corner_inj numbered onY onY').mp sameY]

/-- Both ends of the edge belong to this ring. -/
def OnRing (around ring : Nat) (e : UInt32 × UInt32) : Prop :=
  e.1.toNat / around = ring ∧ e.2.toNat / around = ring

instance (around ring : Nat) (e : UInt32 × UInt32) : Decidable (OnRing around ring e) :=
  inferInstanceAs (Decidable (_ ∧ _))

private theorem count_swap (numbered : Numbered along around) (three : 3 ≤ around) {e : UInt32 × UInt32}
    (mem : e ∈ frontEdges along around) : (frontEdges along around).count e.swap =
      if OnRing around 0 e ∨ OnRing around along e then 0 else 1 := by
  obtain ⟨x, y, edge, rfl⟩ := exists_edge mem
  obtain ⟨onX, onY⟩ := edge.onTube
  have rim : (OnRing around 0 (corner around x, corner around y) ∨
      OnRing around along (corner around x, corner around y)) ↔ OnRim along x y := by
    simp only [OnRing, OnRim, ring_corner numbered onX, ring_corner numbered onY]
  have against := (mem_frontEdges numbered onY onX).trans (edge.reverse_iff three)
  by_cases onRim : OnRim along x y
  · rw [if_pos (rim.mpr onRim)]
    exact List.count_eq_zero.mpr fun mem => against.mp mem onRim
  · rw [if_neg (mt rim.mp onRim)]
    exact List.count_eq_one_of_mem (nodup_frontEdges numbered three) (against.mpr onRim)

/-- A triangle is turned over by exchanging two corners. -/
theorem reverse_cycle (a b c : UInt32) :
    (Triangle.cycle ⟨a, b, c⟩).reverse = Triangle.cycle ⟨a, c, b⟩ :=
  Cycle.coe_eq_coe.mpr ⟨2, rfl⟩

private theorem cycle_backs (along around : Nat) : (backs along around).map Triangle.cycle =
    (fronts along around).map fun t => t.cycle.reverse := by
  rw [backs, fronts, List.map_flatMap, List.map_flatMap]
  congr
  funext ⟨i, j⟩
  simp only [front, back, atCorners, List.map_cons, List.map_nil, reverse_cycle]

private theorem proper_of_mem (numbered : Numbered along around) (three : 3 ≤ around) {field : Spot}
    (inside : field ∈ fields along around) {t : Triangle}
    (mem : t ∈ front around field ++ back around field) : t.Proper := by
  obtain ⟨i, j⟩ := field
  obtain ⟨onA, onB, onC, onD⟩ := onTube_field inside
  have other := next_ne three (mem_fields.mp inside).2
  have ab : corner around (i, j) ≠ corner around (i + 1, j) := by
    simp [corner_inj numbered onA onB]
  have ac : corner around (i, j) ≠ corner around (i, next around j) := by
    simp [corner_inj numbered onA onC, other.symm]
  have bc : corner around (i + 1, j) ≠ corner around (i, next around j) := by
    simp [corner_inj numbered onB onC]
  have bd : corner around (i + 1, j) ≠ corner around (i + 1, next around j) := by
    simp [corner_inj numbered onB onD, other.symm]
  have cd : corner around (i, next around j) ≠ corner around (i + 1, next around j) := by
    simp [corner_inj numbered onC onD]
  simp only [front, back, atCorners, List.cons_append, List.nil_append, List.mem_cons, List.not_mem_nil,
    or_false] at mem
  obtain rfl | rfl | rfl | rfl := mem
  · exact ⟨ab, bc, ac.symm⟩
  · exact ⟨bd, cd.symm, bc.symm⟩
  · exact ⟨ac, bc.symm, ab.symm⟩
  · exact ⟨bc, cd, bd.symm⟩

/-! ## The mesh of a tube -/

private theorem toNat_raised (least given : UInt32) :
    (if given < least then least else given).toNat = max given.toNat least.toNat := by
  split
  · rename_i below
    exact (max_eq_right (Nat.le_of_lt (UInt32.lt_iff_toNat_lt.mp below))).symm
  · rename_i enough
    exact (max_eq_left (Nat.le_of_not_lt (mt UInt32.lt_iff_toNat_lt.mpr enough))).symm

/-- There is one field along the curve at least (`curve_segments`). -/
theorem toNat_fieldsAlong (tube : Tube) : tube.fieldsAlong.toNat = max tube.curveSegments.toNat 1 :=
  toNat_raised 1 tube.curveSegments

/-- There are three fields around it at least (`radial_segments`). -/
theorem toNat_fieldsAround (tube : Tube) :
    tube.fieldsAround.toNat = max tube.radialSegments.toNat 3 :=
  toNat_raised 3 tube.radialSegments

private theorem numbered_of_small (atLeastOne : 1 ≤ along) (small : 12 * along * around < 2 ^ 32) :
    Numbered along around :=
  calc (along + 1) * around
    _ ≤ 12 * along * around := Nat.mul_le_mul_right _ (by omega)
    _ ≤ 2 ^ 32 := Nat.le_of_lt small

private theorem indices_mesh (tube : Tube) : tube.mesh.indices.toList =
    (fields tube.fieldsAlong.toNat tube.fieldsAround.toNat).flatMap
      (fieldCorners tube.fieldsAround.toNat) := indices_eq _ _

private theorem vertexCount_mesh (tube : Tube) :
    tube.mesh.vertexCount = (tube.fieldsAlong.toNat + 1) * tube.fieldsAround.toNat := by
  have ring (i : Nat) : (tube.ringVertices i).length = tube.fieldsAround.toNat := by
    rw [ringVertices, List.length_map, List.length_range]
  simp only [Mesh.vertexCount, mesh, List.size_toArray, List.length_flatMap, ring, List.map_const',
    List.length_range, List.sum_replicate_nat]

/-- A mesh that covers a cylinder with so many fields along it and around it: two-sided, without cracks
and with one orientation on each side. -/
structure Covers (mesh : Mesh) (along around : Nat) : Prop where
  rings : mesh.rings.size = along + 1
  vertices : mesh.vertexCount = (along + 1) * around
  indices : mesh.indices.size = 12 * along * around
  inRange : mesh.InRange
  used (n : Nat) : n < mesh.vertexCount → ∃ v ∈ mesh.indices, v.toNat = n
  proper (t : Triangle) : t ∈ mesh.triangles → t.Proper
  /-- Field after field, the triangles on its front and then those on its back. -/
  triangles : mesh.triangles =
    (fields along around).flatMap fun field => front around field ++ back around field
  once : (frontEdges along around).Nodup
  /-- Only the rims are open. -/
  against (e : UInt32 × UInt32) : e ∈ frontEdges along around →
    (frontEdges along around).count e.swap =
      if OnRing around 0 e ∨ OnRing around along e then 0 else 1
  /-- The back is the front turned over, triangle by triangle. -/
  turned : (backs along around).map Triangle.cycle =
    (fronts along around).map fun t => t.cycle.reverse

private theorem covers_of_numbered (tube : Tube) (atLeastOne : 1 ≤ tube.fieldsAlong.toNat)
    (three : 3 ≤ tube.fieldsAround.toNat)
    (numbered : Numbered tube.fieldsAlong.toNat tube.fieldsAround.toNat) :
    Covers tube.mesh tube.fieldsAlong.toNat tube.fieldsAround.toNat := by
  have triangles : tube.mesh.triangles = _ :=
    (congrArg Mesh.trianglesOf tube.indices_mesh).trans (trianglesOf_fields _)
  have isIndex (v : UInt32) : v ∈ tube.mesh.indices ↔
      ∃ spot, OnTube tube.fieldsAlong.toNat tube.fieldsAround.toNat spot ∧
        v = corner tube.fieldsAround.toNat spot := by
    rw [← Array.mem_toList_iff, indices_mesh, mem_indices atLeastOne]
  refine {
    rings := ?_
    vertices := tube.vertexCount_mesh
    indices := ?_
    inRange := ?_
    used := ?_
    proper := ?_
    triangles := triangles
    once := nodup_frontEdges numbered three
    against := fun _ => count_swap numbered three
    turned := cycle_backs _ _ }
  · simp only [mesh, List.size_toArray, List.length_map, List.length_range]
  · simp only [mesh, List.size_toArray, List.length_map, length_indices]
    ring
  · intro v mem
    obtain ⟨spot, on, rfl⟩ := (isIndex v).mp mem
    rw [toNat_corner numbered on, vertexCount_mesh]
    exact place_lt on
  · intro n below
    rw [vertexCount_mesh, Nat.mul_comm] at below
    have on : OnTube tube.fieldsAlong.toNat tube.fieldsAround.toNat
        (n / tube.fieldsAround.toNat, n % tube.fieldsAround.toNat) :=
      ⟨Nat.le_of_lt_succ (Nat.div_lt_of_lt_mul below), Nat.mod_lt _ (by omega)⟩
    refine ⟨_, (isIndex _).mpr ⟨_, on, rfl⟩, ?_⟩
    rw [toNat_corner numbered on, Nat.div_add_mod']
  · intro t mem
    rw [triangles] at mem
    obtain ⟨field, inside, mem⟩ := List.mem_flatMap.mp mem
    exact proper_of_mem numbered three inside mem

/-- The mesh of a tube with fields small enough in number for their indices covers a cylinder. -/
theorem mesh_covers_cylinder (tube : Tube) :
    let along := max tube.curveSegments.toNat 1
    let around := max tube.radialSegments.toNat 3
    12 * along * around < 2 ^ 32 → Covers tube.mesh along around := by
  intro along around small
  have alongEq : tube.fieldsAlong.toNat = along := tube.toNat_fieldsAlong
  have aroundEq : tube.fieldsAround.toNat = around := tube.toNat_fieldsAround
  have atLeastOne : 1 ≤ along := le_max_right _ _
  have three : 3 ≤ around := le_max_right _ _
  have covers := tube.covers_of_numbered (alongEq ▸ atLeastOne) (aroundEq ▸ three)
    (alongEq ▸ aroundEq ▸ numbered_of_small atLeastOne small)
  rwa [alongEq, aroundEq] at covers

/-- The coarsest tube. It asks for less than that. -/
def coarsest : Tube :=
  { Tube.along ⟨.zero, .unitY, .unitY⟩ 1 with curveSegments := 0, radialSegments := 2 }

theorem coarsest_covers_cylinder :
    12 * max coarsest.curveSegments.toNat 1 * max coarsest.radialSegments.toNat 3 < 2 ^ 32 ∧
      Covers coarsest.mesh 1 3 ∧ coarsest.mesh.indices.size = 36 := by
  have small : 12 * max coarsest.curveSegments.toNat 1 * max coarsest.radialSegments.toNat 3 <
      2 ^ 32 := by decide
  have covers : Covers coarsest.mesh 1 3 := coarsest.mesh_covers_cylinder small
  exact ⟨small, covers, covers.indices⟩

end Tube


end Sapling
