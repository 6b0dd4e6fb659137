import Mathlib.Algebra.Order.BigOperators.Group.List
import Mathlib.Algebra.Order.Ring.Nat
import Sapling.Mesh.Basic

/-! Indices in groups of three. Lists of complete triangles stay what they are when they are put one behind the
other or when their corners are numbered anew. The facets of a mesh are its triangles with the vertices that
they refer to; if all of these are there, each triangle has a facet. -/
namespace Sapling

/-! ## Groups of three -/

/-- A triangle with its corners numbered anew. -/
def Triangle.map (f : UInt32 → UInt32) (t : Triangle) : Triangle := ⟨f t.a, f t.b, f t.c⟩

namespace Mesh

theorem short_of_few {indices : List UInt32}
    (few : ∀ a b c rest, indices = a :: b :: c :: rest → False) : indices.length < 3 := by
  match indices with
  | [] | [_] | [_, _] => simp
  | a :: b :: c :: rest => exact (few a b c rest rfl).elim

/-- Every three indices make a triangle. -/
theorem length_trianglesOf (indices : List UInt32) :
    (trianglesOf indices).length = indices.length / 3 := by
  fun_induction trianglesOf indices with
  | case1 a b c rest ih =>
    rw [List.length_cons, ih]
    simp only [List.length_cons]
    omega
  | case2 indices few => exact (Nat.div_eq_of_lt (short_of_few few)).symm

/-- The corners of the triangles are the indices, up to the last complete triangle. -/
theorem corners_trianglesOf (indices : List UInt32) :
    (trianglesOf indices).flatMap (fun t => [t.a, t.b, t.c]) =
      indices.take (3 * (indices.length / 3)) := by
  fun_induction trianglesOf indices with
  | case1 a b c rest ih =>
    have more : 3 * ((a :: b :: c :: rest).length / 3) = 3 * (rest.length / 3) + 3 := by
      simp only [List.length_cons]
      omega
    rw [List.flatMap_cons, ih, more]
    rfl
  | case2 indices few =>
    rw [Nat.div_eq_of_lt (short_of_few few), Nat.mul_zero]
    rfl

private theorem corner_mem {indices : List UInt32} {t : Triangle} (mem : t ∈ trianglesOf indices) :
    t.a ∈ indices ∧ t.b ∈ indices ∧ t.c ∈ indices := by
  have corner (i : UInt32) (held : i ∈ [t.a, t.b, t.c]) : i ∈ indices := by
    apply List.mem_of_mem_take
    rw [← corners_trianglesOf]
    exact List.mem_flatMap.mpr ⟨t, mem, held⟩
  exact ⟨corner _ (by simp), corner _ (by simp), corner _ (by simp)⟩

private theorem trianglesOf_append {indices : List UInt32} (whole : 3 ∣ indices.length) (more : List UInt32) :
    trianglesOf (indices ++ more) = trianglesOf indices ++ trianglesOf more := by
  fun_induction trianglesOf indices with
  | case1 a b c rest ih =>
    have whole' : 3 ∣ rest.length := by
      simp only [List.length_cons] at whole
      omega
    exact congrArg (⟨a, b, c⟩ :: ·) (ih whole')
  | case2 indices few =>
    have empty : indices = [] := List.eq_nil_of_length_eq_zero (by have := short_of_few few; omega)
    rw [empty]
    rfl

private theorem trianglesOf_map (f : UInt32 → UInt32) (indices : List UInt32) :
    trianglesOf (indices.map f) = (trianglesOf indices).map (Triangle.map f) := by
  fun_induction trianglesOf indices with
  | case1 a b c rest ih => exact congrArg (Triangle.map f ⟨a, b, c⟩ :: ·) ih
  | case2 indices few =>
    match indices with
    | [] | [_] | [_, _] => rfl
    | a :: b :: c :: rest => exact (few a b c rest rfl).elim

end Mesh

/-! ## Lists of results -/

private theorem mapM_congr {items : List α} {read other : α → Option β} (each : ∀ x ∈ items, read x = other x) :
    items.mapM read = items.mapM other := by
  induction items with
  | nil => rfl
  | cons x items ih =>
    obtain ⟨first, rest⟩ := List.forall_mem_cons.mp each
    rw [List.mapM_cons, List.mapM_cons, first, ih rest]

private theorem mapM_map_results (read : α → Option β) (f : β → γ) (items : List α) :
    items.mapM (fun x => (read x).map f) = (items.mapM read).map (List.map f) := by
  induction items with
  | nil => rfl
  | cons x items ih =>
    rw [List.mapM_cons, List.mapM_cons, ih]
    cases read x <;> cases items.mapM read <;> rfl

private theorem mapM_eq_some {items : List α} {read : α → Option β}
    (each : ∀ x ∈ items, ∃ y, read x = some y) :
    ∃ results, items.mapM read = some results ∧ results.length = items.length := by
  induction items with
  | nil => exact ⟨[], rfl, rfl⟩
  | cons x items ih =>
    obtain ⟨⟨y, first⟩, rest⟩ := List.forall_mem_cons.mp each
    obtain ⟨results, found, length⟩ := ih rest
    refine ⟨y :: results, ?_, congrArg (· + 1) length⟩
    rw [List.mapM_cons, first, found]
    rfl

/-- Reading the lists of several items is reading the first one and then those of the rest. -/
theorem flatten_mapM_cons (read : α → Option (List β)) (x : α) (items : List α) :
    ((x :: items).mapM read).map List.flatten =
      (read x).bind fun first => ((items.mapM read).map List.flatten).map (first ++ ·) := by
  rw [List.mapM_cons]
  cases read x <;> cases items.mapM read <;> rfl

/-! ## Facets -/

/-- A triangle of vertices. -/
structure Facet where
  a : Vertex
  b : Vertex
  c : Vertex
deriving DecidableEq

/-- The facet with other vertices in the places of its own. -/
def Facet.map (f : Vertex → Vertex) (facet : Facet) : Facet := ⟨f facet.a, f facet.b, f facet.c⟩

/-- The facet of a triangle, if its corners are numbers of vertices. -/
def Triangle.facet? (vertices : Array Vertex) (t : Triangle) : Option Facet := do
  some ⟨← vertices[t.a.toNat]?, ← vertices[t.b.toNat]?, ← vertices[t.c.toNat]?⟩

private theorem Triangle.facet?_eq_some {vertices : Array Vertex} {t : Triangle}
    (inside : t.a.toNat < vertices.size ∧ t.b.toNat < vertices.size ∧ t.c.toNat < vertices.size) :
    ∃ facet, t.facet? vertices = some facet := by
  obtain ⟨a, b, c⟩ := inside
  simp [facet?, a, b, c]

/-- Vertices that are moved one by one take the facets with them. -/
theorem Triangle.facet?_map (f : Vertex → Vertex) (vertices : Array Vertex) (t : Triangle) :
    t.facet? (vertices.map f) = (t.facet? vertices).map (Facet.map f) := by
  simp only [facet?, Array.getElem?_map]
  cases vertices[t.a.toNat]? <;> cases vertices[t.b.toNat]? <;> cases vertices[t.c.toNat]? <;> rfl

namespace Mesh

/-- The facets of all triangles, if all corners of these are numbers of vertices. -/
def facets? (m : Mesh) : Option (List Facet) := m.triangles.mapM (·.facet? m.vertices)

private theorem length_triangles (m : Mesh) : m.triangles.length = m.triangleCount := length_trianglesOf _

private theorem InRange.corners {m : Mesh} (inRange : m.InRange) {t : Triangle} (mem : t ∈ m.triangles) :
    t.a.toNat < m.vertices.size ∧ t.b.toNat < m.vertices.size ∧ t.c.toNat < m.vertices.size := by
  obtain ⟨a, b, c⟩ := corner_mem mem
  exact ⟨inRange _ (Array.mem_toList_iff.mp a), inRange _ (Array.mem_toList_iff.mp b),
    inRange _ (Array.mem_toList_iff.mp c)⟩

/-- A mesh without stray indices has a facet for each of its triangles. -/
theorem InRange.facets {m : Mesh} (inRange : m.InRange) :
    ∃ facets, m.facets? = some facets ∧ facets.length = m.triangleCount := by
  have each : ∀ t ∈ m.triangles, ∃ facet, t.facet? m.vertices = some facet :=
    fun t mem => t.facet?_eq_some (inRange.corners mem)
  obtain ⟨facets, found, length⟩ := mapM_eq_some each
  exact ⟨facets, found, length.trans m.length_triangles⟩

/-! ## Joining

Meshes that are joined. However many are put together, and in whatever grouping, the triangles of each are
found again behind those of the meshes before it, with the vertices that they had.
-/

instance (m : Mesh) : Decidable m.InRange :=
  decidable_of_iff (m.indices.toList.all (·.toNat < m.vertexCount))
    (by simp only [List.all_eq_true, decide_eq_true_eq, Array.mem_toList_iff, InRange])

/-- A mesh of complete triangles, all of whose indices are numbers of vertices. -/
structure Whole (m : Mesh) : Prop where
  inRange : m.InRange
  complete : 3 ∣ m.indices.size

instance (m : Mesh) : Decidable m.Whole :=
  decidable_of_iff (m.InRange ∧ 3 ∣ m.indices.size)
    ⟨fun ⟨inRange, complete⟩ => ⟨inRange, complete⟩, fun whole => ⟨whole.inRange, whole.complete⟩⟩

private theorem whole_empty : empty.Whole := ⟨fun i mem => absurd mem (Array.not_mem_empty i), Nat.dvd_zero 3⟩

/-! ### Two meshes -/

/-- Indices may be numbered anew twice or at once, even where the numbers do not fit into words. -/
theorem merge_assoc (m n o : Mesh) : (m.merge n).merge o = m.merge (n.merge o) := by
  have twice : (fun i : UInt32 => i + UInt32.ofNat n.vertexCount + UInt32.ofNat m.vertexCount) =
      (· + UInt32.ofNat (m.vertexCount + n.vertexCount)) := by
    funext i
    rw [UInt32.ofNat_add, UInt32.add_assoc, UInt32.add_comm (UInt32.ofNat m.vertexCount)]
  simp only [merge, vertexCount] at twice ⊢
  simp only [Array.append_assoc, Array.map_append, Array.map_map, Array.size_append, Function.comp_def,
    twice]

theorem empty_merge (m : Mesh) : empty.merge m = m := by
  simp [merge, empty, vertexCount]

theorem merge_empty (m : Mesh) : m.merge empty = m := by
  simp [merge, empty]

private theorem vertexCount_merge (m n : Mesh) : (m.merge n).vertexCount = m.vertexCount + n.vertexCount :=
  Array.size_append

/-- No number overflows as long as all vertices can be numbered. -/
theorem toNat_renumbered {m n : Mesh} (few : m.vertexCount + n.vertexCount ≤ UInt32.size) {i : UInt32}
    (inside : i.toNat < n.vertexCount) :
    (i + UInt32.ofNat m.vertexCount).toNat = m.vertexCount + i.toNat := by
  have fits : m.vertexCount < UInt32.size := by omega
  have sum : i.toNat + m.vertexCount < UInt32.size := by omega
  rw [UInt32.toNat_add, UInt32.toNat_ofNat_of_lt' fits, Nat.mod_eq_of_lt sum, Nat.add_comm]

/-- Two whole meshes are merged into a whole one while all vertices can be numbered. -/
theorem Whole.merge {m n : Mesh} (whole : m.Whole) (whole' : n.Whole)
    (few : m.vertexCount + n.vertexCount ≤ UInt32.size) : (m.merge n).Whole where
  inRange i mem := by
    rw [vertexCount_merge]
    rcases Array.mem_append.mp mem with own | renumbered
    · exact Nat.lt_of_lt_of_le (whole.inRange i own) (Nat.le_add_right ..)
    · obtain ⟨j, held, rfl⟩ := Array.mem_map.mp renumbered
      rw [toNat_renumbered few (whole'.inRange j held)]
      exact Nat.add_lt_add_left (whole'.inRange j held) _
  complete := by
    have sizes : (m.merge n).indices.size = m.indices.size + n.indices.size := by simp [Mesh.merge]
    rw [sizes]
    exact Nat.dvd_add whole.complete whole'.complete

/-- The indices of the second mesh go on behind the vertices of the first. -/
theorem indices_merge {m n : Mesh} (inRange : n.InRange) (few : m.vertexCount + n.vertexCount ≤ UInt32.size) :
    (m.merge n).indices.toList.map UInt32.toNat =
      m.indices.toList.map UInt32.toNat ++ n.indices.toList.map (m.vertexCount + ·.toNat) := by
  simp only [merge, Array.toList_append, Array.toList_map, List.map_append, List.map_map]
  congr 1
  refine List.map_congr_left fun i mem => ?_
  exact toNat_renumbered few (inRange i (Array.mem_toList_iff.mp mem))

private theorem triangles_merge {m : Mesh} (complete : 3 ∣ m.indices.size) (n : Mesh) :
    (m.merge n).triangles =
      m.triangles ++ n.triangles.map (Triangle.map (· + UInt32.ofNat m.vertexCount)) := by
  simp only [triangles, merge, Array.toList_append, Array.toList_map]
  rw [trianglesOf_append complete, trianglesOf_map]

private theorem triangleCount_merge {m : Mesh} (complete : 3 ∣ m.indices.size) (n : Mesh) :
    (m.merge n).triangleCount = m.triangleCount + n.triangleCount := by
  rw [← length_triangles, triangles_merge complete, List.length_append, List.length_map, length_triangles,
    length_triangles]

/-- The facets of the first mesh come before those of the second. -/
theorem facets?_merge {m n : Mesh} (whole : m.Whole) (inRange : n.InRange)
    (few : m.vertexCount + n.vertexCount ≤ UInt32.size) :
    (m.merge n).facets? = m.facets?.bind fun facets => n.facets?.map (facets ++ ·) := by
  have own : m.triangles.mapM (·.facet? (m.merge n).vertices) = m.facets? := by
    refine mapM_congr fun t mem => ?_
    obtain ⟨a, b, c⟩ := whole.inRange.corners mem
    simp only [Triangle.facet?, merge, Array.getElem?_append_left, a, b, c]
  have renumbered : (n.triangles.map (Triangle.map (· + UInt32.ofNat m.vertexCount))).mapM
      (·.facet? (m.merge n).vertices) = n.facets? := by
    rw [List.mapM_map]
    refine mapM_congr fun t mem => ?_
    obtain ⟨a, b, c⟩ := inRange.corners mem
    have behind (j : Nat) : (m.merge n).vertices[m.vertexCount + j]? = n.vertices[j]? := by
      simp [merge, vertexCount, Array.getElem?_append_right]
    simp only [Function.comp_apply, Triangle.facet?, Triangle.map, toNat_renumbered few a,
      toNat_renumbered few b, toNat_renumbered few c, behind]
  rw [facets?, triangles_merge whole.complete, List.mapM_append, own, renumbered]
  cases m.facets? <;> cases n.facets? <;> rfl

/-! ### Many meshes -/

/-- All meshes as one. -/
def join (meshes : List Mesh) : Mesh := meshes.foldl merge empty

instance : Std.Associative merge := ⟨merge_assoc⟩

private theorem join_cons (m : Mesh) (meshes : List Mesh) : join (m :: meshes) = m.merge (join meshes) := by
  calc meshes.foldl merge (empty.merge m)
    _ = meshes.foldl merge (m.merge empty) := by rw [empty_merge, merge_empty]
    _ = m.merge (join meshes) := List.foldl_assoc

theorem vertexCount_join (meshes : List Mesh) :
    (join meshes).vertexCount = (meshes.map vertexCount).sum := by
  induction meshes with
  | nil => rfl
  | cons m meshes ih => rw [join_cons, vertexCount_merge, ih, List.map_cons, List.sum_cons]

/-- What is joined keeps all triangles, those of the first mesh first, with the vertices that they had. -/
theorem join_whole {meshes : List Mesh} (whole : ∀ m ∈ meshes, m.Whole)
    (few : (meshes.map vertexCount).sum ≤ UInt32.size) :
    (join meshes).Whole ∧ (join meshes).triangleCount = (meshes.map triangleCount).sum ∧
      (join meshes).facets? = (meshes.mapM facets?).map List.flatten := by
  induction meshes with
  | nil => exact ⟨whole_empty, rfl, rfl⟩
  | cons m meshes ih =>
    obtain ⟨first, others⟩ := List.forall_mem_cons.mp whole
    rw [List.map_cons, List.sum_cons] at few
    obtain ⟨rest, triangles, facets⟩ := ih others (Nat.le_of_add_left_le few)
    rw [← vertexCount_join] at few
    rw [join_cons]
    refine ⟨first.merge rest few, ?_, ?_⟩
    · rw [triangleCount_merge first.complete, triangles, List.map_cons, List.sum_cons]
    · rw [facets?_merge first rest.inRange few, facets, flatten_mapM_cons]

/-! ### Meshes that are moved -/

variable (m : Mesh) (point normal : Vec3 → Vec3)

theorem vertexCount_transform : (m.transform point normal).vertexCount = m.vertexCount := Array.size_map

theorem triangleCount_transform : (m.transform point normal).triangleCount = m.triangleCount := rfl

theorem Whole.transform {m : Mesh} (whole : m.Whole) : (m.transform point normal).Whole where
  inRange i mem := by
    rw [vertexCount_transform]
    exact whole.inRange i mem
  complete := whole.complete

/-- The facets of a moved mesh are the facets moved. -/
theorem facets?_transform : (m.transform point normal).facets? = m.facets?.map (List.map (Facet.map fun x =>
    { x with position := point x.position, normal := normal x.normal })) :=
  (mapM_congr fun t _ => t.facet?_map _ m.vertices).trans (mapM_map_results ..)

end Mesh

end Sapling
