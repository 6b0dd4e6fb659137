import Sapling.Decimal
import Sapling.Mesh.Basic
/-!
The OBJ text of a mesh: a comment with its size, the positions, the texture coordinates and the normals
of the vertices, and the faces. Vertices count from one.
-/
namespace Sapling.Obj

/-- Coordinates have six places. -/
def coordinate (x : Float32) : String := Decimal.fixed 6 x

/-- A comment with the size of the mesh. -/
def header (m : Mesh) : String :=
  s!"# arbor mesh: {m.vertexCount} vertices, {m.triangleCount} triangles"

def positionLine (x : Vertex) : String :=
  s!"v {coordinate x.position.x} {coordinate x.position.y} {coordinate x.position.z}"

def textureLine (x : Vertex) : String := s!"vt {coordinate x.u} {coordinate x.v}"

def normalLine (x : Vertex) : String :=
  s!"vn {coordinate x.normal.x} {coordinate x.normal.y} {coordinate x.normal.z}"

/-- A corner refers to position, texture coordinates and normal of one vertex. -/
def corner (i : UInt32) : String :=
  let n := toString (i + 1).toNat
  n ++ "/" ++ n ++ "/" ++ n

def faceLine (t : Triangle) : String := s!"f {corner t.a} {corner t.b} {corner t.c}"

/-- All lines: the size, then positions, texture places and normals of all vertices, then the faces. -/
def lines (m : Mesh) : List String :=
  let vertices := m.vertices.toList
  header m :: vertices.map positionLine ++ vertices.map textureLine ++ vertices.map normalLine ++
    m.triangles.map faceLine

/-- The text of a mesh, in which every line ends with a line feed (`write_obj`). -/
def render (m : Mesh) : String := (lines m).foldl (fun text line => text ++ line ++ "\n") ""

end Sapling.Obj
