import Sapling.Geometry.Orientation
/-!
Meshes: vertices, triangles that refer to them by index, and the rings that tubes were swept from; and the
digest that tells two of them apart.
-/
namespace Sapling

/-! ## Digests

The 64-bit digest FNV-1a of a sequence of bytes, fed with words from the low byte up. -/

namespace Digest

/-- The digest of no bytes. -/
def start : UInt64 := 0xcbf29ce484222325

def byte (digest : UInt64) (b : UInt8) : UInt64 := (digest ^^^ b.toUInt64) * 0x100000001b3

/-- Feeds a word of 32 bits, the low byte first. -/
def word (digest : UInt64) (w : UInt32) : UInt64 :=
  byte (byte (byte (byte digest w.toUInt8) (w >>> 8).toUInt8) (w >>> 16).toUInt8) (w >>> 24).toUInt8

/-- A word of 64 bits, as its lower and its upper half. -/
def longWord (digest : UInt64) (w : UInt64) : UInt64 := word (word digest w.toUInt32) (w >>> 32).toUInt32

/-- The words that stand for numbers. Of what is not a number there is one here and are many in a
machine, so a digest is told which of them to write. -/
abbrev Encoding := Float32 → UInt32

/-- The encoding that writes the given word for what is not a number. -/
def encodingWith (notANumber : UInt32) : Encoding := fun x => if x.isNaN then notANumber else x.toBits

def single (encode : Encoding) (digest : UInt64) (x : Float32) : UInt64 := word digest (encode x)

def singles (encode : Encoding) (digest : UInt64) (xs : List Float32) : UInt64 :=
  xs.foldl (single encode) digest

/-- A digest as sixteen lowercase hexadecimal digits. -/
def text (digest : UInt64) : String :=
  let digits := Nat.toDigits 16 digest.toNat
  String.ofList (List.replicate (16 - digits.length) '0' ++ digits)

end Digest

/-! ## Meshes

Meshes: vertices, triangles that refer to them by index, and the rings that tubes were swept from.
-/

/-- A point of a mesh with its normal and its place on the texture (`TubeVertex`). -/
structure Vertex where
  position : Vec3
  normal : Vec3
  u : Float32
  v : Float32
deriving DecidableEq, Repr

namespace Vertex

/-- The eight numbers of a vertex, in the order in which they are stored. -/
def toList (x : Vertex) : List Float32 :=
  [x.position.x, x.position.y, x.position.z, x.normal.x, x.normal.y, x.normal.z, x.u, x.v]

/-- All numbers of a vertex are finite. -/
def isFinite (x : Vertex) : Bool := x.toList.all Float32.isFinite

end Vertex

/-- One cross-section of a tube. -/
structure Ring where
  center : Vec3
  radius : Float32
deriving DecidableEq, Repr

/-- The corners of a triangle, as indices of vertices. -/
structure Triangle where
  a : UInt32
  b : UInt32
  c : UInt32
deriving DecidableEq, Repr

/-- Vertices and the triangles between them (`TubeMesh`). -/
structure Mesh where
  vertices : Array Vertex := #[]
  /-- Three for each triangle, one triangle after the other. -/
  indices : Array UInt32 := #[]
  rings : Array Ring := #[]
deriving DecidableEq, Repr

namespace Mesh

/-- The mesh of nothing. -/
def empty : Mesh := {}

/-- How many vertices there are (`vertex_count`). -/
def vertexCount (m : Mesh) : Nat := m.vertices.size

/-- How many triangles are complete (`triangle_count`). -/
def triangleCount (m : Mesh) : Nat := m.indices.size / 3

/-- No triangle has been begun (`is_empty`). -/
def isEmpty (m : Mesh) : Bool := m.indices.isEmpty

/-- Groups of three; fewer than three at the end make no triangle. -/
def trianglesOf : List UInt32 → List Triangle
  | a :: b :: c :: rest => ⟨a, b, c⟩ :: trianglesOf rest
  | _ => []

/-- The triangles of a mesh. -/
def triangles (m : Mesh) : List Triangle := trianglesOf m.indices.toList

/-- Two meshes as one (`merge`). The indices of the second follow its vertices. -/
def merge (m n : Mesh) : Mesh where
  vertices := m.vertices ++ n.vertices
  indices := m.indices ++ n.indices.map (· + UInt32.ofNat m.vertexCount)
  rings := m.rings ++ n.rings

/-- The mesh with its points moved by one function and its normals by another. -/
def transform (m : Mesh) (point normal : Vec3 → Vec3) : Mesh where
  vertices := m.vertices.map fun x => { x with position := point x.position, normal := normal x.normal }
  indices := m.indices
  rings := m.rings.map fun r => { r with center := point r.center }

/-- The mesh moved as a whole (`translate`). -/
def shift (m : Mesh) (offset : Vec3) : Mesh := m.transform (· + offset) id

/-- The least and the greatest coordinates, unless there are no vertices (`bounds`). -/
def bounds (m : Mesh) : Option (Vec3 × Vec3) :=
  match m.vertices.toList with
  | [] => none
  | first :: rest =>
    some (rest.foldl (fun (low, high) x => (low.min x.position, high.max x.position))
      (first.position, first.position))

/-- All numbers of all vertices are finite (`is_finite`). -/
def isFinite (m : Mesh) : Bool := m.vertices.all Vertex.isFinite

/-- Every index is that of a vertex. -/
def InRange (m : Mesh) : Prop := ∀ i ∈ m.indices, i.toNat < m.vertexCount

/-- Feeds the numbers of all vertices to a digest. -/
def digestVertices (encode : Digest.Encoding) (digest : UInt64) (m : Mesh) : UInt64 :=
  m.vertices.foldl (fun digest x => Digest.singles encode digest x.toList) digest

/-- Feeds all indices to a digest. -/
def digestIndices (digest : UInt64) (m : Mesh) : UInt64 := m.indices.foldl Digest.word digest

end Mesh

/-- The unit square of a leaf, seen from both sides (`leaf_quad`). Each side has vertices of its own. -/
def leafQuad : Mesh where
  vertices := #[1, -1].flatMap fun facing =>
    let corner (x y u v : Float32) : Vertex := ⟨⟨x, y, 0⟩, ⟨0, 0, facing⟩, u, v⟩
    #[corner (-0.5) (-0.5) 0 0, corner 0.5 (-0.5) 1 0, corner 0.5 0.5 1 1, corner (-0.5) 0.5 0 1]
  indices := #[0, 1, 2, 2, 3, 0, 4, 6, 5, 6, 4, 7]

end Sapling
