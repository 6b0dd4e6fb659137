import Sapling.Decimal
import Sapling.Scene.Recording
/-!
A scene in words: its size, its draws, and one line for each node.
-/
namespace Sapling.Outline

/-- Numbers have two places. -/
def number (x : Float32) : String := Decimal.fixed 2 x

def triple (x y z : Float32) : String := s!"({number x}, {number y}, {number z})"

/-- Fills up with spaces on the left to four characters. -/
def padLeft (text : String) : String :=
  String.ofList (List.replicate (4 - text.length) ' ') ++ text

def sceneLine (scene : Recording) : String :=
  s!"=== Scene (nodes={scene.nodeCount}, meshes={scene.meshCount}, triangles={scene.triangleCount}) ==="

/-- The line with the batches that were drawn. -/
def drawLine (scene : Recording) : String :=
  s!"Leaf draws: {scene.instancedDraws} ({scene.instancesDrawn} instances)"

/-- What is said of a node's mesh. -/
def meshText (mesh : Mesh) (material : Material) : String :=
  let tint := triple material.tint.r material.tint.g material.tint.b
  s!" mesh={mesh.vertexCount}v/{mesh.triangleCount}t bark={material.variant} tint={tint}"

/-- The line of a node. -/
def nodeLine (id : NodeId) (node : SceneNode) : String :=
  let number := padLeft (toString id.value)
  let parent := padLeft (match node.parent with
    | some parent => toString parent.value
    | none => "-")
  let place := triple node.transform.position.x node.transform.position.y node.transform.position.z
  let scale := Outline.number node.transform.scale.x
  let mesh := match node.mesh with
    | some (mesh, material) => meshText mesh material
    | none => ""
  s!"  [{number}] parent={parent} pos={place} scale={scale}" ++ mesh

/-- The lines of the first nodes, as many as `limit` says, and how many more there are. -/
def lines (limit : Option Nat) (scene : Recording) : List String :=
  let listed := match limit with
    | some limit => scene.ids.take limit
    | none => scene.ids
  let rest := scene.nodeCount - listed.length
  [sceneLine scene, drawLine scene] ++
    listed.filterMap (fun id => (scene.node? id).map (nodeLine id)) ++
    (if rest = 0 then [] else [s!"  ... {rest} more"])

/-- The text of a scene, in which every line ends with a line feed (`render`). -/
def render (limit : Option Nat) (scene : Recording) : String :=
  String.join ((lines limit scene).map (· ++ "\n"))

end Sapling.Outline
