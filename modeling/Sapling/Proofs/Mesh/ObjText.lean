import Mathlib.Data.List.Forall2
import Sapling.Decimal
import Sapling.Mesh.Obj
import Sapling.Proofs.Mesh.Triangles

/-! The OBJ text of a mesh is read back line by line. The reader takes a text apart at its line feeds and each
line at its blanks. No word that is written holds one of them, so the text falls into the lines, and each line
into the words, that it was put together from. -/
namespace Sapling

/-! ## A reader of OBJ text

OBJ text from the reading side, line by line and word by word. Only the kinds of lines that meshes are
written with are understood.
-/

namespace Obj

/-- What a corner of a face refers to. All three count from one. -/
structure Reference where
  position : Nat
  texture : Nat
  normal : Nat
deriving DecidableEq, Repr

structure Face where
  a : Reference
  b : Reference
  c : Reference
deriving DecidableEq, Repr

def Face.corners (face : Face) : List Reference := [face.a, face.b, face.c]

/-- What one line says. Coordinates stay words. -/
inductive Entry
  /-- The comment that gives the size of the mesh. -/
  | size (vertices triangles : Nat)
  | position (x y z : String)
  | texture (u v : String)
  | normal (x y z : String)
  | face (face : Face)
deriving DecidableEq, Repr

def reference? (word : String) : Option Reference :=
  match (word.toList.splitOn '/').mapM Decimal.natural? with
  | some [position, texture, normal] => some ⟨position, texture, normal⟩
  | _ => none

/-- The words of a line, which blanks separate. -/
def wordsOf (line : List Char) : List String := (line.splitOn ' ').map String.ofList

def entryOf? : List String → Option Entry
  | ["#", "arbor", "mesh:", vertices, "vertices,", triangles, "triangles"] => do
    some (.size (← Decimal.natural? vertices.toList) (← Decimal.natural? triangles.toList))
  | ["v", x, y, z] => some (.position x y z)
  | ["vt", u, v] => some (.texture u v)
  | ["vn", x, y, z] => some (.normal x y z)
  | ["f", a, b, c] => do some (.face ⟨← reference? a, ← reference? b, ← reference? c⟩)
  | _ => none

def entry? (line : List Char) : Option Entry := entryOf? (wordsOf line)

/-- The lines of a text in which every line ends with a line feed. -/
def linesOf? (text : String) : Option (List (List Char)) :=
  let pieces := text.toList.splitOn '\n'
  if pieces.getLast? = some [] then some pieces.dropLast else none

def read? (text : String) : Option (List Entry) := do (← linesOf? text).mapM entry?

open Mesh (corners_trianglesOf length_trianglesOf)

/-! ## Words -/

/-- No character ends a word or a line. -/
def Solid (cs : List Char) : Prop := ∀ c ∈ cs, c ≠ ' ' ∧ c ≠ '\n'

instance (cs : List Char) : Decidable (Solid cs) := List.decidableBAll _ cs

theorem Solid.append {first second : List Char} (solid : Solid first) (solid' : Solid second) :
    Solid (first ++ second) := fun c mem =>
  (List.mem_append.mp mem).elim (solid c) (solid' c)

private theorem solid_of_digits {cs : List Char} (digits : ∀ c ∈ cs, c.isDigit) : Solid cs := fun c mem => by
  constructor <;>
  · rintro rfl
    exact absurd (digits _ mem) (by decide)

/-! ## Whole numbers -/

private theorem toList_toString (n : Nat) : (toString n).toList = Nat.toDigits 10 n := by
  rw [Nat.toString_eq_repr, Nat.toList_repr]

theorem digits_toString (n : Nat) : ∀ c ∈ (toString n).toList, c.isDigit := fun c mem => by
  rw [toList_toString] at mem
  exact Nat.isDigit_of_mem_toDigits (by decide) (by decide) mem

theorem solid_toString (n : Nat) : Solid (toString n).toList := solid_of_digits (digits_toString n)

private theorem ofDigits_eq {cs : List Char} (digits : ∀ c ∈ cs, c.isDigit) :
    Decimal.ofDigits cs = Nat.ofDigitChars 10 cs 0 := by
  unfold Decimal.ofDigits Nat.ofDigitChars
  refine List.foldl_ext _ _ _ fun n c mem => ?_
  rw [if_pos (digits c mem)]

private theorem natural_toString (n : Nat) : Decimal.natural? (toString n).toList = some n := by
  have digits := digits_toString n
  have nonempty : (toString n).toList ≠ [] := by
    rw [toList_toString]
    exact Nat.toDigits_ne_nil
  rw [Decimal.natural?, if_pos ⟨nonempty, List.all_eq_true.mpr digits⟩, ofDigits_eq digits,
    toList_toString, Nat.ofDigitChars_ten_toDigits]

/-! ## Coordinates -/

private theorem solid_pushn {text : String} {c : Char} (solid : Solid text.toList) (ink : Solid [c]) (n : Nat) :
    Solid (text.pushn c n).toList := by
  induction n with
  | zero => exact solid
  | succ n ih =>
    change Solid ((text.pushn c n).push c).toList
    rw [String.toList_push]
    exact ih.append ink

private theorem solid_placeFixed (places units : Nat) : Solid (Decimal.placeFixed places units).toList := by
  simp only [Decimal.placeFixed, String.toList_append]
  exact (((solid_toString _).append (by decide)).append (solid_pushn (by decide) (by decide) _)).append
    (solid_toString _)

theorem solid_coordinate (x : Float32) : Solid (coordinate x).toList := by
  have written (sign : Bool) (units : Nat) :
      Solid ((if sign then "-" else "") ++ Decimal.placeFixed 6 units).toList := by
    rw [String.toList_append]
    exact Solid.append (by cases sign <;> decide) (solid_placeFixed 6 units)
  have odd : Solid (Decimal.nonFinite x).toList := by
    unfold Decimal.nonFinite
    split
    · decide
    · split <;> decide
  unfold coordinate Decimal.fixed
  split
  · exact written _ _
  · exact written _ _
  · exact odd

/-! ## References -/

private theorem toList_corner (i : UInt32) : (corner i).toList =
    ['/'].intercalate (List.replicate 3 (toString (i + 1).toNat).toList) := by
  simp [corner, List.replicate, List.intercalate_cons_cons]

private theorem reference_corner (i : UInt32) :
    reference? (corner i) = some ⟨(i + 1).toNat, (i + 1).toNat, (i + 1).toNat⟩ := by
  have whole : ∀ piece ∈ List.replicate 3 (toString (i + 1).toNat).toList, '/' ∉ piece := by
    intro piece mem slash
    rw [List.eq_of_mem_replicate mem] at slash
    exact absurd (digits_toString _ _ slash) (by decide)
  have pieces := List.splitOn_intercalate '/' whole (by simp)
  rw [reference?, toList_corner, pieces]
  simp only [List.replicate, List.mapM_cons, List.mapM_nil, natural_toString]
  rfl

private theorem solid_corner (i : UInt32) : Solid (corner i).toList := by
  have number := solid_toString (i + 1).toNat
  simp only [corner, String.toList_append]
  exact (((number.append (by decide)).append number).append (by decide)).append number

/-! ## Lines -/

/-- A line made of words, with a blank between them. -/
def ofWords (words : List String) : List Char := [' '].intercalate (words.map String.toList)

private theorem wordsOf_ofWords {words : List String} (nonempty : words ≠ [])
    (solid : ∀ word ∈ words, Solid word.toList) : wordsOf (ofWords words) = words := by
  have apart : ∀ piece ∈ words.map String.toList, ' ' ∉ piece := by
    intro piece mem blank
    obtain ⟨word, held, rfl⟩ := List.mem_map.mp mem
    exact (solid word held _ blank).1 rfl
  rw [wordsOf, ofWords, List.splitOn_intercalate ' ' apart (by simpa using nonempty), List.map_map]
  exact (List.map_congr_left fun word _ => String.ofList_toList).trans (List.map_id words)

private theorem not_mem_ofWords {words : List String} (solid : ∀ word ∈ words, Solid word.toList) :
    '\n' ∉ ofWords words := by
  induction words with
  | nil => exact List.not_mem_nil
  | cons word rest ih =>
    have first : '\n' ∉ word.toList := fun mem => (solid word List.mem_cons_self _ mem).2 rfl
    have after := ih fun other mem => solid other (List.mem_cons_of_mem word mem)
    cases rest with
    | nil => simpa [ofWords] using first
    | cons next rest =>
      simp only [ofWords, List.map_cons, List.intercalate_cons_cons, List.mem_append] at after ⊢
      rintro ((mem | mem) | mem)
      · exact first mem
      · exact absurd mem (by decide)
      · exact after mem

private theorem toList_foldl (lines : List String) (text : String) :
    (lines.foldl (fun text line => text ++ line ++ "\n") text).toList =
      text.toList ++ ['\n'].intercalate (lines.map String.toList ++ [[]]) := by
  induction lines generalizing text with
  | nil => simp
  | cons line rest ih =>
    obtain ⟨next, after, same⟩ : ∃ next after, rest.map String.toList ++ [[]] = next :: after :=
      List.exists_cons_of_ne_nil (by simp)
    rw [List.foldl_cons, ih, List.map_cons, List.cons_append, same, List.intercalate_cons_cons]
    simp

private theorem linesOf_foldl {lines : List String} (whole : ∀ line ∈ lines, '\n' ∉ line.toList) :
    linesOf? (lines.foldl (fun text line => text ++ line ++ "\n") "") =
      some (lines.map String.toList) := by
  have apart : ∀ piece ∈ lines.map String.toList ++ [[]], '\n' ∉ piece := by
    intro piece mem
    rcases List.mem_append.mp mem with mem | mem
    · obtain ⟨line, held, rfl⟩ := List.mem_map.mp mem
      exact whole line held
    · rw [List.mem_singleton.mp mem]
      exact List.not_mem_nil
  have pieces := List.splitOn_intercalate '\n' apart (by simp)
  rw [linesOf?, toList_foldl, String.toList_empty, List.nil_append, pieces, List.getLast?_concat,
    List.dropLast_concat, if_pos rfl]

/-! ## Entries -/

def positionEntry (x : Vertex) : Entry :=
  .position (coordinate x.position.x) (coordinate x.position.y) (coordinate x.position.z)

def textureEntry (x : Vertex) : Entry := .texture (coordinate x.u) (coordinate x.v)

def normalEntry (x : Vertex) : Entry :=
  .normal (coordinate x.normal.x) (coordinate x.normal.y) (coordinate x.normal.z)

/-- What a corner with an index refers to. -/
def referenceTo (i : UInt32) : Reference := ⟨(i + 1).toNat, (i + 1).toNat, (i + 1).toNat⟩

def faceOf (t : Triangle) : Face := ⟨referenceTo t.a, referenceTo t.b, referenceTo t.c⟩

/-- A line holds no line feed, and it is read as an entry. -/
structure Reads (line : String) (entry : Entry) : Prop where
  whole : '\n' ∉ line.toList
  isEntry : entry? line.toList = some entry

theorem reads_of_words {line : String} (words : List String) {entry : Entry}
    (written : line.toList = ofWords words) (solid : ∀ word ∈ words, Solid word.toList)
    (understood : entryOf? words = some entry) : Reads line entry := by
  refine ⟨written ▸ not_mem_ofWords solid, ?_⟩
  have held : words ≠ [] := by
    rintro rfl
    cases understood
  rw [written, entry?, wordsOf_ofWords held solid, understood]

theorem toString_text (text : String) : toString text = text := rfl

private theorem reads_header (m : Mesh) : Reads (header m) (.size m.vertexCount m.triangleCount) := by
  apply reads_of_words ["#", "arbor", "mesh:", toString m.vertexCount, "vertices,",
    toString m.triangleCount, "triangles"]
  · simp [header, toString_text, ofWords, List.intercalate_cons_cons]
  · simp only [List.forall_mem_cons, solid_toString]
    decide
  · simp only [entryOf?, natural_toString]
    rfl

private theorem reads_positionLine (x : Vertex) : Reads (positionLine x) (positionEntry x) := by
  apply reads_of_words ["v", coordinate x.position.x, coordinate x.position.y,
    coordinate x.position.z]
  · simp [positionLine, toString_text, ofWords, List.intercalate_cons_cons]
  · simp only [List.forall_mem_cons, solid_coordinate]
    decide
  · rfl

private theorem reads_textureLine (x : Vertex) : Reads (textureLine x) (textureEntry x) := by
  apply reads_of_words ["vt", coordinate x.u, coordinate x.v]
  · simp [textureLine, toString_text, ofWords, List.intercalate_cons_cons]
  · simp only [List.forall_mem_cons, solid_coordinate]
    decide
  · rfl

private theorem reads_normalLine (x : Vertex) : Reads (normalLine x) (normalEntry x) := by
  apply reads_of_words ["vn", coordinate x.normal.x, coordinate x.normal.y, coordinate x.normal.z]
  · simp [normalLine, toString_text, ofWords, List.intercalate_cons_cons]
  · simp only [List.forall_mem_cons, solid_coordinate]
    decide
  · rfl

private theorem reads_faceLine (t : Triangle) : Reads (faceLine t) (.face (faceOf t)) := by
  apply reads_of_words ["f", corner t.a, corner t.b, corner t.c]
  · simp [faceLine, toString_text, ofWords, List.intercalate_cons_cons]
  · simp only [List.forall_mem_cons, solid_corner]
    decide
  · simp only [entryOf?, reference_corner]
    rfl

/-! ## The whole text -/

private theorem read_foldl {lines : List String} {entries : List Entry}
    (reads : List.Forall₂ Reads lines entries) :
    read? (lines.foldl (fun text line => text ++ line ++ "\n") "") = some entries := by
  have whole : ∀ line ∈ lines, '\n' ∉ line.toList := by
    induction reads with
    | nil => exact List.forall_mem_nil _
    | cons first _ ih => exact List.forall_mem_cons.mpr ⟨first.whole, ih⟩
  have each : (lines.map String.toList).mapM entry? = some entries := by
    clear whole
    induction reads with
    | nil => rfl
    | cons first _ ih =>
      rw [List.map_cons, List.mapM_cons, first.isEntry, ih]
      rfl
  rw [read?, linesOf_foldl whole]
  exact each

private theorem forall₂_map {items : List α} {line : α → String} {entry : α → Entry}
    (reads : ∀ x, Reads (line x) (entry x)) :
    List.Forall₂ Reads (items.map line) (items.map entry) := by
  rw [List.forall₂_map_left_iff, List.forall₂_map_right_iff, List.forall₂_same]
  exact fun x _ => reads x

private theorem read_render (m : Mesh) : read? (render m) = some (.size m.vertexCount m.triangleCount ::
    (m.vertices.toList.map positionEntry ++ m.vertices.toList.map textureEntry ++
      m.vertices.toList.map normalEntry ++ (m.triangles.map faceOf).map .face)) := by
  apply read_foldl
  rw [List.map_map]
  exact .cons (reads_header m) (List.rel_append (List.rel_append (List.rel_append
    (forall₂_map reads_positionLine) (forall₂_map reads_textureLine)) (forall₂_map reads_normalLine))
    (forall₂_map reads_faceLine))

/-! ## Faces -/

private theorem corners_faceOf (triangles : List Triangle) :
    (triangles.map faceOf).flatMap Face.corners =
      (triangles.flatMap fun t => [t.a, t.b, t.c]).map referenceTo := by
  rw [List.flatMap_map, List.map_flatMap]
  rfl

/-- The text of a mesh whose vertices can be counted from one reads back as its size, its vertices in three
lists, and as many faces as it has triangles. Each corner refers to one vertex, and counted from zero the
corners are the indices of the complete triangles. -/
theorem text_reads_back (m : Mesh) (inRange : m.InRange) (few : m.vertexCount < UInt32.size - 1) :
    ∃ faces : List Face,
      read? (render m) = some (.size m.vertexCount m.triangleCount ::
        (m.vertices.toList.map positionEntry ++ m.vertices.toList.map textureEntry ++
          m.vertices.toList.map normalEntry ++ faces.map .face)) ∧
      faces.length = m.triangleCount ∧
      (∀ face ∈ faces, ∀ reference ∈ face.corners, reference.texture = reference.position ∧
        reference.normal = reference.position ∧ 1 ≤ reference.position ∧
        reference.position ≤ m.vertexCount) ∧
      (faces.flatMap Face.corners).map (fun reference => reference.position - 1) =
        (m.indices.toList.take (3 * m.triangleCount)).map UInt32.toNat := by
  have size : m.indices.toList.length / 3 = m.triangleCount := rfl
  have corners := corners_faceOf m.triangles
  rw [Mesh.triangles, corners_trianglesOf, size] at corners
  have counted (i : UInt32) (mem : i ∈ m.indices.toList) :
      (i + 1).toNat = i.toNat + 1 ∧ i.toNat < m.vertexCount := by
    have below := inRange i (Array.mem_toList_iff.mp mem)
    have fits : i.toNat + 1 < UInt32.size := by omega
    exact ⟨by rw [UInt32.toNat_add, UInt32.toNat_one, Nat.mod_eq_of_lt fits], below⟩
  refine ⟨m.triangles.map faceOf, read_render m, ?_, ?_, ?_⟩
  · rw [List.length_map, Mesh.triangles, length_trianglesOf, size]
  · intro face mem reference held
    have held := List.mem_flatMap.mpr ⟨face, mem, held⟩
    rw [Mesh.triangles, corners] at held
    obtain ⟨i, taken, rfl⟩ := List.mem_map.mp held
    obtain ⟨next, below⟩ := counted i (List.mem_of_mem_take taken)
    refine ⟨rfl, rfl, ?_⟩
    simp only [referenceTo, next]
    omega
  · rw [Mesh.triangles, corners, List.map_map]
    refine List.map_congr_left fun i taken => ?_
    obtain ⟨next, -⟩ := counted i (List.mem_of_mem_take taken)
    simp only [Function.comp_apply, referenceTo, next, Nat.add_sub_cancel]

/-- A leaf with an index too many. -/
def oddLeaf : Mesh := { leafQuad with indices := leafQuad.indices.push 7 }

theorem oddLeaf_reads_back :
    oddLeaf.InRange ∧ oddLeaf.vertexCount < UInt32.size - 1 ∧
    ∃ faces : List Face,
      read? (render oddLeaf) = some (.size 8 4 ::
        (oddLeaf.vertices.toList.map positionEntry ++ oddLeaf.vertices.toList.map textureEntry ++
          oddLeaf.vertices.toList.map normalEntry ++ faces.map .face)) ∧
      faces.length = 4 ∧
      (faces.flatMap Face.corners).map (fun reference => reference.position - 1) =
        [0, 1, 2, 2, 3, 0, 4, 6, 5, 6, 4, 7] := by
  have inRange : oddLeaf.InRange := by
    have all : oddLeaf.indices.toList.all fun i => i.toNat < oddLeaf.vertexCount := by decide +kernel
    intro i mem
    exact of_decide_eq_true (List.all_eq_true.mp all i (Array.mem_toList_iff.mpr mem))
  have few : oddLeaf.vertexCount < UInt32.size - 1 := by decide +kernel
  obtain ⟨faces, read, length, -, indices⟩ := text_reads_back oddLeaf inRange few
  exact ⟨inRange, few, faces, read, length, indices⟩

end Obj

end Sapling
