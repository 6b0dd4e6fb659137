import Mathlib.Order.Bounds.Lattice
import Sapling.Proofs.Turtle.Tidying

/-! What the statistics of a drawing say about its word. The ends of branches that have no beginning are as many
as the ends that some beginning of the word has too many, and the branches that the end of the word closes are
what is then left of the beginnings. -/
namespace Sapling

open Sapling.Random

namespace Brackets

/-- By how much the ends of branches in a word outnumber the beginnings. -/
def excess (word : Word) : Nat := word.count ']' - word.count '['

/-- The beginnings of a word, the word itself among them. -/
def fronts (word : Word) : Set Word := {front | front <+: word}

private theorem fronts_concat (word : Word) (c : Char) :
    fronts (word ++ [c]) = insert (word ++ [c]) (fronts word) :=
  Set.ext fun _ => List.prefix_concat_iff

/-- The ends that are passed over make up for the greatest excess on the way. -/
theorem exists_isGreatest_excess (word : Word) : ∃ most, IsGreatest (excess '' fronts word) most ∧
    most + word.count '[' = openAfter word + word.count ']' := by
  induction word using List.reverseRecOn with
  | nil =>
    refine ⟨0, ⟨⟨[], List.nil_prefix, rfl⟩, ?_⟩, rfl⟩
    rintro _ ⟨front, within, rfl⟩
    rw [List.prefix_nil.mp within]
    exact Nat.le_refl 0
  | append_singleton word c ih =>
    obtain ⟨most, greatest, counted⟩ := ih
    refine ⟨max (excess (word ++ [c])) most, ?_, ?_⟩
    · rw [fronts_concat, Set.image_insert_eq]
      exact greatest.insert _
    · rw [openAfter_concat, excess, List.count_append, List.count_append]
      by_cases isOpen : c = '['
      · subst isOpen
        simp [nest_open]
        omega
      · by_cases isClose : c = ']'
        · subst isClose
          simp [nest_close]
          omega
        · simp [nest_other ⟨isOpen, isClose⟩, isOpen, isClose]
          omega

end Brackets

namespace Skeleton

private theorem endBranch_anchors_size (settings : TurtleSettings) (base : Float32) (pose : Pose)
    (skeleton : Skeleton) :
    (skeleton.endBranch settings base pose).anchors.size ≤ skeleton.anchors.size + 1 := by
  unfold endBranch
  split
  · exact Nat.le_of_eq (Array.size_push ..)
  · exact Nat.le_succ _

end Skeleton

namespace Taper

private theorem size_thicken (taper : Taper) (origin : Vec3) (maxHeight : Float32) (segments : Array Segment) :
    (taper.thicken origin maxHeight segments).size = segments.size := by
  unfold thicken
  split <;> simp

end Taper

namespace Walk

variable {settings : TurtleSettings} {base : Float32}

/-- Each branch that is open or has left an anchor has a beginning of its own among so many. -/
def Anchored (begun : Nat) (walk : Walk) : Prop :=
  walk.skeleton.anchors.size + walk.saved.length ≤ begun

private theorem Anchored.ends {begun : Nat} {walk : Walk} {front : Pose} {rest : List Pose}
    (anchored : Anchored begun walk) (stack : walk.saved = front :: rest) :
    (walk.skeleton.endBranch settings base walk.pose).anchors.size + rest.length ≤ begun := by
  have more := walk.skeleton.endBranch_anchors_size settings base walk.pose
  unfold Anchored at anchored
  rw [stack, List.length_cons] at anchored
  omega

private theorem Anchored.read {word : Word} {c : Char} {walk next : Walk}
    (anchored : Anchored (word.count '[') walk) (reads : Reads settings base walk c next) :
    Anchored ((word ++ [c]).count '[') next := by
  have grown : word.count '[' ≤ (word ++ [c]).count '[' := by simp
  cases reads with
  | opens =>
    unfold Anchored at *
    simp
    omega
  | closes stack => exact Nat.le_trans (anchored.ends stack) grown
  | passes => exact Nat.le_trans anchored grown
  | ignores => exact Nat.le_trans anchored grown
  | skips => exact Nat.le_trans anchored grown
  | steps => exact Nat.le_trans anchored grown
  | turns => exact Nat.le_trans anchored grown

private theorem anchored_follow (settings : TurtleSettings) (base : Float32) (word : Word) (origin : Transform)
    (source : Generator) :
    Anchored (word.count '[') (follow settings base word (.start origin) source).1 := by
  induction word using List.reverseRecOn with
  | nil => exact Nat.le_refl 0
  | append_singleton word c ih =>
    rw [follow_concat]
    exact ih.read (reads ..)

private theorem Anchored.closeAll (settings : TurtleSettings) (base : Float32) {begun : Nat} {walk : Walk}
    (anchored : Anchored begun walk) :
    (walk.closeAll settings base).skeleton.anchors.size ≤ begun := by
  obtain ⟨anchored, closed⟩ := closeAll_induction settings base anchored
    fun _ _ _ stack anchored => anchored.ends stack
  rwa [Anchored, closed] at anchored

end Walk

namespace TurtleSettings

/-- The statistics of a drawing follow from its word, whatever the settings and the random words: the number of
its symbols; the steps, taken or skipped; the symbols that mean nothing; the ends of branches without a
beginning, which are the greatest number by which ends outnumber beginnings so far; and the branches that
are open at the end of the word. Segments and anchors are counted as they are drawn, and no branch leaves
more than one anchor. -/
theorem statistics_of_word (settings : TurtleSettings) (word : Word) (origin : Transform)
    (source : Generator) :
    let drawing := ((settings.interpret word origin).run source).1
    let stats := drawing.stats
    stats.symbols = word.length ∧
    stats.segments + stats.skippedSegments = word.count 'F' ∧
    stats.ignoredSymbols = word.countP (· ∉ Brackets.symbols) ∧
    IsGreatest (Brackets.excess '' Brackets.fronts word) stats.unmatchedPops ∧
    (stats.implicitCloses : Int) = word.count '[' - word.count ']' + stats.unmatchedPops ∧
    stats.segments = drawing.segments.size ∧ stats.anchors = drawing.anchors.size ∧
    stats.anchors ≤ word.count '[' := by
  intro drawing stats
  have counted := Walk.counted_follow settings origin.position.y word origin source
  have anchored := Walk.anchored_follow settings origin.position.y word origin source
  have drawn : drawing = ((Walk.follow settings origin.position.y word (.start origin) source).1.closeAll
      settings origin.position.y).finish settings origin.position :=
    congrArg Prod.fst (settings.interpret_run word origin source)
  generalize (Walk.follow settings origin.position.y word (.start origin) source).1 = walk at *
  have closing := Walk.closing_closeAll settings origin.position.y walk
  have closed := Walk.saved_closeAll settings origin.position.y walk
  have anchors := anchored.closeAll settings origin.position.y
  generalize walk.closeAll settings origin.position.y = last at *
  obtain ⟨most, greatest, passed⟩ := Brackets.exists_isGreatest_excess word
  have ignored : walk.ignored = word.countP (· ∉ Brackets.symbols) := by
    rw [counted.ignored]
    refine List.countP_congr fun c _ => ?_
    simp [Brackets.mem_symbols_iff]
  have balance : most = walk.unmatched ∧ walk.unmatched + word.count '[' =
      walk.saved.length + word.count ']' := by
    have ends := counted.unmatched
    rw [counted.opened] at ends ⊢
    omega
  have implicit : last.implicit = walk.saved.length := by
    have ends := closing.implicit
    rwa [closed, counted.implicit, List.length_nil, Nat.add_zero, Nat.zero_add] at ends
  have segments : drawing.segments.size = last.skeleton.segments.size := by
    rw [drawn]
    exact Taper.size_thicken ..
  have statistics : stats = last.stats := congrArg Interpretation.stats drawn
  have leaves : drawing.anchors = last.skeleton.anchors := congrArg Interpretation.anchors drawn
  rw [statistics, segments, leaves]
  simp only [Walk.stats, closing.symbols, closing.segments, closing.skipped, closing.ignored,
    closing.unmatched, implicit]
  refine ⟨counted.symbols, counted.steps, ignored, balance.1 ▸ greatest, ?_, trivial, trivial, anchors⟩
  omega

end TurtleSettings


end Sapling
