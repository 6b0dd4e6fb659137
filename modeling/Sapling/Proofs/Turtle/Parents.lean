import Mathlib.Data.Nat.Count
import Sapling.Proofs.Scalar.Level
import Sapling.Proofs.Turtle.Counts

/-! The skeleton is a tree, and the word says which. The parent of a step is the last step before it whose
branch is still open, among those that were not skipped; neither lengths nor angles have a say. The stack
of the turtle holds, for each number of open branches, the tip of the last such step. -/
namespace Sapling

open Sapling.Random

namespace Brackets

/-! ## Parents -/

/-- The last number below a bound that passes a test. -/
def lastBelow (test : Nat → Bool) : Nat → Option Nat
  | 0 => none
  | n + 1 => if test n then some n else lastBelow test n

private theorem lastBelow_congr {test other : Nat → Bool} {bound : Nat}
    (same : ∀ n < bound, test n = other n) : lastBelow test bound = lastBelow other bound := by
  induction bound with
  | zero => rfl
  | succ bound ih =>
    simp only [lastBelow, same bound (Nat.lt_succ_self bound)]
    rw [ih fun n below => same n (Nat.lt_succ_of_lt below)]

private theorem lastBelow_some {test : Nat → Bool} {bound n : Nat} (found : lastBelow test bound = some n) :
    n < bound ∧ test n = true := by
  induction bound with
  | zero => cases found
  | succ bound ih =>
    by_cases passes : test bound = true
    · simp only [lastBelow, passes, if_true, Option.some.injEq] at found
      exact found ▸ ⟨Nat.lt_succ_self bound, passes⟩
    · simp only [lastBelow, passes, if_false, Bool.false_eq_true] at found
      exact ⟨Nat.lt_succ_of_lt (ih found).1, (ih found).2⟩

/-- Between two places of a word no branch ends that is open at the first. -/
def StillOpen (word : Word) (earlier later : Nat) : Prop :=
  ∀ place ≤ later, earlier ≤ place → openAfter (word.take earlier) ≤ openAfter (word.take place)

instance (word : Word) (earlier later : Nat) : Decidable (StillOpen word earlier later) :=
  inferInstanceAs (Decidable (∀ place ≤ later, _ → _))

/-- The parent of the step at a place of a word, of which these steps are kept: the last one before it
whose branch is still open. -/
def parent? (word : Word) (kept : Nat → Bool) (place : Nat) : Option Nat :=
  lastBelow (fun earlier => kept earlier && decide (StillOpen word earlier place)) place

/-- The last step before a place whose branch is still open, among those with at most so many branches
open around them. -/
def standing? (word : Word) (kept : Nat → Bool) (level place : Nat) : Option Nat :=
  lastBelow (fun earlier => kept earlier && (decide (openAfter (word.take earlier) ≤ level) &&
    decide (StillOpen word earlier place))) place

variable {word : Word} {kept : Nat → Bool} {level place : Nat}

private theorem parent_some {earlier : Nat} (found : parent? word kept place = some earlier) :
    earlier < place ∧ kept earlier = true := by
  obtain ⟨before, passes⟩ := lastBelow_some found
  exact ⟨before, (Bool.and_eq_true_iff.mp passes).1⟩

private theorem stillOpen_succ {earlier : Nat} (before : earlier ≤ place) :
    StillOpen word earlier (place + 1) ↔
      StillOpen word earlier place ∧
        openAfter (word.take earlier) ≤ openAfter (word.take (place + 1)) := by
  constructor
  · exact fun lasts => ⟨fun p below => lasts p (Nat.le_succ_of_le below),
      lasts (place + 1) (Nat.le_refl _) (Nat.le_succ_of_le before)⟩
  · rintro ⟨lasts, last⟩ p below above
    rcases Nat.le_or_eq_of_le_succ below with inside | rfl
    · exact lasts p inside above
    · exact last

/-- The turtle is where the last step that counts at the present level has led it. -/
theorem parent_eq_standing (high : openAfter (word.take place) ≤ level) :
    parent? word kept place = standing? word kept level place := by
  refine lastBelow_congr fun earlier before => ?_
  by_cases lasts : StillOpen word earlier place
  · have inside := Nat.le_trans (lasts place (Nat.le_refl _) (Nat.le_of_lt before)) high
    simp [lasts, inside]
  · simp [lasts]

/-- One more symbol does not change what has led to a level that stays open, unless it is a step of that
level. -/
theorem standing_succ (low : level ≤ openAfter (word.take (place + 1)))
    (other : kept place = false ∨ level < openAfter (word.take place)) :
    standing? word kept level (place + 1) = standing? word kept level place := by
  have passed : (kept place && (decide (openAfter (word.take place) ≤ level) &&
      decide (StillOpen word place (place + 1)))) = false := by
    rcases other with skipped | above
    · simp [skipped]
    · simp [Nat.not_le.mpr above]
  simp only [standing?, lastBelow, passed, Bool.false_eq_true, if_false]
  refine lastBelow_congr fun earlier before => ?_
  by_cases inside : openAfter (word.take earlier) ≤ level
  · simp [stillOpen_succ (Nat.le_of_lt before), Nat.le_trans inside low]
  · simp [inside]

/-- After a step that is kept the turtle is where this step has led it. -/
theorem parent_of_kept (keeps : kept place = true)
    (same : openAfter (word.take (place + 1)) = openAfter (word.take place)) :
    parent? word kept (place + 1) = some place := by
  have lasts : StillOpen word place (place + 1) := by
    refine (stillOpen_succ (Nat.le_refl _)).mpr ⟨?_, Nat.le_of_eq same.symm⟩
    intro p below above
    rw [Nat.le_antisymm below above]
  simp [parent?, lastBelow, keeps, lasts]

private theorem openAfter_take_succ {c : Char} (found : word[place]? = some c) :
    openAfter (word.take (place + 1)) = nest (openAfter (word.take place)) c := by
  rw [List.take_add_one, found]
  exact openAfter_concat ..

end Brackets

/-! ## Tips -/

/-- A point is the tip of the segment that a step has left behind, or the origin if there is no step. The
segments are in the order of the steps that are kept. -/
def TipOf (kept : Nat → Bool) (origin : Vec3) (segments : Array Segment) (point : Vec3) :
    Option Nat → Prop
  | none => point = origin
  | some place => kept place = true ∧
    ∃ segment, segments[Nat.count (kept · = true) place]? = some segment ∧ point = segment.tip

/-- A point is the origin or the tip of a segment. -/
def OnTree (origin : Vec3) (segments : Array Segment) (point : Vec3) : Prop :=
  point = origin ∨ ∃ segment ∈ segments, point = segment.tip

variable {kept : Nat → Bool} {origin point : Vec3} {segments : Array Segment}

private theorem TipOf.onTree {step : Option Nat} (tip : TipOf kept origin segments point step) :
    OnTree origin segments point := by
  cases step with
  | none => exact .inl tip
  | some place =>
    obtain ⟨-, segment, found, same⟩ := tip
    exact .inr ⟨segment, Array.mem_of_getElem? found, same⟩

private theorem getElem?_push_of_some {i : Nat} {segment more : Segment} (found : segments[i]? = some segment) :
    (segments.push more)[i]? = some segment := by
  obtain ⟨inside, -⟩ := Array.getElem?_eq_some_iff.mp found
  rwa [Array.getElem?_push_lt inside, ← Array.getElem?_eq_getElem inside]

private theorem TipOf.push {step : Option Nat} (tip : TipOf kept origin segments point step) (more : Segment) :
    TipOf kept origin (segments.push more) point step := by
  cases step with
  | none => exact tip
  | some place =>
    obtain ⟨keeps, segment, found, same⟩ := tip
    exact ⟨keeps, segment, getElem?_push_of_some found, same⟩

private theorem OnTree.push (on : OnTree origin segments point) (more : Segment) :
    OnTree origin (segments.push more) point := by
  rcases on with same | ⟨segment, member, same⟩
  · exact .inl same
  · exact .inr ⟨segment, Array.mem_push.mpr (.inl member), same⟩

/-- The greatest of the heights of the origin and all tips, if all of them are numbers. -/
structure Peak (ground : Float32) (segments : Array Segment) (height : Float32) : Prop where
  reached : height = ground ∨ ∃ segment ∈ segments, height = segment.tip.y
  highest : ground.isNaN = false → (∀ segment ∈ segments, segment.tip.y.isNaN = false) →
    ground ≤ height ∧ ∀ segment ∈ segments, segment.tip.y ≤ height

private theorem Peak.push {ground height : Float32} (peak : Peak ground segments height) (more : Segment) :
    Peak ground (segments.push more) (Scalar.max height more.tip.y) := by
  obtain ⟨reached, highest⟩ := peak
  constructor
  · unfold Scalar.max
    split
    · exact .inr ⟨more, Array.mem_push_self, rfl⟩
    · rcases reached with same | ⟨segment, member, same⟩
      · exact .inl same
      · exact .inr ⟨segment, Array.mem_push.mpr (.inl member), same⟩
  · intro level numbers
    obtain ⟨first, others⟩ := highest level fun segment member =>
      numbers segment (Array.mem_push.mpr (.inl member))
    have isNumber := (Scalar.le_iff.mp first).2.1
    obtain ⟨old, new⟩ := Scalar.both_le_max isNumber (numbers more Array.mem_push_self)
    refine ⟨Scalar.le_trans first old, fun segment member => ?_⟩
    rcases Array.mem_push.mp member with before | rfl
    · exact Scalar.le_trans (others segment before) old
    · exact new

/-! ## The walk -/

namespace Walk

/-- What is true of a turtle that has read the first `place` symbols of a word. -/
structure Rooted (word : Word) (kept : Nat → Bool) (origin : Vec3) (place : Nat) (walk : Walk) :
    Prop where
  size : walk.skeleton.segments.size = Nat.count (kept · = true) place
  depth : walk.saved.length = Brackets.openAfter (word.take place)
  pose : TipOf kept origin walk.skeleton.segments walk.pose.position (Brackets.parent? word kept place)
  saved : ∀ (level : Nat) (pose : Pose), walk.saved.reverse[level]? = some pose →
    TipOf kept origin walk.skeleton.segments pose.position (Brackets.standing? word kept level place)
  starts : ∀ (i : Nat) (segment : Segment), walk.skeleton.segments[i]? = some segment →
    segment.index = i ∧ ∃ step, kept step = true ∧ Nat.count (kept · = true) step = i ∧
      TipOf kept origin walk.skeleton.segments segment.start (Brackets.parent? word kept step)
  anchors : ∀ anchor ∈ walk.skeleton.anchors, OnTree origin walk.skeleton.segments anchor.position
  peak : Peak origin.y walk.skeleton.segments walk.skeleton.maxHeight

variable {settings : TurtleSettings} {base : Float32} {word : Word} {kept : Nat → Bool}
  {origin : Vec3} {place : Nat} {walk next : Walk} {c : Char}

private theorem Rooted.start (word : Word) (kept : Nat → Bool) (origin : Transform) :
    Rooted word kept origin.position 0 (.start origin) where
  size := (Nat.count_zero _).symm
  depth := rfl
  pose := rfl
  saved := nofun
  starts := nofun
  anchors := nofun
  peak := ⟨.inl rfl, fun level _ => ⟨Scalar.le_iff.mpr ⟨level, level, Int.le_refl _⟩, nofun⟩⟩

private theorem Rooted.saved_lt (rooted : Rooted word kept origin place walk) {level : Nat} {pose : Pose}
    (found : walk.saved.reverse[level]? = some pose) :
    level < Brackets.openAfter (word.take place) := by
  have inside := (List.getElem?_eq_some_iff.mp found).1
  rwa [List.length_reverse, rooted.depth] at inside

/-- A symbol that is no step leaves the tree as it is, and the poses on the stack with what has led to
them. -/
theorem Rooted.still (rooted : Rooted word kept origin place walk) (found : word[place]? = some c)
    (noStep : kept place = false)
    (segments : next.skeleton.segments = walk.skeleton.segments)
    (maxHeight : next.skeleton.maxHeight = walk.skeleton.maxHeight)
    (anchors : ∀ anchor ∈ next.skeleton.anchors,
      OnTree origin walk.skeleton.segments anchor.position)
    (depth : next.saved.length = Brackets.nest walk.saved.length c)
    (pose : TipOf kept origin walk.skeleton.segments next.pose.position
      (Brackets.standing? word kept next.saved.length place))
    (saved : ∀ (level : Nat) (pose : Pose), next.saved.reverse[level]? = some pose →
      TipOf kept origin walk.skeleton.segments pose.position
        (Brackets.standing? word kept level place)) :
    Rooted word kept origin (place + 1) next := by
  have deep : next.saved.length = Brackets.openAfter (word.take (place + 1)) := by
    rw [depth, rooted.depth, Brackets.openAfter_take_succ found]
  refine ⟨?_, deep, ?_, ?_, ?_, ?_, ?_⟩
  · rw [segments, rooted.size, Nat.count_succ, noStep]
    rfl
  · rw [segments, Brackets.parent_eq_standing (Nat.le_of_eq deep.symm),
      Brackets.standing_succ (Nat.le_of_eq deep) (.inl noStep)]
    exact pose
  · intro level front at'
    have inside := (List.getElem?_eq_some_iff.mp at').1
    rw [List.length_reverse, deep] at inside
    rw [segments, Brackets.standing_succ (Nat.le_of_lt inside) (.inl noStep)]
    exact saved level front at'
  · rw [segments]
    exact rooted.starts
  · rw [segments]
    exact anchors
  · rw [segments, maxHeight]
    exact rooted.peak

/-- The turtle stands where the last step of its own level has led it. -/
theorem Rooted.standing (rooted : Rooted word kept origin place walk) {level : Nat}
    (high : walk.saved.length ≤ level) :
    TipOf kept origin walk.skeleton.segments walk.pose.position
      (Brackets.standing? word kept level place) := by
  rw [← Brackets.parent_eq_standing (rooted.depth ▸ high)]
  exact rooted.pose

/-- A step that is taken begins where the turtle stands, and leads it to the tip of a new segment. -/
theorem Rooted.step (rooted : Rooted word kept origin place walk) (found : word[place]? = some 'F')
    (keeps : kept place = true) (control tip : Vec3) :
    Rooted word kept origin (place + 1) { walk with
      symbols := walk.symbols + 1
      pose := { walk.pose with position := tip }
      skeleton := { walk.skeleton with
        segments := walk.skeleton.segments.push
          ⟨walk.skeleton.segments.size, walk.pose.position, control, tip, 0⟩
        maxHeight := Scalar.max walk.skeleton.maxHeight tip.y } } := by
  have level : Brackets.openAfter (word.take (place + 1)) = Brackets.openAfter (word.take place) :=
    Brackets.openAfter_take_succ found
  refine ⟨?_, rooted.depth.trans level.symm, ?_, ?_, ?_, ?_, ?_⟩
  · simp only [Array.size_push, Nat.count_succ, keeps, rooted.size, if_true]
  · rw [Brackets.parent_of_kept keeps level]
    exact ⟨keeps, _, rooted.size ▸ Array.getElem?_push_size, rfl⟩
  · intro height front at'
    have inside := rooted.saved_lt at'
    rw [Brackets.standing_succ (level ▸ Nat.le_of_lt inside) (.inr inside)]
    exact (rooted.saved height front at').push _
  · intro i segment at'
    rw [Array.getElem?_push] at at'
    split at at'
    · rename_i last
      obtain rfl := Option.some.inj at'
      exact ⟨last.symm, place, keeps, rooted.size.symm.trans last.symm, rooted.pose.push _⟩
    · obtain ⟨index, step, kept, number, start⟩ := rooted.starts i segment at'
      exact ⟨index, step, kept, number, start.push _⟩
  · exact fun anchor member => (rooted.anchors anchor member).push _
  · exact rooted.peak.push _

/-- One symbol keeps the tree rooted. -/
theorem Rooted.read (rooted : Rooted word kept origin place walk) (found : word[place]? = some c)
    (keeps : kept place = decide (walk.skeleton.segments.size < next.skeleton.segments.size))
    (reads : Reads settings base walk c next) : Rooted word kept origin (place + 1) next := by
  cases reads with
  | opens =>
    refine rooted.still found (by simpa using keeps) rfl rfl rooted.anchors rfl
      (rooted.standing (Nat.le_succ _)) fun level pose at' => ?_
    rw [List.reverse_cons, List.getElem?_append] at at'
    split at at'
    · exact rooted.saved level pose at'
    · rename_i high
      rw [List.length_reverse] at high
      obtain rfl := List.mem_singleton.mp (List.mem_of_getElem? at')
      exact rooted.standing (Nat.le_of_not_lt high)
  | closes stack =>
    rename_i front rest
    have saved := rooted.saved
    rw [stack, List.reverse_cons] at saved
    refine rooted.still found (by simpa [Skeleton.endBranch_segments] using keeps)
      (Skeleton.endBranch_segments ..) (Skeleton.endBranch_maxHeight ..) ?_ (by rw [stack]; rfl) ?_ ?_
    · intro anchor member
      rcases Skeleton.mem_endBranch_anchors _ _ _ _ member with old | same
      · exact rooted.anchors anchor old
      · exact same ▸ rooted.pose.onTree
    · exact saved rest.length front (by simp)
    · intro level pose at'
      refine saved level pose ?_
      rw [List.getElem?_append_left (List.getElem?_eq_some_iff.mp at').1]
      exact at'
  | passes stack =>
    exact rooted.still found (by simpa using keeps) rfl rfl rooted.anchors (by rw [stack]; rfl)
      (rooted.standing (Nat.le_refl _)) rooted.saved
  | ignores meaning =>
    have notBracket := Command.not_bracket_of_ignored meaning
    exact rooted.still found (by simpa using keeps) rfl rfl rooted.anchors
      (Brackets.nest_other notBracket _).symm (rooted.standing (Nat.le_refl _)) rooted.saved
  | skips rare =>
    exact rooted.still found (by simpa using keeps) rfl rfl rooted.anchors rfl
      (rooted.standing (Nat.le_refl _)) rooted.saved
  | turns orientation known noStep notBracket =>
    exact rooted.still found (by simpa using keeps) rfl rfl rooted.anchors
      (Brackets.nest_other notBracket _).symm (rooted.standing (Nat.le_refl _)) rooted.saved
  | steps control tip => exact rooted.step found (by simpa using keeps) control tip

/-- The end of a word leaves the tree as it is, apart from the anchors of the branches that end there. -/
theorem Rooted.closeAll (settings : TurtleSettings) (base : Float32)
    (rooted : Rooted word kept origin place walk) :
    ∀ anchor ∈ (walk.closeAll settings base).skeleton.anchors,
      OnTree origin walk.skeleton.segments anchor.position := by
  let onTree := OnTree origin walk.skeleton.segments
  have before : (∀ pose ∈ walk.pose :: walk.saved, onTree pose.position) ∧
      ∀ anchor ∈ walk.skeleton.anchors, onTree anchor.position := by
    refine ⟨List.forall_mem_cons.mpr ⟨rooted.pose.onTree, fun pose member => ?_⟩, rooted.anchors⟩
    obtain ⟨level, at'⟩ := List.mem_iff_getElem?.mp (List.mem_reverse.mpr member)
    exact (rooted.saved level pose at').onTree
  refine (closeAll_induction settings base (P := fun walk =>
    (∀ pose ∈ walk.pose :: walk.saved, onTree pose.position) ∧
      ∀ anchor ∈ walk.skeleton.anchors, onTree anchor.position) before ?_).1.2
  rintro walk front rest stack ⟨poses, anchors⟩
  obtain ⟨here, others⟩ := List.forall_mem_cons.mp poses
  refine ⟨stack ▸ others, fun anchor member => ?_⟩
  rcases Skeleton.mem_endBranch_anchors _ _ _ _ member with old | same
  · exact anchors anchor old
  · exact same ▸ here

/-- The turtle and its generator after so many symbols of a word. -/
def after (settings : TurtleSettings) (word : Word) (origin : Transform) (source : Generator)
    (place : Nat) : Walk × Generator :=
  follow settings origin.position.y (word.take place) (.start origin) source

theorem after_succ (origin : Transform) (source : Generator) (found : word[place]? = some c) :
    after settings word origin source (place + 1) =
      (after settings word origin source place).1.read settings origin.position.y c
        (after settings word origin source place).2 := by
  rw [after, List.take_add_one, found]
  exact follow_concat ..

private theorem after_end (origin : Transform) (source : Generator) (beyond : word.length ≤ place) :
    after settings word origin source place =
      follow settings origin.position.y word (.start origin) source := by
  rw [after, List.take_of_length_le beyond]

/-- Only a step adds a segment, and it does so unless it is skipped. -/
theorem Reads.grows (reads : Reads settings base walk c next) :
    (walk.skeleton.segments.size < next.skeleton.segments.size → c = 'F') ∧
    (¬ settings.branchProbability < 1 → c = 'F' →
      walk.skeleton.segments.size < next.skeleton.segments.size) := by
  cases reads with
  | steps control tip => exact ⟨fun _ => rfl, fun _ _ => by simp⟩
  | skips rare => exact ⟨fun _ => rfl, fun certain => absurd rare certain⟩
  | closes stack => exact ⟨fun more => by simp [Skeleton.endBranch_segments] at more, nofun⟩
  | ignores meaning => exact ⟨fun more => by simp at more, by rintro - rfl; cases meaning⟩
  | turns orientation known noStep notBracket =>
    exact ⟨fun more => by simp at more, fun _ step => absurd step noStep⟩
  | _ => exact ⟨fun more => by simp at more, nofun⟩

end Walk

namespace Taper

/-- A segment but for its thickness. -/
def bare (segment : Segment) : Segment := { segment with thickness := 0 }

private theorem thicken_bare (taper : Taper) (origin : Vec3) (maxHeight : Float32) (segments : Array Segment) :
    (taper.thicken origin maxHeight segments).map bare = segments.map bare := by
  unfold thicken
  split
  · apply Array.ext
    · simp
    · intro i _ _
      simp only [Array.getElem_map, Array.getElem_modify]
      split <;> rfl
  · simp [bare, Function.comp_def]

end Taper

/-- Segments that differ in thickness at most. -/
structure SameShape (first second : Array Segment) : Prop where
  bare : first.map Taper.bare = second.map Taper.bare

namespace SameShape

variable {first second : Array Segment}

private theorem symm (same : SameShape first second) : SameShape second first := ⟨same.bare.symm⟩

private theorem size_eq (same : SameShape first second) : first.size = second.size := by
  simpa using congrArg Array.size same.bare

theorem found (same : SameShape first second) {i : Nat} {segment : Segment}
    (at' : first[i]? = some segment) :
    ∃ twin, second[i]? = some twin ∧ twin.index = segment.index ∧ twin.start = segment.start ∧
      twin.tip = segment.tip := by
  have entry := congrArg (·[i]?) same.bare
  simp only [Array.getElem?_map, at', Option.map_some] at entry
  obtain ⟨twin, found, bare⟩ := Option.map_eq_some_iff.mp entry.symm
  simp only [Taper.bare, Segment.mk.injEq] at bare
  exact ⟨twin, found, bare.1, bare.2.1, bare.2.2.2.1⟩

private theorem member (same : SameShape first second) {segment : Segment} (member : segment ∈ first) :
    ∃ twin ∈ second, twin.tip = segment.tip := by
  obtain ⟨i, at'⟩ := Array.mem_iff_getElem?.mp member
  obtain ⟨twin, found, -, -, tips⟩ := same.found at'
  exact ⟨twin, Array.mem_of_getElem? found, tips⟩

private theorem onTree (same : SameShape first second) (on : OnTree origin first point) :
    OnTree origin second point := by
  rcases on with root | ⟨segment, member, tip⟩
  · exact .inl root
  · obtain ⟨twin, member, tips⟩ := same.member member
    exact .inr ⟨twin, member, tip.trans tips.symm⟩

private theorem tipOf (same : SameShape first second) {step : Option Nat}
    (tip : TipOf kept origin first point step) : TipOf kept origin second point step := by
  cases step with
  | none => exact tip
  | some place =>
    obtain ⟨keeps, segment, at', point⟩ := tip
    obtain ⟨twin, found, -, -, tips⟩ := same.found at'
    exact ⟨keeps, twin, found, point.trans tips.symm⟩

private theorem peak {ground height : Float32} (same : SameShape first second)
    (peak : Peak ground first height) : Peak ground second height := by
  constructor
  · rcases peak.reached with root | ⟨segment, member, top⟩
    · exact .inl root
    · obtain ⟨twin, member, tips⟩ := same.member member
      exact .inr ⟨twin, member, tips ▸ top⟩
  · intro level numbers
    obtain ⟨root, others⟩ := peak.highest level fun segment member => by
      obtain ⟨twin, member, tips⟩ := same.member member
      exact tips ▸ numbers twin member
    refine ⟨root, fun segment member => ?_⟩
    obtain ⟨twin, member, tips⟩ := same.symm.member member
    exact tips ▸ others twin member

end SameShape

namespace TurtleSettings

/-- Whether the symbol at a place of a word is a step that is taken: one that leaves a segment. -/
def keeps (settings : TurtleSettings) (word : Word) (origin : Transform) (source : Generator)
    (place : Nat) : Bool :=
  (Walk.after settings word origin source place).1.skeleton.segments.size <
    (Walk.after settings word origin source (place + 1)).1.skeleton.segments.size

variable (settings : TurtleSettings) (word : Word) (origin : Transform) (source : Generator)

private theorem step_of_keeps {place : Nat} (kept : settings.keeps word origin source place = true) :
    word[place]? = some 'F' := by
  have more := of_decide_eq_true kept
  cases found : word[place]? with
  | none =>
    have beyond := List.getElem?_eq_none_iff.mp found
    rw [Walk.after_end _ _ beyond, Walk.after_end _ _ (Nat.le_succ_of_le beyond)] at more
    exact absurd more (Nat.lt_irrefl _)
  | some c =>
    rw [Walk.after_succ _ _ found] at more
    rw [(Walk.reads ..).grows.1 more]

private theorem keeps_iff (certain : ¬ settings.branchProbability < 1) (place : Nat) :
    settings.keeps word origin source place = true ↔ word[place]? = some 'F' := by
  refine ⟨step_of_keeps settings word origin source, fun found => decide_eq_true ?_⟩
  rw [Walk.after_succ _ _ found]
  exact (Walk.reads ..).grows.2 certain rfl

private theorem rooted_after {place : Nat} (inside : place ≤ word.length) :
    Walk.Rooted word (settings.keeps word origin source) origin.position place
      (Walk.after settings word origin source place).1 := by
  induction place with
  | zero => exact .start word _ origin
  | succ place ih =>
    have found : word[place]? = some word[place] := List.getElem?_eq_getElem inside
    have reads : Walk.Reads settings origin.position.y
        (Walk.after settings word origin source place).1 word[place]
        (Walk.after settings word origin source (place + 1)).1 := by
      rw [Walk.after_succ _ _ found]
      exact Walk.reads ..
    exact (ih (Nat.le_of_lt inside)).read found rfl reads

/-- The counts of a drawing whose steps are all taken. -/
theorem stats_of_certain (certain : ¬ settings.branchProbability < 1) :
    let drawn := ((settings.interpret word origin).run source).1
    drawn.stats = {
      symbols := word.length
      segments := word.count 'F'
      skippedSegments := 0
      ignoredSymbols := word.countP fun c => (Command.ofSymbol? c).isNone
      unmatchedPops := Brackets.openAfter word + word.count ']' - word.count '['
      implicitCloses := Brackets.openAfter word
      anchors := drawn.anchors.size } := by
  intro drawn
  have drawn_eq : drawn = _ := congrArg Prod.fst (settings.interpret_run word origin source)
  have counted := Walk.counted_follow settings origin.position.y word origin source
  generalize (Walk.follow settings origin.position.y word (.start origin) source).1 = walk at *
  have closing := Walk.closing_closeAll settings origin.position.y walk
  have nothingOpen := Walk.saved_closeAll settings origin.position.y walk
  obtain ⟨symbols, opened, ignored, unmatched, implicit, steps, unskipped⟩ := counted
  have implicit' := closing.implicit
  rw [nothingOpen, List.length_nil, implicit, opened] at implicit'
  have skipped := unskipped certain
  rw [skipped] at steps
  rw [opened] at unmatched
  rw [drawn_eq]
  simp only [Walk.finish, Walk.stats, closing.symbols, closing.segments, closing.skipped,
    closing.ignored, closing.unmatched, symbols, ignored, skipped, WalkStats.mk.injEq, true_and,
    and_true]
  omega

/-- A drawing shows the tree of the turtle that has read the whole word, with the anchors of the branches
that end there. -/
theorem drawn_rooted :
    let drawn := ((settings.interpret word origin).run source).1
    ∃ walk, Walk.Rooted word (settings.keeps word origin source) origin.position word.length walk ∧
      SameShape drawn.segments walk.skeleton.segments ∧
      drawn.maxHeight = walk.skeleton.maxHeight ∧
      ∀ anchor ∈ drawn.anchors, OnTree origin.position walk.skeleton.segments anchor.position := by
  intro drawn
  have drawn_eq : drawn = _ := congrArg Prod.fst (settings.interpret_run word origin source)
  have rooted := settings.rooted_after word origin source (Nat.le_refl word.length)
  rw [Walk.after_end origin source (Nat.le_refl _)] at rooted
  generalize (Walk.follow settings origin.position.y word (.start origin) source).1 = walk at *
  have closing := Walk.closing_closeAll settings origin.position.y walk
  refine ⟨walk, rooted, ⟨?_⟩, ?_, ?_⟩
  · rw [drawn_eq, ← closing.segments]
    exact Taper.thicken_bare ..
  · rw [drawn_eq]
    exact closing.maxHeight
  · rw [drawn_eq]
    exact rooted.closeAll settings origin.position.y

/-- The skeleton is a tree that the word determines, once it is known which of its steps are taken. The
segments are those of the taken steps, in order. Each begins where the segment of its parent ends, to the
bit, or at the origin if it has none; anchors are where segments end or the tree begins; the height is the
greatest one reached. Where every step is taken, neither the random words nor the origin have a say in the
shape of the tree, or in any count but that of the anchors. -/
theorem skeleton_is_tree (settings : TurtleSettings) (word : Word) (origin : Transform)
    (source : Generator) :
    let drawn := ((settings.interpret word origin).run source).1
    let kept := settings.keeps word origin source
    (∀ place, kept place = true → word[place]? = some 'F') ∧
    drawn.segments.size = Nat.count (kept · = true) word.length ∧
    (∀ (i : Nat) (segment : Segment), drawn.segments[i]? = some segment → segment.index = i ∧
      ∃ place, kept place = true ∧ Nat.count (kept · = true) place = i ∧
        match Brackets.parent? word kept place with
        | none => segment.start = origin.position
        | some earlier => earlier < place ∧ kept earlier = true ∧
          ∃ parent, drawn.segments[Nat.count (kept · = true) earlier]? = some parent ∧
            segment.start = parent.tip) ∧
    (∀ anchor ∈ drawn.anchors, anchor.position = origin.position ∨
      ∃ segment ∈ drawn.segments, anchor.position = segment.tip) ∧
    (origin.position.y.isNaN = false → (∀ segment ∈ drawn.segments, segment.tip.y.isNaN = false) →
      (drawn.maxHeight = origin.position.y ∨
        ∃ segment ∈ drawn.segments, drawn.maxHeight = segment.tip.y) ∧
      origin.position.y ≤ drawn.maxHeight ∧
      ∀ segment ∈ drawn.segments, segment.tip.y ≤ drawn.maxHeight) ∧
    (settings.branchProbability = 1 →
      (∀ place, kept place = true ↔ word[place]? = some 'F') ∧
      ∀ (origin' : Transform) (source' : Generator),
        let other := ((settings.interpret word origin').run source').1
        other.segments.size = drawn.segments.size ∧
        (∀ place, Brackets.parent? word (settings.keeps word origin' source') place =
          Brackets.parent? word kept place) ∧
        { other.stats with anchors := drawn.stats.anchors } = drawn.stats) := by
  intro drawn kept
  obtain ⟨walk, rooted, same, maxHeight, anchors⟩ := settings.drawn_rooted word origin source
  have size (origin' : Transform) (source' : Generator) :
      ((settings.interpret word origin').run source').1.segments.size =
        Nat.count (settings.keeps word origin' source' · = true) word.length := by
    obtain ⟨walk, rooted, same, -⟩ := settings.drawn_rooted word origin' source'
    exact same.size_eq.trans rooted.size
  refine ⟨fun place => step_of_keeps settings word origin source, size origin source, ?_,
    fun anchor member => same.symm.onTree (anchors anchor member), ?_, ?_⟩
  · intro i segment at'
    obtain ⟨twin, found, index, start, -⟩ := same.found at'
    obtain ⟨number, place, keeps, order, tip⟩ := rooted.starts i twin found
    refine ⟨index ▸ number, place, keeps, order, ?_⟩
    have begins := start ▸ same.symm.tipOf tip
    cases parent : Brackets.parent? word kept place with
    | none =>
      rw [parent] at begins
      exact begins
    | some earlier =>
      rw [parent] at begins
      exact ⟨(Brackets.parent_some parent).1, begins⟩
  · intro level numbers
    have peak := same.symm.peak rooted.peak
    rw [maxHeight]
    exact ⟨peak.reached, peak.highest level numbers⟩
  · intro always
    have certain : ¬ settings.branchProbability < 1 := always ▸ Scalar.lt_irrefl 1
    refine ⟨settings.keeps_iff word origin source certain, fun origin' source' => ?_⟩
    have keeps : settings.keeps word origin' source' = kept := funext fun place =>
      Bool.eq_iff_iff.mpr ((settings.keeps_iff word origin' source' certain place).trans
        (settings.keeps_iff word origin source certain place).symm)
    refine ⟨?_, fun place => by rw [keeps], ?_⟩
    · rw [size, size, keeps]
    · rw [settings.stats_of_certain word origin' source' certain,
        settings.stats_of_certain word origin source certain]

/-- In a twig with a side branch and an end too many the last step goes on from the first. -/
theorem skeleton_of_twig_is_tree :
    let settings : TurtleSettings := {}
    let word := "F[F]]F".toList
    let drawn := ((settings.interpret word .identity).run (.ofSeed 7)).1
    let other := ((settings.interpret word .identity).run (.ofSeed 8)).1
    let kept := settings.keeps word .identity (.ofSeed 7)
    settings.branchProbability = 1 ∧ Transform.identity.position.y.isNaN = false ∧
    (∀ segment ∈ drawn.segments, segment.tip.y.isNaN = false) ∧
    (∀ segment ∈ drawn.segments, segment.tip.y ≤ drawn.maxHeight) ∧
    kept 5 = true ∧ Brackets.parent? word kept 5 = some 0 ∧
    other.segments.size = drawn.segments.size := by
  intro settings word drawn other kept
  have always : settings.branchProbability = 1 := by decide +kernel
  have ground : Transform.identity.position.y.isNaN = false := by decide +kernel
  have numbers : ∀ segment ∈ drawn.segments, segment.tip.y.isNaN = false := by decide +kernel
  have parent : Brackets.parent? word kept 5 = some 0 := by decide +kernel
  obtain ⟨-, -, -, -, heights, certain⟩ :=
    skeleton_is_tree settings word .identity (.ofSeed 7)
  obtain ⟨-, -, highest⟩ := heights ground numbers
  obtain ⟨steps, others⟩ := certain always
  obtain ⟨size, -, -⟩ := others .identity (.ofSeed 8)
  have step : word[5]? = some 'F' := by decide
  exact ⟨always, ground, numbers, highest, (steps 5).mpr step, parent, size⟩

end TurtleSettings


end Sapling
