import Mathlib.Data.List.Basic
import Mathlib.Data.List.Induction
import Sapling.Proofs.Turtle.Steps

/-! What the turtle counts on its way depends on the word alone, apart from how the steps of the word are
divided into those that are taken and those that are skipped. -/
namespace Sapling

open Sapling.Random

namespace Brackets

/-- One more symbol opens or closes a bracket, or neither. -/
theorem openAfter_concat (word : Word) (c : Char) :
    openAfter (word ++ [c]) = nest (openAfter word) c := List.foldl_concat ..

private theorem openAfter_concat_other {c : Char} (notBracket : c ≠ '[' ∧ c ≠ ']') (word : Word) :
    openAfter (word ++ [c]) = openAfter word :=
  (openAfter_concat word c).trans (nest_other notBracket _)

end Brackets

namespace Skeleton

variable (settings : TurtleSettings) (base : Float32) (pose : Pose) (skeleton : Skeleton)

/-- Ending a branch adds no segment. -/
theorem endBranch_segments :
    (skeleton.endBranch settings base pose).segments = skeleton.segments := by
  unfold endBranch
  split <;> rfl

theorem endBranch_maxHeight :
    (skeleton.endBranch settings base pose).maxHeight = skeleton.maxHeight := by
  unfold endBranch
  split <;> rfl

private theorem endBranch_skipped :
    (skeleton.endBranch settings base pose).skipped = skeleton.skipped := by
  unfold endBranch
  split <;> rfl

/-- The end of a branch adds at most an anchor, and that at the tip of the branch. -/
theorem mem_endBranch_anchors {anchor : Anchor}
    (member : anchor ∈ (skeleton.endBranch settings base pose).anchors) :
    anchor ∈ skeleton.anchors ∨ anchor.position = pose.position := by
  unfold endBranch at member
  split at member
  · rcases Array.mem_push.mp member with old | rfl
    · exact .inl old
    · exact .inr rfl
  · exact .inl member

end Skeleton

namespace Walk

variable {settings : TurtleSettings} {base : Float32}

/-- The counts of a turtle that has read a word: how many branches are open, and how many symbols of each
kind there were. Each end of a branch either ended one or had no beginning. -/
structure Counted (settings : TurtleSettings) (word : Word) (walk : Walk) : Prop where
  symbols : walk.symbols = word.length
  opened : walk.saved.length = Brackets.openAfter word
  ignored : walk.ignored = word.countP fun c => (Command.ofSymbol? c).isNone
  unmatched : walk.unmatched + word.count '[' = walk.saved.length + word.count ']'
  implicit : walk.implicit = 0
  steps : walk.skeleton.segments.size + walk.skeleton.skipped = word.count 'F'
  certain : ¬ settings.branchProbability < 1 → walk.skeleton.skipped = 0

private theorem Counted.start (settings : TurtleSettings) (origin : Transform) :
    Counted settings [] (.start origin) := ⟨rfl, rfl, rfl, rfl, rfl, rfl, fun _ => rfl⟩

private theorem Counted.read {word : Word} {walk next : Walk} (counted : Counted settings word walk)
    (reads : Reads settings base walk c next) : Counted settings (word ++ [c]) next := by
  obtain ⟨symbols, opened, ignored, unmatched, implicit, steps, certain⟩ := counted
  cases reads with
  | opens =>
    refine ⟨by simp [symbols], ?_, by simp [ignored, Command.ofSymbol?], ?_, implicit,
      by simp [steps], certain⟩
    · simp [Brackets.openAfter_concat, Brackets.nest_open, opened]
    · simp
      omega
  | closes stack =>
    rw [stack, List.length_cons] at opened unmatched
    refine ⟨by simp [symbols], ?_, by simp [ignored, Command.ofSymbol?], ?_, implicit, ?_, ?_⟩
    · simp [Brackets.openAfter_concat, Brackets.nest_close, ← opened]
    · simp
      omega
    · simp [Skeleton.endBranch_segments, Skeleton.endBranch_skipped, steps]
    · simpa only [Skeleton.endBranch_skipped] using certain
  | passes stack =>
    rw [stack, List.length_nil] at opened unmatched
    refine ⟨by simp [symbols], ?_, by simp [ignored, Command.ofSymbol?], ?_, implicit,
      by simp [steps], certain⟩
    · simp [Brackets.openAfter_concat, Brackets.nest_close, ← opened, stack]
    · simp [stack]
      omega
  | ignores meaning =>
    have notBracket := Command.not_bracket_of_ignored meaning
    have noStep : c ≠ 'F' := by
      rintro rfl
      cases meaning
    refine ⟨by simp [symbols], ?_, by simp [ignored, meaning], ?_, implicit, ?_, certain⟩
    · rw [Brackets.openAfter_concat_other notBracket, opened]
    · simpa [List.count_singleton, notBracket] using unmatched
    · simpa [List.count_singleton, noStep] using steps
  | skips rare =>
    refine ⟨by simp [symbols], ?_, by simp [ignored, Command.ofSymbol?], by simpa using unmatched,
      implicit, ?_, fun always => absurd rare always⟩
    · rw [Brackets.openAfter_concat_other (by decide), opened]
    · simp [← steps, Nat.add_assoc]
  | steps control tip =>
    refine ⟨by simp [symbols], ?_, by simp [ignored, Command.ofSymbol?], by simpa using unmatched,
      implicit, ?_, certain⟩
    · rw [Brackets.openAfter_concat_other (by decide), opened]
    · simp [← steps, Nat.add_right_comm]
  | turns orientation known noStep notBracket =>
    refine ⟨by simp [symbols], ?_, ?_, ?_, implicit, ?_, certain⟩
    · rw [Brackets.openAfter_concat_other notBracket, opened]
    · simpa [List.countP_append, List.countP_singleton, Option.isNone_iff_eq_none,
        Option.isSome_iff_ne_none.mp known] using ignored
    · simpa [List.count_singleton, notBracket] using unmatched
    · simpa [List.count_singleton, noStep] using steps

variable (settings base)

/-- The counts of a turtle at the end of a word. -/
theorem counted_follow (word : Word) (origin : Transform) (source : Generator) :
    Counted settings word (follow settings base word (.start origin) source).1 := by
  induction word using List.reverseRecOn with
  | nil => exact .start settings origin
  | append_singleton word c ih =>
    rw [follow_concat]
    exact ih.read (reads ..)

/-! ## The end of a word -/

/-- What holds of a turtle and goes on to hold as its branches end, holds when all of them have. -/
theorem closeAll_induction {P : Walk → Prop} {walk : Walk} (before : P walk)
    (ends : ∀ (walk : Walk) (front : Pose) (rest : List Pose), walk.saved = front :: rest → P walk →
      P { walk with
        pose := front, saved := rest
        skeleton := walk.skeleton.endBranch settings base walk.pose
        implicit := walk.implicit + 1 }) :
    P (walk.closeAll settings base) ∧ (walk.closeAll settings base).saved = [] := by
  suffices goes : ∀ saved (walk : Walk), walk.saved = saved → P walk →
      P (closeAll.go settings base saved walk) ∧ (closeAll.go settings base saved walk).saved = [] from
    goes walk.saved walk rfl before
  intro saved
  induction saved with
  | nil => exact fun walk stack holds => ⟨holds, stack⟩
  | cons front rest ih =>
    intro walk stack holds
    simp only [closeAll.go, closeBranch_some stack]
    exact ih _ rfl (ends walk front rest stack holds)

/-- At the end no branch is open. -/
theorem saved_closeAll (walk : Walk) : (walk.closeAll settings base).saved = [] :=
  (closeAll_induction settings base (P := fun _ => True) trivial fun _ _ _ _ _ => trivial).2

/-- Ends of branches beyond the word move nothing. Each open branch is counted at its end. -/
structure Closing (before after : Walk) : Prop where
  segments : after.skeleton.segments = before.skeleton.segments
  maxHeight : after.skeleton.maxHeight = before.skeleton.maxHeight
  skipped : after.skeleton.skipped = before.skeleton.skipped
  symbols : after.symbols = before.symbols
  ignored : after.ignored = before.ignored
  unmatched : after.unmatched = before.unmatched
  implicit : after.implicit + after.saved.length = before.implicit + before.saved.length

/-- Closing the open branches at the end counts them, and changes no other count. -/
theorem closing_closeAll (walk : Walk) : Closing walk (walk.closeAll settings base) := by
  refine (closeAll_induction settings base (P := Closing walk) ⟨rfl, rfl, rfl, rfl, rfl, rfl, rfl⟩ ?_).1
  rintro after front rest stack ⟨segments, maxHeight, skipped, symbols, ignored, unmatched, implicit⟩
  refine ⟨(Skeleton.endBranch_segments ..).trans segments,
    (Skeleton.endBranch_maxHeight ..).trans maxHeight, (Skeleton.endBranch_skipped ..).trans skipped,
    symbols, ignored, unmatched, ?_⟩
  rw [← implicit, stack, List.length_cons]
  exact Nat.add_right_comm ..

end Walk


end Sapling
