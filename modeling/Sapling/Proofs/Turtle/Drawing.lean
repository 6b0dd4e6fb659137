import Sapling.Proofs.Scalar.Level
import Sapling.Proofs.Turtle.Forest

/-! The turtle that keeps a stack of poses draws the tree of its word. A word is read from its end: each
bracket without a partner cuts off a piece, and an open branch on the stack is what such a piece goes on
from. So every state of the turtle stands for one drawing by recursion on trees. -/
namespace Sapling

open Sapling.Random

/-! ## Words and their trees -/

/-- The only symbol that opens a branch is the opening bracket. -/
theorem Command.ofSymbol_open {c : Char} : Command.ofSymbol? c = some .openBranch ↔ c = '[' := by
  constructor
  · intro meaning
    unfold ofSymbol? at meaning
    split at meaning <;> simp_all
  · rintro rfl
    rfl

theorem Command.ofSymbol_close {c : Char} : Command.ofSymbol? c = some .closeBranch ↔ c = ']' := by
  constructor
  · intro meaning
    unfold ofSymbol? at meaning
    split at meaning <;> simp_all
  · rintro rfl
    rfl

namespace Brackets

/-- A word without the ends that have no beginning; branches that are open at the end are closed there.
So many are open before the word. -/
def pairedFrom : (opened : Nat) → Word → Word
  | opened, [] => List.replicate opened ']'
  | opened, c :: word =>
    if c = '[' then c :: pairedFrom (opened + 1) word
    else if c = ']' then
      match opened with
      | 0 => pairedFrom 0 word
      | opened + 1 => c :: pairedFrom opened word
    else c :: pairedFrom opened word

def paired (word : Word) : Word := pairedFrom 0 word

end Brackets

namespace Forest

/-- The word of a tree, with a pair of brackets around each side branch. -/
def toWord : Forest → Word
  | bare => []
  | symbol c rest => c :: rest.toWord
  | branch inside rest => '[' :: (inside.toWord ++ ']' :: rest.toWord)

/-- No symbol of the tree is a bracket: brackets are told by its shape alone. -/
def Bracketless : Forest → Prop
  | bare => True
  | symbol c rest => c ≠ '[' ∧ c ≠ ']' ∧ rest.Bracketless
  | branch inside rest => inside.Bracketless ∧ rest.Bracketless

/-- The word of the pieces behind unpaired ends, where so many branches are open. -/
def closing : (opened : Nat) → List Forest → Word
  | 0, behind => behind.flatMap toWord
  | opened + 1, behind => ']' :: ((behind.headD bare).toWord ++ closing opened behind.tail)

private theorem closing_nil (opened : Nat) : closing opened [] = List.replicate opened ']' := by
  induction opened with
  | zero => rfl
  | succ opened ih =>
    rw [List.replicate_succ, ← ih]
    rfl

private theorem toWord_append (first second : Forest) :
    (first.append second).toWord = first.toWord ++ second.toWord := by
  induction first with
  | bare => rfl
  | symbol c rest ih => simp [append, toWord, ih]
  | branch inside rest _ ih => simp [append, toWord, ih]

private theorem toWord_foldl_append (behind : List Forest) (front : Forest) :
    (behind.foldl append front).toWord = front.toWord ++ behind.flatMap toWord := by
  induction behind generalizing front with
  | nil => simp
  | cons next behind ih => simp [ih, toWord_append]

private theorem bracketless_append {first second : Forest} (one : first.Bracketless)
    (two : second.Bracketless) : (first.append second).Bracketless := by
  induction first with
  | bare => exact two
  | symbol c rest ih => exact ⟨one.1, one.2.1, ih one.2.2⟩
  | branch inside rest _ ih => exact ⟨one.1, ih one.2⟩

namespace Reading

theorem cons_open (r : Reading) :
    cons '[' r = ⟨branch r.front (r.behind.headD bare), r.behind.tail⟩ := by
  obtain ⟨front, behind⟩ := r
  cases behind <;> rfl

theorem cons_close (r : Reading) : cons ']' r = ⟨bare, r.front :: r.behind⟩ := rfl

theorem cons_other {c : Char} (notOpen : c ≠ '[') (notClose : c ≠ ']') (r : Reading) :
    cons c r = ⟨symbol c r.front, r.behind⟩ := by
  have notOpen := mt Command.ofSymbol_open.mp notOpen
  have notClose := mt Command.ofSymbol_close.mp notClose
  unfold cons
  split <;> simp_all

theorem ofWord_cons (c : Char) (word : Word) : ofWord (c :: word) = cons c (ofWord word) := rfl

/-- A word reads as its front and, behind its unpaired ends, the other pieces. -/
theorem pairedFrom_eq (word : Word) (opened : Nat) :
    Brackets.pairedFrom opened word =
      (ofWord word).front.toWord ++ closing opened (ofWord word).behind := by
  induction word generalizing opened with
  | nil => exact (closing_nil opened).symm
  | cons c word ih =>
    rw [ofWord_cons]
    by_cases isOpen : c = '['
    · subst isOpen
      simp [Brackets.pairedFrom, cons_open, toWord, ih, closing]
    · by_cases isClose : c = ']'
      · subst isClose
        rw [cons_close]
        cases opened with
        | zero => simp [Brackets.pairedFrom, toWord, ih, closing]
        | succ opened => simp [Brackets.pairedFrom, toWord, ih, closing]
      · simp [Brackets.pairedFrom, cons_other, isOpen, isClose, toWord, ih]

private theorem ofWord_bracketless (word : Word) :
    (ofWord word).front.Bracketless ∧ ∀ piece ∈ (ofWord word).behind, piece.Bracketless := by
  induction word with
  | nil => exact ⟨trivial, nofun⟩
  | cons c word ih =>
    obtain ⟨front, behind⟩ := ih
    rw [ofWord_cons]
    by_cases isOpen : c = '['
    · subst isOpen
      rw [cons_open]
      refine ⟨⟨front, ?_⟩, fun piece member => behind piece (List.mem_of_mem_tail member)⟩
      cases shape : (ofWord word).behind with
      | nil => trivial
      | cons next rest => exact behind next (shape ▸ List.mem_cons_self)
    · by_cases isClose : c = ']'
      · subst isClose
        exact ⟨trivial, List.forall_mem_cons.mpr ⟨front, behind⟩⟩
      · rw [cons_other isOpen isClose]
        exact ⟨⟨isOpen, isClose, front⟩, behind⟩

end Reading

/-- The tree of a word has the same symbols, with its brackets in pairs. -/
theorem toWord_ofWord (word : Word) : (ofWord word).toWord = Brackets.paired word := by
  rw [Brackets.paired, Reading.pairedFrom_eq, closing]
  exact toWord_foldl_append ..

private theorem bracketless_foldl {behind : List Forest} {front : Forest} (first : front.Bracketless)
    (rest : ∀ piece ∈ behind, piece.Bracketless) : (behind.foldl append front).Bracketless := by
  induction behind generalizing front with
  | nil => exact first
  | cons next behind ih =>
    obtain ⟨one, others⟩ := List.forall_mem_cons.mp rest
    exact ih (bracketless_append first one) others

private theorem bracketless_ofWord (word : Word) : (ofWord word).Bracketless := by
  obtain ⟨front, behind⟩ := Reading.ofWord_bracketless word
  exact bracketless_foldl front behind

private theorem append_bare (tree : Forest) : tree.append bare = tree := by
  induction tree with
  | bare => rfl
  | symbol c rest ih => rw [append, ih]
  | branch inside rest _ ih => rw [append, ih]

/-- The word of a tree in front of another word reads as the tree in front of what that one reads as. -/
theorem Reading.ofWord_toWord {tree : Forest} (bracketless : tree.Bracketless) (word : Word) :
    ofWord (tree.toWord ++ word) = ⟨tree.append (ofWord word).front, (ofWord word).behind⟩ := by
  induction tree generalizing word with
  | bare => rfl
  | symbol c rest ih =>
    obtain ⟨notOpen, notClose, others⟩ := bracketless
    rw [toWord, List.cons_append, ofWord_cons, ih others, cons_other notOpen notClose]
    rfl
  | branch inside rest first second =>
    obtain ⟨within, after⟩ := bracketless
    have last : ofWord (']' :: (rest.toWord ++ word)) =
        ⟨bare, rest.append (ofWord word).front :: (ofWord word).behind⟩ := by
      rw [ofWord_cons, second after, cons_close]
    rw [toWord, List.cons_append, List.append_assoc, List.cons_append, ofWord_cons, first within, last,
      cons_open, append_bare]
    rfl

/-- The tree of a word is the only one without brackets among its symbols that has the word's symbols
and paired brackets. -/
theorem eq_ofWord_iff (tree : Forest) (word : Word) :
    tree = ofWord word ↔ tree.Bracketless ∧ tree.toWord = Brackets.paired word := by
  constructor
  · rintro rfl
    exact ⟨bracketless_ofWord word, toWord_ofWord word⟩
  · rintro ⟨bracketless, same⟩
    have back (tree : Forest) (bracketless : tree.Bracketless) : ofWord tree.toWord = tree := by
      have reading := Reading.ofWord_toWord bracketless []
      rw [List.append_nil] at reading
      simp only [ofWord, reading]
      exact append_bare tree
    rw [← back tree bracketless, same, ← toWord_ofWord word]
    exact back _ (bracketless_ofWord word)

/-! ## Drawing -/

private theorem draw_append (settings : TurtleSettings) (base : Float32) (first second : Forest) (pose : Pose)
    (skeleton : Skeleton) :
    (first.append second).draw settings base pose skeleton = (do
      let (pose, skeleton) ← first.draw settings base pose skeleton
      second.draw settings base pose skeleton) := by
  induction first generalizing pose skeleton with
  | bare => simp [append, draw]
  | symbol c rest ih =>
    simp only [append, draw]
    cases Command.ofSymbol? c with
    | none => exact ih pose skeleton
    | some command => simp [ih]
  | branch inside rest _ ih => simp [append, draw, ih]

/-- Goes on with a drawing at an unpaired end. The innermost of the open branches ends, and the next
piece goes on from where it began; when none is open, the pieces follow one another. -/
def unwind (settings : TurtleSettings) (base : Float32) :
    (saved : List Pose) → (behind : List Forest) → Pose × Skeleton → Draw (Pose × Skeleton)
  | [], behind, drawn => behind.foldlM (fun (pose, skeleton) next =>
      next.draw settings base pose skeleton) drawn
  | start :: saved, behind, (tip, skeleton) => do
    let drawn ← (behind.headD bare).draw settings base start (skeleton.endBranch settings base tip)
    unwind settings base saved behind.tail drawn

private theorem draw_foldl_append (settings : TurtleSettings) (base : Float32) (behind : List Forest)
    (front : Forest) (pose : Pose) (skeleton : Skeleton) :
    (behind.foldl append front).draw settings base pose skeleton = (do
      let drawn ← front.draw settings base pose skeleton
      unwind settings base [] behind drawn) := by
  induction behind generalizing front with
  | nil => simp [unwind]
  | cons next behind ih =>
    rw [List.foldl_cons, ih, draw_append, bind_assoc]
    rfl

end Forest

namespace Walk

variable (settings : TurtleSettings) (base : Float32)

/-- What is open at the end of a word ends with nothing more to draw. -/
private theorem closeAll_go (saved : List Pose) (walk : Walk) (stack : walk.saved = saved) :
    (do let last ← Forest.unwind settings base saved [] (walk.pose, walk.skeleton)
        return last.2 : Draw Skeleton) =
      return (closeAll.go settings base saved walk).skeleton := by
  induction saved generalizing walk with
  | nil => simp [Forest.unwind, closeAll.go]
  | cons start saved ih =>
    have closed : walk.closeBranch? settings base = some { walk with
        pose := start, saved, skeleton := walk.skeleton.endBranch settings base walk.pose } := by
      simp [closeBranch?, stack]
    simp only [Forest.unwind, Forest.draw, List.headD_nil, List.tail_nil, pure_bind, closeAll.go,
      closed]
    exact ih { walk with
      pose := start, saved
      skeleton := walk.skeleton.endBranch settings base walk.pose
      implicit := walk.implicit + 1 } rfl

/-- Every state of the turtle stands for a drawing: the front of the rest of the word is drawn from where
the turtle is, and the pieces behind its unpaired ends from the poses on the stack. -/
theorem foldlM_step (word : Word) (walk : Walk) :
    (do let last ← word.foldlM (step settings base) walk
        return (last.closeAll settings base).skeleton : Draw Skeleton) = (do
      let drawn ← (Forest.Reading.ofWord word).front.draw settings base walk.pose walk.skeleton
      let last ← Forest.unwind settings base walk.saved (Forest.Reading.ofWord word).behind drawn
      return last.2) := by
  induction word generalizing walk with
  | nil =>
    have closed := closeAll_go settings base walk.saved walk rfl
    simpa [Forest.Reading.ofWord, Forest.draw, closeAll] using closed.symm
  | cons c word ih =>
    rw [List.foldlM_cons, bind_assoc, Forest.Reading.ofWord_cons]
    simp only [ih]
    by_cases isOpen : c = '['
    · subst isOpen
      have opens : walk.step settings base '[' = return { walk with
          symbols := walk.symbols + 1, saved := walk.pose :: walk.saved } := rfl
      simp [opens, Forest.Reading.cons_open, Forest.draw, Forest.unwind]
    · by_cases isClose : c = ']'
      · subst isClose
        rw [Forest.Reading.cons_close]
        cases stack : walk.saved with
        | nil =>
          have passes : walk.step settings base ']' = return { walk with
              symbols := walk.symbols + 1, unmatched := walk.unmatched + 1 } := by
            simp only [step, Command.ofSymbol?, obey, closeBranch?, stack]
            rfl
          simp [passes, Forest.draw, Forest.unwind, stack]
        | cons start saved =>
          have closes : walk.step settings base ']' = return { walk with
              symbols := walk.symbols + 1, pose := start, saved
              skeleton := walk.skeleton.endBranch settings base walk.pose } := by
            simp only [step, Command.ofSymbol?, obey, closeBranch?, stack]
            rfl
          simp [closes, Forest.draw, Forest.unwind]
      · rw [Forest.Reading.cons_other isOpen isClose, Forest.draw, step]
        cases meaning : Command.ofSymbol? c with
        | none => simp
        | some command =>
          have notOpen : command ≠ .openBranch := fun same =>
            isOpen (Command.ofSymbol_open.mp (same ▸ meaning))
          have notClose : command ≠ .closeBranch := fun same =>
            isClose (Command.ofSymbol_close.mp (same ▸ meaning))
          have moves (walk : Walk) : walk.obey settings base command = do
              let (pose, skeleton) ← walk.skeleton.move settings walk.pose command
              return { walk with pose, skeleton } := by
            cases command <;> first | rfl | contradiction
          simp [moves]

end Walk

/-! ## Branch ends -/

/-- When a branch end becomes an anchor, in terms of the heights above the ground. -/
theorem Skeleton.carriesLeaves_iff (settings : TurtleSettings) (base : Float32) (skeleton : Skeleton)
    (tip : Vec3) : skeleton.carriesLeaves settings base tip = true ↔
      Scalar.epsilon < skeleton.maxHeight - base ∧
        settings.leafThreshold * (skeleton.maxHeight - base) ≤ tip.y - base := by
  simp only [carriesLeaves, Bool.and_eq_true, Bool.not_eq_true', decide_eq_false_iff_not,
    decide_eq_true_eq]
  refine and_congr_left fun high => ?_
  -- a height that is no number would make the product no number, and then nothing is above it
  have isNumber : (skeleton.maxHeight - base).isNaN = false := by
    by_contra odd
    have product := Scalar.mul_isNaN (x := settings.leafThreshold) (Bool.not_eq_false _ ▸ odd)
    rw [Scalar.le_iff, product] at high
    cases high.1
  exact Scalar.not_le_iff isNumber rfl

/-- A side branch is drawn from the pose it leaves, and so is what follows it. Between the two, the tip
of the branch becomes an anchor if it is high enough. -/
theorem Forest.draw_branch (settings : TurtleSettings) (base : Float32) (pose : Pose)
    (skeleton : Skeleton) (inside rest : Forest) :
    (branch inside rest).draw settings base pose skeleton = (do
      let (tip, skeleton) ← inside.draw settings base pose skeleton
      rest.draw settings base pose
        (if Scalar.epsilon < skeleton.maxHeight - base ∧
            settings.leafThreshold * (skeleton.maxHeight - base) ≤ tip.position.y - base then
          { skeleton with anchors := skeleton.anchors.push ⟨tip.position, tip.heading⟩ }
        else skeleton)) := by
  simp only [draw, Skeleton.endBranch, Skeleton.carriesLeaves_iff]

namespace TurtleSettings

/-- The turtle with its stack draws what recursion on the tree of the word draws. The tree is the one
with the word's symbols and its paired brackets, and its side branches are drawn from copies of the pose,
with an anchor at the tip where that is high enough. -/
theorem interpret_draws_tree (settings : TurtleSettings) (word : Word) (origin : Transform)
    (source : Generator) :
    let drawn := (settings.interpret word origin).run source
    let grown := ((Forest.ofWord word).skeleton settings origin).run source
    (drawn.1.segments =
        settings.taper.thicken origin.position grown.1.maxHeight grown.1.segments ∧
      drawn.1.anchors = grown.1.anchors ∧ drawn.1.maxHeight = grown.1.maxHeight ∧
      drawn.2 = grown.2) ∧
    (∀ tree, tree = Forest.ofWord word ↔ tree.Bracketless ∧ tree.toWord = Brackets.paired word) ∧
    ∀ base pose skeleton inside rest,
      (Forest.branch inside rest).draw settings base pose skeleton = (do
        let (tip, skeleton) ← inside.draw settings base pose skeleton
        rest.draw settings base pose
          (if Scalar.epsilon < skeleton.maxHeight - base ∧
              settings.leafThreshold * (skeleton.maxHeight - base) ≤ tip.position.y - base then
            { skeleton with anchors := skeleton.anchors.push ⟨tip.position, tip.heading⟩ }
          else skeleton)) := by
  intro drawn grown
  let drawnWalk :=
    (word.foldlM (Walk.step settings origin.position.y) (.start origin) : Draw Walk).run source
  have walked := Walk.foldlM_step settings origin.position.y word (.start origin)
  have tree : (do
      let walk ← word.foldlM (Walk.step settings origin.position.y) (.start origin)
      return (walk.closeAll settings origin.position.y).skeleton : Draw Skeleton) =
        (Forest.ofWord word).skeleton settings origin := by
    rw [walked, Forest.skeleton, Forest.ofWord, Forest.draw_foldl_append, bind_assoc]
    rfl
  have same : grown = ((drawnWalk.1.closeAll settings origin.position.y).skeleton, drawnWalk.2) :=
    congrArg (StateT.run · source) tree.symm
  refine ⟨?_, fun tree => Forest.eq_ofWord_iff tree word, Forest.draw_branch settings⟩
  rw [same]
  exact ⟨rfl, rfl, rfl, rfl⟩

end TurtleSettings


end Sapling
