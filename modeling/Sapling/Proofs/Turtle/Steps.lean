import Sapling.Proofs.Turtle.Drawing

/-! What the turtle does with one symbol, said once. A symbol opens a branch, ends one, means nothing, or
moves the turtle; a move turns it in its place, skips a step or takes one. -/
namespace Sapling

open Sapling.Random

/-- The part that a symbol plays in a word. -/
inductive Command.Role : Char → Prop where
  | opens : Role '['
  | closes : Role ']'
  | ignored {c : Char} (meaning : ofSymbol? c = none) : Role c
  | moves {c : Char} (command : Command) (meaning : ofSymbol? c = some command)
      (notOpen : command ≠ .openBranch) (notClose : command ≠ .closeBranch) : Role c

/-- Every symbol is a bracket, is ignored, moves the turtle forward or turns it. -/
theorem Command.role (c : Char) : Role c := by
  cases meaning : ofSymbol? c with
  | none => exact .ignored meaning
  | some command =>
    by_cases isOpen : command = .openBranch
    · obtain rfl := ofSymbol_open.mp (isOpen ▸ meaning)
      exact .opens
    · by_cases isClose : command = .closeBranch
      · obtain rfl := ofSymbol_close.mp (isClose ▸ meaning)
        exact .closes
      · exact .moves command meaning isOpen isClose

private theorem Command.ofSymbol_forward {c : Char} : ofSymbol? c = some .forward ↔ c = 'F' := by
  constructor
  · intro meaning
    unfold ofSymbol? at meaning
    split at meaning <;> simp_all
  · rintro rfl
    rfl

/-- A symbol that is no bracket. -/
theorem Command.not_bracket {c : Char} {command : Command} (meaning : ofSymbol? c = some command)
    (notOpen : command ≠ .openBranch) (notClose : command ≠ .closeBranch) : c ≠ '[' ∧ c ≠ ']' := by
  constructor <;> rintro rfl
  · exact notOpen (Option.some.inj (meaning.symm.trans (ofSymbol_open.mpr rfl)))
  · exact notClose (Option.some.inj (meaning.symm.trans (ofSymbol_close.mpr rfl)))

/-- Ignored symbols are no brackets. -/
theorem Command.not_bracket_of_ignored {c : Char} (meaning : ofSymbol? c = none) :
    c ≠ '[' ∧ c ≠ ']' := by
  constructor <;> rintro rfl <;> cases meaning

namespace Brackets

/-- How many branches are open after one more symbol. An end without a beginning is passed over. -/
def nest (opened : Nat) (c : Char) : Nat :=
  if c = '[' then opened + 1 else if c = ']' then opened - 1 else opened

/-- How many branches are open after a word, when so many were open before it. -/
def openFrom (opened : Nat) (word : Word) : Nat := word.foldl nest opened

def openAfter (word : Word) : Nat := openFrom 0 word

theorem nest_open (opened : Nat) : nest opened '[' = opened + 1 := rfl

theorem nest_close (opened : Nat) : nest opened ']' = opened - 1 := rfl

/-- Symbols that are no brackets leave the depth as it is. -/
theorem nest_other {c : Char} (notBracket : c ≠ '[' ∧ c ≠ ']') (opened : Nat) :
    nest opened c = opened := by
  rw [nest, if_neg notBracket.1, if_neg notBracket.2]

end Brackets

namespace Walk

/-- Where a symbol leaves the turtle and the generator. -/
def read (settings : TurtleSettings) (base : Float32) (walk : Walk) (c : Char) (source : Generator) :
    Walk × Generator :=
  (walk.step settings base c).run source

variable {settings : TurtleSettings} {base : Float32}

/-- An opening bracket saves the pose of the turtle. -/
theorem read_open (walk : Walk) (source : Generator) : walk.read settings base '[' source =
    ({ walk with symbols := walk.symbols + 1, saved := walk.pose :: walk.saved }, source) := rfl

/-- Closing an open branch ends it and takes the turtle back to the saved pose. -/
theorem closeBranch_some {walk : Walk} {front : Pose} {rest : List Pose}
    (stack : walk.saved = front :: rest) : walk.closeBranch? settings base = some { walk with
      pose := front, saved := rest, skeleton := walk.skeleton.endBranch settings base walk.pose } := by
  rw [closeBranch?, stack]

/-- A closing bracket with an open branch closes the branch. -/
theorem read_close {walk : Walk} {front : Pose} {rest : List Pose}
    (stack : walk.saved = front :: rest) (source : Generator) :
    walk.read settings base ']' source = ({ walk with
      symbols := walk.symbols + 1, pose := front, saved := rest
      skeleton := walk.skeleton.endBranch settings base walk.pose }, source) := by
  simp only [read, step, Command.ofSymbol?, obey, closeBranch?, stack]
  rfl

/-- A closing bracket without an open branch is counted and passed over. -/
theorem read_pass {walk : Walk} (stack : walk.saved = []) (source : Generator) :
    walk.read settings base ']' source =
      ({ walk with symbols := walk.symbols + 1, unmatched := walk.unmatched + 1 }, source) := by
  simp only [read, step, Command.ofSymbol?, obey, closeBranch?, stack]
  rfl

/-- An ignored symbol is counted and draws nothing. -/
theorem read_ignored (meaning : Command.ofSymbol? c = none) (walk : Walk) (source : Generator) :
    walk.read settings base c source =
      ({ walk with symbols := walk.symbols + 1, ignored := walk.ignored + 1 }, source) := by
  simp only [read, step, meaning]
  rfl

/-- Any other symbol is a command that is run. -/
theorem read_moves (meaning : Command.ofSymbol? c = some command) (notOpen : command ≠ .openBranch)
    (notClose : command ≠ .closeBranch) (walk : Walk) (source : Generator) :
    walk.read settings base c source =
      ({ walk with
        symbols := walk.symbols + 1
        pose := ((walk.skeleton.move settings walk.pose command).run source).1.1
        skeleton := ((walk.skeleton.move settings walk.pose command).run source).1.2 },
        ((walk.skeleton.move settings walk.pose command).run source).2) := by
  simp only [read, step, meaning]
  cases command <;> first | rfl | contradiction

/-- What one symbol can make of a turtle. A step that is taken leaves a segment from where the turtle was
to where it is. -/
inductive Reads (settings : TurtleSettings) (base : Float32) (walk : Walk) : Char → Walk → Prop where
  | opens : Reads settings base walk '['
      { walk with symbols := walk.symbols + 1, saved := walk.pose :: walk.saved }
  | closes {front : Pose} {rest : List Pose} (stack : walk.saved = front :: rest) :
    Reads settings base walk ']'
      { walk with
        symbols := walk.symbols + 1, pose := front, saved := rest
        skeleton := walk.skeleton.endBranch settings base walk.pose }
  | passes (stack : walk.saved = []) : Reads settings base walk ']'
      { walk with symbols := walk.symbols + 1, unmatched := walk.unmatched + 1 }
  | ignores {c : Char} (meaning : Command.ofSymbol? c = none) : Reads settings base walk c
      { walk with symbols := walk.symbols + 1, ignored := walk.ignored + 1 }
  | skips (rare : settings.branchProbability < 1) : Reads settings base walk 'F'
      { walk with
        symbols := walk.symbols + 1
        skeleton := { walk.skeleton with skipped := walk.skeleton.skipped + 1 } }
  | steps (control tip : Vec3) : Reads settings base walk 'F'
      { walk with
        symbols := walk.symbols + 1
        pose := { walk.pose with position := tip }
        skeleton := { walk.skeleton with
          segments := walk.skeleton.segments.push
            ⟨walk.skeleton.segments.size, walk.pose.position, control, tip, 0⟩
          maxHeight := Scalar.max walk.skeleton.maxHeight tip.y } }
  | turns {c : Char} (orientation : Quat) (known : (Command.ofSymbol? c).isSome) (noStep : c ≠ 'F')
      (notBracket : c ≠ '[' ∧ c ≠ ']') : Reads settings base walk c
      { walk with symbols := walk.symbols + 1, pose := { walk.pose with orientation } }

private theorem reads_forward (walk : Walk) (source : Generator) :
    Reads settings base walk 'F' (walk.read settings base 'F' source).1 := by
  have meaning : Command.ofSymbol? 'F' = some .forward := rfl
  rw [read_moves meaning nofun nofun]
  simp only [Skeleton.move, Skeleton.forward, StateT.run_bind]
  rcases drawn : settings.drawSkip.run source with ⟨skipped, later⟩
  cases skipped with
  | true =>
    have rare : settings.branchProbability < 1 := by
      by_contra certain
      simp only [TurtleSettings.drawSkip, certain, if_false] at drawn
      exact Bool.false_ne_true (congrArg Prod.fst drawn)
    exact .skips rare
  | false => exact .steps _ _

/-- Every symbol is read in one of these ways. -/
theorem reads (walk : Walk) (c : Char) (source : Generator) :
    Reads settings base walk c (walk.read settings base c source).1 := by
  cases Command.role c with
  | opens => exact .opens
  | closes =>
    cases stack : walk.saved with
    | nil =>
      rw [read_pass stack]
      exact .passes stack
    | cons front rest =>
      rw [read_close stack]
      exact .closes stack
  | ignored meaning =>
    rw [read_ignored meaning]
    exact .ignores meaning
  | moves command meaning notOpen notClose =>
    by_cases step : command = .forward
    · obtain rfl := Command.ofSymbol_forward.mp (step ▸ meaning)
      exact reads_forward walk source
    · have noStep : c ≠ 'F' := fun same => step (Option.some.inj
        (meaning.symm.trans (Command.ofSymbol_forward.mpr same)))
      have notBracket := Command.not_bracket meaning notOpen notClose
      rw [read_moves meaning notOpen notClose]
      cases command with
      | turn axis positive => exact .turns _ (by simp [meaning]) noStep notBracket
      | turnAround => exact .turns _ (by simp [meaning]) noStep notBracket
      | _ => contradiction

/-- Where a word leaves the turtle and the generator. -/
def follow (settings : TurtleSettings) (base : Float32) (word : Word) (walk : Walk) (source : Generator) :
    Walk × Generator :=
  (word.foldlM (step settings base) walk : Draw Walk).run source

theorem follow_cons (c : Char) (word : Word) (walk : Walk) (source : Generator) :
    follow settings base (c :: word) walk source =
      follow settings base word (walk.read settings base c source).1
        (walk.read settings base c source).2 := rfl

/-- A word is followed symbol by symbol, so its last one is read where the rest has led. -/
theorem follow_concat (word : Word) (c : Char) (walk : Walk) (source : Generator) :
    follow settings base (word ++ [c]) walk source =
      (follow settings base word walk source).1.read settings base c
        (follow settings base word walk source).2 := by
  simp only [follow, List.foldlM_append]
  rfl

end Walk

/-- The drawn tree is read off the turtle after the word, when all open branches are closed. -/
theorem TurtleSettings.interpret_run (settings : TurtleSettings) (word : Word) (origin : Transform)
    (source : Generator) :
    (settings.interpret word origin).run source =
      (((Walk.follow settings origin.position.y word (.start origin) source).1.closeAll settings
          origin.position.y).finish settings origin.position,
        (Walk.follow settings origin.position.y word (.start origin) source).2) := rfl

end Sapling
