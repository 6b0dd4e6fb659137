import Sapling.Grammar.Rule
import Sapling.Turtle.Skeleton
import Sapling.Turtle.Walk

/-! Second readings of words, which the turtle's walk is compared with. A word is a tree in which matching
brackets make a side branch of what they enclose, and drawing a word is drawing its tree: no stack of poses is
needed. And every word can be brought to a form with its brackets in pairs. -/
namespace Sapling

open Sapling.Random

/-! ## Words as trees

Words as trees. Matching brackets make a side branch of what they enclose, and drawing a word is drawing
its tree: a side branch is drawn from a copy of the pose, and what follows it goes on from the pose
itself. No stack of poses is needed.
-/

/-- A sequence of symbols and side branches. -/
inductive Forest where
  | bare
  | symbol (c : Char) (rest : Forest)
  | branch (inside rest : Forest)
deriving DecidableEq, Repr

namespace Forest

/-- One sequence after another. -/
def append : Forest → Forest → Forest
  | bare, other => other
  | symbol c rest, other => symbol c (rest.append other)
  | branch inside rest, other => branch inside (rest.append other)

instance : Append Forest := ⟨append⟩

/-! ### Reading words -/

/-- What a word reads as: what comes before the first bracket without a beginning, and the sequences
behind each of those brackets. -/
structure Reading where
  front : Forest := .bare
  behind : List Forest := []
deriving DecidableEq, Repr

/-- Puts a symbol in front of a reading. A branch ends at the first bracket that waits for a beginning,
and at the end of the word where none does. -/
def Reading.cons (c : Char) (r : Reading) : Reading :=
  match Command.ofSymbol? c, r.behind with
  | some .openBranch, [] => ⟨branch r.front bare, []⟩
  | some .openBranch, next :: behind => ⟨branch r.front next, behind⟩
  | some .closeBranch, behind => ⟨bare, r.front :: behind⟩
  | _, behind => ⟨symbol c r.front, behind⟩

def Reading.ofWord (word : Word) : Reading := word.foldr Reading.cons {}

/-- The tree of a word. Brackets without a beginning are left out. -/
def ofWord (word : Word) : Forest :=
  let r := Reading.ofWord word
  r.behind.foldl append r.front

/-! ### Drawing -/

/-- Draws a sequence from a pose, and gives the pose at its end. -/
def draw (settings : TurtleSettings) (base : Float32) (pose : Pose) (skeleton : Skeleton) :
    Forest → Draw (Pose × Skeleton)
  | bare => return (pose, skeleton)
  | symbol c rest => do
    match Command.ofSymbol? c with
    | some command =>
      let (pose, skeleton) ← skeleton.move settings pose command
      rest.draw settings base pose skeleton
    | none => rest.draw settings base pose skeleton
  | branch inside rest => do
    let (tip, skeleton) ← inside.draw settings base pose skeleton
    rest.draw settings base pose (skeleton.endBranch settings base tip)

/-- The skeleton of a tree that begins at an origin. -/
def skeleton (settings : TurtleSettings) (origin : Transform) (forest : Forest) : Draw Skeleton := do
  let (_, skeleton) ←
    forest.draw settings origin.position.y (.ofTransform origin) { maxHeight := origin.position.y }
  return skeleton

end Forest

/-! ## Brackets

Brackets in words: which words have them in pairs, and how every word is brought to such a form without
a change to what the turtle draws.
-/

namespace Brackets

/-- How many brackets are open after a word, if none was closed that was not open. -/
def depth? : (opened : Nat) → Word → Option Nat
  | opened, [] => some opened
  | opened, c :: word =>
    match Command.ofSymbol? c, opened with
    | some .openBranch, _ => depth? (opened + 1) word
    | some .closeBranch, 0 => none
    | some .closeBranch, opened + 1 => depth? opened word
    | _, _ => depth? opened word

/-- All brackets are in pairs. -/
def Balanced (word : Word) : Prop := depth? 0 word = some 0

instance (word : Word) : Decidable (Balanced word) := inferInstanceAs (Decidable (_ = _))

/-- A word without symbols that mean nothing and without brackets that have no beginning; brackets that
are open at the end are closed there. -/
def tidyFrom : (opened : Nat) → Word → Word
  | opened, [] => List.replicate opened ']'
  | opened, c :: word =>
    match Command.ofSymbol? c, opened with
    | some .openBranch, _ => c :: tidyFrom (opened + 1) word
    | some .closeBranch, 0 => tidyFrom 0 word
    | some .closeBranch, opened + 1 => c :: tidyFrom opened word
    | some _, _ => c :: tidyFrom opened word
    | none, _ => tidyFrom opened word

def tidy (word : Word) : Word := tidyFrom 0 word

end Brackets

end Sapling
