import Sapling.Grammar.Rule
/-!
L-systems: a start word, a table of rules and a number of passes. In one pass every symbol of a word is
replaced at once. The length of a word after many passes is also found by counting symbols, without building
the word.
-/
namespace Sapling

/-! ## Derivation

Derivation of words: in one pass every symbol of a word is replaced at once. The length of a word after
many passes is also found by counting symbols, without building the word.
-/

namespace RuleSet

/-- What becomes of a symbol in one pass; without a rule it stays. -/
def image (s : RuleSet) (symbol : Char) : Word := (s.get? symbol).getD [symbol]

/-- One pass over a word (`rewrite_once`). -/
def deriveOnce (s : RuleSet) (word : Word) : Word := word.flatMap s.image

/-- The word after `passes` passes. -/
def derive (s : RuleSet) (passes : Nat) (word : Word) : Word := Nat.repeat s.deriveOnce passes word

/-- The word and what it becomes after each of `passes` passes. -/
def generations (s : RuleSet) : (passes : Nat) → Word → List Word
  | 0, word => [word]
  | passes + 1, word => word :: s.generations passes (s.deriveOnce word)

end RuleSet

/-- The largest number of passes; words grow exponentially with it (`MAX_ITERATIONS`). -/
def maxIterations : UInt32 := 10

/-- The number of passes, or the largest one where it is larger (`clamp_iterations`). -/
def clampIterations (iterations : UInt32) : UInt32 :=
  if maxIterations < iterations then maxIterations else iterations

/-- Derives a word `iterations` times, or as often as is allowed (`generate`). -/
def generate (start : Word) (rules : RuleSet) (iterations : UInt32) : Word :=
  rules.derive (clampIterations iterations).toNat start

/-! ### Counting -/

/-- How often each symbol occurs, each count at most `Census.limit`. -/
abbrev Census := List (Char × Nat)

namespace Census

/-- Counts stop growing here. -/
def limit : Nat := UInt64.size - 1

/-- A count, or the limit where it is larger. -/
def saturate (n : Nat) : Nat := if n ≤ limit then n else limit

/-- Counts `n` more of a symbol. -/
def add (symbol : Char) (n : Nat) : Census → Census
  | [] => [(symbol, n)]
  | (c, m) :: rest =>
    if c = symbol then (c, saturate (m + n)) :: rest else (c, m) :: add symbol n rest

/-- Counts `n` more of every symbol of a word. -/
def addAll (n : Nat) (word : Word) (census : Census) : Census :=
  word.foldl (fun census symbol => add symbol n census) census

/-- How often each symbol occurs in a word. -/
def ofWord (word : Word) : Census := addAll 1 word []

/-- The census after one more pass. -/
def deriveOnce (rules : RuleSet) (census : Census) : Census :=
  census.foldl (fun next (symbol, n) => addAll n (rules.image symbol) next) []

/-- The number of all symbols, or the limit of counting where there are more. -/
def total (census : Census) : Nat := census.foldl (fun sum (_, n) => saturate (sum + n)) 0

end Census

/-! ## Systems

L-systems: a start word, a table of rules and a number of passes. -/

/-- A start word with the rules for its symbols and the number of passes over it (`LSystem`). -/
structure LSystem where
  start : Word := ['F']
  rules : RuleSet := .empty
  iterations : UInt32 := 5
deriving DecidableEq

namespace LSystem

/-- The number of passes is within its limit (`validate`). -/
def validate (system : LSystem) : Validation :=
  if maxIterations < system.iterations then
    .error (.iterationsOutOfRange system.iterations maxIterations)
  else .ok ()

/-- A system that has been checked (`new`). -/
def checked (start : Word) (rules : RuleSet) (iterations : UInt32) : Except ConfigError LSystem := do
  let system : LSystem := ⟨start, rules, iterations⟩
  system.validate
  return system

/-- The word after all passes (`generate`). -/
def generate (system : LSystem) : Word := Sapling.generate system.start system.rules system.iterations

/-- The words from the start to the last pass (`generate_steps`). -/
def generateSteps (system : LSystem) : List Word :=
  system.rules.generations (clampIterations system.iterations).toNat system.start

/-- The length of the word after `passes` passes, or the limit of counting where it is longer
(`expanded_len`). -/
def expandedLength (system : LSystem) (passes : Nat) : Nat :=
  (Nat.repeat (Census.deriveOnce system.rules) passes (Census.ofWord system.start)).total

/-- Systems are stored as records and read without a check of the number of passes. -/
def codec : Data.Codec LSystem where
  write system := .record [("axiom", Data.Codec.chars.write system.start),
    ("rules", RuleSet.codec.write system.rules),
    ("iterations", Data.Codec.word32.write system.iterations)]
  read? v := do
    let fields ← Data.Fields.ofValue? 3 v
    let absent : LSystem := {}
    let start ← fields.optional 0 "axiom" .chars absent.start
    let rules ← fields.optional 1 "rules" RuleSet.codec absent.rules
    let iterations ← fields.optional 2 "iterations" .word32 absent.iterations
    some ⟨start, rules, iterations⟩

end LSystem

end Sapling
