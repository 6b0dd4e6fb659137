import Sapling.Grammar.LSystem
/-!
The named trees, each with its L-system.
-/
namespace Sapling

/-- The named trees (`TreePreset`). -/
inductive Preset where
  | maple
  | pine
  | fern
  | bonsai
deriving DecidableEq, Repr

namespace Preset

/-- All named trees in their order (`PRESETS`). -/
def all : List Preset := [maple, pine, fern, bonsai]

/-- The name of a tree in lowercase (`name`). -/
def name : Preset → String
  | maple => "maple"
  | pine => "pine"
  | fern => "fern"
  | bonsai => "bonsai"

/-- What the bud of a tree becomes in a pass: branches around a stem that goes on. -/
def budReplacement : Preset → String
  | maple => "F[+X][-X]FX"
  | pine => "F[+X]F[-X]+X"
  | fern => "F[+X]F[-X]FX"
  | bonsai => "F[+X][-X]FX"

/-- How often the word of a tree is derived. -/
def iterations : Preset → UInt32
  | maple => 5
  | pine => 6
  | fern => 4
  | bonsai => 4

/-- A bud that branches, and stems that double in length. -/
def rules (preset : Preset) : List Rule :=
  [⟨'X', preset.budReplacement.toList⟩, ⟨'F', ['F', 'F']⟩]

/-- The L-system of a tree (`lsystem`). -/
def system (preset : Preset) : LSystem :=
  ⟨['X'], RuleSet.ofList preset.rules, preset.iterations⟩

/-- Finds a tree by name; blanks around it and the case of its letters do not matter (`from_name`). -/
def ofName? (name : List Char) : Option Preset :=
  let wanted := (Text.trim name).map Char.toLower
  all.find? fun preset => preset.name.toList = wanted

/-- Names are stored in lowercase, as text or as the only field of a record without content. -/
def codec : Data.Codec Preset where
  write preset := .text preset.name
  read?
    | .text name | .plain name => all.find? (·.name = name)
    | .record [(name, .null)] => all.find? (·.name = name)
    | _ => none

end Preset

/-- The choice of a grammar: a named tree, of which each part may be replaced (`GrammarConfig`). -/
structure GrammarSettings where
  preset : Preset := .maple
  start : Option Word := none
  /-- Rules as text. If there are any, they take the place of all rules of the tree. -/
  rules : List Word := []
  iterations : Option UInt32 := none
deriving DecidableEq

namespace GrammarSettings

/-- The table to use, or the first rule that cannot be read. -/
def ruleSet (settings : GrammarSettings) : Except ConfigError RuleSet :=
  if settings.rules.isEmpty then .ok settings.preset.system.rules
  else (settings.rules.mapM Rule.parse).map RuleSet.ofList

/-- The L-system that the settings describe (`lsystem`). -/
def system (settings : GrammarSettings) : Except ConfigError LSystem := do
  let rules ← settings.ruleSet
  let base := settings.preset.system
  LSystem.checked (settings.start.getD base.start) rules (settings.iterations.getD base.iterations)

/-- The choice is stored as a record. What is left out is as for the usual tree. -/
def codec : Data.Codec GrammarSettings where
  write settings := .record [("preset", Preset.codec.write settings.preset),
    ("axiom", (Data.Codec.option .chars).write settings.start),
    ("rules", (Data.Codec.list .chars).write settings.rules),
    ("iterations", (Data.Codec.option .word32).write settings.iterations)]
  read? v := do
    let fields ← Data.Fields.ofValue? 4 v
    let absent : GrammarSettings := {}
    let preset ← fields.optional 0 "preset" Preset.codec absent.preset
    let start ← fields.optional 1 "axiom" (.option .chars) absent.start
    let rules ← fields.optional 2 "rules" (.list .chars) absent.rules
    let iterations ← fields.optional 3 "iterations" (.option .word32) absent.iterations
    some ⟨preset, start, rules, iterations⟩

end GrammarSettings

end Sapling
