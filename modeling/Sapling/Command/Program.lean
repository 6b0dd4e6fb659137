import Sapling.Command.Arguments
import Sapling.Data.Json
import Sapling.Data.Yaml
import Sapling.Growth.Pipeline
import Sapling.Mesh.Obj
import Sapling.Scene.Outline
/-!
The whole program, from the words of a command line to its ending. A run is a function of the request, of
the text of the settings file and of a seed for trees that ask for none; files are reached through a store,
so that the program is the same on a disk and in memory.
-/
namespace Sapling

/-! ## Runs

What the subcommands do. A run is a function of the request, of the text of the settings file and of a
seed for trees that ask for none; it says what to print, what went wrong and which file to write.
-/

namespace Command

def version : String := "0.1.0"

/-- The parts of the program, in the order they build on each other. -/
def parts : List String := ["common", "grammar", "turtle", "mesh", "leaves", "scene", "growth"]

/-- A part of the program with its version. -/
def partInfo (part : String) : String := s!"arbor-{part} v{version}"

/-- What can go wrong in a run. -/
inductive Failure where
  | unreadableSettings (path : List Char)
  | malformedSettings (format : String) (path : List Char)
  | unsupportedExtension (extension : List Char)
  | unknownPreset (name : List Char)
  | frameRateNotPositive (fps : Float32)
  | badSettings (error : ConfigError)
  | uncreatableFile (path : List Char)
deriving DecidableEq

/-- The message of a failure. -/
def Failure.message : Failure → String
  | unreadableSettings path => "reading config " ++ String.ofList path
  | malformedSettings format path => s!"parsing {format} config " ++ String.ofList path
  | unsupportedExtension extension =>
    "unsupported config extension " ++ Text.quote extension ++ ", expected yaml, yml or json"
  | unknownPreset name =>
    "unknown preset " ++ Text.quote name ++ "; run \x60arbor-cli presets\x60 for the list"
  | frameRateNotPositive fps => "--fps must be positive, got " ++ Decimal.text Decimal.plain fps
  | badSettings error => error.message
  | uncreatableFile path => "creating " ++ String.ofList path

/-- A text to write to a file, and what to print when that is done. -/
structure Export where
  path : List Char
  text : String

/-- What is printed when a file has been written. -/
def Export.confirmation (e : Export) : String := "Wrote " ++ String.ofList e.path ++ "\n"

/-- What a run leaves behind: its output, and perhaps a file to write. -/
structure Report where
  printed : String
  file : Option Export := none

/-! ### Settings -/

/-- The pieces of a path between slashes. Empty ones and single dots lead nowhere and are left out. -/
def pathPieces (path : List Char) : List (List Char) :=
  (path.splitOn '/').filter fun piece => piece ≠ [] ∧ piece ≠ ['.']

/-- What follows the last dot of a file's name, in lowercase, unless the dot is its first character. -/
def fileExtension (path : List Char) : List Char :=
  match (pathPieces path).getLast? with
  | some (_ :: name) =>
    if name.contains '.' then ((name.reverse.takeWhile (· != '.')).reverse).map Char.toLower else []
  | _ => []

/-- The settings in the text of a file (`load_config`). -/
def readSettings (path : List Char) (text : Option String) : Except Failure TreeSettings := do
  let some text := text | throw (.unreadableSettings path)
  let parsed (format : String) (data : Option Data.Value) : Except Failure TreeSettings :=
    match data.bind TreeSettings.codec.read? with
    | some settings => .ok settings
    | none => .error (.malformedSettings format path)
  let extension := fileExtension path
  match String.ofList extension with
  | "yaml" | "yml" => parsed "YAML" (Data.Yaml.read? text)
  | "json" => parsed "JSON" (Data.Json.read? text)
  | _ => throw (.unsupportedExtension extension)

/-- The named tree, or the failure that there is none of the name (`parse_preset`). -/
def namedPreset (name : List Char) : Except Failure Preset :=
  match Preset.ofName? name with
  | some preset => .ok preset
  | none => .error (.unknownPreset name)

/-- The settings of the named tree or of the file. Of the two together, the name decides which grammar
is adapted and the file all else. -/
def TreeChoice.base (tree : TreeChoice) (text : Option String) : Except Failure TreeSettings :=
  match tree.config, tree.preset with
  | some path, some name => do
    let settings ← readSettings path text
    let preset ← namedPreset name
    return { settings with grammar := { settings.grammar with preset } }
  | some path, none => readSettings path text
  | none, some name => (namedPreset name).map TreeSettings.ofPreset
  | none, none => .ok {}

/-- The settings of the chosen tree (`resolve`). A count of passes and a seed stand above those of the base. -/
def TreeChoice.settings (tree : TreeChoice) (text : Option String) : Except Failure TreeSettings := do
  let base ← tree.base text
  return { base with
    grammar := { base.grammar with iterations := tree.iterations <|> base.grammar.iterations }
    seed := tree.seed <|> base.seed }

/-- The pipeline for the chosen tree. Its own seed stands above `chance`. -/
def TreeChoice.pipeline (tree : TreeChoice) (text : Option String) (chance : UInt64) :
    Except Failure Pipeline := do
  let settings ← tree.settings text
  (Pipeline.checked settings (settings.seed.getD chance)).mapError .badSettings

/-! ### Subcommands -/

def infoText : String :=
  s!"arbor-cli v{version}\n" ++ String.join (parts.map fun part => s!"{part}: {partInfo part}\n")

/-- A named tree with its grammar. The name takes eight characters at least. -/
def presetLine (preset : Preset) : String :=
  let system := preset.system
  let name := preset.name ++ String.ofList (List.replicate (8 - preset.name.length) ' ')
  let rules := preset.rules.map fun rule =>
    rule.symbol.toString ++ "=" ++ String.ofList rule.replacement
  name ++ " axiom=" ++ String.ofList system.start ++ " rules=[" ++ ", ".intercalate rules ++
    s!"] iterations={preset.iterations} symbols={system.expandedLength preset.iterations.toNat}\n"

def presetsText : String := String.join (Preset.all.map presetLine)

/-- The word of a grammar, cut off after a number of symbols. -/
def wordText (maxSymbols : Nat) (word : Word) : String :=
  let shown := String.ofList (word.take maxSymbols)
  if maxSymbols < word.length then shown ++ s!"... ({word.length} symbols)\n" else shown ++ "\n"

/-- The length of every word up to the last pass, one on a line. -/
def stepsText (system : LSystem) : String :=
  String.join (system.generateSteps.zipIdx.map fun (word, i) =>
    s!"generation {i}: {word.length} symbols\n")

/-- Prints the word of a tree, and before it the lengths on its way if they are asked for. -/
def generateReport (options : GenerateOptions) (pipeline : Pipeline) : Report where
  printed := (if options.steps then stepsText pipeline.system else "") ++
    wordText options.maxSymbols pipeline.generate

/-- How the growth went. -/
def growthText (scheduler : Scheduler) (draws : Nat) : String :=
  let stats := scheduler.stats
  s!"Grew {stats.branchesCompleted} branches (peak {stats.peakActiveBranches} at once) and " ++
  s!"{stats.leavesSpawned} leaves in {stats.clustersSpawned} clusters\n" ++
  s!"Simulated {Decimal.fixed 2 stats.elapsed}s over {stats.frames} frames, " ++
  s!"{scheduler.foliage.batches.length} leaf batches, {draws} draws\n"

/-- Lets the tree grow in an empty scene, draws its leaves and describes what is there. -/
def growReport (options : GrowOptions) (pipeline : Pipeline) : Except Failure Report := do
  let (scheduler, _) := pipeline.grow (Transform.atPosition options.originPoint)
  let scheduler ← scheduler.mapError .badSettings
  let (scheduler, scene) := scheduler.runToCompletion (1 / options.fps) Recording.empty
  let (draws, scene) := scheduler.foliage.submit scene
  return {
    printed := Outline.render (some options.list) scene ++ growthText scheduler draws
    file := options.obj.map fun path => ⟨path, Obj.render scene.combinedMesh⟩ }

/-- Runs a subcommand. `text` is the text of the settings file, if one is named and can be read. -/
def Action.run (action : Action) (text : Option String) (chance : UInt64) : Except Failure Report := do
  match action with
  | .info => return { printed := infoText }
  | .presets => return { printed := presetsText }
  | .generate options => return generateReport options (← options.tree.pipeline text chance)
  | .grow options =>
    if 0 < options.fps then growReport options (← options.tree.pipeline text chance)
    else throw (.frameRateNotPositive options.fps)

/-! ## Programs

The whole program, from the words of a command line to its ending. Files are reached through a store, so
that the program is the same on a disk and in memory.
-/

/-- Where settings are read and meshes are written. -/
class FileStore (m : Type → Type) where
  /-- The text of a file, if it can be read. -/
  read? (path : List Char) : m (Option String)
  /-- Makes a file, unless that is not possible. -/
  write (path : List Char) (text : String) : m Bool

/-- What a run printed and how it ended. -/
inductive Ending where
  | done (printed : String)
  | failed (printed : String) (failure : Failure)
  | misused
deriving DecidableEq

/-- The exit code of an ending. -/
def Ending.code : Ending → UInt32
  | done _ => 0
  | failed .. => 1
  | misused => 2

def Ending.printed : Ending → String
  | done printed => printed
  | failed printed _ => printed
  | misused => ""

/-- What is said about an ending that was not meant. -/
def Ending.complaint? : Ending → Option String
  | done _ => none
  | failed _ failure => some ("Error: " ++ failure.message)
  | misused => some ("error: unusable arguments\n\n" ++ Help.usageLine .program)

variable {m : Type → Type} [Monad m] [FileStore m]

/-- Ends a run whose report is known. The file comes last, after all else has been printed. -/
def finish : Except Failure Report → m Ending
  | .error failure => return .failed "" failure
  | .ok ⟨printed, none⟩ => return .done printed
  | .ok ⟨printed, some file⟩ => do
    if ← FileStore.write file.path file.text then return .done (printed ++ file.confirmation)
    else return .failed printed (.uncreatableFile file.path)

/-- Runs a subcommand, for which the settings file is read first. -/
def Action.perform (action : Action) (chance : UInt64) : m Ending := do
  let text ← match action.settingsPath? with
    | some path => FileStore.read? path
    | none => pure none
  finish (action.run text chance)

/-- Runs a command line. `chance` is the seed of a tree that asks for none. -/
def program (words : List (List Char)) (chance : UInt64) : m Ending :=
  match Request.ofWords words with
  | .run action => action.perform chance
  | .help topic => return .done (Help.page topic)
  | .misuse => return .misused

end Command

end Sapling
