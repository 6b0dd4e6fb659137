import Sapling.Decimal
import Sapling.Geometry.Orientation
/-!
What a command line asks for: one of four subcommands with its options, or help; and the pages of help.
-/
namespace Sapling

/-! ## Options

Options of a command line. A table lists them, each with its names, the values it takes and what it
does to the settings that are being collected. Words are read from left to right, and the first fault
or request for help ends the reading.
-/

namespace Command

/-- An option, and how its values change the settings `σ`. -/
structure CommandOption (σ : Type) where
  /-- The name after two dashes. -/
  name : String
  /-- The letter after one dash. -/
  letter : Option Char := none
  /-- What the help calls its values, one for each value it takes. -/
  values : List String := []
  /-- A value may be a negative number in a word of its own. -/
  negativeValues : Bool := false
  /-- It may be given more than once. -/
  repeatable : Bool := false
  /-- Its line in the help. -/
  about : String
  /-- The value that is used where the option is left out, if the help tells it. -/
  absent : Option String := none
  /-- Puts the values into the settings, if they can be read. -/
  store : List (List Char) → σ → Option σ

/-- Why reading stops before the end. -/
inductive Stop where
  | misuse
  | help
deriving DecidableEq, Repr

/-- Settings with the names of the options that have been seen. -/
structure Collected (σ : Type) where
  settings : σ
  seen : List String := []

variable {σ : Type}

/-- The effect of an option with its values. -/
def CommandOption.apply (option : CommandOption σ) (values : List (List Char)) (c : Collected σ) :
    Except Stop (Collected σ) :=
  if c.seen.contains option.name && !option.repeatable then .error .misuse
  else
    match option.store values c.settings with
    | some settings => .ok ⟨settings, option.name :: c.seen⟩
    | none => .error .misuse

/-! ### Words -/

/-- Digits with a point behind the first of them, and perhaps an exponent without a sign. -/
def isUnsignedNumber (cs : List Char) : Bool :=
  let (number, exponent) := cs.span fun c => c != 'e' && c != 'E'
  number.all (fun c => c.isDigit || c = '.') && number.count '.' ≤ 1 && number.head? != some '.' &&
    (exponent = [] || (number ≠ [] && exponent.length > 1 && (exponent.drop 1).all Char.isDigit))

/-- A word that cannot be a value of its own: it starts with a dash and is more than that. -/
def isDashed : List Char → Bool
  | '-' :: _ :: _ => true
  | _ => false

/-- The word can follow the option as one of its values. -/
def CommandOption.accepts (option : CommandOption σ) (word : List Char) : Bool :=
  !isDashed word || (option.negativeValues && isUnsignedNumber (word.drop 1))

/-- The values that follow an option, and the words behind them. -/
def CommandOption.takeValues (option : CommandOption σ) (words : List (List Char)) :
    Except Stop (List (List Char) × List (List Char)) :=
  let count := option.values.length
  let values := words.take count
  if values.length = count ∧ values.all option.accepts then .ok (values, words.drop count)
  else .error .misuse

/-- A value that is written in the same word as its option. -/
def CommandOption.applyAttached (option : CommandOption σ) (value : List Char) (c : Collected σ) :
    Except Stop (Collected σ) :=
  if option.values.length = 1 then option.apply [value] c else .error .misuse

/-- An option without a value in its word. -/
def CommandOption.applyFollowed (option : CommandOption σ) (words : List (List Char))
    (c : Collected σ) : Except Stop (Collected σ × List (List Char)) := do
  let (values, rest) ← option.takeValues words
  return (← option.apply values c, rest)

/-- A word with two dashes, which are taken off. The name ends at the first `=`. -/
def readName (options : List (CommandOption σ)) (word : List Char) (words : List (List Char))
    (c : Collected σ) : Except Stop (Collected σ × List (List Char)) :=
  let (name, attached) := word.span (· != '=')
  if word = "help".toList then .error .help
  else
    match options.find? (·.name.toList = name), attached with
    | none, _ => .error .misuse
    | some option, [] => option.applyFollowed words c
    | some option, _ :: value => return (← option.applyAttached value c, words)

/-- A word with one dash, which is taken off. Letters without values may share a word; one with a value
takes the rest of the word, without an equals sign in front, or else the next word. -/
def readLetters (options : List (CommandOption σ)) (word : List Char) (words : List (List Char))
    (c : Collected σ) : Except Stop (Collected σ × List (List Char)) :=
  match word with
  | [] => .ok (c, words)
  | letter :: rest =>
    if letter = 'h' then .error .help
    else
      match options.find? (·.letter = some letter) with
      | none => .error .misuse
      | some option =>
        if option.values.isEmpty then do readLetters options rest words (← option.apply [] c)
        else
          match rest with
          | [] => option.applyFollowed words c
          | '=' :: value | value => return (← option.applyAttached value c, words)

/-- Reads options up to the first word that is none, at most `fuel` of the words. -/
def readOptions (options : List (CommandOption σ)) (fuel : Nat) (words : List (List Char))
    (c : Collected σ) : Except Stop (Collected σ × List (List Char)) :=
  match fuel, words with
  | fuel + 1, ('-' :: '-' :: letter :: name) :: words => do
    let (c, words) ← readName options (letter :: name) words c
    readOptions options fuel words c
  | fuel + 1, ('-' :: letter :: letters) :: words =>
    if letter = '-' then .ok (c, ['-', '-'] :: words)
    else do
      let (c, words) ← readLetters options (letter :: letters) words c
      readOptions options fuel words c
  | _, words => .ok (c, words)

/-- The settings after all options at the front of the words, and the words behind them. -/
def collect (options : List (CommandOption σ)) (settings : σ) (words : List (List Char)) :
    Except Stop (σ × List (List Char)) := do
  let (c, rest) ← readOptions options words.length words ⟨settings, []⟩
  return (c.settings, rest)

/-- The settings of words that are all options; two dashes may end them. -/
def collectAll (options : List (CommandOption σ)) (settings : σ) (words : List (List Char)) :
    Except Stop σ := do
  match ← collect options settings words with
  | (settings, []) | (settings, [['-', '-']]) => return settings
  | _ => throw .misuse

end Command

/-! ## Requests

What a command line asks for: one of four subcommands with its options, or help. -/

namespace Command

/-- Which tree is meant (`TreeArgs`). -/
structure TreeChoice where
  preset : Option (List Char) := none
  /-- The path of a settings file. -/
  config : Option (List Char) := none
  iterations : Option UInt32 := none
  seed : Option UInt64 := none
deriving DecidableEq, Repr

/-- What is asked of a word that is generated. -/
structure GenerateOptions where
  tree : TreeChoice := {}
  steps : Bool := false
  maxSymbols : Nat := 200
deriving DecidableEq, Repr

/-- What is asked of a tree that grows. -/
structure GrowOptions where
  tree : TreeChoice := {}
  fps : Float32 := 60
  /-- The coordinates that were given for the origin, as often as that was done. -/
  origin : List Float32 := []
  /-- The path of the file for the branch meshes. -/
  obj : Option (List Char) := none
  list : Nat := 12
deriving DecidableEq, Repr

/-- The origin of the tree. Coordinates of more than one point are of no use. -/
def GrowOptions.originPoint (options : GrowOptions) : Vec3 :=
  match options.origin with
  | [x, y, z] => ⟨x, y, z⟩
  | _ => .zero

/-- A subcommand with its options (`Commands`). -/
inductive Action where
  | info
  | presets
  | generate (options : GenerateOptions)
  | grow (options : GrowOptions)
deriving DecidableEq, Repr

/-- The choice of a tree, where there is one. -/
def Action.tree? : Action → Option TreeChoice
  | .generate options => some options.tree
  | .grow options => some options.tree
  | _ => none

/-- The path of the settings file, where one is named. -/
def Action.settingsPath? (action : Action) : Option (List Char) := action.tree?.bind (·.config)

/-- What a page of help is about. -/
inductive Topic where
  | program
  | info
  | presets
  | generate
  | grow
  | help
deriving DecidableEq, Repr

/-- What a command line comes to. -/
inductive Request where
  | run (action : Action)
  | help (topic : Topic)
  | misuse
deriving DecidableEq, Repr

/-! ### Values -/

def path? (value : List Char) : Option (List Char) := if value = [] then none else some value

/-- An integer that fits 32 bits. -/
def word32? (value : List Char) : Option UInt32 := do
  let n ← Decimal.integer? value
  if 0 ≤ n ∧ n < UInt32.size then some (UInt32.ofNat n.toNat) else none

/-- A natural number that fits 64 bits. -/
def size? (value : List Char) : Option Nat := do
  let n ← Decimal.unsigned? value
  if n < UInt64.size then some n else none

def word64? (value : List Char) : Option UInt64 := (size? value).map UInt64.ofNat

/-- The effect of an option with one value. -/
def storeOne (read? : List Char → Option α) (put : α → σ → σ) : List (List Char) → σ → Option σ
  | [value], settings => (read? value).map (put · settings)
  | _, _ => none

/-- The effect of an option without values. -/
def storeFlag (put : σ → σ) : List (List Char) → σ → Option σ
  | [], settings => some (put settings)
  | _, _ => none

/-! ### Tables -/

/-- The options of the program itself. -/
def programOptions : List (CommandOption Unit) := [
  { name := "verbose", letter := some 'v', about := "Enable verbose logging",
    store := storeFlag id }]

/-- The options by which a tree is chosen, for settings that hold such a choice. -/
def treeOptions (change : (TreeChoice → TreeChoice) → σ → σ) : List (CommandOption σ) := [
  { name := "preset", letter := some 'p', values := ["PRESET"],
    about := "Grammar preset (maple, pine, fern, bonsai)",
    store := storeOne some fun name => change fun tree => { tree with preset := some name } },
  { name := "config", letter := some 'c', values := ["CONFIG"],
    about := "YAML or JSON tree configuration",
    store := storeOne path? fun path => change fun tree => { tree with config := some path } },
  { name := "iterations", letter := some 'i', values := ["ITERATIONS"],
    about := "Override the number of rewriting passes",
    store := storeOne word32? fun n => change fun tree => { tree with iterations := some n } },
  { name := "seed", letter := some 's', values := ["SEED"],
    about := "Fixed RNG seed for a reproducible tree",
    store := storeOne word64? fun seed => change fun tree => { tree with seed := some seed } }]

/-- The options of the subcommand that prints a word. -/
def generateOptions : List (CommandOption GenerateOptions) :=
  treeOptions (fun change options => { options with tree := change options.tree }) ++ [
  { name := "steps", about := "Print the length of every intermediate generation",
    store := storeFlag fun options => { options with steps := true } },
  { name := "max-symbols", values := ["MAX_SYMBOLS"],
    about := "Print at most this many symbols of the sequence", absent := some "200",
    store := storeOne size? fun n options => { options with maxSymbols := n } }]

/-- Adds coordinates to those of the origin. -/
def storeOrigin (values : List (List Char)) (options : GrowOptions) : Option GrowOptions := do
  let coordinates ← values.mapM Decimal.readSingle?
  some { options with origin := options.origin ++ coordinates }

/-- The options of the subcommand that grows a tree. -/
def growOptions : List (CommandOption GrowOptions) :=
  treeOptions (fun change options => { options with tree := change options.tree }) ++ [
  { name := "fps", values := ["FPS"], about := "Simulated frames per second", absent := some "60",
    store := storeOne Decimal.readSingle? fun fps options => { options with fps } },
  { name := "origin", values := ["X", "Y", "Z"], negativeValues := true, repeatable := true,
    about := "Tree origin", store := storeOrigin },
  { name := "obj", values := ["OBJ"], about := "Write the branch meshes to a Wavefront OBJ file",
    store := storeOne path? fun path options => { options with obj := some path } },
  { name := "list", values := ["LIST"], about := "Number of nodes listed in the scene summary",
    absent := some "12", store := storeOne size? fun n options => { options with list := n } }]

/-! ### Reading -/

/-- The request of a subcommand, from its options. -/
def requestOf (topic : Topic) (options : List (CommandOption σ)) (settings : σ) (act : σ → Action)
    (words : List (List Char)) : Request :=
  match collectAll options settings words with
  | .ok settings => .run (act settings)
  | .error .help => .help topic
  | .error .misuse => .misuse

/-- Every subcommand by its name. -/
def topics : List (String × Topic) :=
  [("info", .info), ("presets", .presets), ("generate", .generate), ("grow", .grow), ("help", .help)]

/-- The topic with this name. -/
def topic? (name : List Char) : Option Topic :=
  (topics.find? (·.1.toList = name)).map (·.2)

/-- What comes after the options of the program: a subcommand, or the topic of a page of help. -/
def readSubcommand : List (List Char) → Request
  | [] => .misuse
  | name :: words =>
    match topic? name with
    | some .info => requestOf .info [] () (fun _ => .info) words
    | some .presets => requestOf .presets [] () (fun _ => .presets) words
    | some .generate => requestOf .generate generateOptions {} .generate words
    | some .grow => requestOf .grow growOptions {} .grow words
    | some .help =>
      match words with
      | [] => .help .program
      | [name] => (topic? name).elim .misuse .help
      | _ => .misuse
    | _ => .misuse

/-- The request of a whole command line, without the name of the program. -/
def Request.ofWords (words : List (List Char)) : Request :=
  match collect programOptions () words with
  | .ok (_, words) => readSubcommand words
  | .error .help => .help .program
  | .error .misuse => .misuse

end Command

/-! ## Pages of help

The pages of help: what a command does, how it is called, and a table of what it takes. -/

namespace Command.Help

def programName : String := "arbor-cli"

/-- The sentence about a topic. -/
def about : Topic → String
  | .program => "Procedural L-system trees, grown headlessly"
  | .info => "Print version and crate info"
  | .presets => "List the built-in grammar presets"
  | .generate => "Rewrite a grammar and print the resulting sequence"
  | .grow => "Grow a tree to completion in a recording scene"
  | .help => "Print this message or the help of the given subcommand(s)"

/-- How a topic is called, after the name of the program. -/
def usage : Topic → String
  | .program => "[OPTIONS] <COMMAND>"
  | .info => "info"
  | .presets => "presets"
  | .generate => "generate [OPTIONS]"
  | .grow => "grow [OPTIONS]"
  | .help => "help [COMMAND]..."

/-! ### Tables -/

/-- Two columns, the left one as wide as its longest entry. -/
def table (title : String) (rows : List (String × String)) : String :=
  let width := (rows.map (·.1.length)).foldl max 0
  let row (left right : String) : String :=
    "  " ++ left ++ String.ofList (List.replicate (width - left.length) ' ') ++ "  " ++ right ++ "\n"
  title ++ ":\n" ++ String.join (rows.map fun (left, right) => row left right)

/-- An option with its names and values, and what it is for. -/
def optionRow (option : CommandOption σ) : String × String :=
  let letter := match option.letter with
    | some letter => "-" ++ letter.toString ++ ", "
    | none => "    "
  let values := String.join (option.values.map fun value => " <" ++ value ++ ">")
  let absent := match option.absent with
    | some text => " [default: " ++ text ++ "]"
    | none => ""
  (letter ++ "--" ++ option.name ++ values, option.about ++ absent)

/-- The table of some options, and of the one for help. -/
def optionTable (options : List (CommandOption σ)) : String :=
  table "Options" (options.map optionRow ++ [("-h, --help", "Print help")])

def commandTable : String := table "Commands" (topics.map fun (name, topic) => (name, about topic))

/-- The tables on the page of a topic. -/
def tables : Topic → String
  | .program => commandTable ++ "\n" ++ optionTable programOptions
  | .info | .presets => optionTable ([] : List (CommandOption Unit))
  | .generate => optionTable generateOptions
  | .grow => optionTable growOptions
  | .help => table "Arguments" [("[COMMAND]...", "Print help for the subcommand(s)")]

/-- The line that tells how a topic is called. -/
def usageLine (topic : Topic) : String := "Usage: " ++ programName ++ " " ++ usage topic

/-- A page of help. -/
def page (topic : Topic) : String :=
  about topic ++ "\n\n" ++ usageLine topic ++ "\n\n" ++ tables topic

end Command.Help

end Sapling
