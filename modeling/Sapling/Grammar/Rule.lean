import Sapling.ConfigError
import Sapling.Data.Codec
import Sapling.Text
/-!
Production rules and tables of them. A table has at most one rule for a symbol: the first that is
offered is kept, and later ones are refused. `RuleSet.offer` keeps that, which is a field of the type, and
so is that the index of a table is the one of its rules.
-/
namespace Sapling

/-- A sequence of symbols. -/
abbrev Word := List Char

/-- Every `symbol` is replaced by `replacement`. -/
structure Rule where
  symbol : Char
  replacement : Word
deriving DecidableEq, Repr

namespace Rule

/-- The text before and after the first equals sign. -/
def splitEquals? (text : Word) : Option (Word × Word) :=
  match text.span (· != '=') with
  | (_, []) => none
  | (left, _ :: right) => some (left, right)

/-- The text before and after the first arrow. -/
def splitArrow? : Word → Option (Word × Word)
  | '-' :: '>' :: right => some ([], right)
  | c :: rest => (splitArrow? rest).map fun (left, right) => (c :: left, right)
  | [] => none

/-- Reads `symbol=replacement`, or with an arrow where there is no equals sign (`parse`). Blanks around the
two sides are dropped, and the left side must be one symbol. -/
def parse (text : Word) : Except ConfigError Rule :=
  match (splitEquals? text).or (splitArrow? text) with
  | none => .error (.malformedRule text)
  | some (left, right) =>
    match Text.trim left with
    | [symbol] => .ok ⟨symbol, Text.trim right⟩
    | _ => .error (.malformedRule text)

/-- Rules are stored as records of a text of one character and the text that replaces it. -/
def codec : Data.Codec Rule where
  write r := .record [("symbol", Data.Codec.char.write r.symbol),
    ("replacement", Data.Codec.chars.write r.replacement)]
  read? v := do
    let fields ← Data.Fields.ofValue? 2 v
    let symbol ← fields.required 0 "symbol" .char
    let replacement ← fields.required 1 "replacement" .chars
    some ⟨symbol, replacement⟩

end Rule

/-- A table of rules in the order they came in, no two for the same symbol, with an index of the places where
the rules of the symbols stand (`RuleSet`). -/
structure RuleSet where
  rules : List Rule
  index : List (Char × Nat)
  distinct : (rules.map (·.symbol)).Nodup
  indexed : index = (rules.map (·.symbol)).zipIdx
deriving DecidableEq

namespace RuleSet

/-- The table without rules. -/
def empty : RuleSet := ⟨[], [], List.nodup_nil, rfl⟩

/-- Where in the table the rule of a symbol stands. -/
def indexOf? (s : RuleSet) (symbol : Char) : Option Nat := s.index.lookup symbol

/-- The replacement of a symbol (`get`). -/
def get? (s : RuleSet) (symbol : Char) : Option Word :=
  ((s.indexOf? symbol).bind (s.rules[·]?)).map (·.replacement)

/-- The symbol has a rule. -/
def contains (s : RuleSet) (symbol : Char) : Bool := (s.indexOf? symbol).isSome

/-- How many rules there are. -/
def size (s : RuleSet) : Nat := s.rules.length

/-- The index names the symbols that have a rule, and no others. -/
theorem contains_iff {s : RuleSet} {symbol : Char} :
    s.contains symbol ↔ symbol ∈ s.rules.map (·.symbol) := by
  have names : s.index.map (·.1) = s.rules.map (·.symbol) := by
    rw [s.indexed]
    exact List.zipIdx_map_fst 0 _
  rw [contains, indexOf?, List.lookup_isSome_iff, ← names, List.mem_map]
  refine exists_congr fun entry => and_congr Iff.rfl ?_
  rw [beq_iff_eq, eq_comm]

/-- Adds a rule at the end, unless its symbol has one already, and tells whether it was added (`insert`). -/
def offer (s : RuleSet) (rule : Rule) : Bool × RuleSet :=
  if h : s.contains rule.symbol then (false, s)
  else
    (true,
      { rules := s.rules ++ [rule]
        index := s.index ++ [(rule.symbol, s.rules.length)]
        distinct := by
          rw [List.map_append, List.nodup_append]
          refine ⟨s.distinct, by simp, ?_⟩
          intro a held b single same
          simp only [List.map_cons, List.map_nil, List.mem_singleton] at single
          exact h (contains_iff.2 (single ▸ same ▸ held))
        indexed := by simp [s.indexed, List.zipIdx_append] })

/-- Adds a rule at the end, unless its symbol has one already. -/
def insert (s : RuleSet) (rule : Rule) : RuleSet := (s.offer rule).2

/-- A table with one more rule, unless the symbol has one already (`with_rule`). -/
def withRule (s : RuleSet) (symbol : Char) (replacement : Word) : RuleSet := s.insert ⟨symbol, replacement⟩

/-- The table of the first rule for each symbol. -/
def ofList (rules : List Rule) : RuleSet := rules.foldl insert empty

/-- A table is stored as the list of its rules. -/
def codec : Data.Codec RuleSet where
  write s := (Data.Codec.list Rule.codec).write s.rules
  read? v := ((Data.Codec.list Rule.codec).read? v).map ofList

end RuleSet

end Sapling
