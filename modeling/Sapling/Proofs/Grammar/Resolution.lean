import Sapling.Grammar.Preset
import Sapling.Proofs.Grammar.RuleText
import Sapling.Proofs.Grammar.Tables

/-! The L-system that settings describe, part by part. A text that describes no rule is a fault before the
number of passes is one, and of several such texts the first is named. Rules as text take the place of all
rules of the named tree, and the first for each symbol counts. -/
namespace Sapling

namespace Rule

/-- The rule that a text describes, if it describes one. -/
def ofText? (text : Word) : Option Rule := (parse text).toOption

/-- All rules of a list of texts, or the fault of the first text that describes none. -/
theorem mapM_parse (texts : List Word) : texts.mapM parse =
    match texts.find? fun text => !(parse text).isOk with
    | some text => .error (.malformedRule text)
    | none => .ok (texts.filterMap ofText?) := by
  induction texts with
  | nil => rfl
  | cons text texts ih =>
    rw [List.mapM_cons, List.find?_cons, List.filterMap_cons, ofText?]
    cases outcome : parse text with
    | error fault =>
      rw [eq_malformedRule_of_parse outcome]
      rfl
    | ok rule =>
      rw [ih]
      cases texts.find? fun text => !(parse text).isOk <;> rfl

/-- What a text puts in the place of a symbol, if it describes a rule for that symbol. -/
def replacementIn? (symbol : Char) (text : Word) : Option Word :=
  match parse text with
  | .ok rule => if rule.symbol = symbol then some rule.replacement else none
  | .error _ => none

end Rule

/-- The rules of texts are looked up text by text. -/
theorem RuleSet.get?_ofTexts (texts : List Word) (symbol : Char) :
    (ofList (texts.filterMap Rule.ofText?)).get? symbol = texts.findSome? (Rule.replacementIn? symbol) := by
  rw [get?_ofList]
  induction texts with
  | nil => rfl
  | cons text texts ih =>
    rw [List.filterMap_cons, List.findSome?_cons, Rule.ofText?, Rule.replacementIn?]
    cases Rule.parse text with
    | error fault => exact ih
    | ok rule =>
      by_cases same : rule.symbol = symbol
      · simp [same, Except.toOption]
      · simpa [same, Except.toOption] using ih

private theorem LSystem.checked_eq (start : Word) (rules : RuleSet) (iterations : UInt32) :
    checked start rules iterations =
      if maxIterations < iterations then .error (.iterationsOutOfRange iterations maxIterations)
      else .ok ⟨start, rules, iterations⟩ := by
  by_cases beyond : maxIterations < iterations
  · simp only [checked, validate, beyond, ↓reduceIte]
    rfl
  · simp only [checked, validate, beyond, ↓reduceIte]
    rfl

namespace GrammarSettings

/-- The first text that describes no rule. -/
def unreadable? (settings : GrammarSettings) : Option Word :=
  settings.rules.find? fun text => !(Rule.parse text).isOk

/-- The start word that is given, or else that of the tree. -/
def startWord (settings : GrammarSettings) : Word := settings.start.getD settings.preset.system.start

/-- The number of passes that is given, or else that of the tree. -/
def passes (settings : GrammarSettings) : UInt32 :=
  settings.iterations.getD settings.preset.system.iterations

/-- What replaces a symbol. If there are rules as text, the first of them for the symbol says so, and else the
rules of the tree. -/
def replacement? (settings : GrammarSettings) (symbol : Char) : Option Word :=
  if settings.rules = [] then settings.preset.system.rules.get? symbol
  else settings.rules.findSome? (Rule.replacementIn? symbol)

private theorem ruleSet_of_unreadable {settings : GrammarSettings} {text : Word}
    (found : settings.unreadable? = some text) : settings.ruleSet = .error (.malformedRule text) := by
  unfold unreadable? at found
  have given : settings.rules.isEmpty = false := by
    rw [List.isEmpty_eq_false_iff]
    intro empty
    rw [empty] at found
    cases found
  rw [ruleSet, given, if_neg Bool.false_ne_true, Rule.mapM_parse, found]
  rfl

private theorem ruleSet_of_readable {settings : GrammarSettings} (readable : settings.unreadable? = none) :
    ∃ table, settings.ruleSet = .ok table ∧ ∀ symbol, table.get? symbol = settings.replacement? symbol := by
  unfold unreadable? at readable
  unfold ruleSet replacement?
  by_cases empty : settings.rules = []
  · rw [if_pos (List.isEmpty_iff.mpr empty)]
    exact ⟨_, rfl, fun symbol => (if_pos empty).symm⟩
  · rw [if_neg (mt List.isEmpty_iff.mp empty), Rule.mapM_parse, readable]
    exact ⟨_, rfl, fun symbol => (RuleSet.get?_ofTexts ..).trans (if_neg empty).symm⟩

private theorem system_of_unreadable {settings : GrammarSettings} {text : Word}
    (found : settings.unreadable? = some text) : settings.system = .error (.malformedRule text) := by
  rw [system, ruleSet_of_unreadable found]
  rfl

private theorem system_of_readable {settings : GrammarSettings} (readable : settings.unreadable? = none) :
    ∃ table : RuleSet, (∀ symbol, table.get? symbol = settings.replacement? symbol) ∧
      settings.system =
        if maxIterations < settings.passes then
          .error (.iterationsOutOfRange settings.passes maxIterations)
        else .ok ⟨settings.startWord, table, settings.passes⟩ := by
  obtain ⟨table, rules, replaced⟩ := ruleSet_of_readable readable
  refine ⟨table, replaced, ?_⟩
  rw [system, rules]
  exact LSystem.checked_eq ..

/-- What becomes of settings for a grammar. If some of their texts describe no rule, the first of them is named
as malformed, whatever the number of passes. Otherwise they are refused if and only if the number of passes, the
given one or that of the tree, is beyond the limit. Otherwise they describe the system with the start word that
is given or that of the tree, with that number of passes, and with a table that replaces each symbol as the
first text with a rule for it says, or, where there are no texts, as the tree says. -/
theorem system_of_settings (settings : GrammarSettings) :
    (∀ text, settings.system = .error (.malformedRule text) ↔ settings.unreadable? = some text) ∧
    (∀ value limit, settings.system = .error (.iterationsOutOfRange value limit) ↔
      settings.unreadable? = none ∧ maxIterations < settings.passes ∧ value = settings.passes ∧
        limit = maxIterations) ∧
    (settings.unreadable? = none → settings.passes ≤ maxIterations → ∃ table : RuleSet,
      settings.system = .ok ⟨settings.startWord, table, settings.passes⟩ ∧
      ∀ symbol, table.get? symbol = settings.replacement? symbol) := by
  cases found : settings.unreadable? with
  | some text => simp [system_of_unreadable found, eq_comm]
  | none =>
    obtain ⟨table, replaced, outcome⟩ := system_of_readable found
    rw [outcome]
    by_cases beyond : maxIterations < settings.passes
    · simp [beyond, eq_comm]
    · simp only [beyond, ↓reduceIte]
      exact ⟨by simp, by simp, fun _ _ => ⟨table, rfl, replaced⟩⟩

/-- A stem that doubles on a pine. Its second rule for stems is passed over, and the buds of pines have no rule
here. With a text without a rule it is refused for that, even where it has too many passes. -/
theorem system_of_stem_on_pine :
    let stem : GrammarSettings :=
      { preset := .pine, start := some ['F'], rules := ["F -> FF".toList, "F=F".toList], iterations := some 3 }
    let broken : GrammarSettings :=
      { stem with rules := stem.rules ++ ["XY=F".toList, "=F".toList], iterations := some 11 }
    stem.unreadable? = none ∧ stem.passes ≤ maxIterations ∧
    (∃ table : RuleSet, stem.system = .ok ⟨['F'], table, 3⟩ ∧ table.get? 'F' = some ['F', 'F'] ∧
      table.get? 'X' = none) ∧
    broken.system = .error (.malformedRule "XY=F".toList) ∧
    { stem with iterations := some 11 }.system = .error (.iterationsOutOfRange 11 10) := by
  intro stem broken
  have readable : stem.unreadable? = none := by decide
  have few : stem.passes ≤ maxIterations := by decide
  obtain ⟨table, described, replaced⟩ := (system_of_settings stem).2.2 readable few
  have malformed := ((system_of_settings broken).1 "XY=F".toList).mpr (by decide)
  have many := ((system_of_settings { stem with iterations := some 11 }).2.1 11 10).mpr (by decide)
  have doubled : stem.replacement? 'F' = some ['F', 'F'] := by decide
  have bud : stem.replacement? 'X' = none := by decide
  exact ⟨readable, few, ⟨table, described, (replaced 'F').trans doubled, (replaced 'X').trans bud⟩,
    malformed, many⟩

end GrammarSettings


end Sapling
