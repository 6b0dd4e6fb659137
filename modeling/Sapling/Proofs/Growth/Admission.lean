import Sapling.Growth.Pipeline
import Sapling.Proofs.Grammar.Passes
import Sapling.Proofs.Growth.Runs
import Sapling.Proofs.Settings.Checks

/-! A pipeline checks its settings once, when it is made. Whoever draws or grows trees with it later finds
the same settings and the same grammar, so the checks of each stage pass again, and the words of the grammar
are derived as often as it says. -/
namespace Sapling

open Sapling.Random

/-! ## Stages -/

/-- What settings describe has been checked. -/
theorem GrammarSettings.system_valid {settings : GrammarSettings} {system : LSystem}
    (described : settings.system = .ok system) : system.validate = .ok () := by
  unfold GrammarSettings.system at described
  cases rules : settings.ruleSet with
  | error fault =>
    rw [rules] at described
    cases described
  | ok rules' =>
    rw [rules] at described
    exact LSystem.checked_ok described

/-- The checks of a scheduler are among those of the settings. -/
theorem Scheduler.checked_of_valid {settings : TreeSettings} (valid : settings.validate = .ok ())
    (tree : Interpretation) (source : Generator) :
    checked tree settings source = .ok (atStart tree settings source) := by
  have accepted := TreeSettings.validate_ok_iff.mp valid
  have timing := GrowthTiming.validate_ok_iff.mpr accepted.timing
  have mesh := MeshSettings.validate_ok_iff.mpr accepted.mesh
  have leaves := LeafSettings.validate_ok_iff.mpr accepted.leaves
  have bark : settings.bark.validate = .ok () := Ensure.nonNegative_ok_iff.mpr accepted.colorVariance
  simp only [checked, Batcher.checked, timing, mesh, bark, leaves]
  rfl

namespace Pipeline

/-- A use of a pipeline. -/
inductive Call where
  | interpret (origin : Transform)
  | grow (origin : Transform)

/-- The pipeline after a use of it. -/
def after (pipeline : Pipeline) : Call → Pipeline
  | .interpret origin => (pipeline.interpret origin).2
  | .grow origin => (pipeline.grow origin).2

/-- The pipeline after one use after the other. -/
def run (pipeline : Pipeline) (calls : List Call) : Pipeline := calls.foldl after pipeline

/-- A use only moves the generator on. -/
theorem after_kept (pipeline : Pipeline) (call : Call) :
    (pipeline.after call).settings = pipeline.settings ∧
      (pipeline.after call).system = pipeline.system := by
  cases call <;> exact ⟨rfl, rfl⟩

private theorem run_kept (pipeline : Pipeline) (calls : List Call) :
    (pipeline.run calls).settings = pipeline.settings ∧
      (pipeline.run calls).system = pipeline.system := by
  induction calls generalizing pipeline with
  | nil => exact ⟨rfl, rfl⟩
  | cons call calls ih =>
    obtain ⟨settings, system⟩ := after_kept pipeline call
    exact ⟨(ih _).1.trans settings, (ih _).2.trans system⟩

/-- A pipeline with settings that pass their checks grows a tree wherever it is asked to. -/
theorem grow_of_valid {pipeline : Pipeline} (valid : pipeline.settings.validate = .ok ())
    (origin : Transform) : ∃ scheduler, (pipeline.grow origin).1 = .ok scheduler := by
  unfold grow
  exact ⟨_, Scheduler.checked_of_valid valid _ _⟩

/-- What a pipeline is made of. The other checks pass once those of the settings have. -/
theorem checked_eq (settings : TreeSettings) (seed : UInt64) :
    checked settings seed = (do
      settings.validate
      let system ← settings.grammar.system
      return { settings, system, generator := .ofSeed seed }) := by
  unfold checked
  cases valid : settings.validate with
  | error fault => rfl
  | ok _ =>
    have turtle := TurtleSettings.validate_ok_iff.mpr (TreeSettings.validate_ok_iff.mp valid).turtle
    rw [turtle]
    rfl

/-- Settings make a pipeline if and only if they pass their checks, and otherwise the fault is the one
that the checks find. -/
theorem checked_of_validate (settings : TreeSettings) (seed : UInt64) :
    (∃ system, settings.validate = .ok () ∧ settings.grammar.system = .ok system ∧
      checked settings seed = .ok { settings, system, generator := .ofSeed seed }) ∨
    ∃ fault, settings.validate = .error fault ∧ checked settings seed = .error fault := by
  rw [checked_eq]
  cases valid : settings.validate with
  | error fault => exact .inr ⟨fault, rfl, rfl⟩
  | ok _ =>
    obtain ⟨system, described⟩ := (TreeSettings.validate_ok_iff.mp valid).grammar
    rw [described]
    exact .inl ⟨system, rfl, rfl, rfl⟩

/-- Settings are checked once. A pipeline is made if and only if they pass the checks, and else their
fault is reported. After any uses of it the settings and the grammar are those that it was made with, the
next tree grows from any origin, and the word of the tree is derived in just as many passes as the
grammar says, which are no more than the limit. -/
theorem checked_suffices (settings : TreeSettings) (seed : UInt64) :
    ((∃ pipeline, checked settings seed = .ok pipeline) ↔ settings.validate = .ok ()) ∧
    (∀ fault, checked settings seed = .error fault ↔ settings.validate = .error fault) ∧
    ∀ pipeline, checked settings seed = .ok pipeline → ∀ calls,
      let later := pipeline.run calls
      later.settings = settings ∧ settings.grammar.system = .ok later.system ∧
      (∀ origin, ∃ scheduler, (later.grow origin).1 = .ok scheduler) ∧
      later.system.iterations ≤ maxIterations ∧
      later.generate =
        Nat.repeat later.system.rules.deriveOnce later.system.iterations.toNat later.system.start ∧
      later.system.generateSteps.getLast? = some later.generate := by
  rcases checked_of_validate settings seed with ⟨system, valid, described, made⟩ | ⟨fault, invalid, failed⟩
  · rw [made, valid]
    refine ⟨iff_of_true ⟨_, rfl⟩ rfl, fun fault => iff_of_false nofun nofun, ?_⟩
    rintro pipeline ⟨⟩ calls
    obtain ⟨sameSettings, sameSystem⟩ := run_kept { settings, system, generator := .ofSeed seed } calls
    generalize run _ calls = later at sameSettings sameSystem
    dsimp only at sameSettings sameSystem
    obtain ⟨within, derived⟩ := LSystem.generate_of_valid (GrammarSettings.system_valid described)
    rw [← sameSystem] at described within derived
    rw [← sameSettings] at valid
    exact ⟨sameSettings, described, grow_of_valid valid, within, derived,
      RuleSet.getLast?_generations ..⟩
  · rw [failed, invalid]
    refine ⟨iff_of_false (by rintro ⟨_, ⟨⟩⟩) nofun, fun other => ?_, by rintro _ ⟨⟩⟩
    rw [Except.error.injEq, Except.error.injEq]

/-- The usual settings make a pipeline for a maple, which grows another one after two others. -/
theorem maple_grows_again :
    ∃ pipeline, checked {} 7 = .ok pipeline ∧ ∃ scheduler,
      ((pipeline.run [.grow .identity, .interpret .identity]).grow .identity).1 = .ok scheduler := by
  obtain ⟨made, -, later⟩ := checked_suffices {} 7
  obtain ⟨pipeline, accepted⟩ := made.mpr rfl
  obtain ⟨-, -, grows, -⟩ := later pipeline accepted [.grow .identity, .interpret .identity]
  exact ⟨pipeline, accepted, grows .identity⟩

end Pipeline


end Sapling
