import Sapling.Proofs.Turtle.Counts

/-! Noise in a word leaves no mark on the tree. Symbols that mean nothing and branch ends without a
beginning are passed over, and a branch that is open at the end ends as if the word said so. The turtles of
a word and of its tidy form go in lockstep: they always have the same pose, stack and skeleton. -/
namespace Sapling

open Sapling.Random

namespace Brackets

/-- All symbols that mean something. -/
def symbols : List Char := ['F', '+', '-', '&', '^', '\\', '/', '|', '[', ']']

/-- The turtle obeys a symbol that means something, the end of a branch only where a branch is open. -/
def Obeyed (opened : Nat) (c : Char) : Prop := c ∈ symbols ∧ (c ≠ ']' ∨ 0 < opened)

instance (opened : Nat) (c : Char) : Decidable (Obeyed opened c) := inferInstanceAs (Decidable (_ ∧ _))

/-- The symbols of a word that the turtle obeys, when so many branches are open before it. -/
def obeyedFrom (opened : Nat) (word : Word) : Word :=
  (List.range word.length).filterMap fun place =>
    word[place]?.filter (Obeyed (openFrom opened (word.take place)))

def obeyed (word : Word) : Word := obeyedFrom 0 word

/-- The symbols that the turtle obeys are those with a command. -/
theorem mem_symbols_iff (c : Char) : c ∈ symbols ↔ (Command.ofSymbol? c).isSome := by
  constructor
  · intro member
    simp only [symbols, List.mem_cons, List.not_mem_nil, or_false] at member
    rcases member with rfl | rfl | rfl | rfl | rfl | rfl | rfl | rfl | rfl | rfl <;> rfl
  · intro meaning
    unfold Command.ofSymbol? at meaning
    split at meaning <;> simp_all [symbols]

private theorem obeyedFrom_cons (opened : Nat) (c : Char) (word : Word) :
    obeyedFrom opened (c :: word) =
      (if Obeyed opened c then [c] else []) ++ obeyedFrom (nest opened c) word := by
  have rest (place : Nat) : openFrom opened ((c :: word).take (place + 1)) =
      openFrom (nest opened c) (word.take place) := rfl
  simp only [obeyedFrom, List.length_cons, List.range_succ_eq_map, List.filterMap_cons,
    List.filterMap_map, Function.comp_def, List.getElem?_cons_succ, rest]
  by_cases stays : Obeyed opened c <;> simp [stays, openFrom, Option.filter]

/-- A tidy word is what the turtle obeys of the word, and an end for each branch that is open after it. -/
theorem tidyFrom_eq (word : Word) (opened : Nat) :
    tidyFrom opened word = obeyedFrom opened word ++ List.replicate (openFrom opened word) ']' := by
  induction word generalizing opened with
  | nil => rfl
  | cons c word ih =>
    rw [obeyedFrom_cons, List.append_assoc]
    change tidyFrom opened (c :: word) = _ ++ (obeyedFrom (nest opened c) word ++
      List.replicate (openFrom (nest opened c) word) ']')
    rw [← ih]
    cases Command.role c with
    | opens => rfl
    | closes => cases opened <;> rfl
    | ignored meaning =>
      have away : ¬ Obeyed opened c := fun stays => by simpa [meaning] using (mem_symbols_iff c).mp stays.1
      simp [tidyFrom, meaning, nest_other (Command.not_bracket_of_ignored meaning), away]
    | moves command meaning notOpen notClose =>
      have notBracket := Command.not_bracket meaning notOpen notClose
      have stays : Obeyed opened c := ⟨(mem_symbols_iff c).mpr (by simp [meaning]), .inl notBracket.2⟩
      rw [nest_other notBracket, if_pos stays]
      cases command <;> first | contradiction | simp [tidyFrom, meaning]

end Brackets

namespace Walk

variable {settings : TurtleSettings} {base : Float32}

/-- Two turtles that will draw the same from here on. -/
structure Alike (walk other : Walk) : Prop where
  pose : walk.pose = other.pose
  saved : walk.saved = other.saved
  skeleton : walk.skeleton = other.skeleton

/-- A turtle has met nothing odd on its way. -/
structure Undisturbed (before after : Walk) : Prop where
  ignored : after.ignored = before.ignored
  unmatched : after.unmatched = before.unmatched
  implicit : after.implicit = before.implicit

/-- The turtle of a word and that of its tidy form, each with its generator, at the ends of their ways.
The second began as `other`. -/
structure Lockstep (other : Walk) (rough neat : Walk × Generator) : Prop where
  alike : Alike rough.1 neat.1
  source : rough.2 = neat.2
  undisturbed : Undisturbed other neat.1

private theorem Lockstep.after {other next : Walk} {rough neat : Walk × Generator}
    (step : Undisturbed other next) (rest : Lockstep next rough neat) : Lockstep other rough neat := by
  obtain ⟨alike, source, ignored, unmatched, implicit⟩ := rest
  exact ⟨alike, source, ignored.trans step.ignored, unmatched.trans step.unmatched,
    implicit.trans step.implicit⟩

/-- Branches that the end of the word ends are ended as well by symbols for it. -/
theorem closeAll_lockstep (saved : List Pose) {walk other : Walk} (stack : walk.saved = saved)
    (alike : Alike walk other) (source : Generator) :
    Lockstep other (closeAll.go settings base saved walk, source)
      (follow settings base (List.replicate saved.length ']') other source) := by
  induction saved generalizing walk other with
  | nil => exact ⟨alike, rfl, rfl, rfl, rfl⟩
  | cons front rest ih =>
    rw [List.length_cons, List.replicate_succ, follow_cons, read_close (alike.saved ▸ stack)]
    simp only [closeAll.go, closeBranch_some stack]
    refine .after ?_ (ih rfl ?_)
    · exact ⟨rfl, rfl, rfl⟩
    · exact ⟨rfl, rfl, by rw [alike.skeleton, alike.pose]⟩

variable (settings base)

/-- The turtles of a word and of its tidy form go in lockstep. -/
theorem follow_tidyFrom (word : Word) {walk other : Walk} (alike : Alike walk other)
    (source : Generator) :
    Lockstep other
      ((follow settings base word walk source).1.closeAll settings base,
        (follow settings base word walk source).2)
      (follow settings base (Brackets.tidyFrom walk.saved.length word) other source) := by
  induction word generalizing walk other source with
  | nil => exact closeAll_lockstep walk.saved rfl alike source
  | cons c word ih =>
    rw [follow_cons]
    cases Command.role c with
    | opens =>
      have stays : Brackets.tidyFrom walk.saved.length ('[' :: word) =
          '[' :: Brackets.tidyFrom (walk.saved.length + 1) word := rfl
      rw [stays, follow_cons, read_open, read_open]
      refine .after ?_ (ih ?_ source)
      · exact ⟨rfl, rfl, rfl⟩
      · exact ⟨alike.pose, by rw [alike.pose, alike.saved], alike.skeleton⟩
    | closes =>
      cases stack : walk.saved with
      | nil =>
        have passed : Brackets.tidyFrom ([] : List Pose).length (']' :: word) =
            Brackets.tidyFrom walk.saved.length word := by rw [stack]; rfl
        rw [passed, read_pass stack]
        refine ih ?_ source
        exact ⟨alike.pose, alike.saved, alike.skeleton⟩
      | cons front rest =>
        have stays : Brackets.tidyFrom (front :: rest).length (']' :: word) =
            ']' :: Brackets.tidyFrom rest.length word := rfl
        rw [stays, follow_cons, read_close stack, read_close (alike.saved ▸ stack)]
        refine .after ?_ (ih ?_ source)
        · exact ⟨rfl, rfl, rfl⟩
        · exact ⟨rfl, rfl, by rw [alike.skeleton, alike.pose]⟩
    | ignored meaning =>
      have passed : Brackets.tidyFrom walk.saved.length (c :: word) =
          Brackets.tidyFrom walk.saved.length word := by
        simp [Brackets.tidyFrom, meaning]
      rw [passed, read_ignored meaning]
      refine ih ?_ source
      exact ⟨alike.pose, alike.saved, alike.skeleton⟩
    | moves command meaning notOpen notClose =>
      have stays : Brackets.tidyFrom walk.saved.length (c :: word) =
          c :: Brackets.tidyFrom walk.saved.length word := by
        cases command <;> first | contradiction | simp [Brackets.tidyFrom, meaning]
      rw [stays, follow_cons, read_moves meaning notOpen notClose, read_moves meaning notOpen notClose,
        ← alike.skeleton, ← alike.pose]
      refine .after ?_ (ih ?_ _)
      · exact ⟨rfl, rfl, rfl⟩
      · exact ⟨rfl, alike.saved, rfl⟩

end Walk

namespace TurtleSettings

/-- Noise leaves no mark on the tree. A word and its tidy form have the same drawing and draw the same
random words; the counts differ only in the number of symbols and in those of irregularities, which the
tidy form has none of. -/
theorem noise_leaves_no_mark (settings : TurtleSettings) (word : Word) (origin : Transform)
    (source : Generator) :
    let rough := (settings.interpret word origin).run source
    let neat := (settings.interpret (Brackets.tidy word) origin).run source
    neat.1.segments = rough.1.segments ∧ neat.1.anchors = rough.1.anchors ∧
    neat.1.origin = rough.1.origin ∧ neat.1.maxHeight = rough.1.maxHeight ∧ neat.2 = rough.2 ∧
    neat.1.stats = { rough.1.stats with
      symbols := (Brackets.tidy word).length
      ignoredSymbols := 0
      unmatchedPops := 0
      implicitCloses := 0 } ∧
    Brackets.tidy word =
      Brackets.obeyed word ++ List.replicate (Brackets.openAfter word) ']' := by
  intro rough neat
  have rough_eq : rough = _ := settings.interpret_run word origin source
  have neat_eq : neat = _ := settings.interpret_run (Brackets.tidy word) origin source
  have same : Walk.Alike (.start origin) (.start origin) := ⟨rfl, rfl, rfl⟩
  have lockstep : Walk.Lockstep _ _
      (Walk.follow settings origin.position.y (Brackets.tidy word) (.start origin) source) :=
    Walk.follow_tidyFrom settings origin.position.y word same source
  have length :=
    (Walk.counted_follow settings origin.position.y (Brackets.tidy word) origin source).symbols
  generalize Walk.follow settings origin.position.y word (.start origin) source = one at *
  generalize Walk.follow settings origin.position.y (Brackets.tidy word) (.start origin) source = two
    at *
  obtain ⟨alike, same, undisturbed⟩ := lockstep
  have skeleton : two.1.skeleton = (one.1.closeAll settings origin.position.y).skeleton :=
    alike.skeleton.symm
  have source : two.2 = one.2 := same.symm
  have nothingOpen : two.1.saved = [] := alike.saved.symm.trans (Walk.saved_closeAll settings _ one.1)
  have closed : two.1.closeAll settings origin.position.y = two.1 := by
    rw [Walk.closeAll, nothingOpen, Walk.closeAll.go]
  rw [rough_eq, neat_eq, closed]
  simp only [Walk.finish, Walk.stats, skeleton, source, length, undisturbed.ignored,
    undisturbed.unmatched, undisturbed.implicit, Walk.start, true_and]
  exact Brackets.tidyFrom_eq word 0

end TurtleSettings


end Sapling
