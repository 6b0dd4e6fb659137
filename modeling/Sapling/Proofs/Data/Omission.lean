import Sapling.Data.Codec

/-! What is read back from stored data. Simple values are read as they were written. From a record any
field that has a default may be left out, and the other fields are read as before. -/
namespace Sapling.Data

/-- Fields to leave out, each given by the names of the records around it and its own. -/
abbrev Omission := List String → Bool

namespace Omission

def nothing : Omission := fun _ => false

/-- The fields to leave out of a record that is stored under a name. -/
def within (gone : Omission) (name : String) : Omission := fun path => gone (name :: path)

/-- What stands for a field: its default if it is left out. -/
def pick (gone : Omission) (name : String) (absent kept : α) : α :=
  if gone [name] then absent else kept

end Omission

namespace Value

mutual

/-- A value less the fields to leave out. The items of lists stay as they are. -/
def without (gone : Omission) : Value → Value
  | .record fields => .record (withoutFields gone fields)
  | value => value

def withoutFields (gone : Omission) : List (String × Value) → List (String × Value)
  | [] => []
  | (name, value) :: fields =>
    if gone [name] then withoutFields gone fields
    else (name, value.without (gone.within name)) :: withoutFields gone fields

end

private theorem without_of_not_record {value : Value} (other : ∀ fields, value ≠ .record fields)
    (gone : Omission) : value.without gone = value := by
  cases value with
  | record fields => exact absurd rfl (other fields)
  | _ => rfl

mutual

/-- A record stays whole if none of the fields to leave out is in it. -/
theorem without_of_untouched {gone : Omission} (untouched : ∀ name path, gone (name :: path) = false) :
    (value : Value) → value.without gone = value
  | .record fields => congrArg Value.record (withoutFields_of_untouched untouched fields)
  | .null | .bool _ | .number _ | .text _ | .plain _ | .list _ | .unread => rfl

theorem withoutFields_of_untouched {gone : Omission}
    (untouched : ∀ name path, gone (name :: path) = false) :
    (fields : List (String × Value)) → withoutFields gone fields = fields
  | [] => rfl
  | (name, value) :: fields => by
    have kept : ¬ gone [name] = true := by simp [untouched]
    have inner (other : String) (path : List String) : gone.within name (other :: path) = false :=
      untouched name (other :: path)
    rw [withoutFields, if_neg kept, withoutFields_of_untouched untouched fields,
      without_of_untouched inner value]

end

end Value

namespace Codec

/-- What is read when some fields are left out of the data of `a`. -/
def ReadsBack (c : Codec α) (gone : Omission) (a b : α) : Prop :=
  c.read? ((c.write a).without gone) = some b

/-- A value that is read back with no field left out is read back as it was written. -/
theorem Faithful.of_readsBack {c : Codec α} (reads : c.ReadsBack .nothing a a) : c.Faithful a := by
  rwa [ReadsBack, Value.without_of_untouched fun _ _ => rfl] at reads

/-- A value is read back as it was written where the fields to leave out are in none of its records. -/
theorem Faithful.readsBack {c : Codec α} (faithful : c.Faithful a) {gone : Omission}
    (untouched : ∀ name path, gone (name :: path) = false) : c.ReadsBack gone a a := by
  rwa [ReadsBack, Value.without_of_untouched untouched]

/-- What is read back and is not stored as a record. -/
structure Simple (c : Codec α) (a : α) : Prop where
  faithful : c.Faithful a
  whole : ∀ fields, c.write a ≠ .record fields

private theorem Simple.readsBack {c : Codec α} (simple : c.Simple a) (gone : Omission) :
    c.ReadsBack gone a a := by
  rw [ReadsBack, Value.without_of_not_record simple.whole]
  exact simple.faithful

/-! ## Simple values -/

/-- A number that is read back was written with digits, as one that a double can hold. -/
theorem single_written {x : Float32} (faithful : single.Faithful x) :
    ∃ d : Decimal, single.write x = .number (.real d) ∧ d.toDouble.isFinite := by
  change readSingle? (Value.ofSingle x) = some x at faithful
  change ∃ d : Decimal, Value.ofSingle x = .number (.real d) ∧ _
  unfold Value.ofSingle at faithful ⊢
  cases digits : Decimal.shortest? x with
  | none =>
    rw [digits] at faithful
    cases faithful
  | some d =>
    rw [digits] at faithful
    by_cases finite : d.toDouble.isFinite
    · exact ⟨d, rfl, finite⟩
    · simp only [readSingle?, if_neg finite] at faithful
      cases faithful

/-- A number that survives printing is stored in no record, so no field can be missing from it. -/
theorem single_simple {x : Float32} (faithful : single.Faithful x) : single.Simple x := by
  obtain ⟨d, written, -⟩ := single_written faithful
  exact ⟨faithful, by simp [written]⟩

/-- Such a number is settled as it is. -/
theorem settle?_ofSingle {x : Float32} (faithful : single.Faithful x) :
    (Value.ofSingle x).settle? = some (.ofSingle x) := by
  obtain ⟨d, written, finite⟩ := single_written faithful
  have written : Value.ofSingle x = .number (.real d) := written
  rw [written, Value.settle?, if_pos finite]

private theorem readBelow?_ofNat (below : n < bound) : readBelow? bound (.ofNat n) = some n := by
  have inside : 0 ≤ (n : Int) ∧ (n : Int) < bound := ⟨Int.natCast_nonneg n, Int.ofNat_lt.mpr below⟩
  simp only [readBelow?, wholeNumber?, Value.ofNat, Option.bind_eq_bind, Option.bind_some]
  rw [if_pos inside, Int.toNat_natCast]

theorem word32_simple (n : UInt32) : word32.Simple n := by
  refine ⟨?_, nofun⟩
  simp only [Faithful, word32, readBelow?_ofNat n.toNat_lt_size, Option.map_some, UInt32.ofNat_toNat]

theorem word64_simple (n : UInt64) : word64.Simple n := by
  refine ⟨?_, nofun⟩
  simp only [Faithful, word64, readBelow?_ofNat n.toNat_lt_size, Option.map_some, UInt64.ofNat_toNat]

theorem text_simple (s : String) : text.Simple s := ⟨rfl, nofun⟩

theorem chars_simple (cs : List Char) : chars.Simple cs := by
  refine ⟨?_, nofun⟩
  simp only [Faithful, chars, text, Option.map_some, String.toList_ofList]

theorem char_simple (c : Char) : char.Simple c := by
  have alone : c.toString.toList = [c] := by simp
  refine ⟨?_, nofun⟩
  simp only [Faithful, char, text, Option.bind_eq_bind, Option.bind_some, alone]

/-! ## Compound values -/

/-- A value that an option takes for something. -/
def Present : Value → Prop
  | .null | .plain _ => False
  | _ => True

/-- A missing value is told apart from a present one, since no present one is stored as null. -/
theorem option_simple {c : Codec α} {a? : Option α}
    (simple : ∀ a ∈ a?, c.Simple a ∧ Present (c.write a)) : (option c).Simple a? := by
  cases a? with
  | none => exact ⟨rfl, nofun⟩
  | some a =>
    obtain ⟨⟨faithful, whole⟩, present⟩ := simple a rfl
    refine ⟨?_, whole⟩
    change (option c).read? (c.write a) = some (some a)
    rw [Faithful] at faithful
    cases written : c.write a <;> rw [written] at faithful present
    case null | plain => exact present.elim
    all_goals exact congrArg (Option.map some) faithful

/-- The items of a list keep all of their fields. -/
theorem list_simple {c : Codec α} {as : List α} (faithful : ∀ a ∈ as, c.Faithful a) :
    (list c).Simple as := by
  refine ⟨?_, nofun⟩
  change (as.map c.write).mapM c.read? = some as
  induction as with
  | nil => rfl
  | cons a as ih =>
    have first : c.read? (c.write a) = some a := faithful a List.mem_cons_self
    have rest := ih fun b held => faithful b (List.mem_cons_of_mem a held)
    rw [List.map_cons, List.mapM_cons, first, rest]
    rfl

theorem pair_simple {c : Codec α} {d : Codec β} {p : α × β} (first : c.Faithful p.1)
    (second : d.Faithful p.2) : (pair c d).Simple p := by
  refine ⟨?_, nofun⟩
  rw [Faithful] at first second
  simp only [Faithful, pair, first, second]
  rfl

theorem range_simple {ends : Float32 × Float32} (low : single.Faithful ends.1)
    (high : single.Faithful ends.2) : range.Simple ends :=
  pair_simple low high

end Codec

namespace Fields

/-- What is left of the data of a field. -/
theorem entries_withoutFields (gone : Omission) (fields : List (String × Value)) (place : Nat)
    (name : String) : (named (Value.withoutFields gone fields)).entries place name =
      if gone [name] then []
      else ((named fields).entries place name).map (·.without (gone.within name)) := by
  simp only [entries]
  induction fields with
  | nil => simp [Value.withoutFields]
  | cons field fields ih =>
    obtain ⟨other, value⟩ := field
    by_cases same : other = name
    · subst same
      by_cases left : gone [other] <;> simp [Value.withoutFields, left] at ih ⊢ <;> exact ih
    · by_cases left : gone [other] <;> simp [Value.withoutFields, left, same, ih]

/-- A field with a default, in a record from which fields have been left out. -/
theorem optional_withoutFields {c : Codec α} {gone : Omission} {fields : List (String × Value)}
    (stored : (named fields).entries place name = [c.write a])
    (reads : c.ReadsBack (gone.within name) a b) (absent : α) :
    (named (Value.withoutFields gone fields)).optional place name c absent =
      some (gone.pick name absent b) := by
  rw [optional, entries_withoutFields, stored, Omission.pick]
  by_cases left : gone [name]
  · rw [if_pos left, if_pos left]
  · rw [if_neg left, if_neg left]
    exact reads

/-- A field with a default whose data is not a record. -/
theorem optional_simple {c : Codec α} {gone : Omission} {fields : List (String × Value)}
    (stored : (named fields).entries place name = [c.write a]) (simple : c.Simple a) (absent : α) :
    (named (Value.withoutFields gone fields)).optional place name c absent =
      some (gone.pick name absent a) :=
  optional_withoutFields stored (simple.readsBack _) absent

/-- A required field that is stored once is read as it was written. -/
theorem required_eq {c : Codec α} {fields : Fields} (stored : fields.entries place name = [c.write a])
    (faithful : c.Faithful a) : fields.required place name c = some a := by
  rw [required, stored]
  exact faithful

/-- Fields are read one after the other. -/
theorem read_next {first : Option α} {rest : α → Option β} (read : first = some a)
    (others : rest a = some b) : first >>= rest = some b := by
  rw [read]
  exact others

end Fields

end Sapling.Data
