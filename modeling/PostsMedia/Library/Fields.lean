import Mathlib.Data.List.Forall2
import Mathlib.Data.List.Nodup

namespace Fields

variable {Name Rule Value Raw Reason : Type*}

/-- What the fields of a source may hold and how they hold it. -/
structure Format (Rule Value Raw Reason : Type*) where
  admits : Rule → Value → Prop
  written : Value → Raw → Prop
  render : Value → Raw
  problem : Rule → Option Raw → Option Reason

/-- A format is sound if it finds a problem in exactly the fields without an admitted value. -/
structure Format.Sound (format : Format Rule Value Raw Reason) : Prop where
  written_render : ∀ value rule, format.admits rule value →
    format.written value (format.render value)
  problem_eq_none : ∀ rule field, format.problem rule field = none ↔
    ∃ value, format.admits rule value ∧ ∃ raw, field = some raw ∧ format.written value raw

section Fields

variable (format : Format Rule Value Raw Reason)

def Holds (rule : Rule) (value : Value) (field : Option Raw) : Prop :=
  format.admits rule value ∧ ∃ raw, field = some raw ∧ format.written value raw

/-- Every field of the schema holds its value. -/
def Describes (schema : List (Name × Rule)) (values : List Value) (source : Name → Option Raw) :
    Prop :=
  List.Forall₂ (fun entry value => Holds format entry.2 value (source entry.1)) schema values

/-- The first field of the schema that holds no admitted value, with the reason. -/
def firstProblem (schema : List (Name × Rule)) (source : Name → Option Raw) :
    Option (Name × Reason) :=
  schema.findSome? fun entry => (format.problem entry.2 (source entry.1)).map (entry.1, ·)

/-- The source that holds the values of a schema and no other field. -/
def renderAll [DecidableEq Name] (schema : List (Name × Rule)) (values : List Value) (name : Name) :
    Option Raw :=
  ((schema.zip values).map fun entry => (entry.1.1, format.render entry.2)).lookup name

end Fields

variable {format : Format Rule Value Raw Reason} {schema rest : List (Name × Rule)}
  {values values' : List Value} {source source' : Name → Option Raw} {rule : Rule} {name : Name}

@[simp] theorem describes_nil : Describes format [] values source ↔ values = [] := by
  constructor
  · intro described
    cases described
    rfl
  · rintro rfl
    exact .nil

@[simp] theorem describes_cons {value : Value} :
    Describes format ((name, rule) :: schema) (value :: values) source ↔
      Holds format rule value (source name) ∧ Describes format schema values source :=
  List.forall₂_cons

/-- The fields of two schemas in a row hold the values of both. -/
theorem describes_append (same : schema.length = values.length) :
    Describes format (schema ++ rest) (values ++ values') source ↔
      Describes format schema values source ∧ Describes format rest values' source := by
  induction schema generalizing values with
  | nil =>
      cases List.length_eq_zero_iff.mp same.symm
      simp
  | cons entry schema ih =>
      cases values with
      | nil => cases same
      | cons value values =>
          obtain ⟨name, rule⟩ := entry
          simp only [List.cons_append, describes_cons, ih (Nat.succ.inj same), and_assoc]

/-- Only the fields of the schema matter. -/
theorem Describes.congr (described : Describes format schema values source)
    (same : ∀ entry ∈ schema, source entry.1 = source' entry.1) :
    Describes format schema values source' := by
  induction described with
  | nil => exact .nil
  | cons head _ ih =>
      refine .cons ?_ (ih fun entry member => same entry (List.mem_cons_of_mem _ member))
      rw [← same _ List.mem_cons_self]
      exact head

@[simp] theorem firstProblem_cons : firstProblem format ((name, rule) :: schema) source =
    ((format.problem rule (source name)).map (name, ·)).or
      (firstProblem format schema source) := by
  cases problem : format.problem rule (source name) <;>
    simp [firstProblem, problem]

theorem firstProblem_append : firstProblem format (schema ++ rest) source =
    (firstProblem format schema source).or (firstProblem format rest source) :=
  List.findSome?_append

/-- The problem is that of a field, and every field before it holds an admitted value. -/
theorem firstProblem_eq_some_iff (sound : format.Sound) {reason : Reason} :
    firstProblem format schema source = some (name, reason) ↔
      ∃ before rule after, schema = before ++ (name, rule) :: after ∧
        (∀ entry ∈ before, ∃ value, Holds format entry.2 value (source entry.1)) ∧
        format.problem rule (source name) = some reason := by
  rw [firstProblem, List.findSome?_eq_some_iff]
  constructor
  · rintro ⟨before, ⟨first, rule⟩, after, shape, found, clear⟩
    obtain ⟨reason', problem, same⟩ := Option.map_eq_some_iff.mp found
    cases same
    refine ⟨before, rule, after, shape, fun entry member => ?_, problem⟩
    exact (sound.problem_eq_none ..).mp (Option.map_eq_none_iff.mp (clear entry member))
  · rintro ⟨before, rule, after, shape, clear, problem⟩
    refine ⟨before, (name, rule), after, shape, by simp [problem], fun entry member => ?_⟩
    rw [(sound.problem_eq_none ..).mpr (clear entry member)]
    rfl

/-- A source that was written for admitted values describes them. -/
theorem describes_renderAll [DecidableEq Name] (sound : format.Sound)
    (distinct : (schema.map Prod.fst).Nodup)
    (admitted : List.Forall₂ (fun entry value => format.admits entry.2 value) schema values) :
    Describes format schema values (renderAll format schema values) := by
  induction admitted with
  | nil => exact .nil
  | @cons entry value schema values admits admitted ih =>
      obtain ⟨name, rule⟩ := entry
      rw [List.map_cons, List.nodup_cons] at distinct
      refine .cons ⟨admits, _, ?_, sound.written_render value rule admits⟩
        ((ih distinct.2).congr fun entry member => ?_)
      · simp [renderAll]
      · have other : entry.1 ≠ name := fun same =>
          distinct.1 (List.mem_map.mpr ⟨entry, member, same⟩)
        have skipped : (entry.1 == name) = false := by simpa using other
        simp [renderAll, List.lookup_cons, skipped]

section Readers

variable {ε α β : Type} {read : Except ε α} {next : α → Except ε β} {later : Option ε}

def errors : Except ε α → Option ε
  | .error error => some error
  | .ok _ => none

@[simp] theorem errors_pure (value : α) : errors (pure value : Except ε α) = none := rfl

/-- The first error of two readers in a row, where the second fails whatever the first reads. -/
theorem errors_bind (second : ∀ value, errors (next value) = later) :
    errors (read >>= next) = (errors read).or later := by
  cases read with
  | error error => rfl
  | ok value => exact second value

theorem bind_eq_ok_iff {result : β} :
    read >>= next = .ok result ↔ ∃ value, read = .ok value ∧ next value = .ok result := by
  cases read with
  | error error => simp [bind, Except.bind]
  | ok value => simp [bind, Except.bind]

theorem pure_eq_ok_iff {value result : α} :
    (pure value : Except ε α) = .ok result ↔ value = result := by
  constructor
  · rintro ⟨⟩
    rfl
  · rintro rfl
    rfl

theorem eq_error_iff {error : ε} : read = .error error ↔ errors read = some error := by
  cases read <;> simp [errors]

end Readers

end Fields
