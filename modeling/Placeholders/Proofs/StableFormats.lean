import Placeholders.Proofs.JsonRecords
import Placeholders.Proofs.PrintedJson

/-! The stable text of a value stands for the value. It is read back as the value itself, so values
with the same text are the same, and a text of any other layout, once read and written, does not
change any more (`Json.Stable`). This holds of every type that has a JSON form (`stable_formats`);
only the count of passes in an outcome is bounded, by what a count of 64 bits can be. -/

namespace Placeholders

namespace Json

variable {α : Type} {toJson : α → Json} {ofJson? : Json → Option α} {fits : α → Prop}

def toText (toJson : α → Json) (value : α) : Text := (toJson value).print

def ofText? (ofJson? : Json → Option α) (text : Text) : Option α := (parse? text).bind ofJson?

/-- The stable texts of values that fit stand for these values. -/
structure Stable (toJson : α → Json) (ofJson? : Json → Option α) (fits : α → Prop) : Prop where
  ofText?_toText : ∀ v, fits v → ofText? ofJson? (toText toJson v) = some v
  injective : ∀ v w, fits v → fits w → toText toJson v = toText toJson w → v = w
  /-- What was read from a text has a stable text that reading and writing leave as it is. -/
  fixed : ∀ text v, ofText? ofJson? text = some v →
    (ofText? ofJson? (toText toJson v)).map (toText toJson) = some (toText toJson v)

theorem stable_of_ofJson?_toJson (restored : ∀ v, fits v → ofJson? (toJson v) = some v)
    (accepted : ∀ json v, ofJson? json = some v → fits v) : Stable toJson ofJson? fits := by
  have back : ∀ v, fits v → ofText? ofJson? (toText toJson v) = some v := fun v hv => by
    rw [ofText?, toText, parse?_print, Option.bind_some, restored v hv]
  refine ⟨back, fun v w hv hw h => ?_, fun text v h => ?_⟩
  · have hback := back v hv
    rw [h, back w hw] at hback
    exact (Option.some.inj hback).symm
  · obtain ⟨json, _, hv⟩ := Option.bind_eq_some_iff.mp h
    rw [back v (accepted json v hv), Option.map_some]

theorem stable_of_forall (restored : ∀ v, ofJson? (toJson v) = some v) :
    Stable toJson ofJson? fun _ => True :=
  stable_of_ofJson?_toJson (fun v _ => restored v) fun _ _ _ => trivial

end Json

open Json

/-! ### Outcomes and their parts -/

theorem Status.ofJson?_toJson (status : Status) : ofJson? status.toJson = some status := by
  cases status <;> rfl

theorem ProblemKind.ofJson?_toJson (kind : ProblemKind) : ofJson? kind.toJson = some kind := by
  cases kind <;> rfl

theorem Namespace.ofJson?_toJson (ns : Namespace) : ofJson? ns.toJson = some ns := by
  cases ns <;> rfl

theorem Problem.ofJson?_toJson (problem : Problem) : ofJson? problem.toJson = some problem := by
  have slots : problem.toJson.slots? ["kind".toList, "detail".toList]
      = some [.given problem.kind.toJson, .given (.text problem.detail)] :=
    slots?_record (by decide) [some problem.kind.toJson, some (.text problem.detail)] rfl rfl
  rw [ofJson?, slots]
  simp [ProblemKind.ofJson?_toJson]

theorem ProblemList.ofJson?_toJson (problems : ProblemList) :
    ofJson? problems.toJson = some problems := by
  have slots : problems.toJson.slots? ["entries".toList]
      = some [.given (.array (problems.map Problem.toJson))] :=
    slots?_record (by decide) [some (.array (problems.map Problem.toJson))] rfl rfl
  rw [ofJson?, slots]
  exact asList?_map Problem.ofJson?_toJson problems

theorem CircularReference.ofJson?_toJson (circular : CircularReference) :
    ofJson? circular.toJson = some circular := by
  have slots : circular.toJson.slots? ["key".toList, "token".toList, "input".toList]
      = some [.given (.text circular.key), .given (.text circular.token),
          .given (.text circular.input)] :=
    slots?_record (by decide)
      [some (.text circular.key), some (.text circular.token), some (.text circular.input)] rfl rfl
  rw [ofJson?, slots]
  rfl

theorem WorkspaceFolder.ofJson?_toJson (folder : WorkspaceFolder) :
    ofJson? folder.toJson = some folder := by
  have slots : folder.toJson.slots? ["name".toList, "path".toList]
      = some [.given (.text folder.name), .given (.text folder.path)] :=
    slots?_record (by decide) [some (.text folder.name), some (.text folder.path)] rfl rfl
  rw [ofJson?, slots]
  rfl

theorem Outcome.ofJson?_toJson {outcome : Outcome} (h : outcome.passes < 0x10000000000000000) :
    ofJson? outcome.toJson = some outcome := by
  obtain ⟨result, changed, circular, status, passes⟩ := outcome
  have slots : (Outcome.toJson ⟨result, changed, circular, status, passes⟩).slots?
      ["result".toList, "changed".toList, "circular_reference".toList, "status".toList,
       "passes".toList]
      = some [.given (.text result), .given (.bool changed),
          .ofOption (circular.map CircularReference.toJson), .given status.toJson,
          .given (.natural passes)] :=
    slots?_record (by decide)
      [some (.text result), some (.bool changed), circular.map CircularReference.toJson,
        some status.toJson, some (.natural passes)] rfl (by cases circular <;> rfl)
  have reference := Slot.default?_ofOption CircularReference.ofJson?_toJson (fun _ => nofun)
    circular
  have count : asCount? (.natural passes) = some passes := if_pos h
  rw [ofJson?, slots]
  simp [reference, count, Status.ofJson?_toJson]

/-- No outcome is read whose count of passes has more than 64 bits. -/
theorem Outcome.passes_lt_of_ofJson? {value : Json} {outcome : Outcome}
    (h : ofJson? value = some outcome) : outcome.passes < 0x10000000000000000 := by
  have count (slot : Slot) (n : Nat) (hn : slot.required? asCount? = some n) :
      n < 0x10000000000000000 := by
    simp only [Slot.required?, asCount?] at hn
    grind
  simp only [ofJson?, Option.bind_eq_bind, Option.bind_eq_some_iff] at h
  obtain ⟨slots, _, h⟩ := h
  split at h
  · simp only [Option.pure_def, Option.bind_eq_some_iff] at h
    obtain ⟨_, _, _, _, _, _, _, _, passes, hpasses, h⟩ := h
    cases h
    exact count _ _ hpasses
  · cases h

/-! ### Contexts and requests -/

theorem Variables.ofJson?_toJson (vars : Variables) : ofJson? vars.toJson = some vars := by
  rw [ofJson?, toJson, asTable?_ofTable asText?_text]
  simp [ofTable_table, Except.toOption]

theorem Json.asOverride?_ofOverride (table : Table (Option Text)) :
    asOverride? (ofOverride table) = some table :=
  asTable?_ofTable (asOptional?_optional asText?_text fun _ => nofun) table

theorem Context.ofJson?_toJson (context : Context) : ofJson? context.toJson = some context := by
  obtain ⟨vars, environment, variants, recursive, disabled⟩ := context
  have slots : (Context.toJson ⟨vars, environment, variants, recursive, disabled⟩).slots?
      ["variables".toList, "environment_override".toList, "variants".toList, "recursive".toList,
       "commands_disabled".toList]
      = some [.given vars.toJson, .given (optional ofOverride environment),
          .given (optional (ofTable Json.text) variants), .given (.bool recursive),
          .given (.bool disabled)] :=
    slots?_record (by decide)
      [some vars.toJson, some (optional ofOverride environment),
        some (optional (ofTable Json.text) variants), some (.bool recursive),
        some (.bool disabled)] rfl rfl
  have override := Slot.optional?_optional asOverride?_ofOverride (fun _ => nofun) environment
  have builds := Slot.optional?_optional (asTable?_ofTable asText?_text) (fun _ => nofun) variants
  rw [ofJson?, slots]
  simp [override, builds, Variables.ofJson?_toJson]

theorem Request.ofJson?_toJson (request : Request) : ofJson? request.toJson = some request := by
  obtain ⟨vars, environment, variants, recursive, disabled, folders, commands, strings⟩ := request
  have slots : (Request.toJson
        ⟨vars, environment, variants, recursive, disabled, folders, commands, strings⟩).slots?
      fields
      = some [.given (ofTable Json.text vars), .ofOption (environment.map ofOverride),
          .ofOption (variants.map (ofTable Json.text)), .given (.bool recursive),
          .given (.bool disabled), .given (.array (folders.map WorkspaceFolder.toJson)),
          .given (ofTable Json.text commands), .given (.array (strings.map Json.text))] :=
    slots?_record (by decide)
      [some (ofTable Json.text vars), environment.map ofOverride,
        variants.map (ofTable Json.text), some (.bool recursive), some (.bool disabled),
        some (.array (folders.map WorkspaceFolder.toJson)), some (ofTable Json.text commands),
        some (.array (strings.map Json.text))] rfl
      (by cases environment <;> cases variants <;> rfl)
  have override := Slot.default?_ofOption asOverride?_ofOverride (fun _ => nofun) environment
  have builds := Slot.default?_ofOption (asTable?_ofTable asText?_text) (fun _ => nofun) variants
  rw [ofJson?, slots]
  simp [override, builds, asTable?_ofTable asText?_text,
    asList?_map WorkspaceFolder.ofJson?_toJson, asList?_map asText?_text]

/-! ### All types -/

/-- The stable text of every type with a JSON form is read back as the value that was written. The
count of passes in an outcome has 64 bits; all else may be anything. -/
theorem stable_formats :
    Stable Outcome.toJson Outcome.ofJson? (fun outcome => outcome.passes < 0x10000000000000000) ∧
    Stable ProblemList.toJson ProblemList.ofJson? (fun _ => True) ∧
    Stable Problem.toJson Problem.ofJson? (fun _ => True) ∧
    Stable CircularReference.toJson CircularReference.ofJson? (fun _ => True) ∧
    Stable WorkspaceFolder.toJson WorkspaceFolder.ofJson? (fun _ => True) ∧
    Stable Variables.toJson Variables.ofJson? (fun _ => True) ∧
    Stable Context.toJson Context.ofJson? (fun _ => True) ∧
    Stable Request.toJson Request.ofJson? (fun _ => True) ∧
    Stable Status.toJson Status.ofJson? (fun _ => True) ∧
    Stable ProblemKind.toJson ProblemKind.ofJson? (fun _ => True) ∧
    Stable Namespace.toJson Namespace.ofJson? (fun _ => True) := by
  have outcomes := stable_of_ofJson?_toJson (fun _ => Outcome.ofJson?_toJson)
    fun _ _ => Outcome.passes_lt_of_ofJson?
  exact ⟨outcomes, stable_of_forall ProblemList.ofJson?_toJson,
    stable_of_forall Problem.ofJson?_toJson, stable_of_forall CircularReference.ofJson?_toJson,
    stable_of_forall WorkspaceFolder.ofJson?_toJson, stable_of_forall Variables.ofJson?_toJson,
    stable_of_forall Context.ofJson?_toJson, stable_of_forall Request.ofJson?_toJson,
    stable_of_forall Status.ofJson?_toJson, stable_of_forall ProblemKind.ofJson?_toJson,
    stable_of_forall Namespace.ofJson?_toJson⟩

end Placeholders
