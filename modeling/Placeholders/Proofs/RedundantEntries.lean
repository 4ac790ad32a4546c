import Placeholders.PathStyle
import Placeholders.Proofs.CommandCalls
import Placeholders.Proofs.PairedRuns

/-! Entries that say nothing. A variable that an override lists as absent or as empty, a variant
with an empty value and a folder that comes after another one of its name answer like entries that
are not there at all. Taking such entries out leaves no trace in an expansion. -/

namespace Placeholders

def Table.filter {α : Type} (p : Text → α → Bool) (t : Table α) : Table α :=
  ⟨t.entries.filter fun entry => p entry.1 entry.2, t.ascending.filter _⟩

theorem Table.get?_filter {α : Type} (p : Text → α → Bool) (t : Table α) (key : Text) :
    (t.filter p).get? key = (t.get? key).filter (p key) := by
  refine Option.ext fun value => ?_
  rw [← mem_entries_iff, filter, List.mem_filter, mem_entries_iff, Option.filter_eq_some_iff]

/-- Who reads some values like no value does not notice that they are taken out. -/
theorem Table.read_get?_filter {α β : Type} (read : Option α → β) {p : Text → α → Bool} {key : Text}
    (h : ∀ value, p key value = false → read (some value) = read none) (t : Table α) :
    read ((t.filter p).get? key) = read (t.get? key) := by
  rw [get?_filter]
  cases t.get? key with
  | none => rfl
  | some value =>
    rw [Option.filter_some]
    split
    · rfl
    · next hgone => exact (h value (eq_false_of_ne_true hgone)).symm

/-- Which of the entries that say nothing are taken out: some variables of the override,
some variants and some folders. -/
structure Pruning where
  names : Text → Bool
  variants : Text → Bool
  folders : WorkspaceFolder → Bool

namespace Pruning
variable (pruning : Pruning)

def override (table : Table (Option Text)) : Table (Option Text) :=
  table.filter fun key value => !(pruning.names key && (value.getD []).isEmpty)

def values (table : Table Text) : Table Text :=
  table.filter fun key value => !(pruning.variants key && value.isEmpty)

/-- The folders without those that go by the name of an earlier one; `earlier` are the names, in
lower case, of the folders in front. -/
def registryFrom : List Text → List WorkspaceFolder → List WorkspaceFolder
  | _, [] => []
  | earlier, folder :: folders =>
    let name := Text.lowercase folder.name
    if pruning.folders folder && earlier.contains name then registryFrom (name :: earlier) folders
    else folder :: registryFrom (name :: earlier) folders

def registry (folders : List WorkspaceFolder) : List WorkspaceFolder :=
  pruning.registryFrom [] folders

/-- The context without entries that say nothing; tables that are there stay there. -/
def context (context : Context) : Context :=
  { context with
    environmentOverride := context.environmentOverride.map pruning.override
    variants := context.variants.map pruning.values }

def services {σ : Type} (services : Services σ) : Services σ :=
  { services with folders := pruning.registry services.folders }

theorem getD_get?_override (table : Table (Option Text)) (key : Text) :
    ((pruning.override table).get? key).join.getD [] = (table.get? key).join.getD [] := by
  refine Table.read_get?_filter (fun value => value.join.getD []) (fun value hgone => ?_) table
  rw [Bool.not_eq_false', Bool.and_eq_true, List.isEmpty_iff] at hgone
  exact hgone.2

theorem getD_get?_values (table : Table Text) (key : Text) :
    ((pruning.values table).get? key).getD [] = (table.get? key).getD [] := by
  refine Table.read_get?_filter (fun value => value.getD []) (fun value hgone => ?_) table
  rw [Bool.not_eq_false', Bool.and_eq_true, List.isEmpty_iff] at hgone
  exact hgone.2

/-- A name that no folder in front has is found where it was. -/
theorem findFolder?_registryFrom {name : Text} {earlier : List Text}
    (h : Text.lowercase name ∉ earlier) (folders : List WorkspaceFolder) :
    findFolder? (pruning.registryFrom earlier folders) name = findFolder? folders name := by
  induction folders generalizing earlier with
  | nil => rfl
  | cons folder folders ih =>
    rw [registryFrom]
    by_cases hm : folder.matches name = true
    · have hname : Text.lowercase folder.name = Text.lowercase name := of_decide_eq_true hm
      rw [if_neg (by simp [hname, h])]
      simp [findFolder?, hm]
    · have hname : Text.lowercase name ≠ Text.lowercase folder.name :=
        fun he => hm (decide_eq_true he.symm)
      have hrest := ih (List.not_mem_cons_of_ne_of_not_mem hname h)
      simp only [findFolder?, List.find?_cons, hm] at hrest ⊢
      split
      · exact hrest
      · simpa [hm] using hrest

theorem findFolder?_registry (folders : List WorkspaceFolder) (name : Text) :
    findFolder? (pruning.registry folders) name = findFolder? folders name :=
  pruning.findFolder?_registryFrom (List.not_mem_nil) folders

example : registry ⟨fun _ => true, fun _ => true, fun _ => true⟩
    [⟨"App".toList, "/a".toList⟩, ⟨"lib".toList, "/l".toList⟩, ⟨"aPP".toList, "/b".toList⟩] =
      [⟨"App".toList, "/a".toList⟩, ⟨"lib".toList, "/l".toList⟩] := by decide

end Pruning

/-- An absent value and an empty one have the same normal form. -/
theorem PathStyle.normalize_eq (style : PathStyle) (raw : Option Text) :
    style.normalize raw = style.normalize (some (raw.getD [])) := by
  cases style <;> rfl

namespace Services
open Engine
variable {σ : Type} {services others : Services σ} {context other : Context} {text : Text}

/-- Where a resolver stops depends on what its keys are answered. -/
private theorem goesOn_congr
    (hvalue : ∀ ns, others.value? other ns = services.value? context ns)
    (hfault : ∀ ns, others.faultAt? other ns = services.faultAt? context ns) :
    others.goesOn other = services.goesOn context := by
  funext ns token
  cases ns with
  | environment =>
    have hv := congrFun (hvalue .environment) token.key
    have hf := congrFun (hfault .environment) token.key
    simp only [value?, faultAt?] at hv hf
    simp only [goesOn, Lookup.goesOn, Lookup.refersBack, hv, hf]
  | parentEnvironment =>
    have hf := congrFun (hfault .parentEnvironment) token.key
    simp only [faultAt?] at hf
    simp only [goesOn, hf]
  | _ => rfl

/-- Passes over a text agree if every key has the same value and every lookup the same fault, and
if the commands are answered alike. -/
theorem agree_of_answers
    (hvalue : ∀ ns, others.value? other ns = services.value? context ns)
    (hfault : ∀ ns, others.faultAt? other ns = services.faultAt? context ns)
    (hdisabled : other.commandsDisabled = context.commandsDisabled)
    (hanswers : ∀ world, others.commandAnswers other text world =
      services.commandAnswers context text world) :
    (Engine.standard services).Agree (Engine.standard others) context other Eq text := by
  have hgo := goesOn_congr hvalue hfault
  have hstop : others.stop? other text = services.stop? context text := by rw [stop?, stop?, hgo]
  have hlookup : (others.source other).fault? = (services.source context).fault? :=
    hfault .environment
  have hprocess : others.environment.fault? = services.environment.fault? :=
    hfault .parentEnvironment
  refine agree_of_part ?_ ?_
  · simp only [fault?, faultIn?, hstop, hlookup, hprocess]
  · rintro world _ rfl
    refine ⟨?_, congrArg Prod.snd (hanswers world).symm⟩
    have hvars : other.vars.get? = context.vars.get? := hvalue .variable
    funext ns
    cases ns with
    | «variable» => simp only [part, resolved, hgo, hvars]
    | environment => simp only [part, resolved, flagged?, hgo, hstop, hlookup, hvalue]
    | command => simp only [part, commandProblems, hanswers world, hdisabled]
    | _ => simp only [part, resolved, hgo, hvalue]

variable (services context) (pruning : Pruning) (style : PathStyle)

def withStyle : Services σ := { services with normalize := style.normalize }

/-- Every key keeps its value. -/
private theorem value?_pruned (ns : Namespace) :
    (pruning.services (services.withStyle style)).value? (pruning.context context) ns =
      (services.withStyle style).value? context ns := by
  funext key
  cases ns with
  | environment =>
    simp only [value?, source, Context.environment, Pruning.context]
    cases context.environmentOverride with
    | none => rfl
    | some table =>
      have hraw := pruning.getD_get?_override table key
      refine congrArg some ?_
      show style.normalize _ = style.normalize _
      rw [style.normalize_eq, hraw, ← style.normalize_eq]
  | workspaceFolder =>
    exact congrArg (Option.map (·.path)) (pruning.findFolder?_registry services.folders key)
  | variant =>
    simp only [value?, Pruning.context]
    cases context.variants with
    | none => rfl
    | some table => exact congrArg some (pruning.getD_get?_values table key)
  | _ => rfl

/-- An override fails for no key, before and after. -/
private theorem faultAt?_pruned (ns : Namespace) :
    (pruning.services (services.withStyle style)).faultAt? (pruning.context context) ns =
      (services.withStyle style).faultAt? context ns := by
  cases ns with
  | environment =>
    simp only [faultAt?, source, Context.environment, Pruning.context]
    cases context.environmentOverride <;> rfl
  | _ => rfl

private theorem expand_pruned (input : Text) (state : σ) :
    (Engine.standard (pruning.services (services.withStyle style))).expand
        (pruning.context context) input state =
      (Engine.standard (services.withStyle style)).expand context input state :=
  expand_eq_of_agree rfl fun _ _ _ _ => agree_of_answers
    (services.value?_pruned context pruning style) (services.faultAt?_pruned context pruning style)
    rfl fun _ => rfl

/-- Where values take the normal form of a style of paths, entries that say nothing are told apart
from no entries by no expansion: whichever of them are taken out, the outcome, the problems and the
state of the world are the same, down to a transcript of the commands. -/
theorem redundantEntries_uninvolved (input : Text) (state : σ) :
    let world := services.withStyle style
    (Engine.standard (pruning.services world)).expand (pruning.context context) input state =
        (Engine.standard world).expand context input state ∧
      ∀ transcript, (Engine.standard (pruning.services world).recording).expand
          (pruning.context context) input (transcript, state) =
        (Engine.standard world.recording).expand context input (transcript, state) :=
  ⟨services.expand_pruned context pruning style input state, fun transcript =>
    services.recording.expand_pruned context pruning style input (transcript, state)⟩

end Services
end Placeholders
