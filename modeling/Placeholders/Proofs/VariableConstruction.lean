import Placeholders.Proofs.CommandLineReport
import Placeholders.Proofs.RecordedReplacements

/-! The ways to make variables. However they are made, out of a list of entries, with a context,
from a JSON text or from a request, the required ones are there and each says what its last entry
says; only the second name of the source directory says what the first one does. -/

namespace Placeholders

def FirstMissing (entries : List (Text × Text)) (r : Required) : Prop :=
  (∀ value, (r.key, value) ∉ entries) ∧ ∃ before behind, Required.all = before ++ r :: behind ∧
    ∀ other ∈ before, ∃ value, (other.key, value) ∈ entries

namespace Variables
variable {entries : List (Text × Text)} {vars : Variables}

/-- Variables that say what entries say. The last entry for a key counts, a key without an entry has
no value, and the second name of the source directory follows the first. -/
structure Faithful (entries : List (Text × Text)) (vars : Variables) : Prop where
  complete : ∀ r : Required, ∃ value, (r.key, value) ∈ entries
  sourceDirectory : vars.get? sourceDirectoryKey = vars.get? Required.sourceDir.key
  others : ∀ key, key ≠ sourceDirectoryKey → vars.get? key = lastValue? entries key

structure Makes (entries : List (Text × Text)) (made : Except MissingVariable Variables) :
    Prop where
  error_iff : ∀ r, made = .error ⟨r⟩ ↔ FirstMissing entries r
  ok_iff : ∀ vars, made = .ok vars ↔ Faithful entries vars

/-- A required variable never falls back to the empty text. -/
theorem get?_required (vars : Variables) (r : Required) :
    vars.get? r.key = some (vars.required r) :=
  (Option.some_get (vars.required_isSome r)).symm

theorem Faithful.required_eq (h : Faithful entries vars) (r : Required) :
    lastValue? entries r.key = some (vars.required r) := by
  rw [← h.others r.key r.key_ne_sourceDirectoryKey, get?_required]

/-- Two tables that say what the same entries say are the same. -/
theorem Faithful.unique {others : Variables} (h : Faithful entries vars)
    (ho : Faithful entries others) : vars = others := by
  refine Variables.ext (Table.ext_get? fun key => ?_)
  show vars.get? key = others.get? key
  by_cases hkey : key = sourceDirectoryKey
  · subst hkey
    rw [h.sourceDirectory, ho.sourceDirectory,
      h.others _ (Required.key_ne_sourceDirectoryKey _),
      ho.others _ (Required.key_ne_sourceDirectoryKey _)]
  · rw [h.others key hkey, ho.others key hkey]

theorem firstMissing?_eq_some_iff {r : Required} :
    firstMissing? (Table.ofList entries) = some r ↔ FirstMissing entries r := by
  rw [firstMissing?, List.find?_eq_some_iff_append, FirstMissing]
  refine and_congr ?_ (exists_congr fun before => exists_congr fun behind =>
    and_congr_right fun _ => forall₂_congr fun other _ => ?_)
  · rw [Option.isNone_iff_eq_none, Table.get?_ofList, lastValue?_eq_none_iff]
  · rw [Bool.not_eq_true', Bool.eq_false_iff, ne_eq, Option.isNone_iff_eq_none, Table.get?_ofList,
      lastValue?_eq_none_iff, not_forall_not]

theorem ofTable_eq_error_iff {table : Table Text} {r : Required} :
    ofTable table = .error ⟨r⟩ ↔ firstMissing? table = some r := by
  unfold ofTable
  split
  · next other h => simp [h]
  · next h => simp [h]

theorem get?_of_ofTable {table : Table Text} (h : ofTable table = .ok vars) (key : Text) :
    vars.get? key = if key = sourceDirectoryKey then vars.get? Required.sourceDir.key
      else table.get? key := by
  split
  · next hkey =>
    subst hkey
    exact vars.alias_eq
  · next hkey =>
    unfold ofTable at h
    split at h
    · cases h
    · cases h
      exact Table.get?_insert_of_ne hkey _ _

theorem faithful_of_ofEntries (h : ofEntries entries = .ok vars) : Faithful entries vars := by
  have hothers : ∀ key, key ≠ sourceDirectoryKey → vars.get? key = lastValue? entries key := by
    intro key hkey
    rw [get?_of_ofTable h, if_neg hkey, Table.get?_ofList]
  refine ⟨fun r => ?_, vars.alias_eq, hothers⟩
  by_contra hno
  have hnone := lastValue?_eq_none_iff.mpr (not_exists.mp hno)
  rw [← hothers r.key r.key_ne_sourceDirectoryKey, get?_required] at hnone
  cases hnone

/-- Making variables out of entries fails exactly where a required one has no entry, and tells the
first of these. -/
theorem makes_ofEntries (entries : List (Text × Text)) : Makes entries (ofEntries entries) where
  error_iff r := ofTable_eq_error_iff.trans firstMissing?_eq_some_iff
  ok_iff vars := by
    refine ⟨faithful_of_ofEntries, fun h => ?_⟩
    cases hmade : ofEntries entries with
    | ok others => rw [(faithful_of_ofEntries hmade).unique h]
    | error missing =>
      obtain ⟨hno, _⟩ := firstMissing?_eq_some_iff.mp (ofTable_eq_error_iff.mp hmade)
      obtain ⟨value, hm⟩ := h.complete missing.required
      exact absurd hm (hno value)

end Variables

namespace Context

theorem vars_foldl_choose (context : Context) (settings : List Setting) :
    (settings.foldl choose context).vars = context.vars := by
  induction settings generalizing context with
  | nil => rfl
  | cons setting settings ih =>
    rw [List.foldl_cons, ih]
    cases setting <;> rfl

/-- No choice has an influence on the variables. -/
theorem map_vars_build (entries : List (Text × Text)) (settings : List Setting) :
    (build entries settings).map Context.vars = Variables.ofEntries entries := by
  rw [build]
  cases Variables.ofEntries entries with
  | error missing => rfl
  | ok vars => exact congrArg Except.ok (vars_foldl_choose _ settings)

def fields : List Text :=
  ["variables".toList, "environment_override".toList, "variants".toList, "recursive".toList,
   "commands_disabled".toList]

end Context

namespace Json

def objectOf (entries : List (Text × Text)) : Json :=
  record (entries.map fun (key, value) => (key, text value))

private theorem asPair?_asText?_eq_some_iff {member : Option Text × Json} {entry : Text × Text} :
    asPair? asText? member = some entry ↔ member = (some entry.1, text entry.2) := by
  obtain ⟨name, value⟩ := member
  obtain ⟨key, written⟩ := entry
  cases name <;> cases value <;> simp [asPair?, asText?, text, and_comm]

private theorem mapM_asPair?_eq_some_iff {members : List (Option Text × Json)}
    {entries : List (Text × Text)} : members.mapM (asPair? asText?) = some entries ↔
      members = entries.map fun entry => (some entry.1, text entry.2) := by
  induction members generalizing entries with
  | nil => cases entries <;> simp
  | cons member members ih =>
    simp only [List.mapM_cons, Option.bind_eq_bind, Option.bind_eq_some_iff, ih,
      asPair?_asText?_eq_some_iff]
    constructor
    · rintro ⟨entry, rfl, rest, rfl, h⟩
      obtain rfl := Option.some.inj h
      rfl
    · intro h
      cases entries with
      | nil => cases h
      | cons entry rest =>
        obtain ⟨rfl, rfl⟩ := List.cons.inj h
        exact ⟨entry, rfl, rest, rfl, rfl⟩

theorem asTable?_asText?_eq_some_iff {value : Json} {table : Table Text} :
    asTable? asText? value = some table ↔
      ∃ entries, value = objectOf entries ∧ table = Table.ofList entries := by
  constructor
  · intro h
    cases value with
    | object members =>
      obtain ⟨entries, hm, rfl⟩ := Option.map_eq_some_iff.mp h
      refine ⟨entries, ?_, rfl⟩
      rw [mapM_asPair?_eq_some_iff.mp hm, objectOf, record, List.map_map]
      rfl
    | _ => cases h
  · rintro ⟨entries, rfl, rfl⟩
    rw [objectOf, record, asTable?, List.map_map]
    exact congrArg (Option.map Table.ofList) (mapM_asPair?_eq_some_iff.mpr rfl)

end Json

namespace Variables
variable {entries : List (Text × Text)} {vars : Variables}

theorem ofJson?_eq_some_iff {value : Json} :
    ofJson? value = some vars ↔ ∃ entries, value = .objectOf entries ∧ Faithful entries vars := by
  have hmade {made : Except MissingVariable Variables} :
      made.toOption = some vars ↔ made = .ok vars := by cases made <;> simp [Except.toOption]
  rw [ofJson?, Option.bind_eq_bind, Option.bind_eq_some_iff]
  constructor
  · rintro ⟨table, htable, h⟩
    obtain ⟨entries, rfl, rfl⟩ := Json.asTable?_asText?_eq_some_iff.mp htable
    exact ⟨entries, rfl, faithful_of_ofEntries (hmade.mp h)⟩
  · rintro ⟨entries, rfl, h⟩
    exact ⟨_, Json.asTable?_asText?_eq_some_iff.mpr ⟨entries, rfl, rfl⟩,
      hmade.mpr (((makes_ofEntries entries).ok_iff vars).mpr h)⟩

end Variables

namespace Context

/-- The variables of a context are read from its first field, which must be given. -/
theorem exists_faithful_of_ofJson? {value : Json} {context : Context}
    (h : ofJson? value = some context) : ∃ entries slots,
      value.slots? fields = some (.given (.objectOf entries) :: slots) ∧
        context.vars.Faithful entries := by
  rw [ofJson?, Option.bind_eq_bind, Option.bind_eq_some_iff] at h
  obtain ⟨slots, hslots, h⟩ := h
  split at h
  · next vars environment variants recursive disabled =>
    simp only [Option.bind_eq_bind, Option.bind_eq_some_iff, Option.pure_def] at h
    obtain ⟨made, hvars, _, _, _, _, _, _, _, _, h⟩ := h
    obtain rfl := Option.some.inj h
    cases vars with
    | given written =>
      obtain ⟨entries, rfl, hfaithful⟩ := Variables.ofJson?_eq_some_iff.mp hvars
      exact ⟨entries, _, hslots, hfaithful⟩
    | _ => cases hvars
  · cases h

end Context

namespace Request
variable {request : Request}

/-- The home directory stands in for its variable where the request has none. -/
theorem get?_variablesWith (request : Request) (home key : Text) :
    (request.variablesWith (some home)).get? key =
      if key = Required.userHome.key then some ((request.vars.get? key).getD home)
      else request.vars.get? key := by
  cases hgiven : request.vars.get? Required.userHome.key with
  | some value =>
    have hsame : request.variablesWith (some home) = request.vars := by
      simp [variablesWith, hgiven]
    rw [hsame]
    split
    · next hkey => rw [hkey, hgiven, Option.getD_some]
    · rfl
  | none =>
    have hhome : request.variablesWith (some home) =
        request.vars.insert Required.userHome.key home := by
      simp [variablesWith, hgiven]
    rw [hhome, Table.get?_insert]
    split
    · next hkey => rw [hkey, hgiven, Option.getD_none]
    · rfl

/-- The context has what the request says, and the home directory where it says nothing of one. -/
structure Carries (request : Request) (home : Text) (context : Context) : Prop where
  userHome : context.vars.get? Required.userHome.key =
    some ((request.vars.get? Required.userHome.key).getD home)
  sourceDirectory : context.vars.get? sourceDirectoryKey = request.vars.get? Required.sourceDir.key
  others : ∀ key, key ≠ Required.userHome.key → key ≠ sourceDirectoryKey →
    context.vars.get? key = request.vars.get? key
  environmentOverride : context.environmentOverride = request.environmentOverride
  variants : context.variants = request.variants
  recursive : context.recursive = request.recursive
  commandsDisabled : context.commandsDisabled = request.commandsDisabled

theorem context?_eq_ok_iff {home : Option Text} {context : Context} :
    request.context? home = .ok context ↔
      ∃ vars, Variables.ofTable (request.variablesWith home) = .ok vars ∧
        ⟨vars, request.environmentOverride, request.variants, request.recursive,
          request.commandsDisabled⟩ = context := by
  rw [context?]
  cases Variables.ofTable (request.variablesWith home) <;> simp [Except.map]

theorem carries_of_context? {home : Text} {context : Context}
    (h : request.context? (some home) = .ok context) : request.Carries home context := by
  obtain ⟨vars, hvars, rfl⟩ := context?_eq_ok_iff.mp h
  have hget (key : Text) (hkey : key ≠ sourceDirectoryKey) :
      vars.get? key = (request.variablesWith (some home)).get? key := by
    rw [Variables.get?_of_ofTable hvars, if_neg hkey]
  refine ⟨?_, ?_, fun key huser hkey => ?_, rfl, rfl, rfl, rfl⟩
  · rw [hget _ (Required.key_ne_sourceDirectoryKey _), get?_variablesWith, if_pos rfl]
  · rw [Variables.get?_of_ofTable hvars, if_pos rfl, hget _ (Required.key_ne_sourceDirectoryKey _),
      get?_variablesWith, if_neg (by decide)]
  · rw [hget key hkey, get?_variablesWith, if_neg huser]

theorem context?_eq_error_iff {home : Option Text} {r : Required} :
    request.context? home = .error ⟨r⟩ ↔
      Variables.firstMissing? (request.variablesWith home) = some r := by
  rw [← Variables.ofTable_eq_error_iff, context?]
  cases Variables.ofTable (request.variablesWith home) <;> simp [Except.map]

/-- With a home directory only the other required variables can be missing. -/
theorem exists_context?_eq_error_iff {home : Text} :
    (∃ r, request.context? (some home) = .error ⟨r⟩) ↔
      ∃ r : Required, r ≠ .userHome ∧ request.vars.get? r.key = none := by
  simp only [context?_eq_error_iff]
  rw [← Option.isSome_iff_exists, Variables.firstMissing?, List.find?_isSome]
  have hkey {r : Required} (hr : r ≠ .userHome) : r.key ≠ Required.userHome.key := by
    cases r <;> first | exact absurd rfl hr | decide
  constructor
  · rintro ⟨r, _, hnone⟩
    rw [Option.isNone_iff_eq_none, get?_variablesWith] at hnone
    by_cases hr : r = .userHome
    · subst hr
      cases hnone
    · exact ⟨r, hr, by rwa [if_neg (hkey hr)] at hnone⟩
  · rintro ⟨r, hr, hnone⟩
    refine ⟨r, r.mem_all, ?_⟩
    rw [Option.isNone_iff_eq_none, get?_variablesWith, if_neg (hkey hr), hnone]

end Request

/-- However variables are made, they are complete and say what they were made of. Out of a list of
entries, alone or for a context with any choices, none are made exactly where a required one has no
entry, and the first of these is told. A JSON text gives variables exactly if it is an object of
texts that has the required ones, and a context that it gives has such variables; the folder of the
commands is always the one that was given. Variables made of the entries of others are the same.
With a home directory a request has a context unless one of the other required variables is missing,
and the context has what the request says. -/
theorem construction_faithful (entries : List (Text × Text)) (settings : List Setting) (text : Text)
    (vars : Variables) (context : Context) (request : Request) (home : Text) :
    Variables.Makes entries (Variables.ofEntries entries) ∧
      Variables.Makes entries ((Context.build entries settings).map Context.vars) ∧
      (Json.ofText? Variables.ofJson? text = some vars ↔
        ∃ given, Json.parse? text = some (.objectOf given) ∧ vars.Faithful given) ∧
      (Json.ofText? Context.ofJson? text = some context →
        ∃ value given slots, Json.parse? text = some value ∧
          value.slots? Context.fields = some (.given (.objectOf given) :: slots) ∧
            context.vars.Faithful given) ∧
      (context.vars.Faithful entries →
        lastValue? entries Required.workspaceFolder.key = some context.workspaceFolder) ∧
      Variables.ofEntries vars.table.entries = .ok vars ∧
      ((∃ reason, request.context (some home) = .error reason) ↔
        ∃ r : Required, r ≠ .userHome ∧ request.vars.get? r.key = none) ∧
      (request.context (some home) = .ok context → request.Carries home context) := by
  refine ⟨Variables.makes_ofEntries entries, ?_, ?_, fun h => ?_, fun h => h.required_eq _, ?_, ?_,
    fun h => ?_⟩
  · rw [Context.map_vars_build]
    exact Variables.makes_ofEntries entries
  · rw [Json.ofText?, Option.bind_eq_some_iff]
    constructor
    · rintro ⟨value, hparse, hvars⟩
      obtain ⟨given, rfl, hfaithful⟩ := Variables.ofJson?_eq_some_iff.mp hvars
      exact ⟨given, hparse, hfaithful⟩
    · rintro ⟨given, hparse, hfaithful⟩
      exact ⟨_, hparse, Variables.ofJson?_eq_some_iff.mpr ⟨given, rfl, hfaithful⟩⟩
  · obtain ⟨value, hparse, hvalue⟩ := Option.bind_eq_some_iff.mp h
    obtain ⟨given, slots, hslots, hfaithful⟩ := Context.exists_faithful_of_ofJson? hvalue
    exact ⟨value, given, slots, hparse, hslots, hfaithful⟩
  · rw [Variables.ofEntries, Table.ofList_entries, Variables.ofTable_table]
  · rw [← Request.exists_context?_eq_error_iff, Request.context]
    cases request.context? (some home) with
    | error missing => exact iff_of_true ⟨_, rfl⟩ ⟨missing.required, rfl⟩
    | ok context => simp [Except.mapError]
  · exact Request.carries_of_context? (Request.context_eq_ok_iff.mp h)

/-- Entries with two folders of the workspace and a second name of their own for the source
directory, in a list, in a JSON text and in a request that leaves the home directory out. -/
theorem construction_faithful_repeated :
    let entries : List (Text × Text) := Required.all.map (fun r => (r.key, [])) ++
      [(sourceDirectoryKey, "other".toList), (Required.workspaceFolder.key, "/w".toList)]
    let vars := Variables.bare.bind Required.workspaceFolder.key "/w".toList (by decide) (by decide)
    let context : Context := { vars := vars, recursive := false }
    let request : Request :=
      { vars := Table.ofList (entries.filter fun entry => entry.1 ≠ Required.userHome.key)
        recursive := false }
    let written := Json.record [("variables".toList, .objectOf entries),
      ("recursive".toList, .bool false), ("commands_disabled".toList, .bool false)]
    (Json.ofText? Context.ofJson? written.print = some context ∧ context.vars.Faithful entries ∧
        request.context (some []) = .ok context) ∧
      (∃ value given slots, Json.parse? written.print = some value ∧
        value.slots? Context.fields = some (.given (.objectOf given) :: slots) ∧
          context.vars.Faithful given) ∧
      lastValue? entries Required.workspaceFolder.key = some context.workspaceFolder ∧
      request.Carries [] context := by
  intro entries vars context request written
  have hwritten : Context.ofJson? written = some context := by decide +kernel
  have hjson : Json.ofText? Context.ofJson? written.print = some context := by
    rw [Json.ofText?, Json.parse?_print, Option.bind_some, hwritten]
  have hentries : Variables.ofEntries entries = .ok vars := by decide +kernel
  have hfaithful : vars.Faithful entries := Variables.faithful_of_ofEntries hentries
  have hrequest : request.context (some []) = .ok context := by decide +kernel
  obtain ⟨_, _, _, htext, hfolder, _, _, hcarries⟩ :=
    construction_faithful entries [.recursive false] written.print vars context request []
  exact ⟨⟨hjson, hfaithful, hrequest⟩, htext hjson, hfolder hfaithful, hcarries hrequest⟩

end Placeholders
