import Placeholders.Json.Request

/-! What a type writes as JSON it reads again. Lists, tables, optional values and records carry this
from their parts to the whole (`asList?_map`, `asTable?_ofTable`, `slots?_record`); a record may
leave out fields that have nothing to say. -/

namespace Placeholders

namespace Table

variable {α : Type}

/-- A key behind all others takes its place at the end. -/
theorem place_of_forall_before {key : Text} {entries : List (Text × α)} (value : α)
    (h : ∀ entry ∈ entries, Text.before entry.1 key) :
    place key value entries = entries ++ [(key, value)] := by
  induction entries with
  | nil => rfl
  | cons head entries ih =>
    obtain ⟨k, v⟩ := head
    have hk : Text.before k key = true := h (k, v) List.mem_cons_self
    have hne : key ≠ k := by
      rintro rfl
      simp [Text.before_irrefl] at hk
    have hnot : ¬ Text.before key k = true := fun hlt => by
      have := Text.before_trans hlt hk
      simp [Text.before_irrefl] at this
    rw [place, if_neg hne, if_neg hnot, ih fun e he => h e (List.mem_cons_of_mem _ he)]
    rfl

/-- Entries that come in ascending order, behind those of a table, are all kept. -/
theorem entries_foldl_insert (t : Table α) (more : List (Text × α))
    (h : (t.entries ++ more).Pairwise fun a b => Text.before a.1 b.1) :
    (more.foldl (fun t (key, value) => t.insert key value) t).entries = t.entries ++ more := by
  induction more generalizing t with
  | nil => simp
  | cons entry more ih =>
    have behind : ∀ e ∈ t.entries, Text.before e.1 entry.1 := fun e he =>
      (List.pairwise_append.mp h).2.2 e he entry List.mem_cons_self
    have hinsert : (t.insert entry.1 entry.2).entries = t.entries ++ [entry] :=
      place_of_forall_before entry.2 behind
    rw [List.foldl_cons, ih, hinsert, List.append_assoc, List.singleton_append]
    rw [hinsert, List.append_assoc, List.singleton_append]
    exact h

/-- A table is the table of its entries. -/
theorem ofList_entries (t : Table α) : ofList t.entries = t :=
  Table.ext (entries_foldl_insert empty t.entries t.ascending)

end Table

namespace Variables

/-- Variables are made of their table as it is: it has what is required, and the source directory
its second name already. -/
theorem ofTable_table (vars : Variables) : ofTable vars.table = .ok vars := by
  have complete : firstMissing? vars.table = none :=
    List.find?_eq_none.mpr fun r _ => by
      simpa using Option.isSome_iff_ne_none.mp (vars.required_isSome r)
  obtain ⟨value, hvalue⟩ := Option.isSome_iff_exists.mp (vars.required_isSome .sourceDir)
  have same : vars.table.insert sourceDirectoryKey
      ((vars.table.get? Required.sourceDir.key).getD []) = vars.table := by
    refine Table.ext_get? fun key => ?_
    rw [Table.get?_insert]
    split
    · next h => rw [h, vars.alias_eq, hvalue, Option.getD_some]
    · rfl
  unfold ofTable
  split
  · next r h => simp [complete] at h
  · exact congrArg Except.ok (Variables.ext same)

end Variables

namespace Json

variable {α : Type} {encode : α → Json} {decode : Json → Option α}

/-! ### Lists, tables and optional values -/

theorem mapM_map_eq_some {β γ δ : Type} {f : β → γ} {g : γ → Option δ} {result : β → δ}
    {values : List β} (h : ∀ v ∈ values, g (f v) = some (result v)) :
    (values.map f).mapM g = some (values.map result) := by
  induction values with
  | nil => rfl
  | cons value values ih =>
    simp [h value List.mem_cons_self, ih fun v hv => h v (List.mem_cons_of_mem _ hv)]

theorem asList?_map (h : ∀ v, decode (encode v) = some v) (values : List α) :
    asList? decode (.array (values.map encode)) = some values := by
  rw [asList?, mapM_map_eq_some fun v _ => h v, List.map_id']

theorem asTable?_ofTable (h : ∀ v, decode (encode v) = some v) (table : Table α) :
    asTable? decode (ofTable encode table) = some table := by
  have entry (e : Text × α) : asPair? decode (some e.1, encode e.2) = some e := by
    rw [asPair?, Option.bind_some, h, Option.map_some]
  have object : ofTable encode table
      = .object (table.entries.map fun e => (some e.1, encode e.2)) := rfl
  rw [object, asTable?, mapM_map_eq_some fun e _ => entry e, List.map_id', Option.map_some,
    Table.ofList_entries]

/-- An optional value is told from none as long as no value is written as null. -/
theorem asOptional?_optional (h : ∀ v, decode (encode v) = some v)
    (hnull : ∀ v, encode v ≠ .null) (value : Option α) :
    asOptional? decode (optional encode value) = some value := by
  cases value with
  | none => rfl
  | some value =>
    have given := asOptional?.eq_2 decode (encode value) (hnull value)
    rw [optional, given, h, Option.map_some]

namespace Slot

@[simp] theorem required?_given (decode : Json → Option α) (value : Json) :
    (given value).required? decode = decode value := rfl

@[simp] theorem default?_given (fallback : α) (decode : Json → Option α) (value : Json) :
    (given value).default? fallback decode = decode value := rfl

/-- A field that writes none as null. -/
theorem optional?_optional (h : ∀ v, decode (encode v) = some v) (hnull : ∀ v, encode v ≠ .null)
    (value : Option α) : (given (optional encode value)).optional? decode = some value := by
  cases value with
  | none => rfl
  | some value =>
    have written := optional?.eq_2 decode (encode value) (hnull value)
    rw [optional, written, h, Option.map_some]

def ofOption : Option Json → Slot
  | some value => .given value
  | none => .absent

@[simp] theorem ofOption_some (value : Json) : ofOption (some value) = given value := rfl

/-- A field that leaves none out. -/
theorem default?_ofOption (h : ∀ v, decode (encode v) = some v) (hnull : ∀ v, encode v ≠ .null)
    (value : Option α) :
    (ofOption (value.map encode)).default? none (asOptional? decode) = some value := by
  cases value with
  | none => rfl
  | some value => exact asOptional?_optional h hnull (some value)

end Slot

@[simp] theorem asText?_text (t : Text) : asText? (.text t) = some t := rfl

@[simp] theorem asBool?_bool (b : Bool) : asBool? (.bool b) = some b := rfl

/-! ### Records -/

def present (fields : List (Text × Option Json)) : List (Text × Json) :=
  fields.filterMap fun field => field.2.map fun value => (field.1, value)

def members (fields : List (Text × Option Json)) : List (Option Text × Json) :=
  (present fields).map fun field => (some field.1, field.2)

theorem valuesOf_members_cons (name : Text) (field : Text × Option Json)
    (fields : List (Text × Option Json)) :
    valuesOf name (members (field :: fields))
      = (if field.1 = name then field.2.toList else []) ++ valuesOf name (members fields) := by
  obtain ⟨other, value⟩ := field
  cases value with
  | none => simp [members, present]
  | some value => by_cases h : other = name <;> simp [members, present, valuesOf, h]

theorem valuesOf_members_of_not_mem {name : Text} {fields : List (Text × Option Json)}
    (h : name ∉ fields.map Prod.fst) : valuesOf name (members fields) = [] := by
  induction fields with
  | nil => rfl
  | cons field fields ih =>
    rw [List.map_cons, List.mem_cons, not_or] at h
    rw [valuesOf_members_cons, if_neg (Ne.symm h.1), ih h.2, List.nil_append]

/-- Of fields with different names each is written at most once. -/
theorem valuesOf_members_of_mem {field : Text × Option Json}
    {fields : List (Text × Option Json)} (hm : field ∈ fields)
    (h : (fields.map Prod.fst).Nodup) : valuesOf field.1 (members fields) = field.2.toList := by
  induction fields with
  | nil => cases hm
  | cons head fields ih =>
    rw [List.map_cons, List.nodup_cons] at h
    rw [valuesOf_members_cons]
    rcases List.mem_cons.mp hm with rfl | hm
    · rw [if_pos rfl, valuesOf_members_of_not_mem h.1, List.append_nil]
    · have hne : head.1 ≠ field.1 := fun heq => h.1 (heq ▸ List.mem_map_of_mem hm)
      rw [if_neg hne, ih hm h.2, List.nil_append]

/-- A record with fields of different names gives for each field what was written for it. -/
theorem slots?_record {names : List Text} (distinct : names.Nodup) (values : List (Option Json))
    (hlength : values.length = names.length) {value : Json}
    (written : value = record (present (names.zip values))) :
    value.slots? names = some (values.map Slot.ofOption) := by
  have hnames : (names.zip values).map Prod.fst = names := List.map_fst_zip (by omega)
  have hvalues : (names.zip values).map Prod.snd = values := List.map_snd_zip (by omega)
  have named : ∀ field ∈ names.zip values,
      namedSlot? (members (names.zip values)) field.1 = some (Slot.ofOption field.2) :=
    fun field hm => by
      rw [namedSlot?, valuesOf_members_of_mem hm (hnames.symm ▸ distinct)]
      cases field.2 <;> rfl
  have readable : (members (names.zip values)).all (fun member => member.1.isSome) = true := by
    simp [members]
  have object : value = .object (members (names.zip values)) := written
  rw [object, slots?, if_pos readable]
  calc names.mapM (namedSlot? (members (names.zip values)))
      = ((names.zip values).map Prod.fst).mapM (namedSlot? (members (names.zip values))) := by
        rw [hnames]
    _ = some ((names.zip values).map fun field => Slot.ofOption field.2) :=
        mapM_map_eq_some named
    _ = some (values.map Slot.ofOption) := by
        rw [← hvalues, List.map_map, hvalues]
        rfl

end Json
end Placeholders
