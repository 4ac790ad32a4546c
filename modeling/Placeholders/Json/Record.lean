import Placeholders.Json.Basic
import Placeholders.Table

/-! Reading records, tables and lists out of JSON values. A record is an object with named fields,
or an array of the fields in order. In an object, fields without a meaning are passed over and no
field may be given twice; an array may lack fields only at its end. -/

namespace Placeholders.Json

/-- What a value gives for a field of a record. -/
inductive Slot where
  | given (value : Json)
  | absent
  | cut

def valuesOf (name : Text) (members : List (Option Text × Json)) : List Json :=
  (members.filter fun member => member.1 = some name).map (·.2)

/-- What the members of an object give for a field; it must not be given twice. -/
def namedSlot? (members : List (Option Text × Json)) (name : Text) : Option Slot :=
  match valuesOf name members with
  | [] => some .absent
  | [value] => some (.given value)
  | _ => none

/-- What the items of an array give for the fields in order; there must not be more of them. -/
def positionalSlots? : List Text → List Json → Option (List Slot)
  | [], [] => some []
  | [], _ :: _ => none
  | _ :: names, [] => (positionalSlots? names []).map (.cut :: ·)
  | _ :: names, item :: items => (positionalSlots? names items).map (.given item :: ·)

def slots? (names : List Text) : Json → Option (List Slot)
  | .object members =>
    if members.all fun member => member.1.isSome then names.mapM (namedSlot? members) else none
  | .array items => positionalSlots? names items
  | _ => none

namespace Slot

variable {α : Type}

def required? (decode : Json → Option α) : Slot → Option α
  | .given value => decode value
  | _ => none

def optional? (decode : Json → Option α) : Slot → Option (Option α)
  | .given .null => some none
  | .given value => (decode value).map some
  | .absent => some none
  | .cut => none

def default? (fallback : α) (decode : Json → Option α) : Slot → Option α
  | .given value => decode value
  | _ => some fallback

end Slot

def asBool? : Json → Option Bool
  | .bool b => some b
  | _ => none

def asText? : Json → Option Text
  | .string s => s
  | _ => none

/-- The count that a value is; counts have 64 bits. -/
def asCount? : Json → Option Nat
  | .natural n => if n < 0x10000000000000000 then some n else none
  | _ => none

def asOptional? {α : Type} (decode : Json → Option α) : Json → Option (Option α)
  | .null => some none
  | value => (decode value).map some

def asList? {α : Type} (decode : Json → Option α) : Json → Option (List α)
  | .array items => items.mapM decode
  | _ => none

def asPair? {α : Type} (decode : Json → Option α) (member : Option Text × Json) :
    Option (Text × α) :=
  member.1.bind fun key => (decode member.2).map fun value => (key, value)

/-- The table that an object is; the last of several values for a name counts. -/
def asTable? {α : Type} (decode : Json → Option α) : Json → Option (Table α)
  | .object members => (members.mapM (asPair? decode)).map Table.ofList
  | _ => none

/-- The choice that a value names: a string, or an object that has only that name, with null. -/
def asChoice? {α : Type} (choices : List α) (name : α → Text) : Json → Option α
  | .string (some s) => choices.find? fun choice => name choice = s
  | .object [(some s, .null)] => choices.find? fun choice => name choice = s
  | _ => none

def ofTable {α : Type} (encode : α → Json) (table : Table α) : Json :=
  .object (table.entries.map fun (key, value) => (some key, encode value))

end Placeholders.Json
