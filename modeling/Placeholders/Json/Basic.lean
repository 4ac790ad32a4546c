import Placeholders.Text.Basic

/-! JSON values. A string is a text unless an escape in it names half of a surrogate pair; such a
string may stand where nobody reads it. Of numbers only the naturals are told apart. -/

namespace Placeholders

inductive Json where
  | null
  | bool (value : Bool)
  | natural (value : Nat)
  /-- A number with a sign, a fraction or an exponent. -/
  | number
  /-- A string; `none` if it holds an unpaired surrogate. -/
  | string (value : Option Text)
  | array (items : List Json)
  /-- An object: its members as they are written, which may repeat a name. -/
  | object (members : List (Option Text × Json))
  deriving Inhabited, Repr

namespace Json

def text (value : Text) : Json := .string (some value)

def record (fields : List (Text × Json)) : Json :=
  .object (fields.map fun (name, value) => (some name, value))

def optional {α : Type} (encode : α → Json) : Option α → Json
  | none => .null
  | some value => encode value

end Json
end Placeholders
