import Placeholders.Json.Token

/-! From tokens to a JSON value, by a machine with a stack of the arrays and objects that are still
open. Each token moves the machine by one step, so nesting may be of any depth. -/

namespace Placeholders.Json

namespace Parse

/-- An array or object that is still open, with what was read in it in reverse order. -/
inductive Frame where
  | array (before : List Json)
  /-- An object, waiting for the value of a name. -/
  | object (before : List (Option Text × Json)) (name : Option Text)

/-- What the machine waits for. -/
inductive State where
  | value (stack : List Frame)
  /-- A name in an object, behind the given members. -/
  | name (stack : List Frame) (before : List (Option Text × Json))
  | colon (stack : List Frame) (before : List (Option Text × Json)) (name : Option Text)
  | behind (stack : List Frame) (value : Json)

/-- The state behind one token, if the token may stand there. A closing bracket may follow its
opening one but not a comma. -/
def step : State → Token → Option State
  | .value stack, .null => some (.behind stack .null)
  | .value stack, .bool b => some (.behind stack (.bool b))
  | .value stack, .natural n => some (.behind stack (.natural n))
  | .value stack, .number => some (.behind stack .number)
  | .value stack, .string s => some (.behind stack (.string s))
  | .value stack, .openArray => some (.value (.array [] :: stack))
  | .value stack, .openObject => some (.name stack [])
  | .value (.array [] :: stack), .closeArray => some (.behind stack (.array []))
  | .name stack before, .string name => some (.colon stack before name)
  | .name stack [], .closeObject => some (.behind stack (.object []))
  | .colon stack before name, .colon => some (.value (.object before name :: stack))
  | .behind (.array before :: stack) value, .comma =>
    some (.value (.array (value :: before) :: stack))
  | .behind (.array before :: stack) value, .closeArray =>
    some (.behind stack (.array (value :: before).reverse))
  | .behind (.object before name :: stack) value, .comma =>
    some (.name stack ((name, value) :: before))
  | .behind (.object before name :: stack) value, .closeObject =>
    some (.behind stack (.object ((name, value) :: before).reverse))
  | _, _ => none

def run : State → List Token → Option State
  | state, [] => some state
  | state, token :: tokens => (step state token).bind fun state => run state tokens

end Parse

def ofTokens? (tokens : List Token) : Option Json :=
  match Parse.run (.value []) tokens with
  | some (.behind [] value) => some value
  | _ => none

def parse? (input : Text) : Option Json := (Token.read input).bind ofTokens?

end Placeholders.Json
