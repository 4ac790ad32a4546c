import Placeholders.Shell.Arithmetic
import Placeholders.Shell.Field
import Placeholders.Shell.Output
import Placeholders.Shell.State

/-! Parameters and what else stands for a value in a word: arithmetic and the tilde. -/

namespace Placeholders.Shell.Step

def parameter? (name : Text) : Step (Option Text) := do
  let s ← get
  match name with
  | ['?'] => return some (Text.ofNat s.status)
  | ['$'] => return some (Text.ofNat s.system.processId)
  | ['#'] => return some (Text.ofNat s.arguments.length)
  | ['-'] =>
    let flags := [('e', s.stopsOnFailure), ('x', s.traces), ('u', s.stopsOnUnset)]
    return some (flags.filterMap fun (c, isSet) => if isSet then some c else none)
  | ['!'] => return none
  | ['0'] => return some s.name
  | ['@'] | ['*'] =>
    return if s.arguments.isEmpty then none else some (joinWords s.arguments)
  | c :: _ =>
    if c.isDigit then
      return s.arguments[(Expression.digits? 10 name).getD 0 - 1]?
    else lookup? name
  | [] => return none

def separators : Step Text := return (← lookup? "IFS".toList).getD [' ', '\t', '\n']

def arithmetic (expression : Text) : Step Text := do
  let quoted := '"' :: expression ++ ['"']
  let about (message : String) : Text :=
    "arithmetic expression: ".toList ++ message.toList ++ quoted
  let vars := (← get).vars
  match Expression.read expression >>= Expression.evaluate vars with
  | .ok (value, vars) =>
    modify fun s => { s with vars := vars }
    return Expression.numeral value
  | .error (.expected token) => abort (about ("expecting " ++ String.ofList token ++ ": "))
  | .error .divisionByZero => abort (about "division by zero: ")
  | .error (.badNumber text) => abort ("Illegal number: ".toList ++ text)

def tilde (word : Word) : Step (List Item × Word) := do
  match word with
  | .plain '~' :: rest =>
    match rest with
    | [] | .plain '/' :: _ =>
      match ← lookup? "HOME".toList with
      | some home => return (Item.ofValue home true, rest)
      | none => return ([], word)
    | _ => return ([], word)
  | _ => return ([], word)

end Placeholders.Shell.Step
