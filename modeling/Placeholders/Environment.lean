import Placeholders.Table
import Placeholders.Text.Utf8

/-! Where environment variables are looked up: the environment of the process, whose values are
bytes and need not be text, a fixed table, and the table that overrides the process. -/

namespace Placeholders

/-- Why a lookup fails, as opposed to finding nothing. -/
inductive Fault where
  /-- The variable is set to bytes that are not UTF-8. -/
  | notUnicode (name : Text)
  deriving DecidableEq, Repr

namespace Fault

def message : Fault → Text
  | .notUnicode name => "environment variable is not valid unicode: ".toList ++ name

def report (f : Fault) : Text := "environment error: ".toList ++ f.message

end Fault

abbrev Lookup := Text → Except Fault (Option Text)

structure ProcessEnvironment where
  vars : Table Bytes
  deriving DecidableEq

def ProcessEnvironment.isName (name : Text) : Bool :=
  !name.isEmpty && !name.contains '=' && !name.contains (Char.ofNat 0)

def ProcessEnvironment.lookup (e : ProcessEnvironment) : Lookup := fun name =>
  if isName name then
    match e.vars.get? name with
    | none => .ok none
    | some bytes =>
      match Text.Utf8.decode? bytes with
      | some value => .ok (some value)
      | none => .error (.notUnicode name)
  else .ok none

namespace Lookup

def ofTable (table : Table Text) : Lookup := fun name => .ok (table.get? name)

/-- Looks a variable up in an override; one listed without a value is not set. -/
def ofOverride (table : Table (Option Text)) : Lookup := fun name => .ok (table.get? name).join

def failingOn (names : List Text) (source : Lookup) : Lookup := fun name =>
  if name ∈ names then .error (.notUnicode name) else source name

end Lookup

def listDelimiter : Char := ':'

end Placeholders
