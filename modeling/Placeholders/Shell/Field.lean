import Placeholders.Text.Basic

/-! Fields: the texts into which a word of a command falls apart after its expansions. Separators
part it only where they come out of an expansion without quotes. -/

namespace Placeholders.Shell

inductive Item where
  /-- A character; `splits` says whether it may part fields, `isQuoted` whether it stands for itself
  in a pattern. -/
  | letter (c : Char) (splits isQuoted : Bool)
  /-- Here one field ends and the next begins. -/
  | border
  /-- Quotes, which make a field even of nothing. -/
  | quotes
  deriving DecidableEq, Repr

namespace Item

def ofValue (text : Text) (inQuotes : Bool) : List Item :=
  text.map fun c => .letter c (!inQuotes) inQuotes

def text (items : List Item) : Text := items.filterMap fun
  | .letter c _ _ => some c
  | .border => some ' '
  | .quotes => none

def chars (items : List Item) : List (Char × Bool) := items.filterMap fun
  | .letter c _ isQuoted => some (c, isQuoted)
  | _ => none

/-- The fields of items. `field` is the one being read, the last character first; `bySpace` says
whether the last field was ended by a space. -/
def fieldsFrom (separators : Text) : Option Text → Bool → List Item → List Text
  | none, _, [] => []
  | some field, _, [] => [field.reverse]
  | field, _, .border :: items =>
    match field with
    | some field => field.reverse :: fieldsFrom separators (some []) false items
    | none => [] :: fieldsFrom separators (some []) false items
  | field, _, .quotes :: items => fieldsFrom separators (some (field.getD [])) false items
  | field, bySpace, .letter c splits _ :: items =>
    if splits && separators.contains c then
      let isSpace := c == ' ' || c == '\t' || c == '\n'
      match field with
      | some field => field.reverse :: fieldsFrom separators none isSpace items
      | none =>
        if isSpace then fieldsFrom separators none bySpace items
        else if bySpace then fieldsFrom separators none false items
        else [] :: fieldsFrom separators none false items
    else fieldsFrom separators (some (c :: field.getD [])) false items

end Item

end Placeholders.Shell
