import Placeholders.Text.Basic

/-! The format of a request file, which the extension of its name tells. -/

namespace Placeholders

inductive RequestFormat where
  | json
  | yaml
  deriving DecidableEq, Repr

namespace RequestFormat

/-- The name of the file that a path leads to. Empty parts and parts of one dot do not count; a
path that ends in two dots leads to no named file. -/
def fileName? (path : Text) : Option Text :=
  match ((Text.splitAt '/' path).filter fun part => part ≠ [] ∧ part ≠ ['.']).getLast? with
  | none => none
  | some name => if name = ['.', '.'] then none else some name

/-- The extension of a file name: what follows its last dot, unless nothing stands before it. -/
def extension? (name : Text) : Option Text :=
  let extension := name.reverse.takeWhile (· ≠ '.')
  match name.reverse.drop extension.length with
  | '.' :: _ :: _ => some extension.reverse
  | _ => none

/-- The format of the file at a path: YAML by its extensions, in any case, and else JSON. -/
def ofPath (path : Text) : RequestFormat :=
  match (fileName? path).bind extension? with
  | some extension =>
    let extension := extension.map Text.lowerAscii
    if extension = "yml".toList ∨ extension = "yaml".toList then .yaml else .json
  | none => .json

end RequestFormat
end Placeholders
