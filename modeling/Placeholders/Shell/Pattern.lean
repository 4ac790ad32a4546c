import Placeholders.Text.Basic

/-! Patterns of the shell. A sign that quotes protect stands for itself. -/

namespace Placeholders.Shell

inductive PatternSign where
  | letter (c : Char)
  | anyLetter
  | anyText
  /-- A letter of a set, or of none of it. -/
  | oneOf (negated : Bool) (ranges : List (Char × Char))
  deriving DecidableEq, Repr

namespace PatternSign

/-- The ranges of a set in brackets and the signs behind it, if the set is closed. A bracket that
comes first is in the set. -/
def setFrom (first : Bool) : List (Char × Bool) →
    Option (List (Char × Char) × List (Char × Bool))
  | [] => none
  | (c, isQuoted) :: ('-', false) :: (d, q) :: text =>
    if c == ']' && !isQuoted && !first then some ([], ('-', false) :: (d, q) :: text)
    else if d == ']' && !q then
      (setFrom false (('-', false) :: (d, q) :: text)).map fun (ranges, behind) =>
        ((c, c) :: ranges, behind)
    else (setFrom false text).map fun (ranges, behind) => ((c, d) :: ranges, behind)
  | (c, isQuoted) :: text =>
    if c == ']' && !isQuoted && !first then some ([], text)
    else (setFrom false text).map fun (ranges, behind) => ((c, c) :: ranges, behind)

/-- The signs of a pattern whose characters come with whether they are quoted; at most `fuel` of
them are read. -/
def read : Nat → List (Char × Bool) → List PatternSign
  | 0, _ => []
  | _, [] => []
  | fuel + 1, (c, isQuoted) :: text =>
    if isQuoted then .letter c :: read fuel text
    else if c == '*' then .anyText :: read fuel text
    else if c == '?' then .anyLetter :: read fuel text
    else if c == '[' then
      let (negated, inner) := match text with
        | ('!', false) :: more => (true, more)
        | ('^', false) :: more => (true, more)
        | _ => (false, text)
      match setFrom true inner with
      | some (ranges, behind) => .oneOf negated ranges :: read fuel behind
      | none => .letter c :: read fuel text
    else if c == '\\' then
      match text with
      | (d, _) :: more => .letter d :: read fuel more
      | [] => [.letter c]
    else .letter c :: read fuel text

def admits : PatternSign → Char → Bool
  | .letter d, c => c == d
  | .anyLetter, _ => true
  | .anyText, _ => true
  | .oneOf negated ranges, c => negated != ranges.any fun (low, high) => low ≤ c && c ≤ high

def covers : List PatternSign → Text → Bool
  | [], text => text.isEmpty
  | .anyText :: signs, text => skipTo signs text
  | sign :: signs, c :: text => sign.admits c && covers signs text
  | _ :: _, [] => false
where
  /-- Whether signs stand for some end of a text. -/
  skipTo (signs : List PatternSign) : Text → Bool
    | [] => covers signs []
    | c :: text => covers signs (c :: text) || skipTo signs text

end PatternSign

abbrev Pattern := List PatternSign

namespace Pattern

def ofChars (chars : List (Char × Bool)) : Pattern := PatternSign.read chars.length chars

def isMatch (pattern : Pattern) (text : Text) : Bool := PatternSign.covers pattern text

def dropStart (pattern : Pattern) (longest : Bool) (text : Text) : Text :=
  let lengths := List.range (text.length + 1)
  match (if longest then lengths.reverse else lengths).find? fun n => pattern.isMatch (text.take n)
    with
  | some n => text.drop n
  | none => text

def dropEnd (pattern : Pattern) (longest : Bool) (text : Text) : Text :=
  let lengths := List.range (text.length + 1)
  match (if longest then lengths else lengths.reverse).find? fun n => pattern.isMatch (text.drop n)
    with
  | some n => text.take n
  | none => text

end Pattern
end Placeholders.Shell
