import Placeholders.Text.Basic

/-! Normal form of values that hold paths. In the drive-letter style the backslashes of a drive
path become slashes; all other text stays. A drive path is a letter and a colon, then segments each
behind a backslash, then perhaps one more backslash. -/

namespace Placeholders

inductive PathStyle where
  | windows
  | posix
  deriving DecidableEq, Repr

namespace PathStyle

/-- Letters that name a drive. The long s and the Kelvin sign count as forms of s and k. -/
def isDriveLetter (c : Char) : Bool :=
  ('a' ≤ c && c ≤ 'z') || ('A' ≤ c && c ≤ 'Z') || c == 'ſ'
    || c == Char.ofNat 0x212A

def isSegmentChar (c : Char) : Bool :=
  !(['<', '>', ':', '"', '/', '\\', '|', '?', '*', ';', '\r', '\n'].contains c)

/-- Where in a drive path a character stands. -/
inductive Place where
  | outside
  | colon
  | root
  | separator
  | segment
  deriving DecidableEq, Repr

/-- Place behind a character that belongs to no drive path begun before it. -/
def Place.start (c : Char) (rest : Text) : Place :=
  if isDriveLetter c && rest.head? == some ':' then .colon else .outside

def Place.step : Place → Char → Text → Char × Place
  | .outside, c, rest => (c, start c rest)
  | .colon, c, _ => (c, .root)
  | .root, c, rest => if c = '\\' then ('/', .separator) else (c, start c rest)
  | .separator, c, rest => if isSegmentChar c then (c, .segment) else (c, start c rest)
  | .segment, c, rest =>
    if isSegmentChar c then (c, .segment)
    else if c = '\\' then ('/', .separator)
    else (c, start c rest)

def slashesFrom : Place → Text → Text
  | _, [] => []
  | place, c :: text => (place.step c text).1 :: slashesFrom (place.step c text).2 text

def slashes (text : Text) : Text := slashesFrom .outside text

/-- Normal form of a value; an absent value becomes empty. -/
def normalize (style : PathStyle) (raw : Option Text) : Text :=
  match style with
  | .posix => raw.getD []
  | .windows => slashes (raw.getD [])

theorem length_slashesFrom (place : Place) (text : Text) :
    (slashesFrom place text).length = text.length := by
  induction text generalizing place with
  | nil => rfl
  | cons c text ih => simp [slashesFrom, ih]

end PathStyle
end Placeholders
