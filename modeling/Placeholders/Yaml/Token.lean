import Placeholders.Text.Utf8

/-! The characters and tokens of YAML, and the place where reading stands. Line ends of all
spellings are made one character before anything is read, so a place moves on by one character at
a time. -/

namespace Placeholders.Yaml

/-- Characters that a YAML text may hold: no controls but tab and line ends. -/
def isPrintable (c : Char) : Bool :=
  let n := c.toNat
  n == 0x09 || n == 0x0A || n == 0x0D || (0x20 ≤ n && n ≤ 0x7E) || n == 0x85
    || (0xA0 ≤ n && n ≤ 0xFFFD) || 0x10000 ≤ n

/-- Makes each line end one line feed; separators of lines and paragraphs stay. -/
def unifyBreaks : Text → Text
  | [] => []
  | '\r' :: '\n' :: text => '\n' :: unifyBreaks text
  | c :: text => (if c = '\r' ∨ c = Char.ofNat 0x85 then '\n' else c) :: unifyBreaks text

def isBreak (c : Char) : Bool := c == '\n' || c == Char.ofNat 0x2028 || c == Char.ofNat 0x2029

def isSpace (c : Char) : Bool := c == ' ' || c == '\t'

def atGap : Text → Bool
  | [] => true
  | c :: _ => isSpace c || isBreak c

def isNameChar (c : Char) : Bool := c.isAlphanum || c == '_' || c == '-'

def byteOrderMark : Char := Char.ofNat 0xFEFF

def atDocumentSign : Text → Bool
  | '-' :: '-' :: '-' :: text => atGap text
  | '.' :: '.' :: '.' :: text => atGap text
  | _ => false

/-- What was read of a text, counted in characters, lines and columns. -/
structure Mark where
  index : Nat := 0
  line : Nat := 0
  column : Nat := 0
  deriving DecidableEq, Repr, Inhabited

def Mark.after (m : Mark) (c : Char) : Mark :=
  if isBreak c then ⟨m.index + 1, m.line + 1, 0⟩ else ⟨m.index + 1, m.line, m.column + 1⟩

/-- A place in a text: what is still to be read, and the mark of what was read. -/
structure Cursor where
  rest : Text
  mark : Mark := {}
  deriving Inhabited

namespace Cursor

def advance (cursor : Cursor) : Cursor :=
  match cursor.rest with
  | [] => cursor
  | c :: rest => ⟨rest, cursor.mark.after c⟩

def skip (cursor : Cursor) : Nat → Cursor
  | 0 => cursor
  | n + 1 => skip cursor.advance n

def taken (p : Char → Bool) (cursor : Cursor) : Text := cursor.rest.takeWhile p

def skipWhile (p : Char → Bool) (cursor : Cursor) : Cursor :=
  cursor.skip (cursor.taken p).length

def next? (cursor : Cursor) : Option Char := cursor.rest.head?

def isAtGap (cursor : Cursor) : Bool := atGap cursor.rest

def toLineEnd (cursor : Cursor) : Cursor := cursor.skipWhile fun c => !isBreak c

def isAtLineEnd (cursor : Cursor) : Bool := cursor.rest.head?.all isBreak

end Cursor

inductive ScalarStyle where
  | plain
  | singleQuoted
  | doubleQuoted
  | literal
  | folded
  deriving DecidableEq, Repr

/-- A token of YAML. Starts and ends of blocks have no text of their own. -/
inductive Token where
  | versionDirective (major minor : Nat)
  | tagDirective (handle : Text) (start : Bytes)
  | documentStart
  | documentEnd
  | blockSequenceStart
  | blockMappingStart
  | blockEnd
  | flowSequenceStart
  | flowSequenceEnd
  | flowMappingStart
  | flowMappingEnd
  | blockEntry
  | flowEntry
  | key
  | value
  | alias (name : Text)
  | anchor (name : Text)
  | tag (handle : Text) (suffix : Bytes)
  | scalar (style : ScalarStyle) (value : Text)
  deriving DecidableEq, Repr

end Placeholders.Yaml
