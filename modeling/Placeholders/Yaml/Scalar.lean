import Placeholders.Yaml.Token

/-! Scalars: plain text, quoted text and block text. What stands between two words of a scalar is
kept aside until the next word comes: spaces within a line stay as they are, and a line end with
the empty lines behind it is folded. -/

namespace Placeholders.Yaml

/-- What was read behind the last word of a scalar. -/
inductive Pending where
  | nothing
  /-- Spaces within a line, the last one first. -/
  | spaces (read : Text)
  /-- A line end, unless a backslash took it away, and those of the empty lines behind it, the
  last one first. -/
  | breaks (first : Option Char) (read : Text)
  deriving DecidableEq, Repr

namespace Pending

/-- With one more space or tab. The start of a line loses its spaces. -/
def space : Pending → Char → Pending
  | .nothing, c => .spaces [c]
  | .spaces read, c => .spaces (c :: read)
  | .breaks first read, _ => .breaks first read

def line : Pending → Char → Pending
  | .breaks first read, c => .breaks first (c :: read)
  | _, c => .breaks (some c) []

/-- What stands between the words when there is a further one. -/
def fold : Pending → Text
  | .nothing => []
  | .spaces read => read.reverse
  | .breaks none read => read.reverse
  | .breaks (some '\n') [] => [' ']
  | .breaks (some '\n') read => read.reverse
  | .breaks (some first) read => first :: read.reverse

def hasBreak : Pending → Bool
  | .breaks _ _ => true
  | _ => false

end Pending

structure ScannedScalar where
  value : Text
  behind : Cursor
  /-- Whether a line ended between the scalar and that place. -/
  endsLine : Bool := false

/-! ### Plain scalars -/

def isFlowSign (c : Char) : Bool := [',', '[', ']', '{', '}'].contains c

def endsPlain (inFlow : Bool) : Text → Bool
  | [] => true
  | c :: text => (c == ':' && atGap text) || (inFlow && isFlowSign c)

def isStrayColon (inFlow : Bool) : Text → Bool
  | ':' :: c :: _ => inFlow && (isFlowSign c || c == '?')
  | _ => false

/-- Reads a plain scalar on; `least` is the column that its further lines must reach, and `read`
what was read of it, the last character first. -/
def plainFrom (inFlow : Bool) (least : Nat) :
    Text → Mark → Text → Pending → Option ScannedScalar
  | [], mark, read, pending => some ⟨read.reverse, ⟨[], mark⟩, pending.hasBreak⟩
  | c :: text, mark, read, pending =>
    if isBreak c then plainFrom inFlow least text (mark.after c) read (pending.line c)
    else if isSpace c then
      if pending.hasBreak && mark.column < least && c == '\t' then none
      else plainFrom inFlow least text (mark.after c) read (pending.space c)
    else
      let stopped := some ⟨read.reverse, ⟨c :: text, mark⟩, pending.hasBreak⟩
      if pending ≠ .nothing && ((!inFlow && mark.column < least)
          || (mark.column == 0 && atDocumentSign (c :: text)) || c == '#') then stopped
      else if isStrayColon inFlow (c :: text) then none
      else if endsPlain inFlow (c :: text) then stopped
      else plainFrom inFlow least text (mark.after c) (c :: (pending.fold.reverse ++ read)) .nothing

/-! ### Quoted scalars -/

def shortEscape? : Char → Option Char
  | '0' => some (Char.ofNat 0)
  | 'a' => some (Char.ofNat 7)
  | 'b' => some (Char.ofNat 8)
  | 't' => some '\t'
  | '\t' => some '\t'
  | 'n' => some '\n'
  | 'v' => some (Char.ofNat 0x0B)
  | 'f' => some (Char.ofNat 0x0C)
  | 'r' => some '\r'
  | 'e' => some (Char.ofNat 0x1B)
  | ' ' => some ' '
  | '"' => some '"'
  | '/' => some '/'
  | '\\' => some '\\'
  | 'N' => some (Char.ofNat 0x85)
  | '_' => some (Char.ofNat 0xA0)
  | 'L' => some (Char.ofNat 0x2028)
  | 'P' => some (Char.ofNat 0x2029)
  | _ => none

def escapeDigits? : Char → Option Nat
  | 'x' => some 2
  | 'u' => some 4
  | 'U' => some 8
  | _ => none

def charOfCode? (n : Nat) : Option Char :=
  if (0xD800 ≤ n ∧ n ≤ 0xDFFF) ∨ 0x10FFFF < n then none else some (Char.ofNat n)

/-- Reads a single-quoted scalar on; a quote in it is written twice. -/
def singleQuotedFrom : Text → Mark → Text → Pending → Option ScannedScalar
  | [], _, _, _ => none
  | c :: text, mark, read, pending =>
    if isBreak c then singleQuotedFrom text (mark.after c) read (pending.line c)
    else if isSpace c then singleQuotedFrom text (mark.after c) read (pending.space c)
    else if mark.column == 0 && atDocumentSign (c :: text) then none
    else
      let read := pending.fold.reverse ++ read
      if c = '\'' then
        match text with
        | '\'' :: more =>
          singleQuotedFrom more ((mark.after c).after c) ('\'' :: read) .nothing
        | _ => some { value := read.reverse, behind := ⟨text, mark.after c⟩ }
      else singleQuotedFrom text (mark.after c) (c :: read) .nothing

inductive Escaping where
  | no
  | backslash
  /-- A backslash, a letter and some digits: how many are missing, and their value. -/
  | digits (missing value : Nat)
  deriving DecidableEq, Repr

/-- Reads a double-quoted scalar on. A backslash at the end of a line takes the line end away. -/
def doubleQuotedFrom : Escaping → Text → Mark → Text → Pending → Option ScannedScalar
  | _, [], _, _, _ => none
  | .no, c :: text, mark, read, pending =>
    if isBreak c then doubleQuotedFrom .no text (mark.after c) read (pending.line c)
    else if isSpace c then doubleQuotedFrom .no text (mark.after c) read (pending.space c)
    else if mark.column == 0 && atDocumentSign (c :: text) then none
    else
      let read := pending.fold.reverse ++ read
      if c = '"' then some { value := read.reverse, behind := ⟨text, mark.after c⟩ }
      else if c = '\\' then doubleQuotedFrom .backslash text (mark.after c) read .nothing
      else doubleQuotedFrom .no text (mark.after c) (c :: read) .nothing
  | .backslash, c :: text, mark, read, _ =>
    if isBreak c then doubleQuotedFrom .no text (mark.after c) read (.breaks none [])
    else match shortEscape? c, escapeDigits? c with
      | some d, _ => doubleQuotedFrom .no text (mark.after c) (d :: read) .nothing
      | none, some n => doubleQuotedFrom (.digits n 0) text (mark.after c) read .nothing
      | none, none => none
  | .digits missing value, c :: text, mark, read, _ =>
    match Text.hexDigit? c with
    | none => none
    | some digit =>
      let value := value * 16 + digit
      if missing ≤ 1 then
        match charOfCode? value with
        | some d => doubleQuotedFrom .no text (mark.after c) (d :: read) .nothing
        | none => none
      else doubleQuotedFrom (.digits (missing - 1) value) text (mark.after c) read .nothing

/-! ### Block scalars -/

/-- What becomes of the line ends at the end of a block scalar. -/
inductive Chomping where
  | strip
  | clip
  | keep
  deriving DecidableEq, Repr

structure BlockState where
  /-- The column of its lines, once it is known. -/
  indent : Option Nat
  largest : Nat := 0
  read : Text := []
  /-- The end of the last line with text. -/
  lineEnd : Option Char := none
  /-- Ends of the empty lines behind it, the last one first. -/
  emptyLines : Text := []
  /-- Whether the last line with text began with a space or a tab. -/
  spaced : Bool := false

namespace BlockState

/-- Joins the lines read so far to a line whose first character is given. In folded text the end of
a line becomes a space, unless the line before or behind it begins with a space. -/
def beginLine (state : BlockState) (folded : Bool) (c : Char) : BlockState :=
  let joined := folded && state.lineEnd == some '\n' && !state.spaced && !isSpace c
  let between := if joined then (if state.emptyLines.isEmpty then [' '] else [])
    else state.lineEnd.toList
  { state with
    read := state.emptyLines ++ between ++ state.read
    lineEnd := none
    emptyLines := []
    spaced := isSpace c }

def column (state : BlockState) (least : Nat) (mark : Mark) : Nat :=
  state.indent.getD (max (max state.largest mark.column) (max least 1))

def value (state : BlockState) (chomping : Chomping) : Text :=
  match chomping with
  | .strip => state.read.reverse
  | .clip => (state.lineEnd.toList ++ state.read).reverse
  | .keep => (state.emptyLines ++ state.lineEnd.toList ++ state.read).reverse

end BlockState

/-- Reads the lines of a block scalar on; `least` is the smallest column that its lines may have,
and `inLine` tells whether the place is behind the indentation of a line. -/
def blockLinesFrom (folded : Bool) (least : Nat) (chomping : Chomping) :
    Bool → Text → Mark → BlockState → Option ScannedScalar
  | _, [], mark, state => some { value := state.value chomping, behind := ⟨[], mark⟩ }
  | true, c :: text, mark, state =>
    if isBreak c then
      blockLinesFrom folded least chomping false text (mark.after c)
        { state with lineEnd := some c }
    else
      blockLinesFrom folded least chomping true text (mark.after c)
        { state with read := c :: state.read }
  | false, c :: text, mark, state =>
    let indented := state.indent.all fun column => mark.column < column
    if c == ' ' && indented then
      blockLinesFrom folded least chomping false text (mark.after c) state
    else if c == '\t' && indented then none
    else if isBreak c then
      blockLinesFrom folded least chomping false text (mark.after c)
        { state with
          largest := max state.largest mark.column
          emptyLines := c :: state.emptyLines }
    else
      let column := state.column least mark
      if mark.column = column then
        let begun := { state with indent := some column }.beginLine folded c
        blockLinesFrom folded least chomping true text (mark.after c)
          { begun with read := c :: begun.read }
      else some { value := state.value chomping, behind := ⟨c :: text, mark⟩ }

def chompingOf? : Char → Option Chomping
  | '+' => some .keep
  | '-' => some .strip
  | _ => none

/-- The indentation that a digit of a block header asks for; it is not zero. -/
def indentationOf? (c : Char) : Option Nat :=
  if '1' ≤ c ∧ c ≤ '9' then some (c.toNat - 0x30) else none

/-- Chomping and indentation in a block header, in either order, and the place behind them. -/
def blockHeader? (cursor : Cursor) : Option (Chomping × Option Nat × Cursor) :=
  match cursor.rest with
  | c :: d :: _ =>
    match chompingOf? c, indentationOf? d, indentationOf? c, chompingOf? d with
    | some chomping, some n, _, _ => some (chomping, some n, cursor.skip 2)
    | some chomping, none, _, _ =>
      if d = '0' then none else some (chomping, none, cursor.skip 1)
    | none, _, some n, some chomping => some (chomping, some n, cursor.skip 2)
    | none, _, some n, none => some (.clip, some n, cursor.skip 1)
    | none, _, none, _ => if c = '0' then none else some (.clip, none, cursor)
  | [c] =>
    match chompingOf? c, indentationOf? c with
    | some chomping, _ => some (chomping, none, cursor.skip 1)
    | none, some n => some (.clip, some n, cursor.skip 1)
    | none, none => if c = '0' then none else some (.clip, none, cursor)
  | [] => some (.clip, none, cursor)

/-- Reads a block scalar whose sign is behind the place; `parent` is the column of the block around
it, if there is one. -/
def blockScalar? (folded : Bool) (parent : Option Nat) (cursor : Cursor) : Option ScannedScalar :=
  match blockHeader? cursor with
  | none => none
  | some (chomping, asked, cursor) =>
    let cursor := cursor.skipWhile isSpace
    let cursor := if cursor.next? = some '#' then cursor.toLineEnd else cursor
    if cursor.isAtLineEnd then
      let cursor := cursor.advance
      blockLinesFrom folded (parent.elim 0 (· + 1)) chomping false cursor.rest cursor.mark
        { indent := asked.map fun n => parent.getD 0 + n }
    else none

end Placeholders.Yaml
