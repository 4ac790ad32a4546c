import Placeholders.Yaml.Scalar
import Placeholders.Yaml.Property

/-! From text to tokens. Columns open and close blocks, and a colon makes the key of a mapping out
of what stands before it in the line: the places where a key may have begun are remembered, one for
each level of flow collections, and the tokens that start a key are put in there afterwards. -/

namespace Placeholders.Yaml

/-- A place where a key may have begun. -/
structure KeyStart where
  position : Nat
  mark : Mark
  /-- Whether nothing but a key may stand there. -/
  required : Bool
  deriving DecidableEq, Repr

/-- Whether a key that began at a place may still end at a mark: in the same line, and within 1024
characters. -/
def KeyStart.reaches (start : KeyStart) (mark : Mark) : Bool :=
  start.mark.line == mark.line && mark.index ≤ start.mark.index + 1024

/-- How far a text is read. -/
structure Layout where
  cursor : Cursor
  tokens : Array Token := #[]
  /-- Columns of the open blocks, the innermost first. -/
  columns : List Nat := []
  /-- Where a key may have begun in each open flow collection, the innermost first. -/
  flows : List (Option KeyStart) := []
  /-- Where a key may have begun outside flow collections. -/
  blockKey : Option KeyStart := none
  keyAllowed : Bool := true

namespace Layout

def inFlow (layout : Layout) : Bool := !layout.flows.isEmpty

def key? (layout : Layout) : Option KeyStart :=
  match layout.flows with
  | [] => layout.blockKey
  | start :: _ => start

def setKey (layout : Layout) (start : Option KeyStart) : Layout :=
  match layout.flows with
  | [] => { layout with blockKey := start }
  | _ :: flows => { layout with flows := start :: flows }

def push (layout : Layout) (token : Token) : Layout :=
  { layout with tokens := layout.tokens.push token }

def moveTo (layout : Layout) (cursor : Cursor) : Layout := { layout with cursor := cursor }

def allowKey (layout : Layout) (allowed : Bool) : Layout := { layout with keyAllowed := allowed }

/-- Gives up the place where a key may have begun; fails if it had to be one. -/
def dropKey (layout : Layout) : Option Layout :=
  match layout.key? with
  | some start => if start.required then none else some (layout.setKey none)
  | none => some layout

def saveKey (layout : Layout) : Option Layout :=
  if layout.keyAllowed then
    let mark := layout.cursor.mark
    layout.dropKey.map fun dropped =>
      dropped.setKey (some {
        position := layout.tokens.size
        mark := mark
        required := !layout.inFlow && layout.columns.head? == some mark.column })
  else some layout

/-- Drops places that can no longer be the start of a key; fails if one of them had to be. -/
def expireKeys (layout : Layout) : Option Layout :=
  let mark := layout.cursor.mark
  let expire (start : Option KeyStart) : Option (Option KeyStart) :=
    match start with
    | none => some none
    | some start =>
      if start.reaches mark then some (some start)
      else if start.required then none else some none
  (expire layout.blockKey).bind fun blockKey =>
    (layout.flows.mapM expire).map fun flows =>
      { layout with blockKey := blockKey, flows := flows }

/-- Opens a block at a column unless one that far to the right is open; its first token stands at
the given position. -/
def openBlock (layout : Layout) (column position : Nat) (token : Token) : Layout :=
  if layout.inFlow then layout
  else if layout.columns.head?.all (· < column) then
    { layout with
      columns := column :: layout.columns
      tokens := layout.tokens.insertIdxIfInBounds position token }
  else layout

def openHere (layout : Layout) (token : Token) : Layout :=
  layout.openBlock layout.cursor.mark.column layout.tokens.size token

/-- Closes all blocks that are not open at a column; all of them where no column is given. -/
def closeBlocks (layout : Layout) (column : Option Nat) : Layout :=
  if layout.inFlow then layout
  else
    let closed := layout.columns.takeWhile fun block => column.all (· < block)
    { layout with
      columns := layout.columns.drop closed.length
      tokens := layout.tokens ++ Array.replicate closed.length Token.blockEnd }

/-- Moves on to the next token: over spaces, comments and line ends. Behind the end of a line a key
may begin, and there tabs do not count as spaces. A line may start with a byte order mark, which
takes a column. -/
def skipGapsFrom (inFlow : Bool) : Bool → Bool → Text → Mark → Cursor × Bool
  | _, allowed, [], mark => (⟨[], mark⟩, allowed)
  | inComment, allowed, c :: text, mark =>
    if isBreak c then skipGapsFrom inFlow false (allowed || !inFlow) text (mark.after c)
    else if inComment then skipGapsFrom inFlow true allowed text (mark.after c)
    else if c == ' ' || (c == '\t' && (inFlow || !allowed))
        || (c == byteOrderMark && mark.column == 0) then
      skipGapsFrom inFlow false allowed text (mark.after c)
    else if c == '#' then skipGapsFrom inFlow true allowed text (mark.after c)
    else (⟨c :: text, mark⟩, allowed)

def skipGaps (layout : Layout) : Layout :=
  let (cursor, allowed) :=
    skipGapsFrom layout.inFlow false layout.keyAllowed layout.cursor.rest layout.cursor.mark
  { layout with cursor := cursor, keyAllowed := allowed }

/-- A sign that starts or ends a document, or a directive, closes everything before it. -/
def closeAll (layout : Layout) : Option Layout :=
  (layout.closeBlocks none).dropKey.map (·.allowKey false)

def openFlow (layout : Layout) (token : Token) : Option Layout :=
  layout.saveKey.map fun layout =>
    let layout := { layout with flows := none :: layout.flows }
    (layout.allowKey true).push token |>.moveTo layout.cursor.advance

def closeFlow (layout : Layout) (token : Token) : Option Layout :=
  layout.dropKey.map fun layout =>
    let layout := { layout with flows := layout.flows.drop 1 }
    (layout.allowKey false).push token |>.moveTo layout.cursor.advance

def flowEntry (layout : Layout) : Option Layout :=
  layout.dropKey.map fun layout =>
    (layout.allowKey true).push .flowEntry |>.moveTo layout.cursor.advance

def blockEntry (layout : Layout) : Option Layout :=
  if !layout.inFlow && !layout.keyAllowed then none
  else
    let opened := layout.openHere .blockSequenceStart
    opened.dropKey.map fun layout =>
      (layout.allowKey true).push .blockEntry |>.moveTo layout.cursor.advance

def explicitKey (layout : Layout) : Option Layout :=
  if !layout.inFlow && !layout.keyAllowed then none
  else
    let opened := layout.openHere .blockMappingStart
    opened.dropKey.map fun layout =>
      (layout.allowKey !layout.inFlow).push .key |>.moveTo layout.cursor.advance

/-- Reads the colon before a value. If a key may have begun in the line, it did. -/
def value (layout : Layout) : Option Layout :=
  match layout.key? with
  | some start =>
    let keyed := { layout with tokens := layout.tokens.insertIdxIfInBounds start.position .key }
    let opened := keyed.openBlock start.mark.column start.position .blockMappingStart
    some <| ((opened.setKey none).allowKey false).push .value |>.moveTo layout.cursor.advance
  | none =>
    if !layout.inFlow && !layout.keyAllowed then none
    else
      let opened := layout.openHere .blockMappingStart
      some <| (opened.allowKey !layout.inFlow).push .value |>.moveTo layout.cursor.advance

/-- Reads a token that can be a key, and says whether another may begin behind it. -/
def content (layout : Layout) (scanned : Option (Token × Cursor × Bool)) : Option Layout :=
  layout.saveKey.bind fun layout =>
    scanned.map fun (token, behind, allowed) =>
      (layout.allowKey allowed).push token |>.moveTo behind

def scalarToken (style : ScalarStyle) (scalar : ScannedScalar) : Token × Cursor × Bool :=
  (.scalar style scalar.value, scalar.behind, scalar.endsLine)

def blockScalar (layout : Layout) (style : ScalarStyle) : Option Layout :=
  layout.dropKey.bind fun layout =>
    (blockScalar? (style == .folded) layout.columns.head? layout.cursor.advance).map fun scalar =>
      (layout.allowKey true).push (.scalar style scalar.value) |>.moveTo scalar.behind

def canBeginPlain (inFlow : Bool) : Text → Bool
  | [] => false
  | c :: text =>
    !(isBreak c || isSpace c
        || ['-', '?', ':', ',', '[', ']', '{', '}', '#', '&', '*', '!', '|', '>', '\'', '"', '%',
            '@', '\x60'].contains c)
      || (c == '-' && !text.head?.any isSpace)
      || (!inFlow && (c == '?' || c == ':') && !atGap text)

def readToken (layout : Layout) (c : Char) (text : Text) : Option Layout :=
  let cursor := layout.cursor
  let atStart := cursor.mark.column == 0
  if atStart && c == '%' then do
    let (token, behind) ← directive? cursor.advance
    (← layout.closeAll).push token |>.moveTo behind
  else if atStart && atDocumentSign (c :: text) then
    layout.closeAll.map fun layout =>
      layout.push (if c == '-' then .documentStart else .documentEnd) |>.moveTo (cursor.skip 3)
  else if c == '[' then layout.openFlow .flowSequenceStart
  else if c == '{' then layout.openFlow .flowMappingStart
  else if c == ']' then layout.closeFlow .flowSequenceEnd
  else if c == '}' then layout.closeFlow .flowMappingEnd
  else if c == ',' then layout.flowEntry
  else if c == '-' && atGap text then layout.blockEntry
  else if c == '?' && (layout.inFlow || atGap text) then layout.explicitKey
  else if c == ':' && (layout.inFlow || atGap text) then layout.value
  else if c == '*' then
    layout.content ((anchorName? cursor.advance).map fun (name, behind) =>
      (.alias name, behind, false))
  else if c == '&' then
    layout.content ((anchorName? cursor.advance).map fun (name, behind) =>
      (.anchor name, behind, false))
  else if c == '!' then
    layout.content ((tag? layout.inFlow cursor).map fun (handle, suffix, behind) =>
      (.tag handle suffix, behind, false))
  else if c == '|' && !layout.inFlow then layout.blockScalar .literal
  else if c == '>' && !layout.inFlow then layout.blockScalar .folded
  else if c == '\'' then
    layout.content ((singleQuotedFrom text (cursor.mark.after c) [] .nothing).map
      (scalarToken .singleQuoted))
  else if c == '"' then
    layout.content ((doubleQuotedFrom .no text (cursor.mark.after c) [] .nothing).map
      (scalarToken .doubleQuoted))
  else if canBeginPlain layout.inFlow (c :: text) then
    layout.content ((plainFrom layout.inFlow (layout.columns.head?.elim 0 (· + 1)) (c :: text)
      cursor.mark [] .nothing).map (scalarToken .plain))
  else none

def finish (layout : Layout) : Option (Array Token) :=
  (layout.closeBlocks none).dropKey.map (·.tokens)

def readAll : Nat → Layout → Option (Array Token)
  | 0, _ => none
  | fuel + 1, layout =>
    layout.skipGaps.expireKeys.bind fun layout =>
      let layout := layout.closeBlocks (some layout.cursor.mark.column)
      match layout.cursor.rest with
      | [] => layout.finish
      | c :: text => (layout.readToken c text).bind (readAll fuel)

end Layout

def Token.read (input : Text) : Option (List Token) :=
  if input.all isPrintable then
    let text := unifyBreaks input
    (Layout.readAll (text.length + 1) { cursor := { rest := text } }).map Array.toList
  else none

end Placeholders.Yaml
