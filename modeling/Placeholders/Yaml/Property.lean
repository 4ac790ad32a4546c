import Placeholders.Yaml.Token

/-! Anchors, aliases, tags and directives. A tag is a handle and a suffix; the handle is looked up
among those that directives declare. -/

namespace Placeholders.Yaml

def isAnchorEnd (c : Char) : Bool := ['?', ':', ',', ']', '}', '%', '@', '\x60'].contains c

def anchorName? (cursor : Cursor) : Option (Text × Cursor) :=
  let name := cursor.taken isNameChar
  let behind := cursor.skipWhile isNameChar
  if name.isEmpty then none
  else if behind.isAtGap || behind.next?.any isAnchorEnd then some (name, behind) else none

/-- Characters of tags; the signs of flow collections count only where they can be told apart. -/
def isTagChar (signs : Bool) (c : Char) : Bool :=
  isNameChar c
    || [';', '/', '?', ':', '@', '&', '=', '+', '$', '.', '!', '~', '*', '\'', '(', ')'].contains c
    || (signs && [',', '[', ']'].contains c)

def escapeWidth? (byte : Nat) : Option Nat :=
  if byte < 0x80 then some 1
  else if 0xC0 ≤ byte ∧ byte < 0xE0 then some 2
  else if 0xE0 ≤ byte ∧ byte < 0xF0 then some 3
  else if 0xF0 ≤ byte ∧ byte < 0xF8 then some 4
  else none

/-- Reads the characters of a tag. A percent sign and two digits stand for a byte, and such bytes
come in whole UTF-8 characters: `missing` of them must still follow. -/
def tagBytesFrom (signs : Bool) : Nat → Text → Option (Bytes × Nat)
  | missing, '%' :: high :: low :: text =>
    match Text.hexDigit? high, Text.hexDigit? low with
    | some h, some l =>
      let byte := 16 * h + l
      let left := match missing with
        | 0 => (escapeWidth? byte).map (· - 1)
        | missing + 1 => if 0x80 ≤ byte ∧ byte < 0xC0 then some missing else none
      left.bind fun missing =>
        (tagBytesFrom signs missing text).map fun (bytes, n) => (UInt8.ofNat byte :: bytes, n + 3)
    | _, _ => none
  | 0, c :: text =>
    if isTagChar signs c then
      (tagBytesFrom signs 0 text).map fun (bytes, n) => (UInt8.ofNat c.toNat :: bytes, n + 1)
    else if c = '%' then none
    else some ([], 0)
  | 0, [] => some ([], 0)
  | _ + 1, _ => none

def tagBytes? (signs : Bool) (cursor : Cursor) : Option (Bytes × Cursor) :=
  (tagBytesFrom signs 0 cursor.rest).map fun (bytes, n) => (bytes, cursor.skip n)

/-- What stands at a place where a tag handle may be: an exclamation mark, a name, and perhaps a
second exclamation mark. -/
def tagHandle? (cursor : Cursor) : Option (Text × Cursor) :=
  if cursor.next? = some '!' then
    let name := cursor.advance.taken isNameChar
    let behind := cursor.advance.skipWhile isNameChar
    if behind.next? = some '!' then some ('!' :: name ++ ['!'], behind.advance)
    else some ('!' :: name, behind)
  else none

def isNamedHandle (handle : Text) : Bool :=
  1 < handle.length && handle.getLast? == some '!'

/-- The tag at a place: its handle, its suffix and the place behind it. A tag in angle brackets has
no handle, and neither has the lone exclamation mark. -/
def tag? (inFlow : Bool) (cursor : Cursor) : Option (Text × Bytes × Cursor) := do
  let (handle, suffix, behind) ←
    if cursor.advance.next? = some '<' then do
      let (bytes, behind) ← tagBytes? true (cursor.skip 2)
      if bytes.isEmpty || behind.next? ≠ some '>' then none
      else pure ([], bytes, behind.advance)
    else do
      let (handle, behind) ← tagHandle? cursor
      if isNamedHandle handle then
        let (bytes, behind) ← tagBytes? false behind
        if bytes.isEmpty then none else pure (handle, bytes, behind)
      else
        let (bytes, behind) ← tagBytes? false behind
        let suffix := Text.Utf8.encode (handle.drop 1) ++ bytes
        if suffix.isEmpty then pure ([], Text.Utf8.encode ['!'], behind)
        else pure (['!'], suffix, behind)
  if behind.isAtGap || (inFlow && behind.next? == some ',') then some (handle, suffix, behind)
  else none

/-- A number of at most nine digits, and the place behind it. -/
def versionNumber? (cursor : Cursor) : Option (Nat × Cursor) :=
  let digits := cursor.taken Char.isDigit
  if digits.isEmpty || 9 < digits.length then none
  else some (digits.foldl (fun n c => n * 10 + (c.toNat - 0x30)) 0, cursor.skipWhile Char.isDigit)

def directive? (cursor : Cursor) : Option (Token × Cursor) := do
  let name := cursor.taken isNameChar
  let behind := cursor.skipWhile isNameChar
  if name.isEmpty || !behind.isAtGap then none
  else
    let behind := behind.skipWhile isSpace
    let (token, behind) ←
      if name = "YAML".toList then do
        let (major, behind) ← versionNumber? behind
        if behind.next? ≠ some '.' then none
        else
          let (minor, behind) ← versionNumber? behind.advance
          pure (.versionDirective major minor, behind)
      else if name = "TAG".toList then do
        let (handle, behind) ← tagHandle? behind
        if !(isNamedHandle handle || handle = ['!']) || !behind.next?.any isSpace then none
        else
          let (bytes, behind) ← tagBytes? true (behind.skipWhile isSpace)
          if bytes.isEmpty || !behind.isAtGap then none
          else pure (.tagDirective handle bytes, behind)
      else none
    let behind := behind.skipWhile isSpace
    let behind := if behind.next? = some '#' then behind.toLineEnd else behind
    if behind.isAtLineEnd then some (token, behind.advance) else none

end Placeholders.Yaml
