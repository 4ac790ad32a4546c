import Placeholders.Json.Basic

/-! The stable form of JSON: two spaces for each level, each item and member on its own line, and
a line end behind the last line. Equal values have equal forms. -/

namespace Placeholders.Json

def hexDigit (n : Nat) : Char := Char.ofNat (if n < 10 then 0x30 + n else 0x57 + n)

def escape (c : Char) : Text :=
  if c = '"' then ['\\', '"']
  else if c = '\\' then ['\\', '\\']
  else if c = '\x08' then ['\\', 'b']
  else if c = '\x0c' then ['\\', 'f']
  else if c = '\n' then ['\\', 'n']
  else if c = '\r' then ['\\', 'r']
  else if c = '\t' then ['\\', 't']
  else if c.toNat < 0x20 then
    ['\\', 'u', '0', '0', hexDigit (c.toNat / 16), hexDigit (c.toNat % 16)]
  else [c]

/-- A string as it is written; one that is no text shows an unpaired surrogate. -/
def quote : Option Text → Text
  | some text => '"' :: text.flatMap escape ++ ['"']
  | none => "\"\\ud800\"".toList

def newline (level : Nat) : Text := '\n' :: List.replicate (2 * level) ' '

mutual

/-- A value whose first line begins at a level. -/
def printAt (level : Nat) : Json → Text
  | .null => "null".toList
  | .bool true => "true".toList
  | .bool false => "false".toList
  | .natural n => Text.ofNat n
  | .number => "-0".toList
  | .string s => quote s
  | .array [] => "[]".toList
  | .array (item :: items) =>
    '[' :: newline (level + 1) ++ printAt (level + 1) item ++ printItems (level + 1) items
      ++ newline level ++ [']']
  | .object [] => "\x7b\x7d".toList
  | .object ((name, value) :: members) =>
    '\x7b' :: newline (level + 1) ++ quote name ++ [':', ' '] ++ printAt (level + 1) value
      ++ printMembers (level + 1) members ++ newline level ++ ['\x7d']

def printItems (level : Nat) : List Json → Text
  | [] => []
  | item :: items => ',' :: newline level ++ printAt level item ++ printItems level items

def printMembers (level : Nat) : List (Option Text × Json) → Text
  | [] => []
  | (name, value) :: members =>
    ',' :: newline level ++ quote name ++ [':', ' '] ++ printAt level value
      ++ printMembers level members

end

def print (value : Json) : Text := printAt 0 value ++ ['\n']

end Placeholders.Json
