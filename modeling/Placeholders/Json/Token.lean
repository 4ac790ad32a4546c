import Placeholders.Json.Basic

/-! The tokens of a JSON text. The text is read character by character; what a character means
depends on whether it stands between tokens, in a word or number, in a string, or in an escape. -/

namespace Placeholders.Json

inductive Token where
  | openArray
  | closeArray
  | openObject
  | closeObject
  | comma
  | colon
  | null
  | bool (value : Bool)
  | natural (value : Nat)
  | number
  | string (value : Option Text)
  deriving DecidableEq, Repr

namespace Token

/-- Part of a string: a character as it is, or a UTF-16 unit given by its number. -/
inductive Piece where
  | char (c : Char)
  | unit (value : Nat)
  deriving DecidableEq, Repr

/-- Joins the parts of a string; units of a surrogate pair become one character. -/
def assemble : List Piece → Option Text
  | [] => some []
  | .char c :: pieces => (assemble pieces).map (c :: ·)
  | .unit high :: .unit low :: pieces =>
    if 0xD800 ≤ high ∧ high < 0xDC00 then
      if 0xDC00 ≤ low ∧ low < 0xE000 then
        (assemble pieces).map
          (Char.ofNat (0x10000 + (high - 0xD800) * 0x400 + (low - 0xDC00)) :: ·)
      else none
    else if 0xDC00 ≤ high ∧ high < 0xE000 then none
    else (assemble (.unit low :: pieces)).map (Char.ofNat high :: ·)
  | .unit value :: pieces =>
    if 0xD800 ≤ value ∧ value < 0xE000 then none
    else (assemble pieces).map (Char.ofNat value :: ·)

/-- What the reader is in the middle of. Parts read so far stand in reverse order. -/
inductive Mode where
  | between
  | word (read : Text)
  | string (read : List Piece)
  | escape (read : List Piece)
  /-- Inside a numbered escape: how many digits are missing, and the number so far. -/
  | hex (missing value : Nat) (read : List Piece)
  deriving DecidableEq, Repr

def naturalOf (digits : Text) : Nat :=
  digits.foldl (fun n c => n * 10 + (c.toNat - 0x30)) 0

def behindDigits? : Text → Option Text
  | [] => none
  | c :: text => if c.isDigit then some (text.dropWhile Char.isDigit) else none

def behindWhole? : Text → Option Text
  | '0' :: text => some text
  | text => behindDigits? text

def behindFraction? : Text → Option Text
  | '.' :: text => behindDigits? text
  | text => some text

def behindExponent? : Text → Option Text
  | c :: text =>
    if c = 'e' ∨ c = 'E' then
      match text with
      | '+' :: text => behindDigits? text
      | '-' :: text => behindDigits? text
      | text => behindDigits? text
    else some (c :: text)
  | [] => some []

def number? (word : Text) : Option Token :=
  let unsigned := match word with
    | '-' :: text => text
    | text => text
  match (behindWhole? unsigned).bind behindFraction? |>.bind behindExponent? with
  | some [] => some (if word.all Char.isDigit then .natural (naturalOf word) else .number)
  | _ => none

def ofWord? (word : Text) : Option Token :=
  if word = "null".toList then some .null
  else if word = "true".toList then some (.bool true)
  else if word = "false".toList then some (.bool false)
  else number? word

def isSpace (c : Char) : Bool := c = ' ' || c = '\t' || c = '\n' || c = '\r'

def start (c : Char) : Option Token × Mode :=
  if c = '[' then (some .openArray, .between)
  else if c = ']' then (some .closeArray, .between)
  else if c = '\x7b' then (some .openObject, .between)
  else if c = '\x7d' then (some .closeObject, .between)
  else if c = ',' then (some .comma, .between)
  else if c = ':' then (some .colon, .between)
  else if c = '"' then (none, .string [])
  else if isSpace c then (none, .between)
  else (none, .word [c])

def endsWord (c : Char) : Bool :=
  isSpace c || ['[', ']', '\x7b', '\x7d', ',', ':', '"'].contains c

def shortEscape? : Char → Option Char
  | '"' => some '"'
  | '\\' => some '\\'
  | '/' => some '/'
  | 'b' => some '\x08'
  | 'f' => some '\x0c'
  | 'n' => some '\n'
  | 'r' => some '\r'
  | 't' => some '\t'
  | _ => none

def step : Mode → Char → Option (List Token × Mode)
  | .between, c => let (token, mode) := start c; some (token.toList, mode)
  | .word read, c =>
    if endsWord c then
      (ofWord? read.reverse).map fun word =>
        let (token, mode) := start c
        (word :: token.toList, mode)
    else some ([], .word (c :: read))
  | .string read, c =>
    if c = '"' then some ([.string (assemble read.reverse)], .between)
    else if c = '\\' then some ([], .escape read)
    else if c.toNat < 0x20 then none
    else some ([], .string (.char c :: read))
  | .escape read, c =>
    if c = 'u' then some ([], .hex 4 0 read)
    else (shortEscape? c).map fun d => ([], .string (.char d :: read))
  | .hex missing value read, c =>
    (Text.hexDigit? c).map fun digit =>
      if missing ≤ 1 then ([], .string (.unit (value * 16 + digit) :: read))
      else ([], .hex (missing - 1) (value * 16 + digit) read)

def readFrom : Mode → Text → Option (List Token)
  | .between, [] => some []
  | .word read, [] => (ofWord? read.reverse).map ([·])
  | _, [] => none
  | mode, c :: text =>
    match step mode c with
    | none => none
    | some (tokens, mode) => (readFrom mode text).map (tokens ++ ·)

def read (text : Text) : Option (List Token) := readFrom .between text

end Token
end Placeholders.Json
