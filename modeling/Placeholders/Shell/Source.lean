import Placeholders.Shell.Syntax

/-! What is still to be read of a script: its words and signs, and how messages call them. -/

namespace Placeholders.Shell

structure Source where
  rest : Text
  line : Nat := 1

structure SyntaxError where
  line : Nat
  message : Text

abbrev Parser (α : Type) := StateT Source (Except SyntaxError) α

namespace Parser

def fail {α : Type} (message : String) : Parser α := do
  throw ⟨(← get).line, message.toList⟩

def rest : Parser Text := return (← get).rest

def drop (n : Nat) : Parser Unit := modify fun s =>
  ⟨s.rest.drop n, s.line + ((s.rest.take n).countP (· == '\n'))⟩

def endsWord (c : Char) : Bool :=
  [' ', '\t', '\n', ';', '&', '|', '<', '>', '(', ')'].contains c

/-- What follows spaces, joined lines and a comment, and how many characters those are. -/
def skipBlanksFrom : Bool → Nat → Text → Nat
  | _, n, [] => n
  | true, n, c :: text => if c == '\n' then n else skipBlanksFrom true (n + 1) text
  | false, n, '\\' :: '\n' :: text => skipBlanksFrom false (n + 2) text
  | false, n, c :: text =>
    if c == ' ' || c == '\t' then skipBlanksFrom false (n + 1) text
    else if c == '#' then skipBlanksFrom true (n + 1) text
    else n

def skipBlanks : Parser Unit := do drop (skipBlanksFrom false 0 (← rest))

def skipLines (fuel : Nat) : Parser Unit :=
  match fuel with
  | 0 => skipBlanks
  | fuel + 1 => do
    skipBlanks
    match ← rest with
    | '\n' :: _ => drop 1; skipLines fuel
    | _ => return ()

def closing : List Text :=
  ["do", "done", "elif", "else", "esac", "fi", "then", "\x7d"].map String.toList

def reserved : List Text :=
  closing ++ ["!", "case", "for", "if", "in", "until", "while", "\x7b"].map String.toList

def operators : List Text :=
  ["&&", "||", ";;", ";", "&", "|", "(", ")"].map String.toList

def bareWord (text : Text) : Text := text.takeWhile fun c => !endsWord c

def nameOf (text : Text) : Text :=
  match text with
  | [] => "end of file".toList
  | '\n' :: _ => "newline".toList
  | c :: _ =>
    match operators.find? (·.isPrefixOf text) with
    | some operator => '"' :: operator ++ ['"']
    | none =>
      if c == '<' || c == '>' then "redirection".toList
      else if reserved.contains (bareWord text) then '"' :: bareWord text ++ ['"']
      else "word".toList

def unexpected {α : Type} (expecting : Option String) : Parser α := do
  let found := String.ofList (nameOf (← rest))
  match expecting with
  | none => fail ("Syntax error: " ++ found ++ " unexpected")
  | some token => fail ("Syntax error: " ++ found ++ " unexpected (expecting \"" ++ token ++ "\")")

def atReserved (word : String) : Parser Bool := return bareWord (← rest) == word.toList

def expect (token : String) : Parser Unit := do
  skipBlanks
  let text ← rest
  if token.toList == [')'] then
    if text.head? == some ')' then drop 1 else unexpected (some token)
  else if bareWord text == token.toList then drop token.length
  else unexpected (some token)

def isNameStart (c : Char) : Bool := c.isAlpha || c == '_'

def isNameChar (c : Char) : Bool := c.isAlphanum || c == '_'

def nameAt (text : Text) : Text :=
  match text with
  | [] => []
  | c :: _ => if isNameStart c then text.takeWhile isNameChar else []

def isSpecial (c : Char) : Bool := ['?', '$', '#', '@', '*', '!', '-'].contains c || c.isDigit

inductive Place where
  | word
  | inQuotes
  /-- Behind a sign in the braces of a parameter. -/
  | inBraces (protect : Bool)
  | inValue
  | inHere
  deriving DecidableEq, Repr

def Place.isQuoted : Place → Bool
  | .word => false
  | .inBraces protect => protect
  | _ => true

/-- The text between backquotes: its end, and the text without the backslashes that protect it. -/
def backquotedFrom : Text → Option (Text × Nat)
  | [] => none
  | '\\' :: c :: text =>
    (backquotedFrom text).map fun (body, n) =>
      (if ['$', '\x60', '\\'].contains c then c :: body else '\\' :: c :: body, n + 2)
  | c :: text =>
    if c == '\x60' then some ([], 1)
    else (backquotedFrom text).map fun (body, n) => (c :: body, n + 1)

/-- The first line of a text, and the lines up to one that is the mark, with what is behind it. -/
def hereLines (mark : Text) (dropTabs : Bool) : Nat → Text → Text × Text
  | 0, text => (text, [])
  | _ + 1, [] => ([], [])
  | fuel + 1, text =>
    let line := text.takeWhile (· != '\n')
    let behind := text.drop (line.length + 1)
    let line := if dropTabs then line.dropWhile (· == '\t') else line
    if line == mark then ([], behind)
    else
      let (lines, rest) := hereLines mark dropTabs fuel behind
      (line ++ '\n' :: lines, rest)

def literalOf : Word → Text
  | [] => []
  | .plain c :: parts => c :: literalOf parts
  | .quoted text :: parts => text ++ literalOf parts
  | _ :: parts => literalOf parts

def hasQuotes (word : Word) : Bool := word.any fun
  | .quoted _ => true
  | _ => false

def functionName? (word : Word) : Option Text :=
  let name := literalOf word
  let isBare := word.all fun
    | .plain _ => true
    | _ => false
  if isBare && !(nameAt name).isEmpty && nameAt name == name && !specialCommands.contains name then
    some name
  else none

end Parser
end Placeholders.Shell
