import Placeholders.Text.Utf8

/-! What a shell command line says. Texts of the shell are bytes: each character stands for the byte
with its number. A word is a list of parts, and every part knows whether quotes protect it. -/

namespace Placeholders.Shell

def ofBytes (bytes : Bytes) : Text := bytes.map fun byte => Char.ofNat byte.toNat

def toBytes (text : Text) : Bytes := text.map fun c => UInt8.ofNat c.toNat

def ofText (text : Text) : Text := ofBytes (Text.Utf8.encode text)

inductive Arrow where
  | input
  | output
  | append
  /-- Makes a descriptor another name for one that is open. -/
  | duplicate
  /-- Takes the input from the command line itself. -/
  | here
  deriving DecidableEq, Repr

mutual

inductive Part where
  | plain (c : Char)
  | quoted (text : Text)
  | parameter (name : Text) (change : Change) (inQuotes : Bool)
  | output (body : Command) (inQuotes : Bool)
  | value (expression : List Part) (inQuotes : Bool)

/-- What is done with the value of a parameter; `orEmpty` says whether an empty value counts as
none. -/
inductive Change where
  | keep
  | length
  | default (orEmpty : Bool) (word : List Part)
  | assign (orEmpty : Bool) (word : List Part)
  | demand (orEmpty : Bool) (word : List Part)
  | alternative (orEmpty : Bool) (word : List Part)
  | dropStart (longest : Bool) (pattern : List Part)
  | dropEnd (longest : Bool) (pattern : List Part)
  | unknown

inductive Redirection where
  | mk (descriptor : Nat) (arrow : Arrow) (target : List Part)

/-- A command, with the number of its line where a message may need it. -/
inductive Command where
  | simple (line : Nat) (assignments : List (Text × List Part)) (words : List (List Part))
      (redirections : List Redirection)
  | sequence (commands : List Command)
  | both (first second : Command)
  | either (first second : Command)
  | negation (command : Command)
  | pipeline (commands : List Command)
  | subshell (body : Command)
  | branch (condition body otherwise : Command)
  | loop (ends : Bool) (condition body : Command)
  | each (name : Text) (words : Option (List (List Part))) (body : Command)
  | choice (word : List Part) (arms : List (List (List Part) × Command))
  | redirected (command : Command) (line : Nat) (redirections : List Redirection)
  | define (name : Text) (body : Command)

end

/-- Commands of the shell that end it when they fail. No function can take their names. -/
def specialCommands : List Text :=
  [":", ".", "break", "continue", "eval", "exec", "exit", "export", "readonly", "return", "set",
   "shift", "times", "trap", "unset"].map String.toList

def ownCommands : List Text :=
  ["[", "alias", "cd", "command", "echo", "false", "hash", "jobs", "kill", "local", "printf", "pwd",
   "read", "test", "true", "type", "umask", "wait"].map String.toList

def programs : List Text :=
  ["basename", "cat", "dirname", "seq", "sh", "sleep"].map String.toList

abbrev Word := List Part

instance : Inhabited Command := ⟨.sequence []⟩

end Placeholders.Shell
