import Placeholders.Shell.Condition
import Placeholders.Shell.Parameter
import Placeholders.Shell.Parse
import Placeholders.Shell.Signal

/-! Commands that the shell carries out itself and that run no other commands. -/

namespace Placeholders.Shell.Step

def count (argument : Text) : Step Nat := do
  let refused : Text := "Illegal number: ".toList ++ argument
  match Condition.number? argument with
  | some (.ofNat n) => if n < 0x80000000 then return n else abort refused
  | _ => abort refused

def complainAll : List Text → Step Unit
  | [] => return ()
  | message :: messages => do
    complain message
    complainAll messages

/-- The next line of the input and whether it is ended; backslashes protect what follows them
unless they are `raw`. -/
def lineFrom (raw : Bool) : Text → Text × Bool × Text
  | [] => ([], false, [])
  | '\\' :: c :: text =>
    if raw then
      if c == '\n' then (['\\'], true, text)
      else
        let (line, ended, rest) := lineFrom raw text
        ('\\' :: c :: line, ended, rest)
    else
      let (line, ended, rest) := lineFrom raw text
      (if c == '\n' then line else c :: line, ended, rest)
  | c :: text =>
    if c == '\n' then ([], true, text)
    else
      let (line, ended, rest) := lineFrom raw text
      (c :: line, ended, rest)

/-- Gives variables the fields of a line; the last one takes all that is left. -/
def assignFields (blanks : Text) : List Text → Text → Step Unit
  | [], _ => return ()
  | [name], line => assign name (Text.dropEndWhile (fun c => blanks.contains c) (line.dropWhile
      fun c => blanks.contains c))
  | name :: names, line => do
    let line := line.dropWhile fun c => blanks.contains c
    let field := line.takeWhile fun c => !blanks.contains c
    assign name field
    assignFields blanks names (line.drop field.length)

def readLine (arguments : List Text) : Step Unit := do
  let (raw, names) := match arguments with
    | ['-', 'r'] :: names => (true, names)
    | names => (false, names)
  let (line, ended, rest) := lineFrom raw (← get).input
  modify fun s => { s with input := rest }
  assignFields (← separators) (if names.isEmpty then ["REPLY".toList] else names) line
  setStatus (if ended then 0 else 1)

/-- Sends a signal. Only the shell itself is there to receive one. -/
def kill (arguments : List Text) : Step Unit := do
  let (signal, targets) := match arguments with
    | ['-', 's'] :: name :: targets => (Signal.ofText? name, targets)
    | ['-', '-'] :: targets => (some 15, targets)
    | ('-' :: name) :: targets => (Signal.ofText? (name.map Char.toUpper), targets)
    | targets => (some 15, targets)
  match signal, targets with
  | _, [] =>
    complain ("Usage: kill [-s sigspec | -signum | -sigspec] [pid | job]... or\n".toList
      ++ "kill -l [exitstatus]".toList)
    setStatus 2
  | none, _ =>
    complain ("Illegal option -".toList ++ ((arguments.head?.getD []).drop 1).take 1)
    setStatus 2
  | some signal, target :: _ =>
    if target == Text.ofNat (← get).system.processId || target == ['0'] then
      if Signal.ends signal then throw (.killed signal) else setStatus 0
    else if target.all Char.isDigit then
      complain ("No such process\n".toList)
      setStatus 1
    else
      complain ("Illegal number: ".toList ++ target)
      setStatus 2

/-- The arguments behind the options of a command, unless one is not among those it knows. -/
def withoutOptions (known : List Char) : List Text → Step (Option (List Text))
  | ['-', '-'] :: rest => return some rest
  | ('-' :: c :: letters) :: rest => do
    match (c :: letters).find? fun letter => !known.contains letter with
    | none => withoutOptions known rest
    | some letter =>
      complain ("Illegal option -".toList ++ [letter])
      setStatus 2
      return none
  | arguments => return some arguments

def changeFolder (arguments : List Text) : Step Unit := do
  let s ← get
  let old := s.place
  let some arguments ← withoutOptions ['L', 'P'] arguments | return ()
  let (target, shows) ← match arguments with
    | [] => pure ((← lookup? "HOME".toList).getD [], false)
    | ['-'] :: _ => pure ((← lookup? "OLDPWD".toList).getD old, true)
    | path :: _ => pure (path, false)
  if target.isEmpty then setStatus 0
  else
    match s.system.folders.resolve? old target with
    | none =>
      complain ("can't cd to ".toList ++ target)
      setStatus 2
    | some _ =>
      let start := if target.head? == some '/' then [] else pathParts old
      let parts := (pathParts target).foldl
        (fun parts part => if part == ['.', '.'] then parts.dropLast else parts ++ [part]) start
      let place := pathOf parts
      modify fun s =>
        { s with
          place := place
          vars := (s.vars.insert "OLDPWD".toList old).insert "PWD".toList place }
      if shows then write 1 (place ++ ['\n'])
      setStatus 0

def printFolder (arguments : List Text) : Step Unit := do
  let s ← get
  let some _ ← withoutOptions ['L', 'P'] arguments | return ()
  let place := if arguments.head? == some ['-', 'P'] then
      (s.system.folders.resolve? ['/'] s.place).getD s.place
    else s.place
  write 1 (place ++ ['\n'])
  setStatus 0

def test (words : List Text) : Step Unit := do
  let s ← get
  match Condition.holds s.system.folders s.place words with
  | .ok b => setStatus (if b then 0 else 1)
  | .error message =>
    complain message
    setStatus 2

def options : List (Char × Text) :=
  [('e', "errexit"), ('f', "noglob"), ('I', "ignoreeof"), ('i', "interactive"), ('m', "monitor"),
   ('n', "noexec"), ('s', "stdin"), ('x', "xtrace"), ('v', "verbose"), ('V', "vi"), ('E', "emacs"),
   ('C', "noclobber"), ('a', "allexport"), ('b', "notify"), ('u', "nounset")].map
    fun (letter, name) => (letter, name.toList)

def setOption (isOn : Bool) (letter : Char) : Step Unit := do
  if letter == 'e' then modify fun s => { s with stopsOnFailure := isOn }
  else if letter == 'u' then modify fun s => { s with stopsOnUnset := isOn }
  else if letter == 'x' then modify fun s => { s with traces := isOn }
  else if !options.any fun option => option.1 == letter then
    abort ("Illegal option -".toList ++ [letter])

def setAll (isOn : Bool) : List Char → Step Unit
  | [] => return ()
  | letter :: letters => do
    setOption isOn letter
    setAll isOn letters

def setOptions : List Text → Step Unit
  | [] => return ()
  | ['-', '-'] :: rest => modify fun s => { s with arguments := rest }
  | [sign, 'o'] :: name :: rest => do
    match options.find? fun option => option.2 == name with
    | some (letter, _) => setOption (sign == '-') letter
    | none => abort ("Illegal option -o ".toList ++ name)
    setOptions rest
  | ('-' :: letters) :: rest => do
    setAll true letters
    setOptions rest
  | ('+' :: letters) :: rest => do
    setAll false letters
    setOptions rest
  | arguments => modify fun s => { s with arguments := arguments }

def declare (more : Text → Step Unit) : List Text → Step Unit
  | [] => return ()
  | argument :: rest => do
    let name := argument.takeWhile (· != '=')
    if Parser.nameAt name != name || name.isEmpty then abort (name ++ ": bad variable name".toList)
    more name
    if name.length < argument.length then assign name (argument.drop (name.length + 1))
    declare more rest

def exportName (name : Text) : Step Unit := modify fun s =>
  { s with exported := name :: s.exported }

def fixNames : List Text → Step Unit
  | [] => return ()
  | argument :: rest => do
    modify fun s => { s with fixed := argument.takeWhile (· != '=') :: s.fixed }
    fixNames rest

def hideName (name : Text) : Step Unit := modify fun s =>
  { s with hidden := (name, s.vars.get? name) :: s.hidden }

def forget : List Text → Step Unit
  | [] => return ()
  | name :: rest => do
    if name != ['-', 'v'] && name != ['-', 'f'] then
      if (← get).fixed.contains name then abort (name ++ ": is read only".toList)
      modify fun s =>
        { s with
          vars := s.vars.erase name
          functions := s.functions.erase name
          exported := s.exported.filter (· != name) }
    forget rest

def locate : List Text → Step Unit
  | [] => return ()
  | name :: rest => do
    let s ← get
    if (specialCommands ++ ownCommands).contains name || s.functions.contains name then
      write 1 (name ++ ['\n'])
      setStatus 0
    else if programs.contains name then
      write 1 ("/usr/bin/".toList ++ name ++ ['\n'])
      setStatus 0
    else setStatus 127
    locate rest

def describe : List Text → Step Unit
  | [] => return ()
  | name :: rest => do
    let functions := (← get).functions
    let kind : Option Text :=
      if Parser.reserved.contains name then some " is a shell keyword".toList
      else if specialCommands.contains name then some " is a special shell builtin".toList
      else if functions.contains name then some " is a shell function".toList
      else if ownCommands.contains name then some " is a shell builtin".toList
      else if programs.contains name then some (" is /usr/bin/".toList ++ name)
      else none
    write 1 (name ++ kind.getD ": not found".toList ++ ['\n'])
    if kind.isNone then setStatus 127
    describe rest

end Placeholders.Shell.Step
