import Placeholders.Shell.OwnCommand
import Placeholders.Shell.Pattern
import Placeholders.Shell.Program

/-! Running of commands. Every function takes a bound on its steps, because a script may loop for
ever; the bound is far beyond what a command line needs. -/

namespace Placeholders.Shell

namespace Step

def trace (words : List Text) : Step Unit := do
  if (← get).traces && !words.isEmpty then write 2 ('+' :: ' ' :: joinWords words ++ ['\n'])

def notFound (name : Text) : Step Unit := do
  let s ← get
  if name.contains '/' && (s.system.folders.resolve? s.place name).isSome then
    complain (name ++ ": Permission denied".toList)
    setStatus 126
  else if name.isEmpty then
    complain ": Permission denied".toList
    setStatus 127
  else
    complain (name ++ ": not found".toList)
    setStatus 127

end Step

open Step in
mutual

def expand (fuel : Nat) (word : Word) : Step (List Item) :=
  match fuel with
  | 0 => throw .exit
  | fuel + 1 => do
    match word with
    | [] => return []
    | .quoted [] :: .parameter ['@'] .keep true :: rest =>
      -- these quotes hold no field if there are no arguments
      if (← get).arguments.isEmpty then expand fuel rest
      else
        let items ← expandPart fuel (.parameter ['@'] .keep true)
        return items ++ (← expand fuel rest)
    | part :: rest =>
      let items ← expandPart fuel part
      return items ++ (← expand fuel rest)

def expandPart (fuel : Nat) (part : Part) : Step (List Item) :=
  match fuel with
  | 0 => throw .exit
  | fuel + 1 => do
    match part with
    | .plain c => return [.letter c false false]
    | .quoted text => return .quotes :: text.map fun c => .letter c false true
    | .output body inQuotes =>
      let text ← captured (run fuel body)
      return Item.ofValue (Text.dropEndWhile (· == '\n') text) inQuotes
    | .value expression inQuotes =>
      let text := Item.text (← expand fuel expression)
      return Item.ofValue (← arithmetic text) inQuotes
    | .parameter name change inQuotes =>
      let found ← parameter? name
      let present (orEmpty : Bool) : Bool := match found with
        | none => false
        | some text => !(orEmpty && text.isEmpty)
      let value := Item.ofValue (found.getD []) inQuotes
      match change with
      | .keep =>
        if found.isNone && (← get).stopsOnUnset && name != ['@'] && name != ['*'] then
          abort (name ++ ": parameter not set".toList)
        if name == ['@'] && inQuotes then
          let arguments := (← get).arguments
          let fields := arguments.map fun text => .quotes :: Item.ofValue text true
          return [Item.border].intercalate fields
        else if name == ['@'] || (name == ['*'] && !inQuotes) then
          let fields := (← get).arguments.map fun text => Item.ofValue text false
          return [Item.border].intercalate fields
        else if name == ['*'] then
          let border := ((← lookup? "IFS".toList).getD [' ']).take 1
          return Item.ofValue (border.intercalate (← get).arguments) true
        else return value
      | .length => return Item.ofValue (Text.ofNat (found.getD []).length) inQuotes
      | .default orEmpty word =>
        if present orEmpty then return value else expand fuel word
      | .assign orEmpty word =>
        if present orEmpty then return value
        else
          let text := Item.text (← expand fuel word)
          assign name text
          return Item.ofValue text inQuotes
      | .demand orEmpty word =>
        if present orEmpty then return value
        else
          let text := Item.text (← expand fuel word)
          let usual := if orEmpty then "parameter not set or null" else "parameter not set"
          abort (name ++ [':', ' '] ++ if text.isEmpty then usual.toList else text)
      | .alternative orEmpty word =>
        if present orEmpty then expand fuel word else return []
      | .dropStart longest word =>
        let pattern := Pattern.ofChars (Item.chars (← expand fuel word))
        return Item.ofValue (pattern.dropStart longest (found.getD [])) inQuotes
      | .dropEnd longest word =>
        let pattern := Pattern.ofChars (Item.chars (← expand fuel word))
        return Item.ofValue (pattern.dropEnd longest (found.getD [])) inQuotes
      | .unknown => abort "Bad substitution".toList

def fields (fuel : Nat) (words : List Word) : Step (List Text) :=
  match fuel with
  | 0 => throw .exit
  | fuel + 1 => do
    match words with
    | [] => return []
    | word :: rest =>
      let (home, word) ← tilde word
      let items := home ++ (← expand fuel word)
      let first := Item.fieldsFrom (← separators) none false items
      return first ++ (← fields fuel rest)

def textOf (fuel : Nat) (word : Word) : Step Text :=
  match fuel with
  | 0 => throw .exit
  | fuel + 1 => do
    let (home, word) ← tilde word
    return Item.text (home ++ (← expand fuel word))

def redirect (fuel : Nat) (redirections : List Redirection) : Step Bool :=
  match fuel with
  | 0 => throw .exit
  | fuel + 1 => do
    match redirections with
    | [] => return true
    | .mk descriptor arrow target :: rest =>
      let text ← textOf fuel target
      let set (goal : Descriptor) : Step Unit := modify fun s =>
        { s with descriptors := (descriptor, goal) :: s.descriptors }
      let close : Step Unit := modify fun s =>
        { s with descriptors := s.descriptors.filter fun entry => entry.1 != descriptor }
      let ok ← match arrow with
        | .here => do
          modify fun s => { s with input := text }
          pure true
        | .duplicate =>
          if text == ['-'] then do
            close
            pure true
          else
            match text with
            | [digit] =>
              if !digit.isDigit then abort "Syntax error: Bad fd number".toList
              match (← get).descriptors.lookup (digit.toNat - 0x30) with
              | some goal => do
                set goal
                pure true
              | none => do
                complain (text ++ ": Bad file descriptor".toList)
                pure false
            | _ => abort "Syntax error: Bad fd number".toList
        | .input =>
          if text == "/dev/null".toList then do
            modify fun s => { s with input := [] }
            pure true
          else if text == "/dev/stdin".toList then pure true
          else do
            complain ("cannot open ".toList ++ text ++ ": No such file".toList)
            pure false
        | _ =>
          if text == "/dev/null".toList then do
            set .nowhere
            pure true
          else if text == "/dev/stderr".toList || text == "/dev/stdout".toList then
            match (← get).descriptors.lookup (if text == "/dev/stderr".toList then 2 else 1) with
            | some goal => do
              set goal
              pure true
            | none => pure false
          else do
            let s ← get
            if (s.system.folders.resolve? s.place text).isSome then
              complain ("cannot create ".toList ++ text ++ ": Is a directory".toList)
              pure false
            else if (s.system.folders.resolve? s.place (firstParts text)).isSome then do
              set .nowhere
              pure true
            else
              complain ("cannot create ".toList ++ text ++ ": Directory nonexistent".toList)
              pure false
      if ok then redirect fuel rest else return false

def redirected (fuel : Nat) (redirections : List Redirection) (step : Step Unit) : Step Unit :=
  match fuel with
  | 0 => throw .exit
  | fuel + 1 => do
    if redirections.isEmpty then step
    else
      let before ← get
      let ok ← redirect fuel redirections
      let jump ← attempt (if ok then step else setStatus 2)
      let keepsInput := !redirections.any fun
        | .mk _ arrow _ => arrow == .input || arrow == .here
      modify fun s =>
        { s with
          descriptors := before.descriptors
          input := if keepsInput then s.input else before.input }
      match jump with
      | some jump => throw jump
      | none => return ()

def assignAll (fuel : Nat) (assignments : List (Text × Word)) : Step (List Text) :=
  match fuel with
  | 0 => throw .exit
  | fuel + 1 => do
    match assignments with
    | [] => return []
    | (name, word) :: rest =>
      let value ← textOf fuel word
      assign name value
      return (name ++ '=' :: value) :: (← assignAll fuel rest)

def run (fuel : Nat) (command : Command) : Step Unit :=
  match fuel with
  | 0 => throw .exit
  | fuel + 1 => do
    match command with
    | .simple line assignments words redirections =>
      modify fun s => { s with line := line }
      runSimple fuel assignments words redirections
      let s ← get
      if s.stopsOnFailure && s.status != 0 && s.tested == 0 then throw .exit
    | .sequence commands => runAll fuel commands
    | .both first second =>
      tested (run fuel first)
      if (← get).status == 0 then run fuel second
    | .either first second =>
      tested (run fuel first)
      if (← get).status != 0 then run fuel second
    | .negation inner =>
      tested (run fuel inner)
      setStatus (if (← get).status == 0 then 1 else 0)
    | .pipeline commands => runPipeline fuel commands
    | .subshell body =>
      apart (run fuel body)
      let s ← get
      if s.stopsOnFailure && s.status != 0 && s.tested == 0 then throw .exit
    | .branch condition body otherwise =>
      tested (run fuel condition)
      if (← get).status == 0 then
        setStatus 0
        run fuel body
      else
        setStatus 0
        run fuel otherwise
    | .loop ends condition body => looping (runLoop fuel ends condition body 0)
    | .each name words body =>
      let values ← match words with
        | some words => fields fuel words
        | none => pure (← get).arguments
      setStatus 0
      looping (runEach fuel name values body)
    | .choice word arms =>
      let text ← textOf fuel word
      setStatus 0
      runChoice fuel text arms
    | .redirected inner line redirections =>
      modify fun s => { s with line := line }
      redirected fuel redirections (run fuel inner)
    | .define name body =>
      modify fun s => { s with functions := s.functions.insert name body, status := 0 }

def runAll (fuel : Nat) (commands : List Command) : Step Unit :=
  match fuel with
  | 0 => throw .exit
  | fuel + 1 => do
    match commands with
    | [] => return ()
    | command :: rest =>
      run fuel command
      runAll fuel rest

/-- Runs commands of which each reads what the one before it writes. -/
def runPipeline (fuel : Nat) (commands : List Command) : Step Unit :=
  match fuel with
  | 0 => throw .exit
  | fuel + 1 => do
    match commands with
    | [] => return ()
    | [last] => apart (run fuel last)
    | command :: rest =>
      let text ← captured (run fuel command)
      let input := (← get).input
      modify fun s => { s with input := text }
      runPipeline fuel rest
      modify fun s => { s with input := input }

def runLoop (fuel : Nat) (ends : Bool) (condition body : Command) (status : Nat) : Step Unit :=
  match fuel with
  | 0 => throw .exit
  | fuel + 1 => do
    match ← attempt (tested (run fuel condition)) with
    | some jump => leaveLoop fuel jump (runLoop fuel ends condition body (← get).status)
    | none =>
      if ((← get).status == 0) == ends then setStatus status
      else
        match ← attempt (run fuel body) with
        | none => runLoop fuel ends condition body (← get).status
        | some jump => leaveLoop fuel jump (runLoop fuel ends condition body (← get).status)

/-- Goes on after a jump out of the body of a loop: with the next round, or behind the loop. -/
def leaveLoop (fuel : Nat) (jump : Jump) (next : Step Unit) : Step Unit :=
  match fuel with
  | 0 => throw .exit
  | _ + 1 =>
    match jump with
    | .leave (n + 2) => throw (.leave (n + 1))
    | .leave _ => return ()
    | .again (n + 2) => throw (.again (n + 1))
    | .again _ => next
    | jump => throw jump

def runEach (fuel : Nat) (name : Text) (values : List Text) (body : Command) : Step Unit :=
  match fuel with
  | 0 => throw .exit
  | fuel + 1 => do
    match values with
    | [] => return ()
    | value :: rest =>
      assign name value
      match ← attempt (run fuel body) with
      | none => runEach fuel name rest body
      | some jump => leaveLoop fuel jump (runEach fuel name rest body)

def runChoice (fuel : Nat) (text : Text) (arms : List (List Word × Command)) : Step Unit :=
  match fuel with
  | 0 => throw .exit
  | fuel + 1 => do
    match arms with
    | [] => return ()
    | ([], _) :: rest => runChoice fuel text rest
    | (pattern :: patterns, body) :: rest =>
      let signs := Pattern.ofChars (Item.chars (← expand fuel pattern))
      if signs.isMatch text then run fuel body
      else runChoice fuel text ((patterns, body) :: rest)

def runSimple (fuel : Nat) (assignments : List (Text × Word)) (words : List Word)
    (redirections : List Redirection) : Step Unit :=
  match fuel with
  | 0 => throw .exit
  | fuel + 1 => do
    let status := (← get).status
    setStatus 0
    -- parameters show the status of the command before, unless a substitution sets a new one
    let hasCommand := !words.isEmpty
    if hasCommand then setStatus status
    match ← fields fuel words with
    | [] =>
      if hasCommand then setStatus 0
      else setStatus status
      let substitutes := assignments.any fun entry => entry.2.any fun
        | .output _ _ => true
        | _ => false
      trace (← assignAll fuel assignments)
      if !substitutes && !hasCommand then setStatus 0
      redirected fuel redirections (return ())
    | name :: arguments =>
      let isSpecial := specialCommands.contains name
      let before ← get
      let hidden := assignments.map fun (name, _) => (name, before.vars.get? name)
      let settings ← assignAll fuel assignments
      trace (settings ++ name :: arguments)
      if name == "exec".toList && arguments.isEmpty then
        if !(← redirect fuel redirections) then
          setStatus 2
          throw .exit
        setStatus 0
      else
        let passing := !assignments.isEmpty && !isSpecial
        if passing then
          modify fun s => { s with exported := assignments.map Prod.fst ++ s.exported }
        redirected fuel redirections (call fuel name arguments)
        if passing then
          restore hidden
          modify fun s => { s with exported := before.exported }

def call (fuel : Nat) (name : Text) (arguments : List Text) : Step Unit :=
  match fuel with
  | 0 => throw .exit
  | fuel + 1 => do
    match (← get).functions.get? name with
    | some body =>
      let before ← get
      if before.depth ≥ 1000 then
        abort "Maximum function recursion depth (1000) reached".toList
      modify fun s =>
        { s with arguments := arguments, depth := s.depth + 1, loops := 0, hidden := [] }
      let jump ← attempt (run fuel body)
      restore (← get).hidden
      modify fun s =>
        { s with
          arguments := before.arguments
          depth := before.depth
          loops := before.loops
          hidden := before.hidden }
      match jump with
      | none => return ()
      | some .back => return ()
      | some jump => throw jump
    | none =>
      if (specialCommands ++ ownCommands).contains name then
        let speaker := (← get).speaker
        modify fun s => { s with speaker := some name }
        let jump ← attempt (builtin fuel name arguments)
        modify fun s => { s with speaker := speaker }
        match jump with
        | none => return ()
        | some jump => throw jump
      else if name == ['s', 'h'] then runShell fuel arguments
      else if programs.contains name then runProgram name arguments
      else notFound name

/-- Runs a script in a shell of its own, which is given the exported variables. -/
def runShell (fuel : Nat) (arguments : List Text) : Step Unit :=
  match fuel with
  | 0 => throw .exit
  | fuel + 1 => apart do
    let s ← get
    let (script, input, arguments) := match arguments with
      | ['-', 'c'] :: script :: arguments => (script, s.input, arguments)
      | arguments => (s.input, [], arguments)
    let environment := s.vars.filterKeys s.exported.contains
    let system :=
      { s.system with
        environment := environment
        place := s.place
        processId := s.system.processId + 1 }
    set { State.start system with
      name := arguments.head?.getD ['s', 'h']
      arguments := arguments.drop 1
      sinks := s.sinks
      descriptors := s.descriptors
      input := input }
    match ← attempt (runToEnd fuel script) with
    | some (.killed signal) =>
      write 2 (Signal.description signal ++ ['\n'])
      setStatus (128 + signal)
    | _ => return ()

def runToEnd (fuel : Nat) (script : Text) : Step Unit :=
  match fuel with
  | 0 => throw .exit
  | fuel + 1 => do
    match ← attempt (runScript fuel { rest := script }) with
    | some (.killed signal) => throw (.killed signal)
    | _ => leave fuel

/-- Runs what is to be run when the shell ends. Its status is that of the shell, unless it ends the
shell with another one. -/
def leave (fuel : Nat) : Step Unit :=
  match fuel with
  | 0 => throw .exit
  | fuel + 1 => do
    match (← get).farewell with
    | none => return ()
    | some script =>
      let status := (← get).status
      modify fun s => { s with farewell := none }
      match ← attempt (runScript fuel { rest := script }) with
      | some .exit => return ()
      | some jump => throw jump
      | none => setStatus status

def builtin (fuel : Nat) (name : Text) (arguments : List Text) : Step Unit :=
  match fuel with
  | 0 => throw .exit
  | fuel + 1 => do
    match String.ofList name with
    | ":" | "true" | "times" | "alias" | "hash" | "jobs" | "wait" => setStatus 0
    | "umask" =>
      if arguments.isEmpty then write 1 "0022\n".toList
      setStatus 0
    | "trap" =>
      match arguments with
      | [] => setStatus 0
      | action :: signals =>
        if signals.any fun signal => signal == "EXIT".toList || signal == ['0'] then
          modify fun s => { s with farewell := if action == ['-'] then none else some action }
        setStatus 0
    | "type" =>
      setStatus 0
      describe arguments
    | "false" => setStatus 1
    | "echo" =>
      write 1 (echo arguments)
      setStatus 0
    | "printf" =>
      match (if arguments.head? == some ['-', '-'] then arguments.drop 1 else arguments) with
      | [] =>
        complain "usage: printf format [arg ...]".toList
        setStatus 2
      | format :: arguments =>
        let result := printf format arguments
        complainAll result.complaints
        write 1 result.text
        setStatus result.status
    | "test" => test arguments
    | "[" =>
      if arguments.getLast? == some [']'] then test arguments.dropLast
      else
        complain "missing ]".toList
        setStatus 2
    | "cd" => changeFolder arguments
    | "pwd" => printFolder arguments
    | "read" => readLine arguments
    | "kill" => kill arguments
    | "exit" =>
      match arguments with
      | [] => throw .exit
      | argument :: _ =>
        setStatus ((← count argument) % 256)
        throw .exit
    | "return" =>
      match arguments with
      | [] => throw .back
      | argument :: _ =>
        setStatus ((← count argument) % 256)
        throw .back
    | "break" | "continue" =>
      let n ← match arguments with
        | [] => pure 1
        | argument :: _ => count argument
      setStatus 0
      let loops := min n (← get).loops
      if 0 < loops then throw (if name == "break".toList then .leave loops else .again loops)
    | "export" =>
      declare exportName (arguments.filter (· != ['-', 'p']))
      setStatus 0
    | "local" =>
      if (← get).depth == 0 then abort "not in a function".toList
      declare hideName arguments
      setStatus 0
    | "readonly" =>
      let arguments := arguments.filter (· != ['-', 'p'])
      declare (fun _ => return ()) arguments
      fixNames arguments
      setStatus 0
    | "unset" =>
      forget arguments
      setStatus 0
    | "set" =>
      setOptions arguments
      setStatus 0
    | "shift" =>
      let n ← match arguments with
        | [] => pure 1
        | argument :: _ => count argument
      if (← get).arguments.length < n then abort "can't shift that many".toList
      modify fun s => { s with arguments := s.arguments.drop n, status := 0 }
    | "eval" =>
      setStatus 0
      runScript fuel { rest := joinWords arguments, line := (← get).line }
    | "command" =>
      match arguments with
      | ['-', 'v'] :: names => locate names
      | [] => setStatus 0
      | name :: arguments =>
        modify fun s => { s with speaker := none }
        let functions := (← get).functions
        modify fun s => { s with functions := Table.empty }
        let jump ← attempt (call fuel name arguments)
        modify fun s => { s with functions := functions }
        match jump with
        | none => return ()
        | some jump => throw jump
    | "exec" =>
      match arguments with
      | [] => setStatus 0
      | name :: arguments =>
        if programs.contains name || ownCommands.contains name then
          modify fun s => { s with speaker := none }
          call fuel name arguments
        else notFound name
        throw .exit
    | "." =>
      match arguments with
      | [] => setStatus 0
      | file :: _ =>
        if file == "/dev/null".toList then setStatus 0
        else if file.contains '/' then
          abort ("cannot open ".toList ++ file ++ ": No such file".toList)
        else abort (file ++ ": not found".toList)
    | _ =>
      notFound name

def runScript (fuel : Nat) (source : Source) : Step Unit :=
  match fuel with
  | 0 => throw .exit
  | fuel + 1 => do
    match Parser.completeCommand.run source with
    | .error e =>
      modify fun s => { s with line := e.line }
      abort e.message
    | .ok (none, _) => return ()
    | .ok (some command, source) =>
      run fuel command
      runScript fuel source

end

end Placeholders.Shell
