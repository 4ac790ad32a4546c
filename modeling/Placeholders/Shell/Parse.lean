import Placeholders.Shell.Source

/-! Reading of command lines. A script is read one complete command at a time, so that what stands
before a mistake is still carried out. -/

namespace Placeholders.Shell.Parser

mutual

/-- Reads parts up to the end of a place. In arithmetic, `depth` counts open parentheses. -/
def parts (fuel : Nat) (place : Place) (depth : Nat) : Parser Word :=
  match fuel with
  | 0 => fail "Syntax error: out of reach"
  | fuel + 1 => do
    let text ← rest
    match text with
    | [] =>
      match place with
      | .word | .inHere => return []
      | .inQuotes => fail "Syntax error: Unterminated quoted string"
      | .inBraces _ => fail "Syntax error: Missing '\x7d'"
      | .inValue => fail "Syntax error: Missing '))'"
    | '\\' :: '\n' :: _ => drop 2; parts fuel place depth
    | c :: next =>
      if place == .word && endsWord c then return []
      else if place == .inQuotes && c == '"' then return []
      else if (place matches .inBraces _) && c == '\x7d' then return []
      else if place == .inValue && depth == 0 && c == ')' then
        if next.head? == some ')' then return [] else fail "Syntax error: Missing '))'"
      else
        let depth := if place == .inValue && c == '(' then depth + 1
          else if place == .inValue && c == ')' then depth - 1
          else depth
        let quotesCount := place == .word || (place matches .inBraces _)
        if c == '\'' && !place.isQuoted then
          let body := next.takeWhile (· != '\'')
          if body.length == next.length then fail "Syntax error: Unterminated quoted string"
          drop (body.length + 2)
          return .quoted body :: (← parts fuel place depth)
        else if c == '"' && quotesCount then
          drop 1
          let body ← parts fuel .inQuotes 0
          drop 1
          return .quoted [] :: body ++ (← parts fuel place depth)
        else if c == '\\' then
          match next with
          | [] => drop 1; return [.quoted ['\\']]
          | d :: _ =>
            drop 2
            let protects := ['$', '\x60', '"', '\\'].contains d
              || (d == '\x7d' && place != .inQuotes)
            let kept := place.isQuoted && !protects
            let text := if kept then ['\\', d] else [d]
            return .quoted text :: (← parts fuel place depth)
        else if c == '$' then
          drop 1
          let part ← dollar fuel place.isQuoted
          return part :: (← parts fuel place depth)
        else if c == '\x60' then
          match backquotedFrom next with
          | none => fail "Syntax error: EOF in backquote substitution"
          | some (body, n) =>
            let line := (← get).line
            match (list fuel).run { rest := body, line := line } with
            | .error e => throw e
            | .ok (commands, behind) =>
              if behind.rest.isEmpty then
                drop (n + 1)
                return .output commands place.isQuoted :: (← parts fuel place depth)
              else fail ("Syntax error: " ++ String.ofList (nameOf behind.rest) ++ " unexpected")
        else
          drop 1
          let part := if place.isQuoted then Part.quoted [c] else .plain c
          return part :: (← parts fuel place depth)

def dollar (fuel : Nat) (quoted : Bool) : Parser Part :=
  match fuel with
  | 0 => fail "Syntax error: out of reach"
  | fuel + 1 => do
    match ← rest with
    | '(' :: '(' :: _ =>
      drop 2
      let expression ← parts fuel .inValue 0
      drop 2
      return .value expression quoted
    | '(' :: _ =>
      drop 1
      let body ← list fuel
      expect ")"
      return .output body quoted
    | '\x7b' :: _ => drop 1; braces fuel quoted
    | c :: text =>
      let name := nameAt (c :: text)
      if !name.isEmpty then
        drop name.length
        return .parameter name .keep quoted
      else if isSpecial c then
        drop 1
        return .parameter [c] .keep quoted
      else return if quoted then .quoted ['$'] else .plain '$'
    | [] => return if quoted then .quoted ['$'] else .plain '$'

def braces (fuel : Nat) (quoted : Bool) : Parser Part :=
  match fuel with
  | 0 => fail "Syntax error: out of reach"
  | fuel + 1 => do
    let text ← rest
    let (counts, text) := match text with
      | '#' :: c :: next => if c == '\x7d' then (false, text) else (true, c :: next)
      | _ => (false, text)
    let name := match text with
      | c :: _ =>
        if c.isDigit then text.takeWhile Char.isDigit
        else if !(nameAt text).isEmpty then nameAt text
        else if isSpecial c then [c]
        else []
      | [] => []
    drop (name.length + (if counts then 1 else 0))
    if counts then
      match ← rest with
      | '\x7d' :: _ => drop 1; return .parameter name .length quoted
      | _ =>
        let _ ← parts fuel (.inBraces quoted) 0
        drop 1
        return .parameter name .unknown quoted
    else
      let (orEmpty, change) := match ← rest with
        | ':' :: c :: _ => (true, some c)
        | c :: _ => (false, some c)
        | [] => (false, none)
      let word (n : Nat) (longest : Bool) : Parser Word := do
        drop n
        let body ← parts fuel (.inBraces (quoted && !longest)) 0
        drop 1
        return body
      let n := if orEmpty then 2 else 1
      match change, orEmpty with
      | some '\x7d', false =>
        drop 1
        return .parameter name (if name.isEmpty then .unknown else .keep) quoted
      | some '-', _ => return .parameter name (.default orEmpty (← word n false)) quoted
      | some '=', _ => return .parameter name (.assign orEmpty (← word n false)) quoted
      | some '?', _ => return .parameter name (.demand orEmpty (← word n false)) quoted
      | some '+', _ => return .parameter name (.alternative orEmpty (← word n false)) quoted
      | some '#', false =>
        match ← rest with
        | '#' :: '#' :: _ => return .parameter name (.dropStart true (← word 2 true)) quoted
        | _ => return .parameter name (.dropStart false (← word 1 true)) quoted
      | some '%', false =>
        match ← rest with
        | '%' :: '%' :: _ => return .parameter name (.dropEnd true (← word 2 true)) quoted
        | _ => return .parameter name (.dropEnd false (← word 1 true)) quoted
      | _, _ =>
        let _ ← word 0 false
        return .parameter name .unknown quoted

def redirections (fuel : Nat) : Parser (List Redirection) :=
  match fuel with
  | 0 => return []
  | fuel + 1 => do
    skipBlanks
    match ← redirection? fuel with
    | none => return []
    | some r => return r :: (← redirections fuel)

def redirection? (fuel : Nat) : Parser (Option Redirection) :=
  match fuel with
  | 0 => return none
  | fuel + 1 => do
    let text ← rest
    let digits := text.takeWhile Char.isDigit
    let signs := if digits.length ≤ 1 then text.drop digits.length else []
    let number := digits.head?.map fun c => c.toNat - 0x30
    let found : Option (Nat × Arrow × Nat × Bool) := match signs with
      | '<' :: '<' :: '-' :: _ => some (3, .here, 0, true)
      | '<' :: '<' :: _ => some (2, .here, 0, false)
      | '<' :: '&' :: _ => some (2, .duplicate, 0, false)
      | '<' :: '>' :: _ => some (2, .input, 0, false)
      | '<' :: _ => some (1, .input, 0, false)
      | '>' :: '>' :: _ => some (2, .append, 1, false)
      | '>' :: '&' :: _ => some (2, .duplicate, 1, false)
      | '>' :: '|' :: _ => some (2, .output, 1, false)
      | '>' :: _ => some (1, .output, 1, false)
      | _ => none
    match found with
    | none => return none
    | some (length, arrow, usual, dropTabs) =>
      drop (digits.length + length)
      skipBlanks
      let target ← parts fuel .word 0
      if target.isEmpty then unexpected none
      if arrow == .here then
        let source ← get
        let line := source.rest.takeWhile (· != '\n')
        let below := source.rest.drop (line.length + 1)
        let (body, behind) := hereLines (literalOf target) dropTabs below.length below
        set { source with rest := line ++ '\n' :: behind }
        let content ←
          if hasQuotes target then pure [Part.quoted body]
          else match (parts fuel .inHere 0).run { rest := body, line := source.line } with
            | .ok (content, _) => pure (Part.quoted [] :: content)
            | .error e => throw e
        return some (.mk (number.getD usual) arrow content)
      else return some (.mk (number.getD usual) arrow target)

def list (fuel : Nat) : Parser Command :=
  match fuel with
  | 0 => fail "Syntax error: out of reach"
  | fuel + 1 => do
    skipLines fuel
    return .sequence (← listItems fuel)

def listItems (fuel : Nat) : Parser (List Command) :=
  match fuel with
  | 0 => return []
  | fuel + 1 => do
    if ← atListEnd then return []
    let first ← andOr fuel
    skipBlanks
    match ← rest with
    | ';' :: ';' :: _ => return [first]
    | ';' :: _ | '\n' :: _ | '&' :: _ =>
      drop 1
      skipLines fuel
      return first :: (← listItems fuel)
    | _ => return [first]

def atListEnd : Parser Bool := do
  match ← rest with
  | [] => return true
  | ')' :: _ => return true
  | ';' :: ';' :: _ => return true
  | text => return closing.contains (bareWord text)

def andOr (fuel : Nat) : Parser Command :=
  match fuel with
  | 0 => fail "Syntax error: out of reach"
  | fuel + 1 => do andOrFrom fuel (← pipeline fuel)

def andOrFrom (fuel : Nat) (first : Command) : Parser Command :=
  match fuel with
  | 0 => return first
  | fuel + 1 => do
    skipBlanks
    match ← rest with
    | '&' :: '&' :: _ =>
      drop 2
      skipLines fuel
      andOrFrom fuel (.both first (← pipeline fuel))
    | '|' :: '|' :: _ =>
      drop 2
      skipLines fuel
      andOrFrom fuel (.either first (← pipeline fuel))
    | _ => return first

def pipeline (fuel : Nat) : Parser Command :=
  match fuel with
  | 0 => fail "Syntax error: out of reach"
  | fuel + 1 => do
    skipBlanks
    if ← atReserved "!" then
      drop 1
      return .negation (← pipeline fuel)
    let commands ← pipes fuel
    match commands with
    | [command] => return command
    | commands => return .pipeline commands

def pipes (fuel : Nat) : Parser (List Command) :=
  match fuel with
  | 0 => fail "Syntax error: out of reach"
  | fuel + 1 => do
    let first ← command fuel
    skipBlanks
    match ← rest with
    | '|' :: '|' :: _ => return [first]
    | '|' :: _ =>
      drop 1
      skipLines fuel
      return first :: (← pipes fuel)
    | _ => return [first]

def command (fuel : Nat) : Parser Command :=
  match fuel with
  | 0 => fail "Syntax error: out of reach"
  | fuel + 1 => do
    skipBlanks
    let line := (← get).line
    let text ← rest
    let compound ← match text with
      | '(' :: _ =>
        drop 1
        let body ← block fuel
        expect ")"
        pure (some (.subshell body))
      | _ => reservedCommand fuel
    match compound with
    | some body =>
      match ← redirections fuel with
      | [] => return body
      | found => return .redirected body line found
    | none =>
      let bare := bareWord text
      if closing.contains bare || bare == ['!'] || bare == ['i', 'n'] then unexpected none
      let (assignments, words, found) ← simpleParts fuel true
      if assignments.isEmpty && words.isEmpty && found.isEmpty then unexpected none
      match ← rest, assignments, words, found with
      | '(' :: _, [], [word], [] =>
        drop 1
        expect ")"
        match functionName? word with
        | none => fail "Syntax error: Bad function name"
        | some name =>
          skipLines fuel
          return .define name (← command fuel)
      | '(' :: _, _, _, _ => unexpected none
      | _, _, _, _ => return .simple line assignments words found

def reservedCommand (fuel : Nat) : Parser (Option Command) :=
  match fuel with
  | 0 => return none
  | fuel + 1 => do
    if ← atReserved "\x7b" then
      drop 1
      let body ← block fuel
      expect "\x7d"
      return some body
    else if ← atReserved "if" then
      drop 2
      return some (← branch fuel)
    else if ← atReserved "while" then
      drop 5
      return some (← loop fuel false)
    else if ← atReserved "until" then
      drop 5
      return some (← loop fuel true)
    else if ← atReserved "for" then
      drop 3
      skipBlanks
      let name := nameAt (← rest)
      if name.isEmpty || name != bareWord (← rest) then fail "Syntax error: Bad for loop variable"
      drop name.length
      skipLines fuel
      let words ← if ← atReserved "in" then
          drop 2
          pure (some (← wordList fuel))
        else pure none
      skipBlanks
      match ← rest with
      | ';' :: _ | '\n' :: _ => drop 1
      | _ => if words.isSome then unexpected none
      skipLines fuel
      expect "do"
      let body ← block fuel
      expect "done"
      return some (.each name words body)
    else if ← atReserved "case" then
      drop 4
      skipBlanks
      let word ← parts fuel .word 0
      if word.isEmpty then unexpected none
      skipLines fuel
      expect "in"
      skipLines fuel
      return some (.choice word (← arms fuel))
    else return none

def branch (fuel : Nat) : Parser Command :=
  match fuel with
  | 0 => fail "Syntax error: out of reach"
  | fuel + 1 => do
    let condition ← block fuel
    expect "then"
    let body ← block fuel
    if ← atReserved "elif" then
      drop 4
      return .branch condition body (← branch fuel)
    else if ← atReserved "else" then
      drop 4
      let otherwise ← block fuel
      expect "fi"
      return .branch condition body otherwise
    else
      expect "fi"
      return .branch condition body (.sequence [])

def block (fuel : Nat) : Parser Command :=
  match fuel with
  | 0 => fail "Syntax error: out of reach"
  | fuel + 1 => do
    skipLines fuel
    if !(← rest).isEmpty && (← atListEnd) then unexpected none
    list fuel

def loop (fuel : Nat) (ends : Bool) : Parser Command :=
  match fuel with
  | 0 => fail "Syntax error: out of reach"
  | fuel + 1 => do
    let condition ← block fuel
    expect "do"
    let body ← block fuel
    expect "done"
    return .loop ends condition body

def wordList (fuel : Nat) : Parser (List Word) :=
  match fuel with
  | 0 => return []
  | fuel + 1 => do
    skipBlanks
    let word ← parts fuel .word 0
    if word.isEmpty then return [] else return word :: (← wordList fuel)

def arms (fuel : Nat) : Parser (List (List Word × Command)) :=
  match fuel with
  | 0 => fail "Syntax error: out of reach"
  | fuel + 1 => do
    skipLines fuel
    if ← atReserved "esac" then
      drop 4
      return []
    if (← rest).head? == some '(' then drop 1
    let patterns ← patternList fuel
    expect ")"
    let body ← list fuel
    match ← rest with
    | ';' :: ';' :: _ =>
      drop 2
      return (patterns, body) :: (← arms fuel)
    | _ =>
      expect "esac"
      return [(patterns, body)]

def patternList (fuel : Nat) : Parser (List Word) :=
  match fuel with
  | 0 => return []
  | fuel + 1 => do
    skipBlanks
    let pattern ← parts fuel .word 0
    if pattern.isEmpty then unexpected (if (← rest).isEmpty then some ")" else none)
    skipBlanks
    match ← rest with
    | '|' :: _ =>
      drop 1
      return pattern :: (← patternList fuel)
    | _ => return [pattern]

def simpleParts (fuel : Nat) (assigning : Bool) :
    Parser (List (Text × Word) × List Word × List Redirection) :=
  match fuel with
  | 0 => return ([], [], [])
  | fuel + 1 => do
    skipBlanks
    match ← redirection? fuel with
    | some found =>
      let (assignments, words, more) ← simpleParts fuel assigning
      return (assignments, words, found :: more)
    | none =>
      let text ← rest
      let name := nameAt text
      if assigning && !name.isEmpty && (text.drop name.length).head? == some '=' then
        drop (name.length + 1)
        let value ← parts fuel .word 0
        let (assignments, words, found) ← simpleParts fuel true
        return ((name, value) :: assignments, words, found)
      else
        let word ← parts fuel .word 0
        if word.isEmpty then return ([], [], [])
        else
          let (_, words, found) ← simpleParts fuel false
          return ([], word :: words, found)

end

def completeCommand : Parser (Option Command) := do
  let fuel := 20 * (← rest).length + 20
  skipLines fuel
  match ← rest with
  | [] => return none
  | _ =>
    if ← atListEnd then unexpected none
    let first ← line fuel
    skipBlanks
    match ← rest with
    | [] => return some first
    | '\n' :: _ => return some first
    | _ => unexpected none
where
  line (fuel : Nat) : Parser Command := do return .sequence (← lineItems fuel)
  /-- Reads commands up to the end of a line. -/
  lineItems (fuel : Nat) : Parser (List Command) :=
    match fuel with
    | 0 => return []
    | fuel + 1 => do
      let first ← andOr fuel
      skipBlanks
      match ← rest with
      | ';' :: ';' :: _ => return [first]
      | ';' :: _ | '&' :: _ =>
        drop 1
        skipBlanks
        match ← rest with
        | [] | '\n' :: _ => return [first]
        | _ => return first :: (← lineItems fuel)
      | _ => return [first]

end Placeholders.Shell.Parser
