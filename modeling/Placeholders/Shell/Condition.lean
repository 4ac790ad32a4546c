import Placeholders.Shell.Arithmetic
import Placeholders.Shell.Folders

/-! Conditions: the expressions that the shell tests. -/

namespace Placeholders.Shell

abbrev ConditionError := Text

namespace Condition

def number? (text : Text) : Option Int :=
  let text := text.dropWhile Expression.isGap
  let (negative, digits) := match text with
    | '-' :: more => (true, more)
    | '+' :: more => (false, more)
    | text => (false, text)
  let word := digits.takeWhile Char.isDigit
  if word.isEmpty || !(digits.drop word.length).all Expression.isGap then none
  else (Expression.digits? 10 word).map fun n => if negative then -(n : Int) else n

def operand (text : Text) : Except ConditionError Int :=
  match number? text with
  | some n => .ok n
  | none => .error ("Illegal number: ".toList ++ text)

/-- Files that every system has besides its folders. -/
def isDevice (path : Text) : Bool :=
  ["/dev/null", "/dev/zero", "/dev/stdin", "/dev/stdout", "/dev/stderr", "/dev/tty"].any
    fun device => device.toList == path

def isUnary (text : Text) : Bool :=
  match text with
  | ['-', c] => ['b', 'c', 'd', 'e', 'f', 'g', 'h', 'k', 'L', 'n', 'p', 'r', 's', 'S', 't', 'u',
      'w', 'x', 'z'].contains c
  | _ => false

def isBinary (text : Text) : Bool :=
  ["=", "!=", "<", ">", "-eq", "-ne", "-gt", "-ge", "-lt", "-le", "-nt", "-ot", "-ef"].any
    fun operator => operator.toList == text

def unary (folders : Folders) (place operator operand : Text) : Bool :=
  let isFolder := (folders.resolve? place operand).isSome
  match operator with
  | ['-', 'n'] => !operand.isEmpty
  | ['-', 'z'] => operand.isEmpty
  | ['-', 'd'] => isFolder
  | ['-', 'e'] | ['-', 'r'] | ['-', 'w'] => isFolder || isDevice operand
  | ['-', 'x'] | ['-', 's'] => isFolder
  | ['-', 'c'] => isDevice operand
  | ['-', 'L'] | ['-', 'h'] => (folders.links.lookup operand).isSome
  | _ => false

def binary (operator left right : Text) : Except ConditionError Bool :=
  match String.ofList operator with
  | "=" => .ok (left == right)
  | "!=" => .ok (left != right)
  | "<" => .ok (decide (left < right))
  | ">" => .ok (decide (right < left))
  | "-eq" => do return (← operand left) == (← operand right)
  | "-ne" => do return (← operand left) != (← operand right)
  | "-gt" => do return decide ((← operand left) > (← operand right))
  | "-ge" => do return decide ((← operand left) ≥ (← operand right))
  | "-lt" => do return decide ((← operand left) < (← operand right))
  | "-le" => do return decide ((← operand left) ≤ (← operand right))
  | _ => .ok false

/-- Reads conditions joined by `-o`, then `-a`, then `!` and single ones; each call gives the truth
and the words behind. -/
structure Reader where
  folders : Folders
  place : Text

mutual

def anyOf (fuel : Nat) (r : Reader) (words : List Text) :
    Except ConditionError (Bool × List Text) :=
  match fuel with
  | 0 => .error "argument expected".toList
  | fuel + 1 => do
    let (first, behind) ← allOf fuel r words
    match behind with
    | ['-', 'o'] :: more =>
      let (second, behind) ← anyOf fuel r more
      return (first || second, behind)
    | behind => return (first, behind)

def allOf (fuel : Nat) (r : Reader) (words : List Text) :
    Except ConditionError (Bool × List Text) :=
  match fuel with
  | 0 => .error "argument expected".toList
  | fuel + 1 => do
    let (first, behind) ← single fuel r words
    match behind with
    | ['-', 'a'] :: more =>
      let (second, behind) ← allOf fuel r more
      return (first && second, behind)
    | behind => return (first, behind)

def single (fuel : Nat) (r : Reader) (words : List Text) :
    Except ConditionError (Bool × List Text) :=
  match fuel with
  | 0 => .error "argument expected".toList
  | fuel + 1 =>
    match words with
    | [] => .ok (false, [])
    | first :: rest =>
      match rest with
      | operator :: right :: behind =>
        if isBinary operator then (binary operator first right).map fun b => (b, behind)
        else simple fuel r first rest
      | _ => simple fuel r first rest

def simple (fuel : Nat) (r : Reader) (first : Text) (rest : List Text) :
    Except ConditionError (Bool × List Text) :=
  match fuel with
  | 0 => .error "argument expected".toList
  | fuel + 1 =>
    match rest with
    | [] => .ok (!first.isEmpty, [])
    | second :: behind =>
      if first == ['!'] then (single fuel r rest).map fun (b, behind) => (!b, behind)
      else if first == ['('] then do
        let (inner, behind) ← anyOf fuel r rest
        match behind with
        | [')'] :: behind => return (inner, behind)
        | _ => throw "closing paren expected".toList
      else if isUnary first then .ok (unary r.folders r.place first second, behind)
      else if isBinary second && behind.isEmpty then
        .error (second ++ ": argument expected".toList)
      else .ok (!first.isEmpty, rest)

end

def holds (folders : Folders) (place : Text) (words : List Text) : Except ConditionError Bool := do
  let (truth, behind) ← anyOf (4 * words.length + 4) ⟨folders, place⟩ words
  match behind with
  | [] => return truth
  | _ => throw ((words.head?.getD []) ++ ": unexpected operator".toList)

end Condition
end Placeholders.Shell
