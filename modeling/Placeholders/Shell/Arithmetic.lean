import Placeholders.Table

/-! Arithmetic of the shell: 64-bit numbers, variables, and the operators of the C language with
their ranks. -/

namespace Placeholders.Shell

inductive Expression where
  | number (value : Int)
  | named (name : Text)
  | negative (e : Expression)
  | not (e : Expression)
  | complement (e : Expression)
  | binary (operator : Text) (left right : Expression)
  | condition (test yes no : Expression)
  /-- Sets a variable, after an operation on its old value if there is one. -/
  | assign (name : Text) (operator : Option Text) (value : Expression)
  deriving Inhabited

inductive ArithmeticError where
  /-- Something else must stand where the reading came to a stop. -/
  | expected (token : Text)
  | divisionByZero
  /-- The value of a variable is no number. -/
  | badNumber (text : Text)
  deriving DecidableEq, Repr

namespace Expression

def wrap (n : Int) : Int := Int.bmod n 0x10000000000000000

def digits? (base : Nat) (text : Text) : Option Nat :=
  text.foldl (fun n c => do
    let n ← n
    let d ← Text.hexDigit? c
    if d < base then some (n * base + d) else none) (some 0)

def largest : Nat := 0x7FFFFFFFFFFFFFFF

/-- The number that a text begins with, in a base, and what is behind it. One that is too large
counts as the largest. -/
def numberAt? (base : Nat) (text : Text) : Option (Nat × Text) :=
  let digits := text.takeWhile fun c => (Text.hexDigit? c).any (· < base)
  if digits.isEmpty then none
  else some (min largest ((digits? base digits).getD 0), text.drop digits.length)

/-- The number that a text begins with, and what is behind it: decimal, octal behind a zero, or
hexadecimal behind 0x. -/
def literalAt? (text : Text) : Option (Nat × Text) :=
  match text with
  | '0' :: x :: more =>
    if x == 'x' || x == 'X' then (numberAt? 16 more).or (some (0, x :: more))
    else numberAt? 8 text
  | text => numberAt? 10 text

def stop {α : Type} (token : String) : Except ArithmeticError α := .error (.expected token.toList)

def isGap (c : Char) : Bool := c == ' ' || c == '\t' || c == '\n'

/-- Binary operators by rank, the weakest first; of two in a rank the longer one comes first. -/
def ranks : List (List Text) :=
  [["||"], ["&&"], ["|"], ["^"], ["&"], ["==", "!="], ["<=", ">=", "<", ">"], ["<<", ">>"],
   ["+", "-"], ["*", "/", "%"]].map (·.map String.toList)

def assigning : List Text :=
  ["<<", ">>", "+", "-", "*", "/", "%", "&", "|", "^"].map String.toList

/-- The operator of a rank at a place. One that goes on to another operator does not count. -/
def operatorAt? (rank : List Text) (text : Text) : Option Text :=
  rank.find? fun operator =>
    operator.isPrefixOf text &&
      match operator, text.drop operator.length with
      | ['|'], c :: _ => c != '|' && c != '='
      | ['&'], c :: _ => c != '&' && c != '='
      | ['<'], c :: _ => c != '<'
      | ['>'], c :: _ => c != '>'
      | ['=', '='], _ => true
      | ['!', '='], _ => true
      | ['<', '='], _ => true
      | ['>', '='], _ => true
      | ['|', '|'], _ => true
      | ['&', '&'], _ => true
      | _, c :: _ => c != '='
      | _, [] => true

def nameAt (text : Text) : Text :=
  match text with
  | c :: _ => if c.isAlpha || c == '_' then text.takeWhile fun d => d.isAlphanum || d == '_' else []
  | [] => []

def assignment? (text : Text) : Option (Text × Option Text × Text) :=
  let name := nameAt text
  if name.isEmpty then none
  else
    match (text.drop name.length).dropWhile isGap with
    | '=' :: '=' :: _ => none
    | '=' :: more => some (name, none, more)
    | behind =>
      match assigning.find? fun operator => (operator ++ ['=']).isPrefixOf behind with
      | some operator => some (name, some operator, behind.drop (operator.length + 1))
      | none => none

mutual

def readFull (fuel : Nat) (text : Text) : Except ArithmeticError (Expression × Text) :=
  match fuel with
  | 0 => stop "primary"
  | fuel + 1 =>
    let text := text.dropWhile isGap
    match assignment? text with
    | some (name, operator, more) =>
      (readFull fuel more).map fun (value, behind) => (.assign name operator value, behind)
    | none => readCondition fuel text

def readCondition (fuel : Nat) (text : Text) : Except ArithmeticError (Expression × Text) :=
  match fuel with
  | 0 => stop "primary"
  | fuel + 1 => do
    let (test, behind) ← readRank fuel ranks text
    match behind.dropWhile isGap with
    | '?' :: more =>
      let (yes, behind) ← readFull fuel more
      match behind.dropWhile isGap with
      | ':' :: more =>
        let (no, behind) ← readCondition fuel more
        return (.condition test yes no, behind)
      | _ => stop "':'"
    | behind => return (test, behind)

def readRank (fuel : Nat) (above : List (List Text)) (text : Text) :
    Except ArithmeticError (Expression × Text) :=
  match fuel with
  | 0 => stop "primary"
  | fuel + 1 =>
    match above with
    | [] => readSimple fuel text
    | rank :: higher => do
      let (first, behind) ← readRank fuel higher text
      readMore fuel rank higher first behind

def readMore (fuel : Nat) (rank : List Text) (higher : List (List Text)) (first : Expression)
    (text : Text) : Except ArithmeticError (Expression × Text) :=
  match fuel with
  | 0 => stop "primary"
  | fuel + 1 =>
    let text := text.dropWhile isGap
    match operatorAt? rank text with
    | none => return (first, text)
    | some operator => do
      let (second, behind) ← readRank fuel higher (text.drop operator.length)
      readMore fuel rank higher (.binary operator first second) behind

def readSimple (fuel : Nat) (text : Text) : Except ArithmeticError (Expression × Text) :=
  match fuel with
  | 0 => stop "primary"
  | fuel + 1 =>
    match text.dropWhile isGap with
    | '(' :: more => do
      let (inner, behind) ← readFull fuel more
      match behind.dropWhile isGap with
      | ')' :: behind => return (inner, behind)
      | _ => stop "')'"
    | '-' :: more => (readSimple fuel more).map fun (e, behind) => (.negative e, behind)
    | '+' :: more => readSimple fuel more
    | '!' :: more => (readSimple fuel more).map fun (e, behind) => (.not e, behind)
    | '~' :: more => (readSimple fuel more).map fun (e, behind) => (.complement e, behind)
    | text =>
      let name := nameAt text
      if !name.isEmpty then return (.named name, text.drop name.length)
      else
        match literalAt? text with
        | some (value, behind) => return (.number value, behind)
        | none => stop "primary"

end

def read (text : Text) : Except ArithmeticError Expression := do
  let (e, behind) ← readFull (30 * text.length + 30) text
  if behind.all isGap then return e else stop "EOF"

def truth (b : Bool) : Int := if b then 1 else 0

/-- The value of an operation; a shift takes its count by 64. -/
def operate (operator : Text) (a b : Int) : Except ArithmeticError Int :=
  match String.ofList operator with
  | "+" => .ok (wrap (a + b))
  | "-" => .ok (wrap (a - b))
  | "*" => .ok (wrap (a * b))
  | "/" => if b = 0 then .error .divisionByZero else .ok (wrap (a.tdiv b))
  | "%" => if b = 0 then .error .divisionByZero else .ok (wrap (a.tmod b))
  | "<<" => .ok (wrap (a * Int.ofNat (1 <<< (b.emod 64).toNat)))
  | ">>" => .ok (a >>> (b.emod 64).toNat)
  | "<" => .ok (truth (a < b))
  | "<=" => .ok (truth (a ≤ b))
  | ">" => .ok (truth (a > b))
  | ">=" => .ok (truth (a ≥ b))
  | "==" => .ok (truth (a = b))
  | "!=" => .ok (truth (a ≠ b))
  | "&" => .ok (Int64.ofInt a &&& Int64.ofInt b).toInt
  | "|" => .ok (Int64.ofInt a ||| Int64.ofInt b).toInt
  | "^" => .ok (Int64.ofInt a ^^^ Int64.ofInt b).toInt
  | _ => stop "primary"

def numeral (n : Int) : Text := if n < 0 then '-' :: Text.ofNat n.natAbs else Text.ofNat n.natAbs

/-- The number that the value of a variable writes, with a sign perhaps and gaps around it; none is
zero. -/
def valueOf (vars : Table Text) (name : Text) : Except ArithmeticError Int :=
  match vars.get? name with
  | none => .ok 0
  | some text =>
    let (isNegative, digits) := match text.dropWhile isGap with
      | '-' :: more => (true, more)
      | '+' :: more => (false, more)
      | text => (false, text)
    match literalAt? digits with
    | some (n, behind) =>
      if behind.all isGap then .ok (if isNegative then -(n : Int) else n)
      else .error (.badNumber text)
    | none => if text.all isGap then .ok 0 else .error (.badNumber text)

def evaluate (vars : Table Text) : Expression → Except ArithmeticError (Int × Table Text)
  | .number value => .ok (wrap value, vars)
  | .named name => (valueOf vars name).map fun value => (value, vars)
  | .negative e => (evaluate vars e).map fun (n, vars) => (wrap (-n), vars)
  | .not e => (evaluate vars e).map fun (n, vars) => (truth (n = 0), vars)
  | .complement e => (evaluate vars e).map fun (n, vars) => (-n - 1, vars)
  | .binary operator left right => do
    let (a, vars) ← evaluate vars left
    if operator = ['&', '&'] then
      if a = 0 then return (0, vars)
      let (b, vars) ← evaluate vars right
      return (truth (b ≠ 0), vars)
    else if operator = ['|', '|'] then
      if a ≠ 0 then return (1, vars)
      let (b, vars) ← evaluate vars right
      return (truth (b ≠ 0), vars)
    else
      let (b, vars) ← evaluate vars right
      return (← operate operator a b, vars)
  | .condition test yes no => do
    let (n, vars) ← evaluate vars test
    if n ≠ 0 then evaluate vars yes else evaluate vars no
  | .assign name operator value => do
    let (b, vars) ← evaluate vars value
    let result ← match operator with
      | none => pure b
      | some operator => operate operator (← valueOf vars name) b
    return (result, vars.insert name (numeral result))

end Expression
end Placeholders.Shell
