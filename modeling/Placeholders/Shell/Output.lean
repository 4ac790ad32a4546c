import Placeholders.Shell.Arithmetic

/-! What the shell's own commands for output write. -/

namespace Placeholders.Shell

def octalDigit? (c : Char) : Option Nat :=
  if '0' ≤ c ∧ c ≤ '7' then some (c.toNat - 0x30) else none

def octal : Nat → Nat → Text → Nat × Text
  | 0, value, text => (value, text)
  | _ + 1, value, [] => (value, [])
  | n + 1, value, c :: text =>
    match octalDigit? c with
    | some d => octal n (value * 8 + d) text
    | none => (value, c :: text)

def byteOf (n : Nat) : Char := Char.ofNat (n % 256)

def letterEscape? : Char → Option Char
  | '\\' => some '\\'
  | 'a' => some (Char.ofNat 7)
  | 'b' => some (Char.ofNat 8)
  | 'e' => some (Char.ofNat 0x1B)
  | 'f' => some (Char.ofNat 0x0C)
  | 'n' => some '\n'
  | 'r' => some '\r'
  | 't' => some '\t'
  | 'v' => some (Char.ofNat 0x0B)
  | _ => none

/-- The character of an escape whose backslash is read, and what is behind it. A backslash that
begins no escape stands for itself. -/
def escapeAt (text : Text) : Char × Text :=
  match text with
  | [] => ('\\', [])
  | c :: rest =>
    if (octalDigit? c).isSome then
      let (value, behind) := octal 3 0 (c :: rest)
      (byteOf value, behind)
    else match letterEscape? c with
      | some d => (d, rest)
      | none => ('\\', c :: rest)

/-- A text with its escapes carried out, and whether one of them asks to stop there. Octal numbers
have a zero in front here. At most `fuel` characters are written. -/
def unescape (fuel : Nat) (text : Text) : Text × Bool :=
  match fuel with
  | 0 => ([], false)
  | fuel + 1 =>
    match text with
    | [] => ([], false)
    | '\\' :: 'c' :: _ => ([], true)
    | '\\' :: '0' :: rest =>
      let (value, behind) := octal 3 0 rest
      let (more, stops) := unescape fuel behind
      (byteOf value :: more, stops)
    | '\\' :: rest =>
      let (c, behind) := escapeAt rest
      let (more, stops) := unescape fuel behind
      (c :: more, stops)
    | c :: rest =>
      let (more, stops) := unescape fuel rest
      (c :: more, stops)

def joinWords (words : List Text) : Text := [' '].intercalate words

/-- What is written for words: escapes are carried out, and a first word of `-n` leaves the line
open. -/
def echo (words : List Text) : Text :=
  let (ends, words) := match words with
    | ['-', 'n'] :: rest => (false, rest)
    | words => (true, words)
  let line := joinWords words
  let (text, stops) := unescape line.length line
  if ends && !stops then text ++ ['\n'] else text

structure Formatted where
  text : Text := []
  complaints : List Text := []
  status : Nat := 0

structure Layout where
  left : Bool := false
  zeros : Bool := false
  plus : Bool := false
  space : Bool := false
  alternate : Bool := false
  width : Nat := 0
  precision : Option Nat := none

namespace Layout

def pad (layout : Layout) (text : Text) : Text :=
  let blanks := List.replicate (layout.width - text.length) ' '
  if layout.left then text ++ blanks else blanks ++ text

def padNumber (layout : Layout) (start digits : Text) : Text :=
  let digits := match layout.precision with
    | some n => List.replicate (n - digits.length) '0' ++ digits
    | none => digits
  if layout.zeros && !layout.left && layout.precision.isNone then
    start ++ List.replicate (layout.width - start.length - digits.length) '0' ++ digits
  else layout.pad (start ++ digits)

def flag? (layout : Layout) : Char → Option Layout
  | '-' => some { layout with left := true }
  | '0' => some { layout with zeros := true }
  | '+' => some { layout with plus := true }
  | ' ' => some { layout with space := true }
  | '#' => some { layout with alternate := true }
  | _ => none

def flags (layout : Layout) : Text → Layout × Text
  | [] => (layout, [])
  | c :: text =>
    match layout.flag? c with
    | some layout => flags layout text
    | none => (layout, c :: text)

end Layout

def numberOf (argument : Text) : Int × List String :=
  match argument with
  | [] | ['\''] | ['"'] => (0, [])
  | '\'' :: c :: _ => (c.toNat, [])
  | '"' :: c :: _ => (c.toNat, [])
  | text =>
    let (isNegative, digits) := match text.dropWhile Expression.isGap with
      | '-' :: more => (true, more)
      | '+' :: more => (false, more)
      | text => (false, text)
    match Expression.literalAt? digits with
    | none => (0, [": expected numeric value"])
    | some (n, behind) =>
      (if isNegative then -(n : Int) else n,
        if behind.isEmpty then [] else [": not completely converted"])

def digitsOf (base : Nat) (capital : Bool) (n : Nat) : Text :=
  let digits := Nat.toDigits base n
  if capital then digits.map Char.toUpper else digits

def convert? (layout : Layout) (conversion : Char) (argument : Text) : Option Formatted :=
  let number := (numberOf argument).1
  let unsigned := (number.emod 0x10000000000000000).toNat
  let complaints := (numberOf argument).2.map fun reason => argument ++ reason.toList
  let status := if complaints.isEmpty then 0 else 1
  match conversion with
  | 's' =>
    let text := match layout.precision with
      | some n => argument.take n
      | none => argument
    some { text := layout.pad text }
  | 'c' => some { text := layout.pad (argument.take 1) }
  | 'd' | 'i' =>
    let start := if number < 0 then ['-'] else if layout.plus then ['+']
      else if layout.space then [' '] else []
    some {
      text := layout.padNumber start (digitsOf 10 false number.natAbs)
      complaints := complaints
      status := status }
  | 'u' =>
    some {
      text := layout.padNumber [] (digitsOf 10 false unsigned)
      complaints := complaints
      status := status }
  | 'o' =>
    some {
      text := layout.padNumber (if layout.alternate then ['0'] else []) (digitsOf 8 false unsigned)
      complaints := complaints
      status := status }
  | 'x' =>
    some {
      text := layout.padNumber (if layout.alternate then ['0', 'x'] else [])
        (digitsOf 16 false unsigned)
      complaints := complaints
      status := status }
  | 'X' =>
    some {
      text := layout.padNumber (if layout.alternate then ['0', 'X'] else [])
        (digitsOf 16 true unsigned)
      complaints := complaints
      status := status }
  | _ => none

structure FormatState where
  result : Formatted := {}
  arguments : List Text
  stopped : Bool := false

namespace FormatState

def write (state : FormatState) (text : Text) : FormatState :=
  { state with result := { state.result with text := state.result.text ++ text } }

def take (state : FormatState) : Text × FormatState :=
  (state.arguments.head?.getD [], { state with arguments := state.arguments.drop 1 })

def add (state : FormatState) (more : Formatted) : FormatState :=
  { state with
    result := {
      text := state.result.text ++ more.text
      complaints := state.result.complaints ++ more.complaints
      status := max state.result.status more.status } }

def abort (state : FormatState) (complaint : String) : FormatState :=
  { state.add { complaints := [complaint.toList], status := 2 } with stopped := true }

def count (state : FormatState) (text : Text) : Option Nat × FormatState × Text :=
  match text with
  | '*' :: rest =>
    let (argument, state) := state.take
    (some (numberOf argument).1.toNat, state, rest)
  | text =>
    let digits := text.takeWhile Char.isDigit
    (if digits.isEmpty then none else Expression.digits? 10 digits, state, text.drop digits.length)

/-- Carries out a format once; at most `fuel` parts of it are read. -/
def once (fuel : Nat) (state : FormatState) (format : Text) : FormatState :=
  match fuel with
  | 0 => state
  | fuel + 1 =>
    if state.stopped then state
    else match format with
      | [] => state
      | '\\' :: rest =>
        let (c, behind) := escapeAt rest
        (state.write [c]).once fuel behind
      | '%' :: '%' :: rest => (state.write ['%']).once fuel rest
      | '%' :: rest =>
        let (layout, rest) := Layout.flags {} rest
        let (width, state, rest) := state.count rest
        let (precision, state, rest) := match rest with
          | '.' :: rest =>
            let (n, state, rest) := state.count rest
            (some (n.getD 0), state, rest)
          | rest => (none, state, rest)
        let layout := { layout with width := width.getD 0, precision := precision }
        match rest with
        | [] => state.abort "missing format character"
        | 'b' :: rest =>
          let (argument, state) := state.take
          let (text, stops) := unescape argument.length argument
          let written := state.write (layout.pad text)
          (if stops then { written with stopped := true } else written).once fuel rest
        | c :: rest =>
          let (argument, taken) := state.take
          match convert? layout c argument with
          | some more => (taken.add more).once fuel rest
          | none => state.abort ("%" ++ String.ofList [c] ++ ": invalid directive")
      | c :: rest => (state.write [c]).once fuel rest

def repeated (fuel : Nat) (state : FormatState) (format : Text) : FormatState :=
  match fuel with
  | 0 => state
  | fuel + 1 =>
    let next := state.once (format.length + 1) format
    if next.stopped || next.arguments.isEmpty || next.arguments.length == state.arguments.length
    then next
    else next.repeated fuel format

end FormatState

def printf (format : Text) (arguments : List Text) : Formatted :=
  (FormatState.repeated (arguments.length + 1) { arguments := arguments } format).result

end Placeholders.Shell
