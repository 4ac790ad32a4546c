import Placeholders.Shell.Condition
import Placeholders.Shell.State

/-! Programs that the shell finds. They see the folders of the system, and of files only the input
and the devices. -/

namespace Placeholders.Shell.Step

def numbers (fuel : Nat) (n last step : Int) : List Int :=
  match fuel with
  | 0 => []
  | fuel + 1 =>
    if (0 < step && last < n) || (step < 0 && n < last) || step = 0 then []
    else n :: numbers fuel (n + step) last step

def sequence (arguments : List Text) : Step Unit := do
  let values := arguments.filterMap Condition.number?
  let (first, step, last) : Int × Int × Int := match values with
    | [last] => (1, 1, last)
    | [first, last] => (first, 1, last)
    | [first, step, last] => (first, step, last)
    | _ => (1, 1, 0)
  let list := numbers ((last - first).natAbs + 1) first last step
  write 1 (list.flatMap fun n => Expression.numeral n ++ ['\n'])
  setStatus 0

def lastPart (path ending : Text) : Text :=
  let parts := pathParts path
  let name := parts.getLast?.getD (if path.isEmpty then [] else ['/'])
  if ending.isSuffixOf name && ending != name then name.take (name.length - ending.length) else name

def firstParts (path : Text) : Text :=
  let trimmed := Text.dropEndWhile (· == '/') path
  let start := Text.dropEndWhile (· != '/') trimmed
  let folder := Text.dropEndWhile (· == '/') start
  if trimmed.isEmpty then (if path.isEmpty then ['.'] else ['/'])
  else if start.isEmpty then ['.']
  else if folder.isEmpty then ['/'] else folder

/-- Copies files to the output. Only the input and devices hold anything. -/
def copyFiles : List Text → Step Unit
  | [] => return ()
  | file :: rest => do
    if file == ['-'] || file == "/dev/stdin".toList then
      let text := (← get).input
      modify fun s => { s with input := [] }
      write 1 text
    else if file != "/dev/null".toList then
      let s ← get
      let reason := if (s.system.folders.resolve? s.place file).isSome then ": Is a directory\n"
        else ": No such file or directory\n"
      write 2 ("cat: ".toList ++ file ++ reason.toList)
      setStatus 1
    copyFiles rest

def runProgram (name : Text) (arguments : List Text) : Step Unit := do
  setStatus 0
  match String.ofList name with
  | "cat" => copyFiles (if arguments.isEmpty then [['-']] else arguments)
  | "seq" => sequence arguments
  | "basename" =>
    write 1 (lastPart (arguments.head?.getD []) (arguments[1]?.getD []) ++ ['\n'])
  | "dirname" => write 1 (firstParts (arguments.head?.getD []) ++ ['\n'])
  | _ => return ()

end Placeholders.Shell.Step
