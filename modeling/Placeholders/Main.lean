import Placeholders.Invocation

/-! The command line. It is given the path of a request file and prints the report on it. -/

namespace Placeholders.Main

def readFile (path : String) : IO (Option Bytes) := do
  try
    return some (← IO.FS.readBinFile path).toList
  catch _ => return none

def givenFile (arguments : List String) : IO (Option GivenFile) := do
  match arguments with
  | [] => return none
  | path :: _ => return some { path := path.toList, content := ← readFile path }

/-- The variable that an entry of the form name, equals sign, value sets. -/
def readVariable (entry : Bytes) : Option (Text × Bytes) := do
  let name ← Text.Utf8.decode? (entry.takeWhile (· != 0x3d))
  match entry.dropWhile (· != 0x3d) with
  | [] => none
  | _ :: value => return (name, value)

/-- The variables of a block of entries, each ended by a zero; the first of two settings counts. -/
def readVariables (block : Bytes) : Table Bytes :=
  Table.ofList ((block.splitOnP (· == 0)).filterMap readVariable).reverse

def host : IO Host := do
  let block ← readFile "/proc/self/environ"
  return { environment := ⟨readVariables (block.getD [])⟩ }

end Placeholders.Main

open Placeholders in
def main (arguments : List String) : IO UInt32 := do
  let exit := (← Main.host).invoke (← Main.givenFile arguments)
  IO.print (String.ofList exit.output)
  unless exit.complaint.isEmpty do IO.eprintln (String.ofList exit.complaint)
  return exit.status.toUInt32
