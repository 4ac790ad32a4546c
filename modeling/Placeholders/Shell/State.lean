import Placeholders.Shell.Folders
import Placeholders.Shell.Syntax
import Placeholders.Table

/-! What a shell knows while it runs: its variables, where it stands, where its output goes, and how
the last command came out. Output is collected in sinks, of which several descriptors may share
one, so that the order of what they write is kept. -/

namespace Placeholders.Shell

inductive Jump where
  | leave (loops : Nat)
  /-- Goes on with the next round of a loop some levels up. -/
  | again (loops : Nat)
  | back
  /-- Ends with the status of the last command. -/
  | exit
  | killed (signal : Nat)
  deriving DecidableEq, Repr

inductive Descriptor where
  | sink (index : Nat)
  | nowhere
  | input
  deriving DecidableEq, Repr

structure System where
  /-- Variables that the shell starts with; names and values are texts of the shell. -/
  environment : Table Text
  folders : Folders := .standard
  place : Text := ['/']
  processId : Nat := 1

structure State where
  system : System
  name : Text := ['s', 'h']
  vars : Table Text
  /-- Names of the variables that programs are given. -/
  exported : List Text := []
  functions : Table Command := Table.empty
  fixed : List Text := []
  arguments : List Text := []
  place : Text
  status : Nat := 0
  /-- What was written to each sink, the last piece first. -/
  sinks : Array (List Text) := #[[], []]
  descriptors : List (Nat × Descriptor) := [(0, .input), (1, .sink 0), (2, .sink 1)]
  /-- What is still to be read from the input. -/
  input : Text := []
  line : Nat := 1
  speaker : Option Text := none
  stopsOnFailure : Bool := false
  /-- Whether a variable without a value is an error. -/
  stopsOnUnset : Bool := false
  traces : Bool := false
  farewell : Option Text := none
  /-- Number of places around the command where failing is one of two ways to go on. -/
  tested : Nat := 0
  depth : Nat := 0
  /-- What variables were before they became those of the running function. -/
  hidden : List (Text × Option Text) := []
  loops : Nat := 0

abbrev Step (α : Type) := ExceptT Jump (StateM State) α

namespace State

def start (system : System) : State where
  system := system
  vars := ((system.environment.insert "PWD".toList system.place).insert
    "IFS".toList [' ', '\t', '\n']).insert "OPTIND".toList ['1']
  exported := "PWD".toList :: system.environment.entries.map Prod.fst
  place := system.place

def written (state : State) (sink : Nat) : Text := (state.sinks.getD sink []).reverse.flatten

end State

namespace Step

def setStatus (status : Nat) : Step Unit := modify fun s => { s with status := status }

def write (descriptor : Nat) (text : Text) : Step Unit := modify fun s =>
  match s.descriptors.lookup descriptor with
  | some (.sink n) => { s with sinks := s.sinks.modify n (text :: ·) }
  | _ => s

def complain (message : Text) : Step Unit := do
  let s ← get
  let speaker := s.speaker.elim [] fun name => name ++ [':', ' ']
  write 2 (s.name ++ [':', ' '] ++ Text.ofNat s.line ++ [':', ' '] ++ speaker ++ message ++ ['\n'])

def abort {α : Type} (message : Text) : Step α := do
  complain message
  setStatus 2
  throw .exit

def lookup? (name : Text) : Step (Option Text) := return (← get).vars.get? name

def assign (name value : Text) : Step Unit := do
  if (← get).fixed.contains name then abort (name ++ ": is read only".toList)
  else modify fun s => { s with vars := s.vars.insert name value }

def restore : List (Text × Option Text) → Step Unit
  | [] => return ()
  | (name, value) :: rest => do
    modify fun s =>
      { s with vars := match value with
          | some value => s.vars.insert name value
          | none => s.vars.erase name }
    restore rest

def attempt (step : Step Unit) : Step (Option Jump) := fun s =>
  match step s with
  | (.ok _, s) => (.ok none, s)
  | (.error jump, s) => (.ok (some jump), s)

/-- Runs a step as a process of its own: what it changes is forgotten, apart from its output, its
status and what it read. -/
def apart (step : Step Unit) : Step Unit := do
  let before ← get
  modify fun s => { s with farewell := none }
  let jump ← attempt step
  modify fun after =>
    { before with
      status := after.status
      sinks := after.sinks
      input := after.input }
  match jump with
  | some (.killed signal) => throw (.killed signal)
  | _ => return ()

def captured (step : Step Unit) : Step Text := do
  let index := (← get).sinks.size
  apart do
    modify fun s =>
      { s with
        sinks := s.sinks.push []
        descriptors := (1, .sink index) :: s.descriptors }
    step
  let text := (← get).written index
  modify fun s => { s with sinks := s.sinks.modify index fun _ => [] }
  return text

def tested (step : Step Unit) : Step Unit := do
  modify fun s => { s with tested := s.tested + 1 }
  let jump ← attempt step
  modify fun s => { s with tested := s.tested - 1 }
  match jump with
  | some jump => throw jump
  | none => return ()

def looping (step : Step Unit) : Step Unit := do
  modify fun s => { s with loops := s.loops + 1 }
  let jump ← attempt step
  modify fun s => { s with loops := s.loops - 1 }
  match jump with
  | some jump => throw jump
  | none => return ()

end Step
end Placeholders.Shell
