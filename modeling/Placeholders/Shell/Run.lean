import Placeholders.Shell.Evaluate

/-! Running of a whole command line on a system: how it ends and what it writes. -/

namespace Placeholders.Shell

inductive Ending where
  | exited (status : Nat)
  | killed (signal : Nat)
  deriving DecidableEq, Repr

namespace Ending

def isSuccess (ending : Ending) : Bool := ending = .exited 0

def message : Ending → Text
  | .exited status => "exit status: ".toList ++ Text.ofNat status
  | .killed signal => Signal.message signal

end Ending

structure Finished where
  ending : Ending
  output : Bytes
  messages : Bytes
  deriving DecidableEq, Repr

/-- The largest number of steps inside one another that a script may take. -/
def stepLimit : Nat := 1000000

def System.run (system : System) (line : Text) : Finished :=
  let (result, state) := runToEnd stepLimit (ofText line) (State.start system)
  { ending := match result with
      | .error (.killed signal) => .killed signal
      | _ => .exited state.status
    output := toBytes (state.written 0)
    messages := toBytes (state.written 1) }

end Placeholders.Shell
