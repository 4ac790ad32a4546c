import Placeholders.Host

/-! One run of the program: what it is given on the command line and what it shows. A run that has
no report to show ends with status one and an empty output, and says why on the other stream. -/

namespace Placeholders

structure Exit where
  status : Nat
  output : Text
  complaint : Text
  deriving DecidableEq, Repr

namespace Exit

def success (report : Report) : Exit where
  status := 0
  output := report.print
  complaint := []

def failure (complaint : Text) : Exit where
  status := 1
  output := []
  complaint := complaint

end Exit

/-- The file that a run is given: its path, and its bytes if it can be read. -/
structure GivenFile where
  path : Text
  content : Option Bytes
  deriving DecidableEq

def usage : Text := "usage: varsub <request-file>".toList

def Host.invokeWith {σ : Type} (host : Host) (readYaml : YamlReader) (launch : Launcher σ)
    (file : Option GivenFile) (state : σ) : Exit :=
  match file with
  | none => .failure usage
  | some file =>
    match host.reportFileWith readYaml launch file.path file.content state with
    | .ok report => .success report
    | .error reason => .failure reason.message

/-- A run succeeds exactly if there is a report on its file. -/
theorem Host.status_invokeWith_eq_zero_iff {σ : Type} (host : Host) (readYaml : YamlReader)
    (launch : Launcher σ) (file : GivenFile) (state : σ) :
    (host.invokeWith readYaml launch (some file) state).status = 0 ↔
      ∃ report, host.reportFileWith readYaml launch file.path file.content state = .ok report := by
  cases h : host.reportFileWith readYaml launch file.path file.content state with
  | ok report => simp [invokeWith, h, Exit.success]
  | error reason => simp [invokeWith, h, Exit.failure]

end Placeholders
