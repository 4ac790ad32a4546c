import Placeholders.Batch
import Placeholders.Json.Outcome
import Placeholders.Json.Print

/-! Reports: for each string of a request what became of it and what went wrong on the way. A
report is printed in the stable form of JSON. -/

namespace Placeholders

structure ReportEntry where
  input : Text
  result : Text
  status : Status
  problems : ProblemList
  deriving DecidableEq, Repr

structure Report where
  entries : List ReportEntry
  deriving DecidableEq, Repr

namespace ReportEntry

def ofExpansion (input : Text) (expansion : Expansion) : ReportEntry where
  input := input
  result := expansion.outcome.result
  status := expansion.outcome.status
  problems := expansion.problems

def toJson (entry : ReportEntry) : Json :=
  .record
    [("input".toList, .text entry.input), ("result".toList, .text entry.result),
     ("status".toList, entry.status.toJson),
     ("errors".toList, .array (entry.problems.map Problem.toJson))]

end ReportEntry

namespace Report

def ofBatch (inputs : List Text) (batch : Batch) : Report :=
  ⟨List.zipWith ReportEntry.ofExpansion inputs batch.expansions⟩

def toJson (report : Report) : Json :=
  .record [("results".toList, .array (report.entries.map ReportEntry.toJson))]

def print (report : Report) : Text := report.toJson.print

/-- A report speaks of the strings that were given, in their order, if each was expanded. -/
theorem inputs_ofBatch (inputs : List Text) (batch : Batch)
    (h : batch.expansions.length = inputs.length) :
    (ofBatch inputs batch).entries.map ReportEntry.input = inputs := by
  obtain ⟨expansions⟩ := batch
  simp only [ofBatch] at *
  induction inputs generalizing expansions with
  | nil => simp
  | cons input inputs ih =>
    cases expansions with
    | nil => simp at h
    | cons expansion expansions =>
      simp [ReportEntry.ofExpansion, ih expansions (by simpa using h)]

end Report
end Placeholders
