import Placeholders.Program
import Placeholders.Yaml.Request
import Placeholders.Proofs.BatchEntryPoints
import Placeholders.Proofs.StableFormats

/-! What a run of the program shows, for every file and whatever reads YAML and runs the command
lines. It succeeds exactly on files that hold a request with the required variables
(`Host.Accepts`); how the strings fare does not count. The report then has one item for each string
of the request, and the item tells of the string what a call for it alone gives when its turn comes
(`Json.TellsOf`). -/

namespace Placeholders

namespace Request

inductive Written (readYaml : YamlReader) : RequestFormat → Text → Request → Prop
  | json {text : Text} {json : Json} {request : Request} :
      Json.parse? text = some json → ofJson? json = some request →
      Written readYaml .json text request
  | yaml {text : Text} {request : Request} :
      readYaml text = some request → Written readYaml .yaml text request

variable {readYaml : YamlReader}

theorem parseWith?_eq_some_iff {format : RequestFormat} {text : Text} {request : Request} :
    parseWith? readYaml format text = some request ↔ Written readYaml format text request := by
  cases format with
  | json =>
    rw [parseWith?, Option.bind_eq_some_iff]
    constructor
    · rintro ⟨json, hjson, hrequest⟩
      exact .json hjson hrequest
    · rintro (⟨hjson, hrequest⟩ | _)
      exact ⟨_, hjson, hrequest⟩
  | yaml =>
    constructor
    · exact .yaml
    · rintro (_ | h)
      exact h

theorem loadWith_eq_ok_iff {path : Text} {content : Option Bytes} {request : Request} :
    loadWith readYaml path content = .ok request ↔
      ∃ bytes text, content = some bytes ∧ Text.Utf8.decode? bytes = some text ∧
        Written readYaml (.ofPath path) text request := by
  simp only [← parseWith?_eq_some_iff]
  cases content with
  | none => simp [loadWith]
  | some bytes =>
    cases htext : Text.Utf8.decode? bytes with
    | none => simp [loadWith, htext]
    | some text =>
      cases hparse : parseWith? readYaml (.ofPath path) text <;>
        simp [loadWith, htext, parseWith, hparse]

theorem context_eq_ok_iff {request : Request} {home : Option Text} {context : Context} :
    request.context home = .ok context ↔ request.context? home = .ok context := by
  rw [Request.context]
  cases request.context? home <;> simp [Except.mapError]

end Request

/-- A file that can be run on a host: it is there, it is text, the text is a request in the format
that its name tells, and the request makes a context. -/
structure Host.Accepts (host : Host) (readYaml : YamlReader) (file : GivenFile) (request : Request)
    (context : Context) : Prop where
  written : ∃ bytes text, file.content = some bytes ∧ Text.Utf8.decode? bytes = some text ∧
    Request.Written readYaml (.ofPath file.path) text request
  complete : request.context? host.home = .ok context

/-- An item of a report tells of a string and its expansion: it has the string and the result as
they are, and the status and the problems as they are read back. -/
def Json.TellsOf (item : Json) (input : Text) (expansion : Expansion) : Prop :=
  ∃ status errors,
    item = .record
      [("input".toList, .text input), ("result".toList, .text expansion.outcome.result),
       ("status".toList, status), ("errors".toList, errors)] ∧
    Status.ofJson? status = some expansion.outcome.status ∧
    Json.asList? Problem.ofJson? errors = some expansion.problems

theorem ReportEntry.tellsOf_toJson (input : Text) (expansion : Expansion) :
    (ReportEntry.ofExpansion input expansion).toJson.TellsOf input expansion :=
  ⟨_, _, rfl, Status.ofJson?_toJson _, Json.asList?_map Problem.ofJson?_toJson _⟩

namespace Report

/-- A printed report is read as an object with the items of its entries. -/
theorem parse?_print (report : Report) :
    Json.parse? report.print
      = some (.object [(some "results".toList, .array (report.entries.map ReportEntry.toJson))]) :=
  Json.parse?_print report.toJson

/-- A report has one entry for each string, provided that each was expanded. -/
theorem length_entries_ofBatch {inputs : List Text} {batch : Batch}
    (h : batch.expansions.length = inputs.length) :
    (ofBatch inputs batch).entries.length = inputs.length := by
  rw [← List.length_map ReportEntry.input, inputs_ofBatch inputs batch h]

/-- The entry in the place of a string is made of the expansion in that place. -/
theorem getElem?_entries_ofBatch {inputs : List Text} {batch : Batch} {i : Nat} {input : Text}
    {expansion : Expansion} (hinput : inputs[i]? = some input)
    (hexpansion : batch.expansions[i]? = some expansion) :
    (ofBatch inputs batch).entries[i]? = some (.ofExpansion input expansion) := by
  rw [ofBatch, List.getElem?_zipWith, hinput, hexpansion]

end Report

namespace Host

variable {σ : Type} {host : Host} {readYaml : YamlReader} {launch : Launcher σ}
  {file : GivenFile} {state : σ}

/-- There is a report exactly on the files that can be run, and it is made of the expansions that
separate calls for the strings give. -/
theorem reportFileWith_eq_ok_iff {report : Report} :
    host.reportFileWith readYaml launch file.path file.content state = .ok report ↔
      ∃ request context, host.Accepts readYaml file request context ∧
        report = Report.ofBatch request.strings
          ⟨((Engine.standard (host.services launch request)).callEach context request.strings
            state).1⟩ := by
  rw [reportFileWith]
  constructor
  · intro h
    cases hload : Request.loadWith readYaml file.path file.content with
    | error reason => rw [hload] at h; cases h
    | ok request =>
      rw [hload] at h
      change host.reportWith launch request state = .ok report at h
      rw [reportWith, expandWith] at h
      cases hcontext : request.context host.home with
      | error reason => rw [hcontext] at h; cases h
      | ok context =>
        rw [hcontext] at h
        refine ⟨request, context, ⟨Request.loadWith_eq_ok_iff.mp hload,
          Request.context_eq_ok_iff.mp hcontext⟩, ?_⟩
        rw [Engine.callEach_eq_expandEach]
        exact (Except.ok.inj h).symm
  · rintro ⟨request, context, accepted, rfl⟩
    have hload := Request.loadWith_eq_ok_iff.mpr accepted.written
    have hcontext := Request.context_eq_ok_iff.mpr accepted.complete
    rw [hload, Engine.callEach_eq_expandEach]
    change host.reportWith launch request state = _
    rw [reportWith, expandWith, hcontext]
    rfl

/-- A run succeeds exactly on the files that can be run. -/
theorem status_invokeWith_eq_zero_iff_accepts :
    (host.invokeWith readYaml launch (some file) state).status = 0 ↔
      ∃ request context, host.Accepts readYaml file request context := by
  rw [status_invokeWith_eq_zero_iff]
  constructor
  · rintro ⟨report, h⟩
    obtain ⟨request, context, accepted, _⟩ := reportFileWith_eq_ok_iff.mp h
    exact ⟨request, context, accepted⟩
  · rintro ⟨request, context, accepted⟩
    exact ⟨_, reportFileWith_eq_ok_iff.mpr ⟨request, context, accepted, rfl⟩⟩

/-- A run that does not succeed ends with status one and shows nothing. -/
theorem invokeWith_of_status_ne_zero {file : Option GivenFile}
    (h : (host.invokeWith readYaml launch file state).status ≠ 0) :
    (host.invokeWith readYaml launch file state).status = 1 ∧
      (host.invokeWith readYaml launch file state).output = [] := by
  unfold invokeWith at h ⊢
  split
  · exact ⟨rfl, rfl⟩
  · split
    · next hreport => simp [hreport, Exit.success] at h
    · exact ⟨rfl, rfl⟩

theorem output_invokeWith {report : Report}
    (h : host.reportFileWith readYaml launch file.path file.content state = .ok report) :
    (host.invokeWith readYaml launch (some file) state).output = report.print := by
  rw [invokeWith, h]
  rfl

/-- The output on a file that can be run has one item for each string of the request, in the order of
the strings, and each item tells what a call for its string gives. -/
theorem exists_items_of_accepts {request : Request} {context : Context}
    (h : host.Accepts readYaml file request context) :
    ∃ items : List Json,
      Json.parse? (host.invokeWith readYaml launch (some file) state).output
        = some (.object [(some "results".toList, .array items)]) ∧
      items.length = request.strings.length ∧
      ∀ (i : Nat) input, request.strings[i]? = some input →
        ∃ item expansion, items[i]? = some item ∧
          ((Engine.standard (host.services launch request)).callEach context request.strings
            state).1[i]? = some expansion ∧
          item.TellsOf input expansion := by
  generalize hexpansions : ((Engine.standard (host.services launch request)).callEach context
    request.strings state).1 = expansions
  have hlength : expansions.length = request.strings.length := by
    rw [← hexpansions, Engine.callEach_eq_expandEach, Engine.length_expandEach]
  have hreport : host.reportFileWith readYaml launch file.path file.content state
      = .ok (Report.ofBatch request.strings ⟨expansions⟩) :=
    reportFileWith_eq_ok_iff.mpr ⟨request, context, h, by rw [hexpansions]⟩
  refine ⟨(Report.ofBatch request.strings ⟨expansions⟩).entries.map ReportEntry.toJson, ?_, ?_,
    fun i input hinput => ?_⟩
  · rw [output_invokeWith hreport, Report.parse?_print]
  · rw [List.length_map, Report.length_entries_ofBatch hlength]
  · have hi : i < expansions.length := by
      rw [hlength]
      exact (List.getElem?_eq_some_iff.mp hinput).1
    have hexpansion : expansions[i]? = some expansions[i] := List.getElem?_eq_getElem hi
    refine ⟨_, _, ?_, hexpansion, ReportEntry.tellsOf_toJson input _⟩
    rw [List.getElem?_map, Report.getElem?_entries_ofBatch hinput hexpansion, Option.map_some]

/-- A run succeeds exactly on the files that can be run; otherwise it ends with status one and shows
nothing. What it shows where it succeeds has one item for each string of the request, in the order
of the strings, and each item tells what a call for its string gives in the world that the host and
the request make up. -/
theorem report_complete (host : Host) (readYaml : YamlReader) (launch : Launcher σ)
    (file : GivenFile) (state : σ) :
    let exit := host.invokeWith readYaml launch (some file) state
    (exit.status = 0 ↔ ∃ request context, host.Accepts readYaml file request context) ∧
    (exit.status ≠ 0 → exit.status = 1 ∧ exit.output = []) ∧
    ∀ request context, host.Accepts readYaml file request context →
      let services : Services σ :=
        { environment := host.environment.lookup
          normalize := host.pathStyle.normalize
          folders := request.folders
          execute := launch request.commands }
      ∃ items : List Json,
        Json.parse? exit.output = some (.object [(some "results".toList, .array items)]) ∧
        items.length = request.strings.length ∧
        ∀ (i : Nat) input, request.strings[i]? = some input →
          ∃ item expansion, items[i]? = some item ∧
            ((Engine.standard services).callEach context request.strings state).1[i]?
              = some expansion ∧
            item.TellsOf input expansion := by
  intro exit
  exact ⟨status_invokeWith_eq_zero_iff_accepts, invokeWith_of_status_ne_zero,
    fun request context accepted => exists_items_of_accepts accepted⟩

def twice : Request where
  vars := Table.ofList (Required.all.map fun required => (required.key, []))
  strings := ["$\x7bcommand:n\x7d".toList, "\"é$\x7bcommand:n\x7d".toList]

def twiceJson : Text := List.flatten
  ["\x7b\"variables\": \x7b\"generator\": \"\", ".toList, "\"workspaceFolder\": \"\", ".toList,
   "\"workspaceFolderBasename\": \"\", ".toList, "\"sourceDir\": \"\", ".toList,
   "\"workspaceHash\": \"\", ".toList, "\"workspaceRoot\": \"\", ".toList,
   "\"workspaceRootFolderName\": \"\", ".toList, "\"userHome\": \"\"\x7d, ".toList,
   "\"strings\": [\"$\x7bcommand:n\x7d\", ".toList, "\"\\\"é$\x7bcommand:n\x7d\"]\x7d".toList]

def twiceYaml : Text := List.flatten
  ["variables:\n  generator: ''\n".toList, "  workspaceFolder: ''\n".toList,
   "  workspaceFolderBasename: ''\n".toList, "  sourceDir: ''\n".toList,
   "  workspaceHash: ''\n".toList, "  workspaceRoot: ''\n".toList,
   "  workspaceRootFolderName: ''\n".toList, "  userHome: ''\n".toList,
   "strings:\n  - $\x7bcommand:n\x7d\n".toList, "  - '\"é$\x7bcommand:n\x7d'\n".toList]

def jsonFile : GivenFile := ⟨"twice.json".toList, some (Text.Utf8.encode twiceJson)⟩

def yamlFile : GivenFile := ⟨"twice.YML".toList, some (Text.Utf8.encode twiceYaml)⟩

def bare : Host := { environment := ⟨Table.empty⟩ }

private theorem accepts_of_parseWith? {path text : Text}
    (hdecode : Text.Utf8.decode? (Text.Utf8.encode text) = some text)
    (hparse : Request.parseWith? Request.ofYaml? (.ofPath path) text = some twice) :
    bare.Accepts Request.ofYaml? ⟨path, some (Text.Utf8.encode text)⟩ twice { vars := .bare } := by
  refine ⟨⟨_, text, rfl, hdecode, Request.parseWith?_eq_some_iff.mp hparse⟩, ?_⟩
  decide +kernel

private theorem accepts_jsonFile :
    bare.Accepts Request.ofYaml? jsonFile twice { vars := .bare } := by
  apply accepts_of_parseWith?
  · decide +kernel
  · decide +kernel

private theorem accepts_yamlFile :
    bare.Accepts Request.ofYaml? yamlFile twice { vars := .bare } := by
  apply accepts_of_parseWith?
  · decide +kernel
  · decide +kernel

/-- A launcher whose commands all answer with the number of the call. -/
def numbering : Launcher Nat := fun _ _ _ count => (.ok (Text.ofNat count), count + 1)

/-- In either format the second string gets the answer of the second call, and is shown as it is. -/
theorem report_complete_numbering :
    bare.Accepts Request.ofYaml? jsonFile twice { vars := .bare } ∧
      (bare.invokeWith Request.ofYaml? numbering (some jsonFile) 0).status = 0 ∧
      bare.Accepts Request.ofYaml? yamlFile twice { vars := .bare } ∧
      (bare.invokeWith Request.ofYaml? numbering (some yamlFile) 0).status = 0 ∧
      ∃ items item expansion,
        Json.parse? (bare.invokeWith Request.ofYaml? numbering (some yamlFile) 0).output
          = some (.object [(some "results".toList, .array items)]) ∧
        items.length = 2 ∧ items[1]? = some item ∧
        item.TellsOf "\"é$\x7bcommand:n\x7d".toList expansion ∧
        expansion.outcome.result = "\"é1".toList := by
  have hresult : ((Engine.standard (bare.services numbering twice)).callEach { vars := .bare }
      twice.strings 0).1[1]?.map (·.outcome.result) = some "\"é1".toList := by
    decide +kernel
  obtain ⟨hjson, _, _⟩ := bare.report_complete Request.ofYaml? numbering jsonFile 0
  obtain ⟨hyaml, _, shows⟩ := bare.report_complete Request.ofYaml? numbering yamlFile 0
  obtain ⟨items, houtput, hlength, hitems⟩ := shows twice _ accepts_yamlFile
  obtain ⟨item, expansion, hitem, hexpansion, htells⟩ := hitems 1 _ rfl
  change ((Engine.standard (bare.services numbering twice)).callEach { vars := .bare }
    twice.strings 0).1[1]? = some expansion at hexpansion
  rw [hexpansion] at hresult
  exact ⟨accepts_jsonFile, hjson.mpr ⟨twice, _, accepts_jsonFile⟩, accepts_yamlFile,
    hyaml.mpr ⟨twice, _, accepts_yamlFile⟩, items, item, expansion, houtput, hlength, hitem,
    htells, Option.some.inj hresult⟩

end Host
end Placeholders
