import Placeholders.Json.Parse
import Placeholders.Json.Request
import Placeholders.RequestFormat
import Placeholders.Text.Utf8

/-! Reading a request file: its bytes must be text, the text must be a request in the format that
the file's name tells, and the request must have the required variables. What reads YAML may be any
reader. -/

namespace Placeholders

inductive RequestError where
  | io (reason : Text)
  /-- The text is no request in its format. -/
  | malformed (format : RequestFormat)
  | invalid (missing : MissingVariable)
  deriving DecidableEq, Repr

namespace RequestError

def noSuchFile : RequestError := .io "No such file or directory (os error 2)".toList

def notText : RequestError := .io "stream did not contain valid UTF-8".toList

def message : RequestError → Text
  | .io reason => "I/O error: ".toList ++ reason
  | .malformed .json => "invalid JSON request".toList
  | .malformed .yaml => "invalid YAML request".toList
  | .invalid missing => "invalid request: ".toList ++ missing.message

end RequestError

/-- Reads the request that a text writes in YAML, if it is one. -/
abbrev YamlReader := Text → Option Request

namespace Request

def parseWith? (readYaml : YamlReader) (format : RequestFormat) (content : Text) :
    Option Request :=
  match format with
  | .json => (Json.parse? content).bind ofJson?
  | .yaml => readYaml content

def parseWith (readYaml : YamlReader) (format : RequestFormat) (content : Text) :
    Except RequestError Request :=
  match parseWith? readYaml format content with
  | some request => .ok request
  | none => .error (.malformed format)

/-- The request in a file with a path and bytes, or no bytes if there is no such file. -/
def loadWith (readYaml : YamlReader) (path : Text) (content : Option Bytes) :
    Except RequestError Request :=
  match content with
  | none => .error .noSuchFile
  | some bytes =>
    match Text.Utf8.decode? bytes with
    | none => .error .notText
    | some text => parseWith readYaml (.ofPath path) text

/-- The context of a request, as `context?`, with the errors of request files. -/
def context (request : Request) (home : Option Text) : Except RequestError Context :=
  (request.context? home).mapError .invalid

end Request
end Placeholders
