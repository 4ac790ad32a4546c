import Placeholders.Report
import Placeholders.RequestFile
import Placeholders.Engine.Basic
import Placeholders.PathStyle

/-! Running a request on a host. The host lends the request its environment, its user's home
directory and the way it writes paths; everything else the request brings along. What reads YAML
and what runs the command lines may be anything, the latter with a state of its own. -/

namespace Placeholders

/-- Runs the command lines of a table by their names. -/
abbrev Launcher (σ : Type) := Table Text → Executor σ

structure Host where
  environment : ProcessEnvironment
  /-- The home directory that the account of the user names. -/
  accountHome : Option Text := none
  pathStyle : PathStyle := .posix

namespace Host

/-- The home directory of the user. The environment has precedence over the account, unless what it
names is empty. -/
def home (host : Host) : Option Text :=
  match host.environment.vars.get? "HOME".toList with
  | none | some [] => host.accountHome
  | some bytes => some (Text.Utf8.decodeLossy bytes)

variable {σ : Type} (host : Host) (readYaml : YamlReader) (launch : Launcher σ)

def services (request : Request) : Services σ where
  environment := host.environment.lookup
  normalize := host.pathStyle.normalize
  folders := request.folders
  execute := launch request.commands

def expandWith (request : Request) (state : σ) : Except RequestError Batch :=
  (request.context host.home).map fun context =>
    ((Engine.standard (host.services launch request)).expandBatch context request.strings
      state).1

def reportWith (request : Request) (state : σ) : Except RequestError Report :=
  (host.expandWith launch request state).map (Report.ofBatch request.strings)

def reportFileWith (path : Text) (content : Option Bytes) (state : σ) :
    Except RequestError Report :=
  Request.loadWith readYaml path content >>= fun request => host.reportWith launch request state

end Host
end Placeholders
