import Placeholders.Program
import Placeholders.Shell.Executor
import Placeholders.Yaml.Request

/-! The program as it is installed: with a reader for YAML and a shell of its own. -/

namespace Placeholders

namespace Request

def parse (format : RequestFormat) (content : Text) : Except RequestError Request :=
  parseWith ofYaml? format content

def load (path : Text) (content : Option Bytes) : Except RequestError Request :=
  loadWith ofYaml? path content

end Request

namespace Host

def shell (host : Host) : Shell.System := .ofEnvironment host.environment

def expand (host : Host) (request : Request) : Except RequestError Batch :=
  host.expandWith host.shell.executor request ()

def invoke (host : Host) (file : Option GivenFile) : Exit :=
  host.invokeWith Request.ofYaml? host.shell.executor file ()

end Host
end Placeholders
