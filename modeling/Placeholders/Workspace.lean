import Placeholders.Text.Lowercase

/-! Workspace folders and the registry that finds them by name. -/

namespace Placeholders

structure WorkspaceFolder where
  name : Text
  path : Text
  deriving DecidableEq, Repr

/-- Whether a folder goes by a name; upper and lower case count as the same. -/
def WorkspaceFolder.matches (folder : WorkspaceFolder) (name : Text) : Bool :=
  Text.lowercase folder.name = Text.lowercase name

def findFolder? (folders : List WorkspaceFolder) (name : Text) : Option WorkspaceFolder :=
  folders.find? fun folder => folder.matches name

end Placeholders
