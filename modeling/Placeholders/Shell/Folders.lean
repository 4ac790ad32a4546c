import Placeholders.Text.Basic

/-! The folders that commands can stand in. Only folders that every system has are known; a link to
a folder leads on to another path. -/

namespace Placeholders.Shell

def pathParts (path : Text) : List Text :=
  (Text.splitAt '/' path).filter fun part => !part.isEmpty && part != ['.']

def pathOf (parts : List Text) : Text :=
  if parts.isEmpty then ['/'] else parts.flatMap fun part => '/' :: part

structure Folders where
  known : List Text
  /-- Folders at the root that lead to other paths. -/
  links : List (Text × Text)

namespace Folders

def standard : Folders where
  known :=
    ["/", "/boot", "/dev", "/dev/pts", "/dev/shm", "/etc", "/home", "/media", "/mnt", "/opt",
     "/proc", "/root", "/run", "/srv", "/sys", "/tmp", "/usr", "/usr/bin", "/usr/games",
     "/usr/include", "/usr/lib", "/usr/lib64", "/usr/local", "/usr/local/bin", "/usr/local/lib",
     "/usr/local/sbin", "/usr/local/share", "/usr/sbin", "/usr/share", "/usr/src", "/var",
     "/var/cache", "/var/lib", "/var/log", "/var/tmp"].map String.toList
  links :=
    [("/bin", "/usr/bin"), ("/lib", "/usr/lib"), ("/lib64", "/usr/lib64"),
     ("/sbin", "/usr/sbin"), ("/var/run", "/run")].map fun (link, path) =>
      (link.toList, path.toList)

def walk (folders : Folders) : Text → List Text → Option Text
  | place, [] => some place
  | place, part :: parts =>
    if part = ['.', '.'] then walk folders (pathOf (pathParts place).dropLast) parts
    else
      let next := pathOf (pathParts place ++ [part])
      match folders.links.lookup next with
      | some path => walk folders path parts
      | none => if folders.known.contains next then walk folders next parts else none

def resolve? (folders : Folders) (place path : Text) : Option Text :=
  if path.isEmpty || path.contains (Char.ofNat 0) then none
  else folders.walk (if path.head? = some '/' then ['/'] else place) (pathParts path)

end Folders
end Placeholders.Shell
