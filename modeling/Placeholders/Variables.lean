import Placeholders.Table

/-! The table of plain variables. Eight of them must always be there, and one more repeats another
under a second name; both facts are part of the type, so whoever holds a table of variables may
rely on them. -/

namespace Placeholders

inductive Required where
  | generator
  | workspaceFolder
  | workspaceFolderBasename
  | sourceDir
  | workspaceHash
  | workspaceRoot
  | workspaceRootFolderName
  | userHome
  deriving DecidableEq, Repr

namespace Required

/-- All required variables, in the order in which their absence is reported. -/
def all : List Required :=
  [.generator, .workspaceFolder, .workspaceFolderBasename, .sourceDir, .workspaceHash,
   .workspaceRoot, .workspaceRootFolderName, .userHome]

def key : Required → Text
  | .generator => "generator".toList
  | .workspaceFolder => "workspaceFolder".toList
  | .workspaceFolderBasename => "workspaceFolderBasename".toList
  | .sourceDir => "sourceDir".toList
  | .workspaceHash => "workspaceHash".toList
  | .workspaceRoot => "workspaceRoot".toList
  | .workspaceRootFolderName => "workspaceRootFolderName".toList
  | .userHome => "userHome".toList

theorem mem_all (r : Required) : r ∈ all := by cases r <;> decide

end Required

def sourceDirectoryKey : Text := "sourceDirectory".toList

theorem Required.key_ne_sourceDirectoryKey (r : Required) : r.key ≠ sourceDirectoryKey := by
  cases r <;> decide

structure MissingVariable where
  required : Required
  deriving DecidableEq, Repr

def MissingVariable.message (e : MissingVariable) : Text :=
  "missing required variable: ".toList ++ e.required.key

@[ext] structure Variables where
  table : Table Text
  required_isSome : ∀ r : Required, (table.get? r.key).isSome
  /-- The source directory has the same value under both its names. -/
  alias_eq : table.get? sourceDirectoryKey = table.get? Required.sourceDir.key

namespace Variables

instance : DecidableEq Variables := fun s t =>
  decidable_of_iff (s.table = t.table) (Variables.ext_iff).symm

def firstMissing? (table : Table Text) : Option Required :=
  Required.all.find? fun r => (table.get? r.key).isNone

theorem isSome_of_firstMissing? {table : Table Text} (h : firstMissing? table = none)
    (r : Required) : (table.get? r.key).isSome := by
  have := List.find?_eq_none.mp h r r.mem_all
  exact Option.isSome_iff_ne_none.mpr (by simpa using this)

/-- Makes a table into variables: it must have the required ones, and the source directory takes
its second name. -/
def ofTable (table : Table Text) : Except MissingVariable Variables :=
  match h : firstMissing? table with
  | some r => .error ⟨r⟩
  | none =>
    let value := (table.get? Required.sourceDir.key).getD []
    .ok {
      table := table.insert sourceDirectoryKey value
      required_isSome := fun r => by
        rw [Table.get?_insert_of_ne r.key_ne_sourceDirectoryKey]
        exact isSome_of_firstMissing? h r
      alias_eq := by
        rw [Table.get?_insert_self,
          Table.get?_insert_of_ne Required.sourceDir.key_ne_sourceDirectoryKey]
        obtain ⟨v, hv⟩ := Option.isSome_iff_exists.mp (isSome_of_firstMissing? h .sourceDir)
        simp [value, hv] }

def ofEntries (entries : List (Text × Text)) : Except MissingVariable Variables :=
  ofTable (Table.ofList entries)

def get? (v : Variables) (key : Text) : Option Text := v.table.get? key

def required (v : Variables) (r : Required) : Text :=
  (v.table.get? r.key).get (v.required_isSome r)

end Variables
end Placeholders
