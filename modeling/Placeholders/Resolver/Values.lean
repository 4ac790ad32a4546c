import Placeholders.Resolver.Basic

/-! Placeholders whose values are given with the request: variables, variants and workspace
folders. An unknown variable is a problem, an unknown variant is empty, and an unknown folder is
left in place without a word. -/

namespace Placeholders

variable {σ : Type}

def resolveVariable (vars : Variables) (pass : Pass) (token : Token) : Pass :=
  match vars.get? token.key with
  | some value => pass.substitute token.literal value
  | none => pass.report .invalidReference token.literal

def variableResolver : Resolver σ :=
  .pure Namespace.variable.shortName fun context pass =>
    (scan pass.input .variable).foldl (resolveVariable context.vars) pass

def resolveFolder (folders : List WorkspaceFolder) (pass : Pass) (token : Token) : Pass :=
  match findFolder? folders token.key with
  | some folder => pass.substitute token.literal folder.path
  | none => pass

def workspaceFolderResolver (folders : List WorkspaceFolder) : Resolver σ :=
  .pure Namespace.workspaceFolder.shortName fun _ pass =>
    (scan pass.input .workspaceFolder).foldl (resolveFolder folders) pass

/-- Records the value of a variant, which is empty if the table has none. -/
def resolveVariant (variants : Table Text) (pass : Pass) (token : Token) : Pass :=
  pass.substitute token.literal ((variants.get? token.key).getD [])

/-- Resolves variants; does nothing when the context has no table of variants. -/
def variantResolver : Resolver σ :=
  .pure Namespace.variant.shortName fun context pass =>
    match context.variants with
    | none => pass
    | some variants => (scan pass.input .variant).foldl (resolveVariant variants) pass

end Placeholders
