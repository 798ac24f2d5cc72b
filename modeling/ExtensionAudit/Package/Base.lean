import ExtensionAudit.Package.Files
import ExtensionAudit.Setup

/-!
The base directory of a package: the one that holds its manifest. A package has exactly one.
-/

namespace ExtensionAudit.Package

def isDirectory (tree : FileTree) (path : Path) : Except SetupFault Bool :=
  (tree.isDirectory path).mapError fun fault => .search (.path fault)

/-- The manifests below a root. The name selects files as a pattern does, but only those that have
it as their name count. -/
def manifests (tree : FileTree) (manifest : String) (root : Path) :
    Except SetupFault (List Path) :=
  match filesMatching tree root manifest with
  | .ok found => .ok (found.filter (·.name == manifest))
  | .error fault => .error (.search fault)

def baseDirectory (tree : FileTree) (manifest : String) (root : Path) : Except SetupFault Path := do
  if !(← isDirectory tree root) then throw (.package (.missing root))
  match ← manifests tree manifest root with
  | [] => throw (.package (.withoutManifest manifest root))
  | [path] => return path.parent
  | found => throw (.package (.severalManifests manifest root (found.map (textBelow root))))

end ExtensionAudit.Package
