import ExtensionAudit.FileTree.Glob
import ExtensionAudit.Settings.Basic

/-!
The files of a package: everything below its root that is no directory, but for what version control
keeps there. Files come in the code-point order of their paths below the root, whatever order the
file system lists them in.
-/

namespace ExtensionAudit.Package

def versionControlNames : List String := [".git", ".svn", ".hg", ".bzr", "_darcs", "CVS"]

/-- Whether a path below a root is data of version control. -/
def isVersionControl (root path : Path) : Bool := (path.below root).any versionControlNames.contains

def textBelow (root path : Path) : String := (⟨0, path.below root⟩ : Path).text

/-- Paths in the order of their texts below a root. -/
def sortBelow (root : Path) (paths : List Path) : List Path :=
  paths.mergeSort fun a b => Settings.textOrder (textBelow root a) (textBelow root b)

/-- Those of the paths found below a root that are files of the package. -/
def filesAmong (tree : FileTree) (root : Path) : List Path → Except PathFault (List Path)
  | [] => .ok []
  | path :: rest =>
    if isVersionControl root path then filesAmong tree root rest
    else
      match tree.isDirectory path with
      | .error fault => .error fault
      | .ok true => filesAmong tree root rest
      | .ok false => (filesAmong tree root rest).map (path :: ·)

def filesMatching (tree : FileTree) (root : Path) (pattern : String) :
    Except SearchFault (List Path) :=
  match tree.search root pattern with
  | .error fault => .error fault
  | .ok found =>
    match filesAmong tree root found with
    | .error fault => .error (.path fault)
    | .ok files => .ok (sortBelow root files)

def files (tree : FileTree) (root : Path) : Except SearchFault (List Path) :=
  filesMatching tree root "*"

end ExtensionAudit.Package
