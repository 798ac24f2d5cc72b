import ExtensionAudit.Json.Reader
import ExtensionAudit.Setup
import ExtensionAudit.Text.Utf8

/-!
The name under which a package is published, as its composer file declares it. A package without a
usable composer file has the empty name; the log says why.
-/

namespace ExtensionAudit.Package

/-- Why a package has no name. -/
inductive NameFault where
  | noFile (name : String) (directory : Path)
  | unreadable (path : Path)
  | undeclared (path : Path)
  deriving DecidableEq, Repr

def NameFault.message : NameFault → String
  | .noFile name directory =>
    "No " ++ name ++ " found in " ++ directory.text ++
      "; event names cannot be matched to a namespace"
  | .unreadable path => "Unable to read " ++ path.text
  | .undeclared path => path.text ++ " does not declare a package name"

/-- The document of a composer file, if there is such a file. -/
def readDocument (tree : FileTree) (path : Path) : Except NameFault (Option Json) := do
  let present ← (tree.pathExists path).mapError fun _ => NameFault.unreadable path
  if !present then return none
  let content ← (tree.read path).mapError fun _ => NameFault.unreadable path
  match (Text.decodeStrict? content).bind Json.parse? with
  | none => throw (.unreadable path)
  | some document => return some document

/-- The name that a composer file declares. A document that is null counts as no file. -/
def declaredName (tree : FileTree) (base : Path) (composerFile : String) :
    Except NameFault String := do
  let path := base.join (Path.parse composerFile)
  match ← readDocument tree path with
  | none | some .null => throw (.noFile composerFile base)
  | some document =>
    match document.member? "name" with
    | some (.text name) => return String.ofList (Text.trim name.toList)
    | _ => throw (.undeclared path)

def name (tree : FileTree) (base : Path) (composerFile : String) : Setup String := do
  match declaredName tree base composerFile with
  | .ok name => return name
  | .error fault =>
    Setup.log .warning fault.message
    return ""

end ExtensionAudit.Package
