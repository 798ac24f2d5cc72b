import ExtensionAudit.Package.Base
import ExtensionAudit.Yaml.Document

/-!
The settings file of a check. A file that was asked for has to be there; the one that a package may
bring along in its root need not. Without a file, or with an empty one, all settings have their
defaults.
-/

namespace ExtensionAudit.Settings

/-- The name of the settings file that a package may bring along. -/
def fileName : String := ".extcheck.yml"

def fileExists (tree : FileTree) (path : Path) : Except SetupFault Bool :=
  (tree.pathExists path).mapError fun fault => .search (.path fault)

def document (tree : FileTree) (path : Path) : Except SetupFault Value :=
  let unreadable := SetupFault.settingsFile (.unreadable path)
  match tree.read path with
  | .error _ => .error unreadable
  | .ok content =>
    match Text.decodeStrict? content with
    | none => .error unreadable
    | some text =>
      match Yaml.read text.toList with
      | .ok value => .ok value
      | .error .malformed => .error unreadable
      | .error (.scalar fault) => .error (.scalar fault)

def ofFile (tree : FileTree) (path : Path) : Setup Settings := do
  match ← Setup.need (document tree path) with
  | .null => return {}
  | .mapping entries =>
    Setup.log .debug ("Loaded configuration from " ++ path.text)
    Setup.lift .settings (ofEntries entries)
  | _ => throw (.settingsFile (.notMapping path))

/-- The settings of a check, from the file that was asked for or else from the package's own one. -/
def load (tree : FileTree) (path root : Option Path) : Setup Settings := do
  match path, root with
  | some path, _ =>
    if ← Setup.need (fileExists tree path) then ofFile tree path
    else throw (.settingsFile (.missing path))
  | none, some root =>
    let path := root.child fileName
    if ← Setup.need (fileExists tree path) then ofFile tree path else return {}
  | none, none => return {}

/-- The root, if it is a directory, where a package's own settings file is looked for. -/
def rootIfDirectory (tree : FileTree) (root : Path) : Setup (Option Path) := do
  if ← Setup.need (Package.isDirectory tree root) then return some root else return none

end ExtensionAudit.Settings
