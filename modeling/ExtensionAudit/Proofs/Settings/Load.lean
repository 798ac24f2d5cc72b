import Mathlib
import ExtensionAudit.Proofs.Settings.Reading
import ExtensionAudit.Settings.File

/-!
# How the loading of settings ends

Settings are loaded from a document that users write, and most of what can be wrong with it is told
to them as a fault of the configuration. Some faults are not: they come up where nobody expects
them. There are four kinds, and the loading ends unexpectedly exactly over one of them. The file
lies under a path that is too long to be looked up; a scalar has the form of a value and denotes
none; a key of the document is no text, so that it cannot be listed among the unknown ones; or a
forbidden call holds an integer that is too long to be written in the message about it.
-/

namespace ExtensionAudit.Settings

variable {tree : FileTree} {path : Path} {entries : List (Value × Value)}

/-! ### Documents -/

/-- The settings of a document. -/
def ofDocument (path : Path) : Value → Except SetupFault Settings
  | .null => .ok {}
  | .mapping entries => (ofEntries entries).mapError .settings
  | _ => .error (.settingsFile (.notMapping path))

theorem ofFile_ends (tree : FileTree) (path : Path) :
    (ofFile tree path).Ends ((document tree path).bind (ofDocument path)) := by
  refine (Setup.Ends.need _).bind fun value _ => ?_
  cases value with
  | null => exact Setup.Ends.pure _
  | mapping entries => exact (Setup.Ends.log _ _).after (Setup.Ends.lift _ _)
  | _ => exact Setup.Ends.throw _

/-- What loading does with a file, given what is done if there is none. -/
def loadFile (tree : FileTree) (file : Path) (missing : Except SetupFault Settings) :
    Except SetupFault Settings :=
  (fileExists tree file).bind fun there =>
    if there then (document tree file).bind (ofDocument file) else missing

/-- The result of loading settings. -/
def loaded (tree : FileTree) (path root : Option Path) : Except SetupFault Settings :=
  match path, root with
  | some file, _ => loadFile tree file (.error (.settingsFile (.missing file)))
  | none, some root => loadFile tree (root.child fileName) (.ok {})
  | none, none => .ok {}

theorem load_ends (tree : FileTree) (path root : Option Path) :
    (load tree path root).Ends (loaded tree path root) := by
  have hfile {file : Path} {otherwise : Setup Settings} {missing : Except SetupFault Settings}
      (hmissing : otherwise.Ends missing) :
      Setup.Ends (Setup.need (fileExists tree file) >>= fun there =>
        if there then ofFile tree file else otherwise) (loadFile tree file missing) := by
    refine (Setup.Ends.need _).bind fun there _ => ?_
    cases there with
    | true => exact ofFile_ends tree file
    | false => exact hmissing
  cases path with
  | some file => exact hfile (Setup.Ends.throw _)
  | none =>
    cases root with
    | some root => exact hfile (Setup.Ends.pure _)
    | none => exact Setup.Ends.pure _

end ExtensionAudit.Settings
