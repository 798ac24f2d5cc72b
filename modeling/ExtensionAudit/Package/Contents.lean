import ExtensionAudit.Package.Files
import ExtensionAudit.Rule.Basic
import ExtensionAudit.Text.Utf8

/-!
The contents of a package: its files, and the listing of their paths as seen from the base
directory. A file that cannot be read is left out of both and noted.
-/

namespace ExtensionAudit.Package

/-- What was found at a path: a file, or the reason why none could be read. -/
inductive Loaded where
  | file (source : SourceFile)
  | unreadable (relativePath reason : String)
  deriving DecidableEq, Repr

def reason : PathFault → String
  | .refused error _ => error.reason
  | .nullCharacter => PathFault.nullCharacter.message

def loadFile (tree : FileTree) (base path : Path) : Loaded :=
  let relative := (path.relativeTo base).text
  match tree.read path with
  | .ok content => .file (.ofText path relative (Text.decodeLenient content))
  | .error fault => .unreadable relative (reason fault)

/-- The message of a file that could not be read. -/
def unreadableMessage (relativePath reason : String) : String :=
  "Found a file that doesn't seem to be readable or doesn't exist: " ++ relativePath ++ ": " ++
    reason

def Loaded.effects : Loaded → List Effect
  | .file _ => []
  | .unreadable relativePath reason =>
    [.message .notice (unreadableMessage relativePath reason)]

def Loaded.file? : Loaded → Option SourceFile
  | .file source => some source
  | .unreadable _ _ => none

/-- The contents of a package, and what a report says of them. -/
structure Contents where
  files : List SourceFile
  effects : List Effect

/-- The paths of the files, as seen from the base directory. -/
def Contents.listing (contents : Contents) : List String := contents.files.map (·.relativePath)

def Contents.ofLoaded (root base : Path) (loaded : List Loaded) : Contents :=
  let files := loaded.filterMap Loaded.file?
  { files
    effects :=
      .trace ("Loading files below " ++ root.text ++ " (base directory " ++ base.text ++ ")") ::
        loaded.flatMap Loaded.effects ++
        [.trace ("Loaded " ++ toString files.length ++ " files")] }

def load (tree : FileTree) (root base : Path) : Except SearchFault Contents :=
  (files tree root).map fun paths => .ofLoaded root base (paths.map (loadFile tree base))

end ExtensionAudit.Package
