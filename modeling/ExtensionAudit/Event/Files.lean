import ExtensionAudit.Event.Extraction
import ExtensionAudit.FileTree.Basic
import ExtensionAudit.Text.Utf8

/-!
The search for event declarations in files of a tree. A file that cannot be read is an extraction
with a fault of its own; only a path that is no path at all stops the search.
-/

namespace ExtensionAudit.Event

/-- Searches the file at a path relative to a base directory. -/
def extractFile (tree : FileTree) (policy : PartialPolicy) (base : Path) (relative : String) :
    Except PathFault Extraction :=
  match tree.read (base.join (Path.parse relative)) with
  | .ok content => .ok (extract policy (Text.decodeLenient content) relative)
  | .error (.refused error _) =>
    .ok ⟨relative, [], some ⟨.unreadable error.reason, relative, none⟩⟩
  | .error .nullCharacter => .error .nullCharacter

def crawl (tree : FileTree) (policy : PartialPolicy) (base : Path) (relatives : List String) :
    Except PathFault (List Extraction) :=
  relatives.mapM (extractFile tree policy base)

end ExtensionAudit.Event
