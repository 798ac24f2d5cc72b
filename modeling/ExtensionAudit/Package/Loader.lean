import ExtensionAudit.Audit
import ExtensionAudit.Package.Base
import ExtensionAudit.Package.Contents

/-!
The loading of a package into a report. The base directory is found out first and the files are
loaded after that; what a fault leaves undone is not entered.
-/

namespace ExtensionAudit.Package

/-- Loads the package below a root, whose base directory is the one that holds the manifest. -/
def loadInto (tree : FileTree) (manifest : String) (root : Path) :
    ExceptT SetupFault (StateM Report) Contents := do
  let base ← MonadExcept.ofExcept (baseDirectory tree manifest root)
  let contents ← MonadExcept.ofExcept ((load tree root base).mapError .search)
  modify fun report => report.enterAll (contents.effects.map .effect)
  return contents

end ExtensionAudit.Package
