import ExtensionAudit.FileTree.Basic
import ExtensionAudit.Settings.Basic

/-!
What a rule is told when it is made: where the package lies, the name under which it is published,
and the settings of the check.
-/

namespace ExtensionAudit

/-- The circumstances of a check. -/
structure RuleContext where
  debug : Bool := false
  tree : FileTree := {}
  baseDirectory : Path := .here
  packageName : String := ""
  settings : Settings := {}

/-- The prefix that the events of a package carry: its name with dots for slashes. -/
def RuleContext.eventPrefix (context : RuleContext) : String :=
  String.ofList (context.packageName.toList.map fun c => if c == '/' then '.' else c)

end ExtensionAudit
