import ExtensionAudit.Registry.Discovery
import ExtensionAudit.Rule.DirectoryStructure
import ExtensionAudit.Rule.EventNames
import ExtensionAudit.Rule.ForbiddenCalls
import ExtensionAudit.Rule.PhpTags

/-!
The rules that come with the program.
-/

namespace ExtensionAudit

def RuleModule.ofRule {σ : Type} (name : String) (rule : RuleContext → Rule σ) : RuleModule σ where
  name := name
  load := .ok (.factory fun context => .ok (.ofRule (rule context)))

def RulePackage.builtIn {σ : Type} : RulePackage σ where
  name := "extcheck.rules"
  modules := [
    .ofRule "check_directory_structure" DirectoryStructure.rule,
    .ofRule "check_event_names" EventNames.rule,
    .ofRule "check_php_functions" ForbiddenCalls.rule,
    .ofRule "check_php_header" fun _ => PhpTags.rule]

end ExtensionAudit
