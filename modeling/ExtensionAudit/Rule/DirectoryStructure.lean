import ExtensionAudit.Rule.Basic
import ExtensionAudit.Rule.Context

/-!
The rule that the files which every package must ship lie in its base directory. Names are compared
ignoring case.
-/

namespace ExtensionAudit.DirectoryStructure

/-- The check of one required file against the lower-case listing. -/
def checkFile (present : List String) (name : String) : Effect :=
  if present.contains (Text.lower name) then .pass
  else .message .error ("Missing required file " ++ name ++ " in the extension root")

def check (settings : Settings) (listing : List String) : Outcome where
  effects :=
    let present := listing.map Text.lower
    .declare settings.requiredFiles.length :: settings.requiredFiles.map (checkFile present)

def rule {σ : Type} (context : RuleContext) : Rule σ :=
  .stateless { directory := true } fun
    | .directory listing => check context.settings listing
    | _ => {}

end ExtensionAudit.DirectoryStructure
