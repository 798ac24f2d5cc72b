import ExtensionAudit.FileTree.Glob
import ExtensionAudit.Log
import ExtensionAudit.Rule.Basic
import ExtensionAudit.Settings.Basic
import ExtensionAudit.Yaml.Fault

/-!
The setting up of a check: computations that write a log and may end with a fault, after which the
check does not take place. What was logged before the fault stays.
-/

namespace ExtensionAudit

/-- What is wrong with a package as a whole. -/
inductive PackageFault where
  | missing (root : Path)
  | withoutManifest (manifest : String) (root : Path)
  | severalManifests (manifest : String) (root : Path) (found : List String)
  deriving DecidableEq, Repr

def PackageFault.message : PackageFault → String
  | .missing root => "Package directory does not exist: " ++ root.text
  | .withoutManifest manifest root => "Can't find required " ++ manifest ++ " in " ++ root.text
  | .severalManifests manifest root found =>
    "Found more than one " ++ manifest ++ " in " ++ root.text ++ ": " ++
      String.intercalate ", " found

/-- What is wrong with a settings file as a whole. -/
inductive SettingsFileFault where
  | missing (path : Path)
  | unreadable (path : Path)
  | notMapping (path : Path)
  deriving DecidableEq, Repr

def SettingsFileFault.message : SettingsFileFault → String
  | .missing path => "Configuration file not found: " ++ path.text
  | .unreadable path => "Unable to read configuration " ++ path.text
  | .notMapping path => "Configuration at " ++ path.text ++ " is not a mapping"

/-- Why a check cannot take place. -/
inductive SetupFault where
  | package (fault : PackageFault)
  | rules (fault : RuleSetFault)
  | settings (fault : SettingsFault)
  | settingsFile (fault : SettingsFileFault)
  | scalar (fault : Yaml.ScalarFault)
  | search (fault : SearchFault)
  /-- What a module or an object of a rule package, or a rule in a run, raises and nobody handles.
  -/
  | escaped (raised : Raised)
  deriving DecidableEq, Repr

namespace SetupFault

def message : SetupFault → String
  | .package fault => fault.message
  | .rules fault => fault.message
  | .settings fault => fault.message
  | .settingsFile fault => fault.message
  | .scalar fault => fault.message
  | .search (.pattern fault) => fault.message
  | .search (.path fault) => fault.message
  | .escaped raised => raised.traceText

/-- Whether the fault is one of the configuration, which users are told of without further ado. The
others end a run unexpectedly. -/
def isConfiguration : SetupFault → Bool
  | .package _ | .rules _ | .settingsFile _ => true
  | .settings fault => fault.isConfiguration
  | .escaped (.told failure) => failure.kind == "ConfigurationError"
  | .escaped (.untold _ _ _) | .scalar _ | .search _ => false

end SetupFault

abbrev Setup := ExceptT SetupFault (StateM Log)

namespace Setup

def log (level : LogLevel) (text : String) : Setup Unit := modify (·.push ⟨level, text⟩)

def trace (debug : Bool) (text : String) : Setup Unit := if debug then log .debug text else pure ()

/-- The result of a computation that may end with a fault of another kind. -/
def lift {ε α : Type} (wrap : ε → SetupFault) : Except ε α → Setup α
  | .ok a => pure a
  | .error fault => throw (wrap fault)

def need {α : Type} (result : Except SetupFault α) : Setup α := lift id result

def execute {α : Type} (setup : Setup α) : Except SetupFault α × Log := (ExceptT.run setup).run #[]

end Setup

end ExtensionAudit
