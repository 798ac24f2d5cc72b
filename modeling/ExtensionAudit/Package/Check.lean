import ExtensionAudit.Audit
import ExtensionAudit.Package.Contents
import ExtensionAudit.Package.Name
import ExtensionAudit.Registry.BuiltIn
import ExtensionAudit.Settings.File

/-!
The check of a package: settings, base directory and name are found out, the rules made, the files
loaded, and the rules applied to them. All that stands in the way of a check ends it with a fault;
whatever comes up after that is a message of the report, unless a rule raises what cannot be told.
-/

namespace ExtensionAudit.Package

/-- What is asked of a check: whether to trace it, the directory in which traces place the program,
the package's name, if it is not the declared one, and the settings, if they are not those of the
package's own file. -/
structure CheckRequest where
  debug : Bool := false
  home : String := ""
  name : Option String := none
  settings : Option Settings := none

def baseTrace (base : Path) (name : String) : String :=
  "Base directory " ++ base.text ++ ", namespace " ++ (if name.isEmpty then "<none>" else name)

def settingsOf (tree : FileTree) (root : Path) (request : CheckRequest) : Setup Settings := do
  match request.settings with
  | some settings => return settings
  | none => Settings.load tree none (← Settings.rootIfDirectory tree root)

def contextOf (tree : FileTree) (root : Path) (request : CheckRequest) : Setup RuleContext := do
  let settings ← settingsOf tree root request
  let base ← Setup.need (baseDirectory tree settings.manifest root)
  let name ← match request.name with
    | some name => pure name
    | none => name tree base settings.composerFile
  Setup.trace request.debug (baseTrace base name)
  return { debug := request.debug, tree, baseDirectory := base, packageName := name, settings }

/-- The rules of a package of rules, of which there is at least one. -/
def rulesFor {σ : Type} (context : RuleContext) (package : RulePackage σ) :
    Setup (List (NamedRule σ)) := do
  let rules ← (← package.discover).instantiate context
  if rules.isEmpty then throw (.rules .empty)
  return rules

/-- What a check enters into the report and the log, and what breaks it off, if anything does. -/
def checkEvents {σ : Type} (context : RuleContext) (rules : List (NamedRule σ)) (root : Path)
    (state : σ) : Except SetupFault (List RunEvent × Option Raised) := do
  let contents ← (load context.tree root context.baseDirectory).mapError .search
  let loading := contents.effects.map .effect
  match Audit.run rules contents.files contents.listing state with
  | .ok (events, _) => return (loading ++ events, none)
  | .error (.brokenOff events _ raised) => return (loading ++ events, some raised)
  | .error (.rules fault) => throw (.rules fault)

/-- The report of events that nothing broke off. -/
def reportOn (events : List RunEvent) : Option Raised → Except SetupFault Report
  | none => .ok (({} : Report).enterAll events)
  | some raised => .error (.escaped raised)

/-- Checks the package below a root with the rules of a package of rules. -/
def checkWith {σ : Type} (package : RulePackage σ) (state : σ) (tree : FileTree) (root : Path)
    (request : CheckRequest) : Setup Report := do
  let context ← contextOf tree root request
  let rules ← rulesFor context package
  let (events, broken) ← Setup.need (checkEvents context rules root state)
  modify fun log => log ++ (events.flatMap (·.logLines request.home request.debug)).toArray
  Setup.need (reportOn events broken)

/-- Checks the package below a root with the built-in rules. -/
def check (tree : FileTree) (root : Path) (request : CheckRequest) : Setup Report :=
  checkWith RulePackage.builtIn () tree root request

end ExtensionAudit.Package
