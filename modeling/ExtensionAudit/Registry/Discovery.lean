import ExtensionAudit.Registry.Basic

/-!
Discovery: the registry of a package of rules. Each module whose name carries the mark of rules
offers one factory; the rest of the name is the rule's identifier. Modules are taken in the order of
their names, whatever order they are listed in.
-/

namespace ExtensionAudit

/-- What a module of a rule package gives under the name of the factory. -/
inductive Offer (σ : Type) where
  | nothing
  | notCallable
  | factory (make : RuleFactory σ)

/-- A module of a rule package. Loading it may fail. A module that leaves the program when it is
loaded, which is no failure, is not among these. -/
structure RuleModule (σ : Type) where
  name : String
  isPackage : Bool := false
  load : Except Raised (Offer σ)

structure RulePackage (σ : Type) where
  name : String
  modules : List (RuleModule σ)

/-- The mark in front of the names of rule modules. -/
def ruleMark : List Char := "check_".toList

namespace RulePackage

variable {σ : Type}

/-- Whether a module is taken for one that offers a rule. -/
def isRuleModule (module : RuleModule σ) : Bool :=
  !module.isPackage && ruleMark.isPrefixOf module.name.toList && !module.name.toList.contains '.'

/-- The modules that offer rules, in the order of their names. -/
def ruleModules (package : RulePackage σ) : List (RuleModule σ) :=
  (package.modules.filter isRuleModule).mergeSort fun a b => Settings.textOrder a.name b.name

def qualifiedName (package : RulePackage σ) (module : RuleModule σ) : String :=
  package.name ++ "." ++ module.name

def identifierOf (module : RuleModule σ) : String :=
  String.ofList (module.name.toList.drop ruleMark.length)

/-- The fault of a module that is not loaded, given what it raised. If that cannot be told, what the
attempt raises comes out instead. -/
def loadFault (package : RulePackage σ) (module : RuleModule σ) : Raised → SetupFault
  | .told failure => .rules (.moduleNotLoaded (package.qualifiedName module) failure)
  | .untold _ _ instead => .escaped instead

/-- Loads a module. If that fails, so does the set-up. -/
def loadModule (package : RulePackage σ) (module : RuleModule σ) : Setup (Offer σ) :=
  Setup.lift (package.loadFault module) module.load

/-- Registers the factories of modules, in order. Besides telling its name, all that is done with a
module is to load it, and how that is done is left open. -/
def registerAllBy (load : RuleModule σ → Setup (Offer σ)) (package : RulePackage σ)
    (registry : Registry σ) : List (RuleModule σ) → Setup (Registry σ)
  | [] => pure registry
  | module :: rest => do
    let name := package.qualifiedName module
    Setup.log .debug ("Got rule module " ++ name)
    let offer ← load module
    let factory ← match offer with
      | .nothing => throw (.rules (.moduleWithoutFactory name))
      | .notCallable => pure none
      | .factory make => pure (some make)
    let registry ← Setup.lift .rules (registry.register (identifierOf module) factory)
    registerAllBy load package registry rest

def registerAll (package : RulePackage σ) (registry : Registry σ) (modules : List (RuleModule σ)) :
    Setup (Registry σ) :=
  package.registerAllBy package.loadModule registry modules

/-- The registry of a package, its modules being loaded in the given way. -/
def discoverBy (load : RuleModule σ → Setup (Offer σ)) (package : RulePackage σ) :
    Setup (Registry σ) :=
  package.registerAllBy load {} package.ruleModules

def discover (package : RulePackage σ) : Setup (Registry σ) :=
  package.discoverBy package.loadModule

end RulePackage

end ExtensionAudit
