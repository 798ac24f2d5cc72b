import ExtensionAudit.Rule.Context
import ExtensionAudit.Setup

/-!
The registry of rules: factories under the names by which the rules are known, in the order of
registration. From it the rules of a check are made, leaving out those that are disabled.
-/

namespace ExtensionAudit

/-- What a rule must be able to do or tell. -/
inductive RuleMember where
  | name
  | wantsDirectory
  | wantsFile
  | wantsLine
  | validateDirectory
  | validateFile
  | validateLine
  deriving DecidableEq, Repr

def RuleMember.all : List RuleMember :=
  [.name, .wantsDirectory, .wantsFile, .wantsLine, .validateDirectory, .validateFile, .validateLine]

/-- What a factory made: an object that may lack members of the contract, and that is asked what it
wants to see before it is used. To answer may fail. -/
structure Candidate (σ : Type) where
  lacks : List RuleMember := []
  wantsDirectory : Except Raised Bool
  wantsFile : FileType → Except Raised Bool
  wantsLine : FileType → Except Raised Bool
  check : Subject → σ → Outcome × σ

/-- The object that answers as the capabilities of a rule say. -/
def Candidate.ofRule {σ : Type} (rule : Rule σ) : Candidate σ where
  wantsDirectory := .ok rule.capabilities.directory
  wantsFile type := .ok (rule.capabilities.fileTypes.contains type)
  wantsLine type := .ok (rule.capabilities.lineTypes.contains type)
  check := rule.check

/-- The types for which a question is answered with yes. The first one for which it is not answered
is the last one that it is asked for. -/
def wantedAmong (wants : FileType → Except Raised Bool) :
    List FileType → Except Raised (List FileType)
  | [] => .ok []
  | type :: rest => do
    let wanted ← wants type
    let later ← wantedAmong wants rest
    return if wanted then type :: later else later

/-- The answers of an object that is asked once for the listing and once for each type of file, for
files and then for lines. -/
def Capabilities.probe {σ : Type} (candidate : Candidate σ) : Except Raised Capabilities := do
  let directory ← candidate.wantsDirectory
  let fileTypes ← wantedAmong candidate.wantsFile FileType.all
  let lineTypes ← wantedAmong candidate.wantsLine FileType.all
  return { directory, fileTypes, lineTypes }

abbrev RuleFactory (σ : Type) := RuleContext → Except Raised (Candidate σ)

/-- Factories under the identifiers of their rules, in the order of registration. -/
structure Registry (σ : Type) where
  factories : List (String × RuleFactory σ) := []

namespace Registry

variable {σ : Type}

def identifiers (registry : Registry σ) : List String := registry.factories.map (·.1)

def contains (registry : Registry σ) (identifier : String) : Bool :=
  registry.identifiers.contains identifier

/-- Registers a factory; what cannot be called is none. -/
def register (registry : Registry σ) (identifier : String) (factory : Option (RuleFactory σ)) :
    Except RuleSetFault (Registry σ) :=
  match factory with
  | none => .error (.factoryNotCallable identifier)
  | some factory =>
    if registry.contains identifier then .error (.registeredTwice identifier)
    else .ok ⟨registry.factories ++ [(identifier, factory)]⟩

/-- The disabled identifiers that are not registered, sorted, each once. -/
def unknownIn (registry : Registry σ) (disabled : List String) : List String :=
  (Settings.sorted (disabled.filter fun identifier => !registry.contains identifier)).eraseDups

/-- Takes what a factory made as the rule with the identifier, unless it lacks a member of the
contract. Its answers are written down, after which it is not asked again. -/
def accept (context : RuleContext) (identifier : String) (candidate : Candidate σ) :
    Setup (NamedRule σ) := do
  if !candidate.lacks.isEmpty then throw (.rules (.incomplete identifier))
  let capabilities ← Setup.lift .escaped (Capabilities.probe candidate)
  if capabilities.isEmpty then
    Setup.log .warning ("Rule " ++ identifier ++
      " does not ask for any directory, file or line checks")
  Setup.trace context.debug ("Loaded rule " ++ identifier)
  return ⟨identifier, capabilities, candidate.check⟩

/-- Makes the rules that are not disabled, in order. All that is done with a factory is to call it,
and how that is done is left open. -/
def makeAllBy {φ : Type} (call : String × φ → Setup (Candidate σ)) (context : RuleContext) :
    List (String × φ) → Setup (List (NamedRule σ))
  | [] => pure []
  | entry :: rest => do
    if context.settings.disabledRules.contains entry.1 then
      Setup.trace context.debug ("Skipping disabled rule " ++ entry.1)
      makeAllBy call context rest
    else
      let candidate ← call entry
      let rule ← accept context entry.1 candidate
      let later ← makeAllBy call context rest
      return rule :: later

/-- Makes the rules of a check, the factories being called in the given way. Only registered rules
can be disabled. -/
def instantiateBy (call : String × RuleFactory σ → Setup (Candidate σ)) (registry : Registry σ)
    (context : RuleContext) : Setup (List (NamedRule σ)) := do
  let unknown := registry.unknownIn context.settings.disabledRules
  if !unknown.isEmpty then throw (.rules (.unknownIdentifiers unknown))
  makeAllBy call context registry.factories

/-- Calls a factory. If it fails, so does the set-up. -/
def callFactory (context : RuleContext) (entry : String × RuleFactory σ) : Setup (Candidate σ) :=
  Setup.lift .escaped (entry.2 context)

def makeAll (context : RuleContext) (factories : List (String × RuleFactory σ)) :
    Setup (List (NamedRule σ)) :=
  makeAllBy (callFactory context) context factories

def instantiate (registry : Registry σ) (context : RuleContext) : Setup (List (NamedRule σ)) :=
  registry.instantiateBy (callFactory context) context

end Registry

end ExtensionAudit
