import ExtensionAudit.Report.Basic
import ExtensionAudit.SourceFile

/-!
Rules. A rule says once what it wants to see, and is then called with one subject at a time: the
listing of the whole package, a file, or a line. A call has effects on the report, in order, and may
fail at any point; what it did before it failed stands. Rules may share a state, which is all that
one call can know of others.
-/

namespace ExtensionAudit

/-- What a rule wants to see. -/
structure Capabilities where
  directory : Bool := false
  fileTypes : List FileType := []
  lineTypes : List FileType := []
  deriving DecidableEq, Repr

def Capabilities.isEmpty (capabilities : Capabilities) : Bool :=
  !capabilities.directory && capabilities.fileTypes.isEmpty && capabilities.lineTypes.isEmpty

/-- What a rule is called with. -/
inductive Subject where
  | directory (listing : List String)
  | file (source : SourceFile)
  | line (source : SourceLine)
  deriving DecidableEq, Repr

def Subject.target : Subject → String
  | .directory _ => "directory listing"
  | .file source => source.relativePath
  | .line source => source.location

/-- What a rule does to the report, or tells whoever follows its work. -/
inductive Effect where
  | message (severity : Severity) (text : String)
  | declare (units : Int)
  | pass
  | trace (text : String)
  deriving DecidableEq, Repr

/-- A place of the program, as a trace names it: a file below the program's directory, a line and a
function of it, and what is shown of that line. -/
structure TracePlace where
  file : String
  line : Nat
  function : String
  shown : List String
  deriving DecidableEq, Repr

/-- The lines of a trace that name the place, the program lying in a directory. -/
def TracePlace.lines (home : String) (place : TracePlace) : List String :=
  ("  File \"" ++ home ++ "/" ++ place.file ++ "\", line " ++ toString place.line ++ ", in " ++
    place.function) :: place.shown

/-- A failure that can be told: its class, its text, and the places that a trace of it names. -/
structure Failure where
  kind : String
  text : String
  places : List TracePlace := []
  deriving DecidableEq, Repr

/-- What a call raises. Making its text may fail in turn; then it cannot be told, and whoever tries
is left with what the attempt raises instead. -/
inductive Raised where
  | told (failure : Failure)
  | untold (kind : String) (places : List TracePlace) (instead : Raised)
  deriving DecidableEq, Repr

namespace Raised

/-- What a trace shows where the text cannot be made. -/
def untoldText : String := "<exception str() failed>"

def traceText : Raised → String
  | .told failure => failure.text
  | .untold _ _ _ => untoldText

/-- What the attempt to tell it raises instead, if it cannot be told. -/
def instead? : Raised → Option Raised
  | .told _ => none
  | .untold _ _ instead => some instead

end Raised

/-- What a call of a rule did, and what it raised in the end, if it did not return. -/
structure Outcome where
  effects : List Effect := []
  failure : Option Raised := none
  deriving DecidableEq, Repr

/-- The outcome of one call after another, the second one taking place only if the first one did
not fail. -/
def Outcome.andThen (first : Outcome) (second : Outcome) : Outcome :=
  match first.failure with
  | some _ => first
  | none => { second with effects := first.effects ++ second.effects }

/-- A rule, as a function of its subject and of the state that rules share, with the answers that it
gave when it was asked what it wants to see. -/
structure Rule (σ : Type) where
  capabilities : Capabilities
  check : Subject → σ → Outcome × σ

/-- A rule that neither knows nor changes the shared state. -/
def Rule.stateless {σ : Type} (capabilities : Capabilities) (check : Subject → Outcome) :
    Rule σ where
  capabilities := capabilities
  check subject state := (check subject, state)

/-- A rule under the name by which it is known. -/
structure NamedRule (σ : Type) where
  identifier : String
  rule : Rule σ

def Failure.negativeProgress (units : Int) : Failure where
  kind := "ValueError"
  text := negativeProgressMessage units

/-- The effects that the report accepts, and the failure in which they end: a refused announcement
ends the call where it stands. -/
def Outcome.settle (failure : Option Raised) : List Effect → List Effect × Option Raised
  | [] => ([], failure)
  | .declare units :: rest =>
    if units < 0 then ([], some (.told (.negativeProgress units)))
    else
      let later := settle failure rest
      (.declare units :: later.1, later.2)
  | effect :: rest =>
    let later := settle failure rest
    (effect :: later.1, later.2)

/-- Why a set of rules cannot be used. -/
inductive RuleSetFault where
  | empty
  | unknownIdentifiers (identifiers : List String)
  | incomplete (identifier : String)
  | factoryNotCallable (identifier : String)
  | registeredTwice (identifier : String)
  | moduleNotLoaded (name : String) (failure : Failure)
  | moduleWithoutFactory (name : String)
  deriving DecidableEq, Repr

def RuleSetFault.message : RuleSetFault → String
  | .empty => "No rules loaded; nothing to validate"
  | .unknownIdentifiers identifiers =>
    "Cannot disable unknown rules: " ++ String.intercalate ", " identifiers
  | .incomplete identifier =>
    identifier ++ " doesn't implement the rule interface, but matches the rule naming convention"
  | .factoryNotCallable identifier =>
    "Rule " ++ identifier ++ " does not provide a callable factory"
  | .registeredTwice identifier => "Rule " ++ identifier ++ " is registered twice"
  | .moduleNotLoaded name failure =>
    "Rule module " ++ name ++ " could not be loaded: " ++ failure.kind ++ ": " ++ failure.text
  | .moduleWithoutFactory name =>
    name ++ " matches the rule naming convention but has no get_rule()"

end ExtensionAudit
