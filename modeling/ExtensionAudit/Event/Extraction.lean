import ExtensionAudit.Php.Listing
import ExtensionAudit.Php.Literal
import ExtensionAudit.Text.Blank
import ExtensionAudit.Text.Case

/-!
Event declarations of a PHP text. An event is declared by calling an event dispatcher with its name,
a string literal, as first argument. The board's own dispatcher must be called so; a call of another
dispatcher that is written differently declares nothing. The search ends at the first place where
the text breaks a rule, and a policy decides what becomes of the events found until then.
-/

namespace ExtensionAudit.Event

open ExtensionAudit.Php

/-- What becomes of the events found in a file before its search failed. -/
inductive PartialPolicy where
  | discard
  | keep
  deriving DecidableEq, Repr

def PartialPolicy.name : PartialPolicy → String
  | .discard => "discard"
  | .keep => "keep"

/-- The policies, in the order in which they are listed to users. -/
def PartialPolicy.all : List PartialPolicy := [.discard, .keep]

def PartialPolicy.ofName? (name : String) : Option PartialPolicy :=
  PartialPolicy.all.find? (·.name == name)

/-- One declared event: its name, the file, the trimmed line that declares it and that line's
number. -/
structure Declaration where
  name : String
  file : String
  text : String
  line : Nat
  deriving DecidableEq, Repr

/-- Whether the event's name begins with the given text, ignoring case. -/
def nameHasPrefix (name start : String) : Bool :=
  (Text.lower start).toList.isPrefixOf (Text.lower name).toList

/-- Why a file yields no complete set of events. -/
inductive Cause where
  | lexical (fault : LexicalFault)
  | nameNotLiteral
  | nameInterpolated
  | nameBlank
  | unreadable (reason : String)
  deriving DecidableEq, Repr

def Cause.message : Cause → String
  | .lexical .unterminatedComment => "Unterminated comment"
  | .lexical .unterminatedLiteral => "Unterminated string literal"
  | .lexical (.unterminatedHeredoc label) => "Unterminated heredoc " ++ String.ofList label
  | .nameNotLiteral => "Event name must be a literal string in dispatcher call"
  | .nameInterpolated => "Event name must not contain variables"
  | .nameBlank => "Event name must not be empty"
  | .unreadable reason => "Unable to read file: " ++ reason

/-- A failed search: its cause, the file, and the line where the search ended, if one is known. -/
structure Fault where
  cause : Cause
  path : String
  line : Option Nat
  deriving DecidableEq, Repr

/-- The fault as it is reported, with its place in front. -/
def Fault.text (fault : Fault) : String :=
  let place := if fault.path.isEmpty then "<source>" else fault.path
  let place := match fault.line with
    | some line => place ++ ":" ++ toString line
    | none => place
  place ++ ": " ++ fault.cause.message

/-- The outcome of the search in one file. -/
structure Extraction where
  path : String
  events : List Declaration
  fault : Option Fault
  deriving DecidableEq, Repr

def Extraction.isComplete (extraction : Extraction) : Bool := extraction.fault.isNone

/-- The name that a dispatcher call gives, or why it gives none. -/
def declaredName (call : Call) : Except Cause String :=
  match call.argument with
  | none => .error .nameNotLiteral
  | some (_, literal) =>
    if literal.isInterpolated then .error .nameInterpolated
    else if Text.isAllBlank literal.value then .error .nameBlank
    else .ok (String.ofList literal.value)

def declarationAt (path : String) (site : Site) (name : String) : Declaration where
  name := name
  file := path
  text := String.ofList (Text.trim site.lineText)
  line := site.line

/-- The events among the tokens, and the first broken rule: that of a call of the board's own
dispatcher without a proper name, or else the fault at which the tokens end. -/
def declarations (path : String) (fault : Option Fault) :
    List (Site × Token) → List Declaration × Option Fault
  | [] => ([], fault)
  | (site, .call call) :: rest =>
    match declaredName call with
    | .ok name =>
      let later := declarations path fault rest
      (declarationAt path site name :: later.1, later.2)
    | .error cause =>
      if call.official then ([], some ⟨cause, path, some site.line⟩)
      else declarations path fault rest
  | _ :: rest => declarations path fault rest

def extract (policy : PartialPolicy) (text path : String) : Extraction :=
  let listing := listing text.toList
  let lexical := listing.fault.map fun (site, fault) =>
    (⟨.lexical fault, path, some site.line⟩ : Fault)
  match declarations path lexical listing.tokens with
  | (events, none) => ⟨path, events, none⟩
  | (events, some fault) =>
    match policy with
    | .keep => ⟨path, events, some fault⟩
    | .discard => ⟨path, [], some fault⟩

def allEvents (extractions : List Extraction) : List Declaration :=
  extractions.flatMap (·.events)

end ExtensionAudit.Event
