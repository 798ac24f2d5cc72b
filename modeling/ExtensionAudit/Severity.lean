import ExtensionAudit.Text.Blank
import ExtensionAudit.Text.Case
import ExtensionAudit.Text.Quoted

/-!
The severity of a message: how urgent a finding is and what it means for the outcome of a run.
-/

namespace ExtensionAudit

/-- How urgent a finding is. -/
inductive Severity where
  | notice
  | warning
  | error
  | fatal
  deriving DecidableEq, Repr

namespace Severity

def all : List Severity := [.fatal, .error, .warning, .notice]

def name : Severity → String
  | .notice => "NOTICE"
  | .warning => "WARNING"
  | .error => "ERROR"
  | .fatal => "FATAL"

/-- The place of a severity among the others, zero for the least urgent one. -/
def rank : Severity → Nat
  | .notice => 0
  | .warning => 1
  | .error => 2
  | .fatal => 3

/-- What a message of the severity asks of the exit code of a run. -/
def exitPriority : Severity → Nat
  | .notice => 0
  | .warning => 1
  | .error => 2
  | .fatal => 2

def ofName? (name : String) : Option Severity := all.find? (·.name == name)

/-- A text as it is compared with the names: without blanks around it, in upper case. -/
def normalised (text : String) : String := Text.upper (String.ofList (Text.trim text.toList))

/-- The severity that a text names, or the normalised text that names none. -/
def parse (text : String) : Except String Severity :=
  match ofName? (normalised text) with
  | some severity => .ok severity
  | none => .error (normalised text)

def unknownMessage (text : String) : String := Text.quoted text ++ " is not a valid Severity"

theorem mem_all (severity : Severity) : severity ∈ all := by cases severity <;> simp [all]

theorem ofName?_name (severity : Severity) : ofName? severity.name = some severity := by
  cases severity <;> decide

end Severity

end ExtensionAudit
