import ExtensionAudit.Log
import ExtensionAudit.Number.Numeral
import ExtensionAudit.Severity

/-!
The report of a run: its messages in the order in which they came, a tally of them by severity, and
the progress, that is how many units of work were announced and how many were done. The tally is
kept as messages come; that it agrees with the messages is a fact about every report that is built
by the operations here.
-/

namespace ExtensionAudit

structure Message where
  severity : Severity
  text : String
  deriving DecidableEq, Repr

/-- How many messages there are of each severity. -/
structure Tally where
  fatal : Nat := 0
  error : Nat := 0
  warning : Nat := 0
  notice : Nat := 0
  deriving DecidableEq, Repr

namespace Tally

def increment (tally : Tally) : Severity → Tally
  | .fatal => { tally with fatal := tally.fatal + 1 }
  | .error => { tally with error := tally.error + 1 }
  | .warning => { tally with warning := tally.warning + 1 }
  | .notice => { tally with notice := tally.notice + 1 }

def count (tally : Tally) : Severity → Nat
  | .fatal => tally.fatal
  | .error => tally.error
  | .warning => tally.warning
  | .notice => tally.notice

/-- The severities with their counts, the most urgent one first. -/
def rows (tally : Tally) : List (Severity × Nat) :=
  Severity.all.map fun severity => (severity, tally.count severity)

def total (tally : Tally) : Nat :=
  Severity.all.foldr (fun severity n => tally.count severity + n) 0

/-- A message adds one to the count of its severity and nothing to the others. -/
theorem count_increment (tally : Tally) (added asked : Severity) :
    (tally.increment added).count asked = tally.count asked + if added = asked then 1 else 0 := by
  cases added <;> cases asked <;> simp [increment, count]

end Tally

/-- The units of work announced, and those done. -/
structure Progress where
  total : Nat := 0
  current : Nat := 0
  deriving DecidableEq, Repr

/-- The report of a run. -/
structure Report where
  tally : Tally := {}
  progress : Progress := {}
  messages : List Message := []
  deriving DecidableEq, Repr

namespace Report

/-- Adds a message, which is also a unit of work done. -/
def add (report : Report) (message : Message) : Report where
  tally := report.tally.increment message.severity
  progress := { report.progress with current := report.progress.current + 1 }
  messages := report.messages ++ [message]

/-- Announces units of work. A negative amount is refused and given back. -/
def declare (report : Report) (units : Int) : Except Int Report :=
  if units < 0 then .error units
  else .ok { report with
    progress := { report.progress with total := report.progress.total + units.toNat } }

def pass (report : Report) : Report :=
  { report with progress := { report.progress with current := report.progress.current + 1 } }

def passed (report : Report) : Bool := report.tally.fatal == 0 && report.tally.error == 0

def passThroughs (report : Report) : Int := report.progress.current - report.messages.length

def messagesOf (report : Report) (severity : Severity) : List Message :=
  report.messages.filter (·.severity == severity)

/-- What the messages ask of the exit code: the most that one of them does, zero without any. -/
def exitCode (report : Report) : Nat :=
  report.messages.foldl (fun code message => max code message.severity.exitPriority) 0

/-- The front of a list up to a limit. A negative limit leaves out that many at the end; without a
limit the list is whole. -/
def upTo (limit : Option Int) (messages : List Message) : List Message :=
  match limit with
  | none => messages
  | some n => if n ≥ 0 then messages.take n.toNat else messages.take (messages.length - n.natAbs)

/-- The messages in order of urgency, those of one severity in the order in which they came. -/
def byUrgency (report : Report) : List Message :=
  report.messages.mergeSort fun a b => b.severity.rank ≤ a.severity.rank

def top (report : Report) (limit : Option Int) : List Message := upTo limit report.byUrgency

end Report

/-- What is said of a negative amount. One with too many digits cannot be named. -/
def negativeProgressMessage (units : Int) : String :=
  if Numeral.isWritable units then
    "Cannot declare a negative amount of progress: " ++ toString units
  else Numeral.unwritableMessage

end ExtensionAudit
