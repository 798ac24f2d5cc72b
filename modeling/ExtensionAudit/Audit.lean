import ExtensionAudit.Rule.Basic

/-!
The run of rules over a package. First every rule that wants the listing gets it; then, file by
file, every rule that wants files of its type gets the file, and line by line every rule that wants
lines of that type gets the line. A failing call stops nothing as long as its failure can be told:
it becomes a fatal message. A failure that cannot be told breaks the run off, and what the attempt
to tell it raised comes out of the run instead.
-/

namespace ExtensionAudit

/-- One thing that a run enters into the report and the log. -/
inductive RunEvent where
  | effect (effect : Effect)
  | failed (identifier target : String) (failure : Failure)
  /-- A failure that is logged and not reported, as it cannot be told. -/
  | untold (identifier target kind : String) (places : List TracePlace)
  deriving DecidableEq, Repr

def failureMessage (identifier target : String) (failure : Failure) : String :=
  "Rule " ++ identifier ++ " failed on " ++ target ++ ": " ++ failure.kind ++ ": " ++ failure.text

/-- The place from which every rule is called. -/
def callPlace : TracePlace where
  file := "orchestrator.py"
  line := 79
  function := "_invoke"
  shown := ["    check(subject)"]

/-- The trace of a failure of a class and with a text, the program lying in a directory. -/
def failureTrace (home identifier target kind text : String) (places : List TracePlace) : String :=
  String.intercalate "\n" <|
    ["Rule " ++ identifier ++ " failed on " ++ target, "Traceback (most recent call last):"] ++
      (callPlace :: places).flatMap (TracePlace.lines home) ++
      [if text.isEmpty then kind else kind ++ ": " ++ text]

namespace RunEvent

def enter (report : Report) : RunEvent → Report
  | .effect (.message severity text) => report.add ⟨severity, text⟩
  | .effect (.declare units) =>
    match report.declare units with
    | .ok report => report
    | .error _ => report
  | .effect .pass => report.pass
  | .effect (.trace _) => report
  | .failed identifier target failure =>
    report.add ⟨.fatal, failureMessage identifier target failure⟩
  | .untold _ _ _ _ => report

def messageLine (severity : Severity) (text : String) : LogLine :=
  ⟨.debug, severity.name ++ " " ++ text⟩

/-- The log lines of the event, the program lying in a directory. Traces are kept only if someone
follows the work. -/
def logLines (home : String) (debug : Bool) : RunEvent → List LogLine
  | .effect (.message severity text) => [messageLine severity text]
  | .effect (.trace text) => if debug then [⟨.debug, text⟩] else []
  | .effect _ => []
  | .failed identifier target failure =>
    [⟨.debug, failureTrace home identifier target failure.kind failure.text failure.places⟩,
      messageLine .fatal (failureMessage identifier target failure)]
  | .untold identifier target kind places =>
    [⟨.debug, failureTrace home identifier target kind Raised.untoldText places⟩]

end RunEvent

def Report.enterAll (report : Report) (events : List RunEvent) : Report :=
  events.foldl RunEvent.enter report

/-- How far a run has come: what it entered, the state that the rules are in, and what broke it off,
if anything did. -/
structure Stretch (σ : Type) where
  events : List RunEvent
  state : σ
  broken : Option Raised := none

/-- A stretch and what follows it, unless the run was broken off before. -/
def Stretch.andThen {σ : Type} (first : Stretch σ) (next : σ → Stretch σ) : Stretch σ :=
  match first.broken with
  | some _ => first
  | none =>
    let later := next first.state
    { later with events := first.events ++ later.events }

/-- How a run ends that does not come to its end. -/
inductive RunFault (σ : Type) where
  | rules (fault : RuleSetFault)
  | brokenOff (events : List RunEvent) (state : σ) (raised : Raised)

/-- What comes of a stretch that nothing follows. -/
def Stretch.close {σ : Type} (whole : Stretch σ) : Except (RunFault σ) (List RunEvent × σ) :=
  match whole.broken with
  | some raised => .error (.brokenOff whole.events whole.state raised)
  | none => .ok (whole.events, whole.state)

namespace Audit

variable {σ : Type}

/-- What a call enters about what it raised, if it raised anything. -/
def failureEvents (identifier target : String) : Option Raised → List RunEvent
  | none => []
  | some (.told failure) => [.failed identifier target failure]
  | some (.untold kind places _) => [.untold identifier target kind places]

def call (entry : NamedRule σ) (subject : Subject) (state : σ) : Stretch σ :=
  let (outcome, state) := entry.rule.check subject state
  let (effects, failure) := Outcome.settle outcome.failure outcome.effects
  { events := effects.map .effect ++ failureEvents entry.identifier subject.target failure
    state
    broken := failure.bind Raised.instead? }

def callAll (subject : Subject) : List (NamedRule σ) → σ → Stretch σ
  | [], state => ⟨[], state, none⟩
  | entry :: rest, state => (call entry subject state).andThen (callAll subject rest)

/-- Calls the rules that want lines with each of the lines. -/
def checkLines (rules : List (NamedRule σ)) : List SourceLine → σ → Stretch σ
  | [], state => ⟨[], state, none⟩
  | line :: rest, state => (callAll (.line line) rules state).andThen (checkLines rules rest)

def wantingDirectory (rules : List (NamedRule σ)) : List (NamedRule σ) :=
  rules.filter (·.rule.capabilities.directory)

def wantingFile (fileType : FileType) (rules : List (NamedRule σ)) : List (NamedRule σ) :=
  rules.filter (·.rule.capabilities.fileTypes.contains fileType)

/-- The rules that want lines of files of a type. -/
def wantingLine (fileType : FileType) (rules : List (NamedRule σ)) : List (NamedRule σ) :=
  rules.filter (·.rule.capabilities.lineTypes.contains fileType)

/-- Applies the rules to a file and its lines. -/
def checkFile (rules : List (NamedRule σ)) (file : SourceFile) (state : σ) : Stretch σ :=
  (callAll (.file file) (wantingFile file.fileType rules) state).andThen
    (checkLines (wantingLine file.fileType rules) file.numberedLines)

def checkFiles (rules : List (NamedRule σ)) : List SourceFile → σ → Stretch σ
  | [], state => ⟨[], state, none⟩
  | file :: rest, state => (checkFile rules file state).andThen (checkFiles rules rest)

/-- Applies the rules to the listing and then to the files. -/
def runAll (rules : List (NamedRule σ)) (files : List SourceFile) (listing : List String)
    (state : σ) : Stretch σ :=
  (callAll (.directory listing) (wantingDirectory rules) state).andThen (checkFiles rules files)

/-- Applies rules to a package. Without any rule there is nothing to do, which is a fault. -/
def run (rules : List (NamedRule σ)) (files : List SourceFile) (listing : List String) (state : σ) :
    Except (RunFault σ) (List RunEvent × σ) :=
  if rules.isEmpty then .error (.rules .empty)
  else
    let start : Stretch σ := ⟨[.effect (.trace "Running rules")], state, none⟩
    (start.andThen (runAll rules files listing)).close

end Audit

end ExtensionAudit
