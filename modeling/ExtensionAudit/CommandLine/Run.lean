import ExtensionAudit.CommandLine.Arguments
import ExtensionAudit.Package.Check
import ExtensionAudit.Report.Table

/-!
A run of the program: from its arguments and the file tree to what it prints, how it ends, and the
file tree that it leaves behind. The table of the report is printed first; the JSON document follows
it or goes to a file.
-/

namespace ExtensionAudit.CommandLine

/-- How a run ends: with an exit code, or with a fault that nothing is prepared for. -/
inductive Ending where
  | exit (code : Nat)
  | setup (fault : SetupFault)
  | output (fault : PathFault)
  deriving DecidableEq, Repr

/-- What a run leaves behind. -/
structure Run where
  stdout : String := ""
  stderr : String := ""
  ending : Ending
  tree : FileTree

def usageExit : Nat := 2

/-- The exit code where the check could not be set up. -/
def configurationExit : Nat := 3

def printedLine (line : LogLine) : String :=
  "[extcheck] " ++ line.level.name ++ " " ++ line.text ++ "\n"

/-- The log as it is printed: traces only if they are asked for. -/
def printedLog (debug : Bool) (log : Log) : String :=
  String.join ((log.toList.filter fun line => debug || line.level == .warning).map printedLine)

/-- What a fault of the configuration prints. The reason why a settings file cannot be read is left
open, and with it the line. -/
def printedFault (fault : SetupFault) : String :=
  "Configuration error: " ++ fault.message ++
    (match fault with
      | .settingsFile (.unreadable _) => ""
      | _ => "\n")

/-- The check that the arguments ask for, the program lying in a directory. -/
def checkOf (home : String) (arguments : Arguments) (tree : FileTree) : Setup Report := do
  let root := Path.parse arguments.directory
  let path := (arguments.settings.filter (!·.isEmpty)).map Path.parse
  let settings ← Settings.load tree path (← Settings.rootIfDirectory tree root)
  Package.check tree root
    { debug := arguments.debug, home, name := arguments.packageName, settings := some settings }

def document (report : Report) : String := report.toJson.pretty 0

/-- Writes the JSON document of a report into a file, whose directory is made where it is missing.
The directories that were made stay if the file cannot be written. -/
def writeDocument (tree : FileTree) (path : Path) (report : Report) :
    FileTree × Option PathFault :=
  let directory := path.parent
  match tree.makeDirectories directory.slashes directory.parts.reverse with
  | (tree, some fault) => (tree, some fault)
  | (tree, none) =>
    match tree.write path (document report).toUTF8.toList with
    | .error fault => (tree, some fault)
    | .ok tree => (tree, none)

/-- What is printed when the document has been written into a file. -/
def writtenNote (report : Report) (out : String) : String :=
  "\n" ++ toString report.messages.length ++ " messages from " ++
    toString report.progress.current ++ " checks written to " ++ out ++ "\n"

/-- The output of a report behind what was printed to the error stream. -/
def present (arguments : Arguments) (tree : FileTree) (stderr : String) (report : Report) : Run :=
  let table := report.table Report.usualLimit ++ "\n"
  match arguments.out.filter (!·.isEmpty) with
  | none =>
    { stdout := table ++ "\nJSON Report\n" ++ document report ++ "\n", stderr, tree
      ending := .exit report.exitCode }
  | some out =>
    match writeDocument tree (Path.parse out) report with
    | (tree, none) =>
      { stdout := table ++ writtenNote report out, stderr, tree, ending := .exit report.exitCode }
    | (tree, some fault) => { stdout := table, stderr, tree, ending := .output fault }

def runWith (home : String) (arguments : Arguments) (tree : FileTree) : Run :=
  let (result, log) := (checkOf home arguments tree).execute
  let stderr := printedLog arguments.debug log
  match result with
  | .ok report => present arguments tree stderr report
  | .error fault =>
    if fault.isConfiguration then
      { stderr := stderr ++ printedFault fault, ending := .exit configurationExit, tree }
    else { stderr, ending := .setup fault, tree }

/-- A run of the program that lies in a directory. -/
def run (home : String) (commandLine : List String) (tree : FileTree) : Run :=
  match Arguments.parse commandLine with
  | .ok arguments => runWith home arguments tree
  | .error .help => { stdout := lineText help, ending := .exit 0, tree }
  | .error (.fault fault) =>
    { stderr := lineText (usage ++ ["extcheck: error: " ++ fault.message])
      ending := .exit usageExit, tree }

end ExtensionAudit.CommandLine
