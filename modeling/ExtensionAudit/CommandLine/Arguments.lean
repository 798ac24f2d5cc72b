import ExtensionAudit.CommandLine.Switch
import ExtensionAudit.Text.Digit

/-!
The arguments of the command line. A switch may be shortened as long as the short form tells which
switch is meant, and its value may follow as a word of its own or behind an equality sign. Behind
two hyphens alone no word is a switch any more. The one word that is no switch and no value is the
directory.
-/

namespace ExtensionAudit.CommandLine

/-- What the command line asks for. -/
structure Arguments where
  directory : String
  debug : Bool := false
  packageName : Option String := none
  settings : Option String := none
  out : Option String := none
  deriving DecidableEq, Repr

/-- Why a command line is refused. -/
inductive UsageFault where
  | ambiguous (word : String) (spellings : List String)
  | valueMissing (switch : Switch)
  | valueIgnored (switch : Switch) (value : String)
  | unknownFormat (value : String)
  | directoryMissing
  | unrecognised (words : List String)
  deriving DecidableEq, Repr

def UsageFault.message : UsageFault → String
  | .ambiguous word spellings =>
    "ambiguous option: " ++ word ++ " could match " ++ String.intercalate ", " spellings
  | .valueMissing switch => "argument " ++ switch.name ++ ": expected one argument"
  | .valueIgnored switch value =>
    "argument " ++ switch.name ++ ": ignored explicit argument " ++ Text.quoted value
  | .unknownFormat value =>
    "argument " ++ Switch.format.name ++ ": invalid choice: " ++ Text.quoted value ++
      " (choose from 'json')"
  | .directoryMissing => "the following arguments are required: directory"
  | .unrecognised words => "unrecognized arguments: " ++ String.intercalate " " words

/-- A word of the command line. -/
inductive Word where
  | plain (s : String)
  /-- Two hyphens alone. -/
  | hyphens
  /-- A switch, and a value that stands in the same word. -/
  | switch (switch : Switch) (value : Option String)
  /-- The one-letter spelling of help with more letters behind it. -/
  | letters (rest : List Char)
  /-- What looks like a switch but is none. -/
  | unknown (s : String)
  deriving DecidableEq, Repr

def splitValue (cs : List Char) : String × Option String :=
  let front := cs.takeWhile (· != '=')
  match cs.drop front.length with
  | _ :: value => (String.ofList front, some (String.ofList value))
  | [] => (String.ofList front, none)

/-- Whether a word is a negative number. A line feed at its end does not count. -/
def isNegativeNumber (word : List Char) : Bool :=
  let isDigit (c : Char) : Bool := (Text.digitValue? c).isSome
  let cs := if word.getLast? == some '\n' then word.dropLast else word
  match cs with
  | '-' :: body =>
    let digits := body.takeWhile isDigit
    match body.drop digits.length with
    | [] => !digits.isEmpty
    | '.' :: decimals => !decimals.isEmpty && decimals.all isDigit
    | _ => false
  | _ => false

/-- A word that begins with a hyphen but spells no switch, not even in short. -/
def Word.ofOther (word : String) : Word :=
  if isNegativeNumber word.toList || word.toList.contains ' ' then .plain word else .unknown word

/-- The word that two hyphens and a short form spell. -/
def Word.ofShortForm (word : String) : Except UsageFault Word :=
  let (form, value) := splitValue word.toList
  match Switch.spellings.filter fun entry => form.toList.isPrefixOf entry.1.toList with
  | [] => .ok (.ofOther word)
  | [(_, meant)] => .ok (.switch meant value)
  | found => .error (.ambiguous word (found.map (·.1)))

/-- The kind of a word in front of the two hyphens. -/
def Word.parse (word : String) : Except UsageFault Word :=
  match Switch.ofSpelling? word with
  | some spelled => .ok (.switch spelled none)
  | none =>
    match word.toList with
    | '-' :: c :: rest =>
      let (form, value) := splitValue word.toList
      match Switch.ofSpelling? form with
      | some spelled => .ok (.switch spelled value)
      | none =>
        if c == '-' then Word.ofShortForm word
        else if c == 'h' then .ok (.letters rest)
        else .ok (.ofOther word)
    | _ => .ok (.plain word)

def words : List String → Except UsageFault (List Word)
  | [] => .ok []
  | word :: rest =>
    if word == "--" then .ok (.hyphens :: rest.map .plain)
    else do
      let first ← Word.parse word
      let later ← words rest
      return first :: later

/-- What reading the words has come to: the arguments so far, the directory, whether it is the word
just read, and the words that are too many, latest first. -/
structure Reading where
  arguments : Arguments := { directory := "" }
  directory : Option String := none
  justFound : Bool := false
  extra : List String := []

def Reading.addExtra (reading : Reading) (word : String) : Reading :=
  { reading with extra := word :: reading.extra, justFound := false }

/-- A word that is the directory, if that is not known yet. -/
def Reading.addPlain (reading : Reading) (word : String) : Reading :=
  match reading.directory with
  | none => { reading with directory := some word, justFound := true }
  | some _ => reading.addExtra word

/-- Two hyphens alone, which go with the directory if they stand at its side. -/
def Reading.addHyphens (reading : Reading) : Reading :=
  if reading.directory.isNone || reading.justFound then { reading with justFound := false }
  else reading.addExtra "--"

/-- How reading the words ends unless it yields arguments. -/
inductive Stop where
  | help
  | fault (fault : UsageFault)
  deriving DecidableEq, Repr

def Reading.addValue (reading : Reading) (switch : Switch) (value : String) :
    Except Stop Reading :=
  let arguments := reading.arguments
  let set (arguments : Arguments) : Except Stop Reading :=
    .ok { reading with arguments, justFound := false }
  match switch with
  | .packageName => set { arguments with packageName := some value }
  | .settings => set { arguments with settings := some value }
  | .out => set { arguments with out := some value }
  | .format => if value == "json" then set arguments else .error (.fault (.unknownFormat value))
  | .help | .debug => .error (.fault (.valueIgnored switch value))

def Reading.addFlag (reading : Reading) (switch : Switch) : Except Stop Reading :=
  match switch with
  | .help => .error .help
  | .debug =>
    .ok { reading with arguments := { reading.arguments with debug := true }, justFound := false }
  | _ => .error (.fault (.valueMissing switch))

/-- The letters behind the one for help. Whatever they are, help is asked for, unless a value or
another hyphen follows. -/
def helpLetters : List Char → Stop
  | [] => .help
  | '-' :: rest => .fault (.valueIgnored .help (String.ofList ('-' :: rest)))
  | 'h' :: '=' :: value => .fault (.valueIgnored .help (String.ofList value))
  | 'h' :: rest => helpLetters rest
  | _ => .help

def readWords (reading : Reading) : List Word → Except Stop Reading
  | [] => .ok reading
  | .plain word :: rest => readWords (reading.addPlain word) rest
  | .hyphens :: rest => readWords reading.addHyphens rest
  | .unknown word :: rest => readWords (reading.addExtra word) rest
  | .letters letters :: _ => .error (helpLetters letters)
  | .switch switch (some value) :: rest =>
    match reading.addValue switch value with
    | .ok reading => readWords reading rest
    | .error stop => .error stop
  | .switch switch none :: .plain value :: rest =>
    if switch.takesValue then
      match reading.addValue switch value with
      | .ok reading => readWords reading rest
      | .error stop => .error stop
    else
      match reading.addFlag switch with
      | .ok reading => readWords reading (.plain value :: rest)
      | .error stop => .error stop
  | .switch switch none :: rest =>
    match reading.addFlag switch with
    | .ok reading => readWords reading rest
    | .error stop => .error stop

def Arguments.parse (commandLine : List String) : Except Stop Arguments := do
  let words ← (words commandLine).mapError .fault
  let reading ← readWords {} words
  match reading.directory, reading.extra.reverse with
  | none, _ => throw (.fault .directoryMissing)
  | some directory, [] => return { reading.arguments with directory }
  | some _, extra => throw (.fault (.unrecognised extra))

end ExtensionAudit.CommandLine
