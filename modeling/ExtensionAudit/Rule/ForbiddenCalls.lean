import ExtensionAudit.Rule.Basic
import ExtensionAudit.Rule.Context
import ExtensionAudit.Text.Word

/-!
The rule on functions that must not be called. A call is a forbidden name, in any case, that no word
character, dollar sign or member sign precedes, followed by an opening bracket with blanks between
at most. At each place the longest name that fits is taken; the search goes on behind the bracket.
Lines that begin as comments do are passed over.
-/

namespace ExtensionAudit.ForbiddenCalls

def lowerCalls (settings : Settings) : List (String × Severity) :=
  settings.forbiddenCalls.foldl
    (fun calls call => Settings.putCall calls (Text.lower call.1) call.2)
    []

/-- The names in the order in which they are tried: longer ones first. -/
def alternatives (calls : List (String × Severity)) : List (List Char) :=
  (calls.map fun call => call.1.toList).mergeSort fun a b => b.length ≤ a.length

/-- The text that a name matches in front of a text ignoring case, and what follows. -/
def matchName : List Char → List Char → Option (List Char × List Char)
  | [], cs => some ([], cs)
  | _ :: _, [] => none
  | p :: name, c :: cs =>
    if Text.sameLetter p c then
      (matchName name cs).map fun found => (c :: found.1, found.2)
    else none

def openingBracket (cs : List Char) : Option (List Char) :=
  match Text.dropBlanks cs with
  | '(' :: rest => some rest
  | _ => none

/-- A call at the start of a text: the name as it is written, and what follows the bracket. -/
def callAt (names : List (List Char)) (cs : List Char) : Option (List Char × List Char) :=
  names.findSome? fun name =>
    match matchName name cs with
    | none => none
    | some (written, rest) => (openingBracket rest).map fun rest => (written, rest)

def isBoundary : Option Char → Bool
  | none => true
  | some c => !(Text.isWord c || c == '$' || c == '>' || c == ':')

/-- The calls of a text behind a character, as they are written. The first `skip` characters belong
to a call that has been found already. -/
def callsFrom (names : List (List Char)) : Nat → Option Char → List Char → List (List Char)
  | _, _, [] => []
  | skip + 1, _, c :: rest => callsFrom names skip (some c) rest
  | 0, before, c :: rest =>
    match (if isBoundary before then callAt names (c :: rest) else none) with
    | some (written, after) =>
      written :: callsFrom names (rest.length - after.length) (some c) rest
    | none => callsFrom names 0 (some c) rest

def commentMarks : List (List Char) := [['/', '/'], ['#'], ['*'], ['/', '*']]

def isComment (line : List Char) : Bool :=
  commentMarks.any fun mark => mark.isPrefixOf (Text.dropBlanks line)

/-- The place where a name without a severity is looked up. -/
def lookupPlace : TracePlace where
  file := "rules/check_php_functions.py"
  line := 40
  function := "validate_line"
  shown :=
    ["    self.output.add_message(self._severities[call], f\"Usage of \x7bcall\x7d() is not allowed in \x7bline.location\x7d\")",
      "                            ~~~~~~~~~~~~~~~~^^^^^^"]

/-- The report of a call. A name is looked up as it is in lower case; one that matches only ignoring
case in a wider sense is not found, which fails. -/
def reportCall (calls : List (String × Severity)) (location : String) (written : List Char) :
    Outcome :=
  let name := Text.lower (String.ofList written)
  match calls.lookup name with
  | some severity =>
    { effects := [.declare 1,
        .message severity ("Usage of " ++ name ++ "() is not allowed in " ++ location)] }
  | none =>
    { effects := [.declare 1]
      failure := some <|
        .told { kind := "KeyError", text := Text.quoted name, places := [lookupPlace] } }

/-- The calls of a line, if it is searched at all. -/
def callsOfLine (calls : List (String × Severity)) (line : List Char) : List (List Char) :=
  if calls.isEmpty || isComment line then [] else callsFrom (alternatives calls) 0 none line

def check (calls : List (String × Severity)) (location : String) (line : String) : Outcome :=
  (callsOfLine calls line.toList).foldr
    (fun written later => (reportCall calls location written).andThen later) {}

def rule {σ : Type} (context : RuleContext) : Rule σ :=
  let calls := lowerCalls context.settings
  .stateless { lineTypes := [.php] } fun
    | .line source => check calls source.location source.text
    | _ => {}

end ExtensionAudit.ForbiddenCalls
