import ExtensionAudit.Json.Basic
import ExtensionAudit.Report.Basic

/-!
The two written forms of a report: a table for people, which ends with the most urgent messages, and
a JSON document.
-/

namespace ExtensionAudit.Report

/-- The text with blanks behind it up to a width. -/
def leftAligned (width : Nat) (s : String) : String :=
  s ++ String.ofList (List.replicate (width - s.length) ' ')

/-- The text with blanks in front of it up to a width. -/
def rightAligned (width : Nat) (s : String) : String :=
  String.ofList (List.replicate (width - s.length) ' ') ++ s

def ruler (width : Nat) (c : Char) : String := String.ofList (List.replicate width c)

def row (left right : String) : String := leftAligned 10 left ++ " | " ++ rightAligned 5 right

def header : String := row "Severity" "Count"

def listed (message : Message) : String :=
  "[" ++ message.severity.name ++ "] " ++ message.text

/-- The section of the most urgent messages, left out if there are none. -/
def topSection (messages : List Message) : List String :=
  if messages.isEmpty then [] else ["", "Top Messages", ruler 40 '-'] ++ messages.map listed

def tableLines (report : Report) (limit : Option Int) : List String :=
  ["Check Summary", ruler 40 '=', header, ruler header.length '-'] ++
    report.tally.rows.map (fun (severity, count) => row severity.name (toString count)) ++
    [ruler header.length '-',
      "Status    : " ++ (if report.passed then "PASS" else "FAIL"),
      "Messages  : " ++ toString report.tally.total,
      "Progress  : " ++ toString report.progress.current ++ "/" ++
        toString report.progress.total] ++
    topSection (report.top limit)

/-- How many messages a table shows where nothing else is asked for. -/
def usualLimit : Option Int := some 5

def table (report : Report) (limit : Option Int) : String :=
  String.intercalate "\n" (report.tableLines limit)

def tallyJson (tally : Tally) : Json :=
  .object [("fatal", .int tally.fatal), ("error", .int tally.error),
    ("warning", .int tally.warning), ("notice", .int tally.notice)]

def progressJson (progress : Progress) : Json :=
  .object [("total", .int progress.total), ("current", .int progress.current)]

def messageJson (message : Message) : Json :=
  .object [("severity", .text message.severity.name), ("text", .text message.text)]

def toJson (report : Report) : Json :=
  .object [("summary", tallyJson report.tally), ("progress", progressJson report.progress),
    ("messages", .list (report.messages.map messageJson)), ("passed", .bool report.passed)]

end ExtensionAudit.Report
