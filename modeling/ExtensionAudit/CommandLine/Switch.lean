import ExtensionAudit.Text.Quoted

/-!
The switches of the command line, with their spellings, and the help that explains them.
-/

namespace ExtensionAudit.CommandLine

inductive Switch where
  | help
  | debug
  | packageName
  | settings
  | format
  | out
  deriving DecidableEq, Repr

namespace Switch

/-- Every spelling with the switch that it stands for, in the order in which they are listed. -/
def spellings : List (String × Switch) :=
  [("-h", .help), ("--help", .help), ("--debug", .debug), ("--namespace", .packageName),
    ("--config", .settings), ("--format", .format), ("--out", .out), ("--output", .out)]

def ofSpelling? (s : String) : Option Switch := spellings.lookup s

/-- The name of a switch in messages: all its spellings. -/
def name (switch : Switch) : String :=
  String.intercalate "/" ((spellings.filter (·.2 == switch)).map (·.1))

def takesValue : Switch → Bool
  | .help | .debug => false
  | .packageName | .settings | .format | .out => true

end Switch

def usage : List String :=
  ["usage: extcheck [-h] [--debug] [--namespace NAMESPACE] [--config CONFIG_PATH]",
    "                [--format \x7bjson\x7d] [--out OUTPUT_PATH]",
    "                directory"]

/-- The explanation of the program and its arguments. -/
def help : List String :=
  usage ++
    ["",
      "Validate a phpBB extension package against the extension guidelines",
      "",
      "positional arguments:",
      "  directory             Directory containing the extension (must hold exactly",
      "                        one ext.php).",
      "",
      "options:",
      "  -h, --help            show this help message and exit",
      "  --debug               Print debug traces while running.",
      "  --namespace NAMESPACE",
      "                        Extension namespace (vendor/name); defaults to the",
      "                        name in composer.json.",
      "  --config CONFIG_PATH  Path to a YAML configuration file (defaults to",
      "                        <directory>/.extcheck.yml).",
      "  --format \x7bjson\x7d       Report format for file output (defaults to json).",
      "  --out OUTPUT_PATH, --output OUTPUT_PATH",
      "                        Path to write the structured report (e.g.,",
      "                        artifacts/extcheck.json)."]

def lineText (lines : List String) : String := String.join (lines.map (· ++ "\n"))

end ExtensionAudit.CommandLine
