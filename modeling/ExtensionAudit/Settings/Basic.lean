import ExtensionAudit.Event.Extraction
import ExtensionAudit.Severity
import ExtensionAudit.Value.Basic

/-!
The settings of a check, and how they are read from a document. Every setting has a default; a
document may name only settings that exist, and each of its values must have the kind that the
setting asks for.
-/

namespace ExtensionAudit

/-- The settings of a check. -/
structure Settings where
  /-- The file that marks the base directory of a package. -/
  manifest : String := "ext.php"
  /-- The file that declares the package's name. -/
  composerFile : String := "composer.json"
  /-- How the names of files end that may declare events. -/
  sourceExtension : String := ".php"
  /-- The event prefix of official extensions. -/
  reservedVendor : String := "phpbb"
  /-- The event prefix of the board itself. -/
  reservedCore : String := "core"
  /-- What becomes of events found before a fault. -/
  partialEvents : Event.PartialPolicy := .discard
  /-- The rules that are not applied. -/
  disabledRules : List String := []
  /-- The files that a package must ship. -/
  requiredFiles : List String := ["composer.json", "license.txt"]
  /-- The functions that must not be called, each with the severity of a call. -/
  forbiddenCalls : List (String × Severity) :=
    [("eval", .error), ("var_dump", .warning), ("print_r", .warning), ("var_export", .warning),
      ("debug_print_backtrace", .warning)]
  deriving DecidableEq, Repr

/-- What is wrong with a settings document. -/
inductive SettingsFault where
  | unknownKeys (keys : List String)
  /-- Keys that are no texts cannot even be listed. -/
  | keysNotTexts
  | notText (key : String)
  | notTextList (key : String)
  | unknownPolicy
  | callsNotMapping
  | unknownSeverity (shown name : String)
  /-- A call or its severity holds an integer that is too long to be written. -/
  | tooManyDigits
  deriving DecidableEq, Repr

def SettingsFault.message : SettingsFault → String
  | .unknownKeys keys => "Unknown configuration keys: " ++ String.intercalate ", " keys
  | .keysNotTexts => ""
  | .notText key => key ++ " must be a non-empty string"
  | .notTextList key => key ++ " must be a list of strings"
  | .unknownPolicy =>
    "partial_events must be one of: " ++
      String.intercalate ", " (Event.PartialPolicy.all.map Event.PartialPolicy.name)
  | .callsNotMapping => "forbidden_calls must map function names to severities"
  | .unknownSeverity shown name => "Unknown severity " ++ shown ++ " for forbidden call " ++ name
  | .tooManyDigits => Numeral.unwritableMessage

/-- Whether users are told of the fault as one of the settings. -/
def SettingsFault.isConfiguration : SettingsFault → Bool
  | .keysNotTexts | .tooManyDigits => false
  | _ => true

namespace Settings

def keys : List String :=
  ["manifest", "composer_file", "source_extension", "reserved_vendor", "reserved_core",
    "partial_events", "disabled_rules", "required_files", "forbidden_calls"]

def textOrder (a b : String) : Bool := !(b < a)

theorem textOrder_iff {a b : String} : textOrder a b = true ↔ a ≤ b := by
  simp only [textOrder, Bool.not_eq_true', decide_eq_false_iff_not, String.not_lt]

theorem textOrder_trans (a b c : String) (hab : textOrder a b = true) (hbc : textOrder b c = true) :
    textOrder a c = true :=
  textOrder_iff.mpr (String.le_trans (textOrder_iff.mp hab) (textOrder_iff.mp hbc))

theorem textOrder_total (a b : String) : (textOrder a b || textOrder b a) = true := by
  rw [Bool.or_eq_true, textOrder_iff, textOrder_iff]
  exact String.le_total a b

def sorted (texts : List String) : List String := texts.mergeSort textOrder

theorem sorted_perm (texts : List String) : (sorted texts).Perm texts := List.mergeSort_perm _ _

theorem sorted_pairwise (texts : List String) : (sorted texts).Pairwise (· ≤ ·) :=
  (List.pairwise_mergeSort textOrder_trans textOrder_total texts).imp textOrder_iff.mp

def checkKeys (entries : List (Value × Value)) : Except SettingsFault Unit :=
  let unknown := entries.filterMap fun entry =>
    match entry.1 with
    | .text key => if keys.contains key then none else some (some key)
    | _ => some none
  if unknown.isEmpty then .ok ()
  else match unknown.mapM id with
    | some unknown => .error (.unknownKeys (sorted unknown))
    | none => .error .keysNotTexts

/-- A setting that is a text and not empty. -/
def readText (entries : List (Value × Value)) (key default : String) :
    Except SettingsFault String :=
  match Value.lookupText entries key with
  | none => .ok default
  | some (.text s) => if s.isEmpty then .error (.notText key) else .ok s
  | some _ => .error (.notText key)

def textsOf (items : List Value) : Option (List String) :=
  items.mapM fun
    | .text s => some s
    | _ => none

/-- A setting that is a list of texts, or a single text in place of a list of one. -/
def readTexts (entries : List (Value × Value)) (key : String) (default : List String) :
    Except SettingsFault (List String) :=
  match Value.lookupText entries key with
  | none => .ok default
  | some (.text s) => .ok [s]
  | some (.list items) =>
    match textsOf items with
    | some texts => .ok texts
    | none => .error (.notTextList key)
  | some (.pairs []) => .ok []
  | some _ => .error (.notTextList key)

def readPolicy (entries : List (Value × Value)) (default : Event.PartialPolicy) :
    Except SettingsFault Event.PartialPolicy :=
  match Value.lookupText entries "partial_events" with
  | none => .ok default
  | some value =>
    match Event.PartialPolicy.ofName? (Text.lower value.plain) with
    | some policy => .ok policy
    | none => .error .unknownPolicy

/-- The calls with one more. A name that is there already keeps its place and takes the severity. -/
def putCall (calls : List (String × Severity)) (name : String) (severity : Severity) :
    List (String × Severity) :=
  match calls with
  | [] => [(name, severity)]
  | (n, s) :: rest =>
    if n == name then (name, severity) :: rest else (n, s) :: putCall rest name severity

/-- The forbidden calls of a mapping from names to severities. -/
def readCallEntries (calls : List (String × Severity)) :
    List (Value × Value) → Except SettingsFault (List (String × Severity))
  | [] => .ok calls
  | (name, value) :: rest =>
    if !(name.isWritable && value.isWritable) then .error .tooManyDigits
    else match Severity.parse value.plain with
      | .ok severity => readCallEntries (putCall calls name.plain severity) rest
      | .error _ => .error (.unknownSeverity value.shown name.plain)

def readCalls (entries : List (Value × Value)) (default : List (String × Severity)) :
    Except SettingsFault (List (String × Severity)) :=
  match Value.lookupText entries "forbidden_calls" with
  | none => .ok default
  | some (.mapping calls) => readCallEntries [] calls
  | some _ => .error .callsNotMapping

/-- The settings of a document that is a mapping with the given entries. -/
def ofEntries (entries : List (Value × Value)) : Except SettingsFault Settings := do
  let default : Settings := {}
  checkKeys entries
  let manifest ← readText entries "manifest" default.manifest
  let composerFile ← readText entries "composer_file" default.composerFile
  let sourceExtension ← readText entries "source_extension" default.sourceExtension
  let reservedVendor ← readText entries "reserved_vendor" default.reservedVendor
  let reservedCore ← readText entries "reserved_core" default.reservedCore
  let partialEvents ← readPolicy entries default.partialEvents
  let disabledRules ← readTexts entries "disabled_rules" default.disabledRules
  let requiredFiles ← readTexts entries "required_files" default.requiredFiles
  let forbiddenCalls ← readCalls entries default.forbiddenCalls
  return { manifest, composerFile, sourceExtension, reservedVendor, reservedCore, partialEvents,
           disabledRules, requiredFiles, forbiddenCalls }

/-- The settings as a JSON document, from which they can be read again. -/
def toJson (settings : Settings) : Json :=
  .object [("manifest", .text settings.manifest), ("composer_file", .text settings.composerFile),
    ("source_extension", .text settings.sourceExtension),
    ("reserved_vendor", .text settings.reservedVendor),
    ("reserved_core", .text settings.reservedCore),
    ("partial_events", .text settings.partialEvents.name),
    ("disabled_rules", .list (settings.disabledRules.map .text)),
    ("required_files", .list (settings.requiredFiles.map .text)),
    ("forbidden_calls",
      .object (settings.forbiddenCalls.map fun call => (call.1, .text call.2.name)))]

end Settings

end ExtensionAudit
