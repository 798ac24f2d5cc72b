import ExtensionAudit.Event.Files
import ExtensionAudit.Rule.Basic
import ExtensionAudit.Rule.Context

/-!
The rule on the names of events: they begin with the package's own prefix and with none that is
reserved. Files that cannot be searched are reported first, then two units of work for each event
are announced and done.
-/

namespace ExtensionAudit.EventNames

/-- Whether the path ends as files do that may declare events. -/
def isSource (settings : Settings) (path : String) : Bool :=
  settings.sourceExtension.toList.isSuffixOf path.toList

/-- The report of a file that could not be searched to its end. -/
def reportFault (extraction : Event.Extraction) : List Effect :=
  match extraction.fault with
  | none => []
  | some fault => [.declare 1, .message .fatal fault.text]

def checkReserved (settings : Settings) (event : Event.Declaration) : Effect :=
  if Event.nameHasPrefix event.name settings.reservedVendor then
    .message .error ("The " ++ settings.reservedVendor ++
      " vendorname should only be used for official extensions in event names in " ++ event.file ++
      ". Current event name: " ++ event.name)
  else if Event.nameHasPrefix event.name settings.reservedCore then
    .message .fatal ("The " ++ settings.reservedCore ++
      " vendorname should not be used in event names in " ++ event.file ++
      ". Current event name: " ++ event.name)
  else .pass

/-- The check of an event against the package's own prefix. -/
def checkVendor (vendor : String) (event : Event.Declaration) : Effect :=
  if Event.nameHasPrefix event.name vendor then .pass
  else .message .warning ("The event name should start with vendor.namespace (" ++ vendor ++
    ") but started with " ++ event.name ++ " in " ++ event.file)

def checkExtractions (settings : Settings) (vendor : String) (extractions : List Event.Extraction) :
    List Effect :=
  let events := Event.allEvents extractions
  extractions.flatMap reportFault ++
    [.declare (2 * events.length),
      .trace ("Found " ++ toString events.length ++ " events in " ++
        toString extractions.length ++ " files")] ++
    events.flatMap fun event => [checkReserved settings event, checkVendor vendor event]

def check (context : RuleContext) (listing : List String) : Outcome :=
  let sources := listing.filter (isSource context.settings)
  match Event.crawl context.tree context.settings.partialEvents context.baseDirectory sources with
  | .ok extractions =>
    { effects := checkExtractions context.settings context.eventPrefix extractions }
  | .error fault => { failure := some (.told { kind := "ValueError", text := fault.message }) }

def rule {σ : Type} (context : RuleContext) : Rule σ :=
  .stateless { directory := true } fun
    | .directory listing => check context listing
    | _ => {}

end ExtensionAudit.EventNames
