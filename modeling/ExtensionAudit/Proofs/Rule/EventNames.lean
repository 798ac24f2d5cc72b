import Mathlib
import ExtensionAudit.Proofs.FileTree.Search
import ExtensionAudit.Proofs.Report.Accounting
import ExtensionAudit.Rule.EventNames

/-!
# What the rule on event names does

The rule searches all files first and speaks only then: about the files whose search failed, and
after one announcement about the events, two calls for each. Between them all files pass through one
list of events. Nothing of a file is lost or moved in that list, since the search of one file knows
nothing of the others: each call is about one file, and it is the call that this file alone would
bring about.
-/

namespace ExtensionAudit

/-- Whether a report takes part in the effect, which it does in all but traces. -/
def Effect.isCall : Effect → Bool
  | .trace _ => false
  | _ => true

/-- A search of several files is a search of each of them. -/
theorem Event.crawl_eq_ok_iff {tree : FileTree} {policy : PartialPolicy} {base : Path}
    {paths : List String} {extractions : List Extraction} :
    crawl tree policy base paths = .ok extractions
      ↔ List.Forall₂ (fun path extraction => extractFile tree policy base path = .ok extraction)
          paths extractions := by
  induction paths generalizing extractions with
  | nil =>
    rw [List.forall₂_nil_left_iff]
    exact ⟨fun h => (Except.ok.inj h).symm, fun h => congrArg Except.ok h.symm⟩
  | cons path rest ih =>
    have hstep : crawl tree policy base (path :: rest)
        = (extractFile tree policy base path).bind fun first =>
            (crawl tree policy base rest).bind fun later => .ok (first :: later) :=
      List.mapM_cons
    rw [hstep, List.forall₂_cons_left_iff]
    constructor
    · intro hok
      obtain ⟨first, hfirst, hok⟩ := bind_eq_ok_iff.mp hok
      obtain ⟨later, hlater, hok⟩ := bind_eq_ok_iff.mp hok
      exact ⟨first, later, hfirst, ih.mp hlater, (Except.ok.inj hok).symm⟩
    · rintro ⟨first, later, hfirst, hlater, rfl⟩
      rw [hfirst, Except.bind, ih.mpr hlater]
      rfl

namespace EventNames

/-- What the search of one file gives, by itself. It gives nothing for a path that is none, at which
a call of the rule fails. -/
def searchOf (context : RuleContext) (path : String) : Event.Extraction :=
  (Event.extractFile context.tree context.settings.partialEvents context.baseDirectory
    path).toOption.getD ⟨path, [], none⟩

/-- The paths of a listing that are searched. -/
def sourcesOf (context : RuleContext) (listing : List String) : List String :=
  listing.filter (isSource context.settings)

/-- The events of the files at some paths. -/
def eventsOf (context : RuleContext) (paths : List String) : List Event.Declaration :=
  paths.flatMap fun path => (searchOf context path).events

def checkEvent (context : RuleContext) (event : Event.Declaration) : List Effect :=
  [checkReserved context.settings event, checkVendor context.eventPrefix event]

variable {context : RuleContext} {listing : List String}

/-! ### One file after another -/

theorem searchOf_eq {path : String} {extraction : Event.Extraction}
    (hextract : Event.extractFile context.tree context.settings.partialEvents
      context.baseDirectory path = .ok extraction) : searchOf context path = extraction := by
  rw [searchOf, hextract]
  rfl

/-- Whether every source in a listing is the path of some file, if only of a missing one. -/
def Searchable (context : RuleContext) (listing : List String) : Prop :=
  ∀ path ∈ sourcesOf context listing,
    Event.extractFile context.tree context.settings.partialEvents context.baseDirectory path
      = .ok (searchOf context path)

/-- What a call does is put together from what the search of each source gives. -/
theorem Searchable.check_eq (hsearch : Searchable context listing) :
    check context listing
      = { effects := checkExtractions context.settings context.eventPrefix
            ((sourcesOf context listing).map (searchOf context)) } := by
  have hcrawl := Event.crawl_eq_ok_iff.mpr
    (List.forall₂_map_right_iff.mpr (List.forall₂_same.mpr hsearch))
  rw [sourcesOf] at hcrawl
  rw [check, hcrawl, sourcesOf]

theorem searchable_iff : Searchable context listing ↔ (check context listing).failure = none := by
  constructor
  · intro hsearch
    rw [hsearch.check_eq]
  · intro hreturns
    rw [check] at hreturns
    cases hcrawl : Event.crawl context.tree context.settings.partialEvents context.baseDirectory
        (listing.filter (isSource context.settings)) with
    | error fault => simp [hcrawl] at hreturns
    | ok extractions =>
      have heach := (Event.crawl_eq_ok_iff.mp hcrawl).imp fun path extraction hextract =>
        (⟨searchOf_eq hextract ▸ hextract, hextract⟩ : _ ∧ _)
      exact ((List.forall₂_and_left _ _).mp heach).1

theorem Searchable.filter (hsearch : Searchable context listing) (kept : String → Bool) :
    Searchable context (listing.filter kept) := by
  intro path hmem
  have hmem : path ∈ sourcesOf context listing :=
    (List.filter_sublist.filter _).subset hmem
  exact hsearch path hmem

/-! ### The calls -/

/-- The reports of the files at some paths whose search failed. -/
def faultCalls (context : RuleContext) (paths : List String) : List Effect :=
  paths.flatMap fun path => reportFault (searchOf context path)

/-- The calls about the files at some paths, each as the search of that file alone gives them. -/
def callsFor (context : RuleContext) (paths : List String) : List Effect :=
  faultCalls context paths
    ++ .declare (2 * (eventsOf context paths).length)
      :: (eventsOf context paths).flatMap (checkEvent context)

theorem isCall_of_mem_reportFault {extraction : Event.Extraction} {effect : Effect}
    (hmem : effect ∈ reportFault extraction) : effect.isCall = true := by
  rw [reportFault] at hmem
  split at hmem
  · cases hmem
  · simp only [List.mem_cons, List.not_mem_nil, or_false] at hmem
    obtain rfl | rfl := hmem <;> rfl

theorem isCall_of_mem_checkEvent {event : Event.Declaration} {effect : Effect}
    (hmem : effect ∈ checkEvent context event) : effect.isCall = true := by
  obtain rfl | hvendor := List.mem_cons.mp hmem
  · rw [checkReserved]
    split
    · rfl
    · split <;> rfl
  · rw [List.mem_singleton.mp hvendor, checkVendor]
    split <;> rfl

theorem allEvents_map_searchOf (paths : List String) :
    Event.allEvents (paths.map (searchOf context)) = eventsOf context paths := List.flatMap_map ..

theorem Searchable.effects_eq (hsearch : Searchable context listing) :
    (check context listing).effects
      = faultCalls context (sourcesOf context listing)
        ++ .declare (2 * (eventsOf context (sourcesOf context listing)).length)
          :: .trace ("Found " ++ toString (eventsOf context (sourcesOf context listing)).length
            ++ " events in " ++ toString (sourcesOf context listing).length ++ " files")
          :: (eventsOf context (sourcesOf context listing)).flatMap (checkEvent context) := by
  rw [hsearch.check_eq, checkExtractions, allEvents_map_searchOf, List.flatMap_map, List.length_map,
    List.append_assoc]
  rfl

theorem Searchable.calls_eq (hsearch : Searchable context listing) :
    (check context listing).effects.filter Effect.isCall
      = callsFor context (sourcesOf context listing) := by
  have hfaults : (faultCalls context (sourcesOf context listing)).filter Effect.isCall
      = faultCalls context (sourcesOf context listing) := by
    refine List.filter_eq_self.mpr fun effect hmem => ?_
    obtain ⟨path, -, hmem⟩ := List.mem_flatMap.mp hmem
    exact isCall_of_mem_reportFault hmem
  have hevents : ((eventsOf context (sourcesOf context listing)).flatMap
        (checkEvent context)).filter Effect.isCall
      = (eventsOf context (sourcesOf context listing)).flatMap (checkEvent context) := by
    refine List.filter_eq_self.mpr fun effect hmem => ?_
    obtain ⟨event, -, hmem⟩ := List.mem_flatMap.mp hmem
    exact isCall_of_mem_checkEvent hmem
  rw [hsearch.effects_eq, List.filter_append, hfaults, List.filter_cons_of_pos rfl,
    List.filter_cons_of_neg (by simp [Effect.isCall]), hevents, callsFor]

/-! ### The messages -/

/-- The message about a file whose search failed, as a list of at most one. -/
def faultMessages (context : RuleContext) (path : String) : List Message :=
  ((searchOf context path).fault.map fun fault => ⟨.fatal, fault.text⟩).toList

def eventMessages (context : RuleContext) (event : Event.Declaration) : List Message :=
  (checkEvent context event).flatMap Effect.messages

theorem messages_faultCalls (paths : List String) :
    (faultCalls context paths).flatMap Effect.messages = paths.flatMap (faultMessages context) := by
  rw [faultCalls, List.flatMap_assoc]
  refine List.flatMap_congr fun path _ => ?_
  rw [reportFault, faultMessages]
  cases (searchOf context path).fault <;> rfl

theorem Searchable.messages_eq (hsearch : Searchable context listing) :
    (check context listing).effects.flatMap Effect.messages
      = (sourcesOf context listing).flatMap (faultMessages context)
        ++ (eventsOf context (sourcesOf context listing)).flatMap (eventMessages context) := by
  rw [hsearch.effects_eq, List.flatMap_append, messages_faultCalls]
  refine congrArg _ ?_
  rw [List.flatMap_cons, List.flatMap_cons, List.flatMap_assoc]
  rfl

/-! ### The verdicts on a name -/

/-- Whether a name starts with a text once both are in lower case. -/
def StartsIgnoringCase (name start : String) : Prop :=
  (Text.lower start).toList <+: (Text.lower name).toList

instance (name start : String) : Decidable (StartsIgnoringCase name start) :=
  inferInstanceAs (Decidable ((Text.lower start).toList <+: (Text.lower name).toList))

theorem nameHasPrefix_iff {name start : String} :
    Event.nameHasPrefix name start = true ↔ StartsIgnoringCase name start :=
  List.isPrefixOf_iff_prefix

/-- **The calls of the rule on event names.** A call that comes to an end has searched every source
in the listing. What it then does, traces apart, is this: for each source whose search failed, in
the order of the listing, a unit of work and a message of the fault; the announcement of two units
for each event; and for each event, file by file and in the order within a file, a call for the
reserved prefixes and a call for the package's own, which is its name with dots for slashes. What it
does about some of the sources is what it would do without the others. -/
theorem check_calls (context : RuleContext) (listing : List String)
    (hreturns : (check context listing).failure = none) :
    let sources := sourcesOf context listing
    let vendor := String.ofList (context.packageName.toList.map fun c => if c = '/' then '.' else c)
    (∀ path ∈ sources, Event.extractFile context.tree context.settings.partialEvents
        context.baseDirectory path = .ok (searchOf context path))
      ∧ (check context listing).effects
          = sources.flatMap (fun path => reportFault (searchOf context path))
            ++ .declare (2 * (eventsOf context sources).length)
              :: .trace ("Found " ++ toString (eventsOf context sources).length ++ " events in "
                ++ toString sources.length ++ " files")
              :: (eventsOf context sources).flatMap (checkEvent context)
      ∧ (check context listing).effects.filter Effect.isCall = callsFor context sources
      ∧ (∀ path, ((searchOf context path).fault = none → reportFault (searchOf context path) = [])
          ∧ ∀ fault, (searchOf context path).fault = some fault →
              reportFault (searchOf context path) = [.declare 1, .message .fatal fault.text])
      ∧ (∀ event, checkEvent context event =
          [if StartsIgnoringCase event.name context.settings.reservedVendor then
              .message .error ("The " ++ context.settings.reservedVendor
                ++ " vendorname should only be used for official extensions in event names in "
                ++ event.file ++ ". Current event name: " ++ event.name)
            else if StartsIgnoringCase event.name context.settings.reservedCore then
              .message .fatal ("The " ++ context.settings.reservedCore
                ++ " vendorname should not be used in event names in " ++ event.file
                ++ ". Current event name: " ++ event.name)
            else .pass,
            if StartsIgnoringCase event.name vendor then .pass
            else .message .warning ("The event name should start with vendor.namespace ("
              ++ vendor ++ ") but started with " ++ event.name ++ " in " ++ event.file)])
      ∧ ∀ kept : String → Bool,
          (check context (listing.filter kept)).failure = none
            ∧ (check context (listing.filter kept)).effects.filter Effect.isCall
                = callsFor context (sources.filter kept) := by
  intro sources vendor
  have hsearch : Searchable context listing := searchable_iff.mpr hreturns
  have hvendor : context.eventPrefix = vendor := by
    simp only [RuleContext.eventPrefix, vendor, beq_iff_eq]
  refine ⟨hsearch, hsearch.effects_eq, hsearch.calls_eq,
    fun path => ⟨fun hnone => ?_, fun fault hfault => ?_⟩, fun event => ?_, fun kept => ?_⟩
  · rw [reportFault, hnone]
  · rw [reportFault, hfault]
  · simp only [checkEvent, checkReserved, checkVendor, nameHasPrefix_iff, hvendor]
  · have hkept : sourcesOf context (listing.filter kept) = sources.filter kept :=
      List.filter_comm ..
    rw [← hkept]
    exact ⟨searchable_iff.mp (hsearch.filter kept), (hsearch.filter kept).calls_eq⟩

/-- A package of two files, of which the first one names its second event by a variable. -/
def variableName : FileTree where
  entries := [(["pkg"], .directory),
    (["pkg", "a.php"], .file ("<?php\n$phpbb_dispatcher->dispatch('core.a');\n" ++
      "$phpbb_dispatcher->dispatch($name);").toUTF8.toList),
    (["pkg", "ext.php"], .file "<?php\n$phpbb_dispatcher->dispatch('ACME.Demo.b');".toUTF8.toList)]

def variableContext : RuleContext where
  tree := variableName
  baseDirectory := ⟨0, ["pkg"]⟩
  packageName := "acme/demo"

theorem check_calls_variableName :
    let listing := ["a.php", "ext.php", "readme.txt"]
    (check variableContext listing).failure = none
      ∧ (check variableContext listing).effects.filter Effect.isCall
        = [.declare 1, .message .fatal
            "a.php:3: Event name must be a literal string in dispatcher call",
          .declare 2, .pass, .pass] := by
  intro listing
  have hreturns : (check variableContext listing).failure = none := by decide +kernel
  obtain ⟨-, -, hcalls, -⟩ := check_calls variableContext listing hreturns
  refine ⟨hreturns, hcalls.trans ?_⟩
  decide +kernel

end EventNames

end ExtensionAudit
