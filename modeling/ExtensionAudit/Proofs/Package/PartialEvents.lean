import Mathlib
import ExtensionAudit.Proofs.Event.Search
import ExtensionAudit.Proofs.Package.OneRule
import ExtensionAudit.Proofs.Package.Progress
import ExtensionAudit.Proofs.Rule.EventNames

/-!
# Keeping the events of failed searches

A policy says whether the events that a search has found stay if the search fails. Two checks under
different policies differ in one call, that of the rule on event names, and there in the events of
the files whose search fails. These are checked in between the others, so keeping them puts messages
in between others and takes none away. Each of them also counts for two units of work, announced and
done.
-/

namespace ExtensionAudit

/-! ### One search under both policies -/

namespace Event

/-- The extraction without its events, if its search failed. -/
def Extraction.discarded (extraction : Extraction) : Extraction :=
  if extraction.fault.isSome then { extraction with events := [] } else extraction

theorem Extraction.fault_discarded (extraction : Extraction) :
    extraction.discarded.fault = extraction.fault := by
  rw [discarded]
  split <;> rfl

theorem Extraction.events_discarded (extraction : Extraction) :
    extraction.discarded.events
      = if extraction.fault.isSome then [] else extraction.events := by
  rw [discarded]
  split <;> rfl

theorem extract_discard (text path : String) :
    extract .discard text path = (extract .keep text path).discarded := by
  rw [Search.extract_eq, Search.extract_eq]
  generalize Search.of false (Php.Site.start text.toList) = found
  obtain ⟨named, stop⟩ := found
  cases stop <;> rfl

theorem extractFile_discard (tree : FileTree) (base : Path) (relative : String) :
    extractFile tree .discard base relative
      = (extractFile tree .keep base relative).map Extraction.discarded := by
  rw [extractFile, extractFile]
  cases tree.read (base.join (Path.parse relative)) with
  | ok content => exact congrArg Except.ok (extract_discard _ _)
  | error fault => cases fault <;> rfl

end Event

def RuleContext.withPolicy (context : RuleContext) (policy : Event.PartialPolicy) : RuleContext :=
  { context with settings := { context.settings with partialEvents := policy } }

namespace EventNames

variable {context : RuleContext} {listing : List String}

@[simp] theorem sourcesOf_withPolicy (policy : Event.PartialPolicy) :
    sourcesOf (context.withPolicy policy) listing = sourcesOf context listing := rfl

theorem searchOf_discard (path : String) :
    searchOf (context.withPolicy .discard) path
      = (searchOf (context.withPolicy .keep) path).discarded := by
  have hfile : Event.extractFile context.tree .discard context.baseDirectory path
      = (Event.extractFile context.tree .keep context.baseDirectory path).map
          Event.Extraction.discarded := Event.extractFile_discard _ _ _
  change (Event.extractFile context.tree .discard context.baseDirectory path).toOption.getD _
    = ((Event.extractFile context.tree .keep context.baseDirectory path).toOption.getD _).discarded
  rw [hfile]
  cases Event.extractFile context.tree .keep context.baseDirectory path <;> rfl

/-- Whether the search of a file fails. -/
def failsAt (context : RuleContext) (path : String) : Bool := (searchOf context path).fault.isSome

theorem events_searchOf_discard (path : String) :
    (searchOf (context.withPolicy .discard) path).events
      = if failsAt (context.withPolicy .keep) path then []
        else (searchOf (context.withPolicy .keep) path).events := by
  rw [searchOf_discard, Event.Extraction.events_discarded]
  rfl

/-- Without the events of failed searches, the events are those of the other files. -/
theorem eventsOf_discard (paths : List String) :
    eventsOf (context.withPolicy .discard) paths
      = eventsOf (context.withPolicy .keep)
          (paths.filter fun path => !failsAt (context.withPolicy .keep) path) := by
  induction paths with
  | nil => rfl
  | cons path rest ih =>
    rw [eventsOf, List.flatMap_cons, events_searchOf_discard]
    by_cases hfails : failsAt (context.withPolicy .keep) path = true
    · rw [if_pos hfails, List.nil_append, List.filter_cons_of_neg (by simp [hfails])]
      exact ih
    · rw [if_neg hfails, List.filter_cons_of_pos (by simp [hfails])]
      exact congrArg _ ih

theorem eventsOf_discard_sublist (paths : List String) :
    (eventsOf (context.withPolicy .discard) paths).Sublist
      (eventsOf (context.withPolicy .keep) paths) := by
  rw [eventsOf_discard]
  exact List.filter_sublist.flatMap _

theorem length_eventsOf_keep (paths : List String) :
    (eventsOf (context.withPolicy .keep) paths).length
      = (eventsOf (context.withPolicy .discard) paths).length
        + (eventsOf (context.withPolicy .keep)
            (paths.filter (failsAt (context.withPolicy .keep)))).length := by
  -- The events of all files are those of the failing ones and those of the others.
  have hperm := (List.filter_append_perm (failsAt (context.withPolicy .keep)) paths).flatMap
    fun path _ => List.Perm.refl (searchOf (context.withPolicy .keep) path).events
  have hlength := hperm.length_eq
  rw [List.flatMap_append, List.length_append, add_comm] at hlength
  rw [eventsOf_discard]
  exact hlength.symm

/-! ### What the call adds to a report -/

theorem faultCalls_discard (paths : List String) :
    faultCalls (context.withPolicy .discard) paths
      = faultCalls (context.withPolicy .keep) paths := by
  refine List.flatMap_congr fun path _ => ?_
  rw [reportFault, reportFault, searchOf_discard, Event.Extraction.fault_discarded]

theorem Searchable.units_eq (hsearch : Searchable context listing) :
    ((check context listing).effects.map Effect.units).sum
      = ((faultCalls context (sourcesOf context listing)).map Effect.units).sum
        + 2 * (eventsOf context (sourcesOf context listing)).length := by
  have hsilent : (((eventsOf context (sourcesOf context listing)).flatMap
      (checkEvent context)).map Effect.units).sum = 0 := by
    apply List.sum_eq_zero
    intro units hmem
    obtain ⟨effect, heffect, rfl⟩ := List.mem_map.mp hmem
    have hwork := work_checkEvent context.settings context.eventPrefix _ heffect
    exact Effect.units_of_amount? (Effect.amount?_of_work hwork)
  rw [hsearch.effects_eq, List.map_append, List.sum_append, List.map_cons, List.map_cons,
    List.sum_cons, List.sum_cons, hsilent]
  rfl

section BothPolicies

variable (hreturns : ∀ policy, (check (context.withPolicy policy) listing).failure = none)

include hreturns

/-- The messages about failed searches come first under both policies, and keeping events adds to
those behind them. -/
theorem exists_messages_both :
    let sources := sourcesOf context listing
    ∃ found more,
      (check (context.withPolicy .discard) listing).effects.flatMap Effect.messages
          = sources.flatMap (faultMessages (context.withPolicy .keep)) ++ found
        ∧ (check (context.withPolicy .keep) listing).effects.flatMap Effect.messages
          = sources.flatMap (faultMessages (context.withPolicy .keep)) ++ more
        ∧ found.Sublist more := by
  intro sources
  have hdiscard := (searchable_iff.mpr (hreturns .discard)).messages_eq
  have hkeep := (searchable_iff.mpr (hreturns .keep)).messages_eq
  rw [← messages_faultCalls, faultCalls_discard, messages_faultCalls] at hdiscard
  exact ⟨_, _, hdiscard, hkeep, (eventsOf_discard_sublist sources).flatMap _⟩

/-- Keeping events announces two units more for each of them. -/
theorem units_keep :
    ((check (context.withPolicy .keep) listing).effects.map Effect.units).sum
      = ((check (context.withPolicy .discard) listing).effects.map Effect.units).sum
        + 2 * (eventsOf (context.withPolicy .keep)
            ((sourcesOf context listing).filter (failsAt (context.withPolicy .keep)))).length := by
  have hdiscard := (searchable_iff.mpr (hreturns .discard)).units_eq
  have hkeep := (searchable_iff.mpr (hreturns .keep)).units_eq
  have hlength := @length_eventsOf_keep context (sourcesOf context listing)
  rw [faultCalls_discard, sourcesOf_withPolicy] at hdiscard
  rw [sourcesOf_withPolicy] at hkeep
  rw [hkeep, hdiscard, hlength]
  omega

end BothPolicies

end EventNames

/-! ### Two runs -/

namespace Package

variable {tree : FileTree} {root : Path} {context : RuleContext}
  {entries : List (String × (RuleContext → Rule Unit))} {contents : Contents}

/-- The policy concerns no rule but the one on event names. -/
theorem named_withPolicy {entry : String × (RuleContext → Rule Unit)}
    (hentry : entry ∈ RulePackage.builtInEntries.map RulePackage.identified)
    (hother : entry.1 ≠ "event_names") (policy : Event.PartialPolicy) :
    Registry.named (context.withPolicy policy) entry = Registry.named context entry := by
  rw [RulePackage.identified_builtInEntries] at hentry
  simp only [List.mem_cons, List.not_mem_nil, or_false] at hentry
  obtain rfl | rfl | rfl | rfl := hentry
  · rfl
  · exact absurd rfl hother
  · rfl
  · rfl

/-- Two runs under different policies differ in what the rule on event names does. -/
theorem exists_reportOf_around (henabled : "event_names" ∉ context.settings.disabledRules)
    (hentries : entriesResult context.settings = .ok entries)
    (hreturns : ∀ policy,
      (EventNames.check (context.withPolicy policy) contents.listing).failure = none) :
    ∃ before behind, ∀ policy, reportOf (context.withPolicy policy) entries contents
      = reportAround before behind
          (EventNames.check (context.withPolicy policy) contents.listing).effects := by
  have hentry : ("event_names", EventNames.rule)
      ∈ (RulePackage.builtInEntries.map RulePackage.identified :
        List (String × (RuleContext → Rule Unit))) := by
    rw [RulePackage.identified_builtInEntries]
    exact List.mem_cons_of_mem _ List.mem_cons_self
  obtain ⟨front, back, rfl, hothers⟩ := exists_entries_around hentries hentry henabled
  refine ⟨eventsBefore context front contents, eventsBehind context front back contents,
    fun policy => ?_⟩
  have hsame {others : List (String × (RuleContext → Rule Unit))} (hsub : others ⊆ front ++ back) :
      others.map (Registry.named (context.withPolicy policy))
        = others.map (Registry.named context) :=
    List.map_congr_left fun other hother =>
      named_withPolicy (hothers other (hsub hother)).1 (hothers other (hsub hother)).2 policy
  have hbefore : eventsBefore (context.withPolicy policy) front contents
      = eventsBefore context front contents := by
    rw [eventsBefore, eventsBefore, hsame (List.subset_append_left front back)]
  have hbehind : eventsBehind (context.withPolicy policy) front back contents
      = eventsBehind context front back contents := by
    rw [eventsBehind, eventsBehind, hsame (List.subset_append_left front back),
      hsame (List.subset_append_right front back)]
  have hreport := @reportOf_around (context.withPolicy policy) front back
    ("event_names", EventNames.rule) contents rfl (EventNames.check_announces _ _) (hreturns policy)
  rw [hreport, hbefore, hbehind]
  rfl

/-! ### Two checks -/

/-- What a check with given settings finds before its rules run. -/
def loadedResult (tree : FileTree) (root : Path) (request : CheckRequest) (settings : Settings) :
    Except SetupFault (RuleContext × List (String × (RuleContext → Rule Unit)) × Contents) :=
  (contextResult tree root { request with settings := some settings }).bind fun context =>
    (entriesResult context.settings).bind fun entries =>
      ((load context.tree root context.baseDirectory).mapError .search).map fun contents =>
        (context, entries, contents)

theorem loadedResult_eq_ok {request : CheckRequest} {settings : Settings}
    (hloaded : loadedResult tree root request settings = .ok (context, entries, contents)) :
    contextResult tree root { request with settings := some settings } = .ok context
      ∧ entriesResult context.settings = .ok entries
      ∧ load context.tree root context.baseDirectory = .ok contents := by
  obtain ⟨_, hcontext, hrest⟩ := bind_eq_ok_iff.mp hloaded
  obtain ⟨_, hentries, hrest⟩ := bind_eq_ok_iff.mp hrest
  obtain ⟨_, hload, hsame⟩ := map_eq_ok_iff.mp hrest
  obtain ⟨rfl, rfl, rfl⟩ : _ ∧ _ ∧ _ := by simpa using hsame
  exact ⟨hcontext, hentries, mapError_eq_ok_iff.mp hload⟩

def CheckRequest.under (request : CheckRequest) (settings : Settings)
    (policy : Event.PartialPolicy) : CheckRequest :=
  { request with settings := some { settings with partialEvents := policy } }

theorem contextResult_under (request : CheckRequest) (settings : Settings)
    (policy : Event.PartialPolicy) :
    contextResult tree root (request.under settings policy)
      = (contextResult tree root { request with settings := some settings }).map
          (·.withPolicy policy) := by
  have hgiven (given : Settings) : contextResult tree root { request with settings := some given }
      = (baseDirectory tree given.manifest root).bind fun base =>
          .ok (contextWith tree { request with settings := some given } given base
            (request.name.getD (nameOrEmpty tree base given.composerFile))) := rfl
  rw [CheckRequest.under, hgiven, hgiven]
  cases baseDirectory tree settings.manifest root <;> rfl

theorem checkResult_under (request : CheckRequest) (settings : Settings)
    (policy : Event.PartialPolicy) :
    checkResult tree root (request.under settings policy)
      = (loadedResult tree root request settings).map fun loaded =>
          reportOf (loaded.1.withPolicy policy) loaded.2.1 loaded.2.2 := by
  rw [checkResult_eq, contextResult_under, loadedResult]
  cases contextResult tree root { request with settings := some settings } with
  | error fault => rfl
  | ok context =>
    have hentries : entriesResult (context.withPolicy policy).settings
        = entriesResult context.settings := rfl
    have hload : load (context.withPolicy policy).tree root (context.withPolicy policy).baseDirectory
        = load context.tree root context.baseDirectory := rfl
    change reportResult root (context.withPolicy policy)
      = ((entriesResult context.settings).bind fun entries =>
          ((load context.tree root context.baseDirectory).mapError .search).map fun contents =>
            (context, entries, contents)).map _
    rw [reportResult, hentries, hload]
    cases entriesResult context.settings with
    | error fault => rfl
    | ok entries => cases load context.tree root context.baseDirectory <;> rfl

/-! ### The two reports -/

/-- Messages that are put in between others never make the exit code smaller. -/
theorem exitCode_le_of_sublist {report other : Report}
    (hsub : report.messages.Sublist other.messages) : report.exitCode ≤ other.exitCode := by
  have hother := (other.exitCode_le_iff other.exitCode).mp (le_refl _)
  exact (report.exitCode_le_iff other.exitCode).mpr fun message hmem =>
    hother message (hsub.subset hmem)

/-- A check is told its settings or reads them from the package, which makes no difference. -/
theorem checkResult_of_settings {request : CheckRequest} {settings : Settings}
    (hsettings : settingsResult tree root request = .ok settings) :
    checkResult tree root request
      = checkResult tree root { request with settings := some settings } := by
  have hcontext : contextResult tree root request
      = contextResult tree root { request with settings := some settings } := by
    rw [contextResult, contextResult, hsettings]
    rfl
  rw [checkResult, checkResult, hcontext]

open EventNames in
/-- How the report of a check that keeps the events of failed searches goes beyond that of a check
that drops them. The messages about failed searches are the same in both, at the same place; the
messages about events are fewer in one than in the other; what is in front and behind is the same.
The events that make the difference are those found before the errors of the failing files. -/
structure AddsFindings (context : RuleContext) (listing : List String) (dropped kept : Report) :
    Prop where
  around : ∃ front back found more,
    dropped.messages
        = front ++ (sourcesOf context listing).flatMap (faultMessages context) ++ found ++ back
      ∧ kept.messages
        = front ++ (sourcesOf context listing).flatMap (faultMessages context) ++ more ++ back
      ∧ found.Sublist more
  messages : dropped.messages.Sublist kept.messages
  total : kept.progress.total = dropped.progress.total
    + 2 * (eventsOf context ((sourcesOf context listing).filter (failsAt context))).length
  current : kept.progress.current = dropped.progress.current
    + 2 * (eventsOf context ((sourcesOf context listing).filter (failsAt context))).length
  exitCode : dropped.exitCode ≤ kept.exitCode

/-- Two runs of the same rules over the same contents, under either policy. -/
theorem addsFindings_reportOf (henabled : "event_names" ∉ context.settings.disabledRules)
    (hentries : entriesResult context.settings = .ok entries)
    (hreturns : ∀ policy,
      (EventNames.check (context.withPolicy policy) contents.listing).failure = none) :
    AddsFindings (context.withPolicy .keep) contents.listing
      (reportOf (context.withPolicy .discard) entries contents)
      (reportOf (context.withPolicy .keep) entries contents) := by
  obtain ⟨before, behind, hreport⟩ := exists_reportOf_around henabled hentries hreturns
  obtain ⟨found, more, hdiscard, hkeep, hsub⟩ := EventNames.exists_messages_both hreturns
  have hunits := EventNames.units_keep hreturns
  have hwork (policy : Event.PartialPolicy) :=
    (EventNames.check_announces (context.withPolicy policy) contents.listing).balanced
      (hreturns policy)
  have hdropped := messages_reportAround before behind
    (EventNames.check (context.withPolicy .discard) contents.listing).effects
  have hkept := messages_reportAround before behind
    (EventNames.check (context.withPolicy .keep) contents.listing).effects
  rw [hdiscard, ← List.append_assoc, ← hreport] at hdropped
  rw [hkeep, ← List.append_assoc, ← hreport] at hkept
  have hmessages : (reportOf (context.withPolicy .discard) entries contents).messages.Sublist
      (reportOf (context.withPolicy .keep) entries contents).messages := by
    rw [hdropped, hkept]
    exact ((List.Sublist.refl _).append hsub).append (List.Sublist.refl _)
  refine ⟨⟨_, _, _, _, hdropped, hkept, hsub⟩, hmessages, ?_, ?_, exitCode_le_of_sublist hmessages⟩
  · rw [hreport, hreport, total_reportAround, total_reportAround, hunits,
      EventNames.sourcesOf_withPolicy]
    omega
  · rw [hreport, hreport, current_reportAround, current_reportAround, hwork, hwork, hunits,
      EventNames.sourcesOf_withPolicy]
    omega

/-- **Keeping partial events only adds findings.** Take a package, and settings that leave the rule
on event names enabled. Under either policy the check ends in the same fault or makes a report, and
then dropping events takes from the messages some of those about events and nothing else: the
messages about failed searches are the same, the work done and the work announced both differ by two
units for each event found before the error of its file, and the exit code is no smaller if events
are kept. It makes no difference whether settings are given or read from the package. -/
theorem keep_adds_findings (tree : FileTree) (hproper : tree.Proper) (root : Path)
    (request : CheckRequest) (settings : Settings)
    (henabled : "event_names" ∉ settings.disabledRules) :
    let result (policy : Event.PartialPolicy) :=
      (check tree root (request.under settings policy)).execute.1
    (∀ fault, result .discard = .error fault ↔ result .keep = .error fault)
      ∧ (∀ dropped, result .discard = .ok dropped → ∃ kept context contents,
          result .keep = .ok kept
            ∧ (contextOf tree root (request.under settings .keep)).execute.1 = .ok context
            ∧ load tree root context.baseDirectory = .ok contents
            ∧ (∀ path, EventNames.searchOf (context.withPolicy .discard) path
                = (EventNames.searchOf context path).discarded)
            ∧ AddsFindings context contents.listing dropped kept)
      ∧ ∀ other : CheckRequest, (settingsOf tree root other).execute.1 = .ok settings →
          (check tree root other).execute.1
            = (check tree root { other with settings := some settings }).execute.1 := by
  intro result
  have hresult (policy : Event.PartialPolicy) : result policy
      = (loadedResult tree root request settings).map fun loaded =>
          reportOf (loaded.1.withPolicy policy) loaded.2.1 loaded.2.2 := by
    rw [← checkResult_under]
    exact (check_ends tree root _).execute
  refine ⟨fun fault => ?_, fun dropped hdropped => ?_, fun other hsettings => ?_⟩
  · rw [hresult, hresult]
    cases loadedResult tree root request settings <;> simp [Except.map]
  · rw [hresult] at hdropped
    obtain ⟨⟨context, entries, contents⟩, hloaded, rfl⟩ := map_eq_ok_iff.mp hdropped
    obtain ⟨hcontext, hentries, hload⟩ := loadedResult_eq_ok hloaded
    obtain ⟨htree, hsettings, hbase⟩ := contextResult_eq_ok hcontext
    obtain rfl : settings = context.settings := Except.ok.inj hsettings
    have hlisting := null_not_mem_listing hproper hbase (htree ▸ hload)
    refine ⟨reportOf (context.withPolicy .keep) entries contents, context.withPolicy .keep,
      contents, ?_, ?_, htree ▸ hload, EventNames.searchOf_discard, ?_⟩
    · rw [hresult, hloaded]
      rfl
    · rw [(contextOf_ends tree root _).execute, contextResult_under, hcontext]
      rfl
    · exact addsFindings_reportOf henabled hentries fun policy =>
        EventNames.check_returns (baseDirectory_nullFree hproper hbase) hlisting
  · rw [(settingsOf_ends tree root other).execute] at hsettings
    rw [(check_ends tree root other).execute, (check_ends tree root _).execute]
    exact checkResult_of_settings hsettings

def variableFiles : List Path := [⟨0, ["pkg", "a.php"]⟩, ⟨0, ["pkg", "ext.php"]⟩]

def variableContents : Contents :=
  .ofLoaded ⟨0, ["pkg"]⟩ ⟨0, ["pkg"]⟩
    (variableFiles.map (loadFile EventNames.variableName ⟨0, ["pkg"]⟩))

theorem load_variableName :
    load EventNames.variableName ⟨0, ["pkg"]⟩ ⟨0, ["pkg"]⟩ = .ok variableContents := by
  have hfound : EventNames.variableName.search ⟨0, ["pkg"]⟩ "*" = .ok variableFiles := by
    decide +kernel
  have hkept : filesAmong EventNames.variableName ⟨0, ["pkg"]⟩ variableFiles
      = .ok variableFiles := by
    decide +kernel
  have hsorted : sortBelow ⟨0, ["pkg"]⟩ variableFiles = variableFiles := by
    apply List.mergeSort_of_pairwise
    decide
  exact load_eq_ok_iff.mpr
    ⟨_, filesMatching_eq_ok_iff.mpr ⟨_, _, hfound, hkept, hsorted.symm⟩, rfl⟩

theorem contextResult_variableName :
    contextResult EventNames.variableName ⟨0, ["pkg"]⟩
      { name := some "acme/demo", settings := some {} } = .ok EventNames.variableContext := by
  have hbase : baseDirectory EventNames.variableName "ext.php" ⟨0, ["pkg"]⟩
      = .ok ⟨0, ["pkg"]⟩ := by
    decide +kernel
  exact bind_eq_ok_iff.mpr ⟨{}, rfl, bind_eq_ok_iff.mpr ⟨_, hbase, rfl⟩⟩

theorem loadedResult_variableName :
    loadedResult EventNames.variableName ⟨0, ["pkg"]⟩ { name := some "acme/demo" } {}
      = .ok (EventNames.variableContext, RulePackage.builtInEntries.map RulePackage.identified,
          variableContents) :=
  bind_eq_ok_iff.mpr ⟨_, contextResult_variableName, bind_eq_ok_iff.mpr
    ⟨_, entriesResult_of_none_disabled rfl,
      map_eq_ok_iff.mpr ⟨_, mapError_eq_ok_iff.mpr load_variableName, rfl⟩⟩⟩

/-- The package has one event in front of an error, and it is a finding if it is kept. -/
theorem keep_adds_findings_variableName :
    let request : CheckRequest := { name := some "acme/demo" }
    let result (policy : Event.PartialPolicy) :=
      (check EventNames.variableName ⟨0, ["pkg"]⟩ (request.under {} policy)).execute.1
    EventNames.variableName.Proper ∧ "event_names" ∉ ({} : Settings).disabledRules
      ∧ ∃ dropped kept, result .discard = .ok dropped ∧ result .keep = .ok kept
          ∧ dropped.messages.Sublist kept.messages
          ∧ kept.progress.total = dropped.progress.total + 2 := by
  intro request result
  have hproper : EventNames.variableName.Proper := by decide
  have henabled : "event_names" ∉ ({} : Settings).disabledRules := List.not_mem_nil
  obtain ⟨-, hreports, -⟩ :=
    keep_adds_findings EventNames.variableName hproper ⟨0, ["pkg"]⟩ request {} henabled
  have hdropped : result .discard = .ok (reportOf (EventNames.variableContext.withPolicy .discard)
      (RulePackage.builtInEntries.map RulePackage.identified) variableContents) := by
    have hends := (check_ends EventNames.variableName ⟨0, ["pkg"]⟩
      (request.under {} .discard)).execute
    rw [checkResult_under, loadedResult_variableName] at hends
    exact hends
  obtain ⟨kept, context, contents, hkept, hcontext, hload, -, hadds⟩ := hreports _ hdropped
  have hkeeping : contextResult EventNames.variableName ⟨0, ["pkg"]⟩ (request.under {} .keep)
      = .ok (EventNames.variableContext.withPolicy .keep) := by
    rw [contextResult_under, contextResult_variableName]
    rfl
  rw [(contextOf_ends _ _ _).execute, hkeeping] at hcontext
  obtain rfl := Except.ok.inj hcontext
  obtain rfl := Except.ok.inj (load_variableName.symm.trans hload)
  have hlost : (EventNames.eventsOf (EventNames.variableContext.withPolicy .keep)
      ((EventNames.sourcesOf (EventNames.variableContext.withPolicy .keep)
        variableContents.listing).filter
          (EventNames.failsAt (EventNames.variableContext.withPolicy .keep)))).length = 1 := by
    decide +kernel
  have htotal := hadds.total
  rw [hlost] at htotal
  exact ⟨hproper, henabled, _, kept, hdropped, hkept, hadds.messages, htotal⟩

end Package

end ExtensionAudit
